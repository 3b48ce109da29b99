import Sigchat.Lib.Runs
import Sigchat.Model.MainWs
import Sigchat.Model.Provisioning

/-!
# The app

`lib.rs`, with the parts of `manager.rs` and `config.rs` it calls, and the loop
of `main.rs`. The app loads a manager for the account that the account
dictionary holds; if there is none that is registered, the user links a device
or registers one. The loop connects it, and starts the receive worker.

The answers of the user and of the network are what an operation meets
(`Turn`); a failing modal is unwrapped and panics. The loop meets results of
`connect` and `start_receive` (`Visit`). Status texts and the log are left out.
-/

namespace Sigchat.App

open Sigchat.Lib
open Sigchat.Pddb
open Sigchat.Signal
open Sigchat.Stores
open Sigchat.Accounts

variable {U : UrlCrate} {L : Libsignal}

-- ---------------------------------------------------------------------------
-- Panics
-- ---------------------------------------------------------------------------

inductive Panic where
  | account (p : Accounts.Panic)
  /-- A URL that does not parse. -/
  | url
  | expect (msg : String)
  deriving DecidableEq

/-- Go on with the result of an account function. -/
def onAccount {α β : Type} (p : Prog Resp (Except Accounts.Panic α))
    (f : α → Prog Resp (Except Panic β)) : Prog Resp (Except Panic β) := do
  match ← p with
  | .error e => return .error (.account e)
  | .ok a => f a

-- ---------------------------------------------------------------------------
-- The manager
-- ---------------------------------------------------------------------------

structure Config (U : UrlCrate) where
  host : U.Host
  serviceEnvironment : ServiceEnvironment
  url : U.Url

def Config.new (host : U.Host) (serviceEnvironment : ServiceEnvironment) :
    Except Panic (Config U) :=
  let hostBase := U.hostText host
  match U.parseUrl (match serviceEnvironment with
    | .live => "https://chat." ++ hostBase
    | .staging => "https://chat.staging." ++ hostBase) with
  | some url => .ok ⟨host, serviceEnvironment, url⟩
  | none => .error .url

def signalConfig : Except Panic (Config U) :=
  match U.parseHost "signal.org" with
  | some host => Config.new host .live
  | none => .error (.expect "hardcoded host is valid")

structure Manager (U : UrlCrate) where
  account : Account U
  config : Config U

def Manager.new (account : Account U) : Except Panic (Manager U) :=
  (Config.new account.host account.serviceEnvironment).map (Manager.mk account)

/-- What an operation meets, should it ask. -/
structure Turn (U : UrlCrate) (L : Libsignal) where
  wifi : Bool
  /-- The modals server takes the list items, and shows them. -/
  listItems : Bool
  radioButton : Bool
  radioIndex : Except Unit Nat
  accessible : Bool
  /-- The modals server shows a notification. -/
  notification : Bool
  nameModal : Option String
  numberModal : Option String
  /-- The message that comes over the provisioning websocket. -/
  provisioned : Except IoError ProvisionMessage
  services : LinkServices U L

/-- `show_notification(..).expect(msg)`. -/
def Turn.notify {α : Type} (t : Turn U L) (msg : String) (a : α) : Except Panic α :=
  if t.notification then .ok a else .error (.expect msg)

/-- `Manager::link`. An error of `Account::link` is not passed on. -/
def Manager.link (t : Turn U L) (m : Manager U) (name : String) :
    Prog Resp (Except Accounts.Panic (Except IoError Bool × Manager U)) :=
  match t.provisioned with
  | .error e => .done (.ok (.error e, m))
  | .ok msg => do
    match ← m.account.link t.services name msg with
    | .error p => return .error p
    | .ok (.ok result, account) => return .ok (.ok result, { m with account })
    | .ok (.error _, account) => return .ok (.ok false, { m with account })

-- ---------------------------------------------------------------------------
-- The provisioning websocket
-- ---------------------------------------------------------------------------

/-- What `Manager::link` meets until the worker owns the websocket, should it
get there. The link URI is the URL crate's. -/
structure Opening where
  connect : Except IoError Unit
  firstRead : Except IoError MainWs.Frame
  /-- `djb_identity_key.key` of the generated pair. -/
  identityKey : String
  parseWithParams : (uuid pubKey : String) → Option String
  xousNames : Bool
  modals : Bool
  spawn : Except IoError Unit
  flush : SignalWs.Flushes

def linkErr : IoError := ⟨.other, "failed to link device"⟩

namespace Opening

variable (o : Opening)

def pubKey : Option String :=
  let b := (Base64.decode Base64.urlSafe o.identityKey).getD []
  if b.length = 33 then some (Base64.encode Base64.standard b) else none

/-- The URI of the QR code, once everything that shows it is there. -/
def deviceLinkUri : Option String := do
  match o.firstRead with
  | .ok (.binary bytes) =>
    let uuid ← (Provisioning.decodeUuid bytes).toOption
    let pubKey ← o.pubKey
    let uri ← o.parseWithParams uuid pubKey
    if o.xousNames ∧ o.modals then some uri else none
  | _ => none

/-- `Manager::link` until the worker owns the websocket. A websocket that the
worker could not take is dropped. -/
def link : Computation (Except IoError String) :=
  match o.connect with
  | .error e => return .error e
  | .ok () =>
    match o.deviceLinkUri with
    | some uri => return (o.spawn.mapError fun _ => linkErr).map fun _ => uri
    | none => do
      let _ ← SignalWs.close o.flush
      return .error linkErr

end Opening

-- ---------------------------------------------------------------------------
-- Setting up an account
-- ---------------------------------------------------------------------------

structure SigChat (U : UrlCrate) where
  manager : Option (Manager U)

def other (msg : String) : IoError := ⟨.other, msg⟩

/-- `Ok(account) if account.is_registered()`. -/
def registeredOnly (r : Except IoError (Account U)) : Option (Account U) :=
  r.toOption.filter (·.isRegistered)

namespace SigChat

/-- `SigChat::new`. -/
def new : Prog Resp (Except Panic (SigChat U)) :=
  onAccount (read accountDict) fun r =>
    match registeredOnly r with
    | some account => return (Manager.new account).map fun m => ⟨some m⟩
    | none => return .ok ⟨none⟩

variable (t : Turn U L) (c : SigChat U)

def isReady : Bool := c.manager.isSome

def probeHost : Except Panic Bool :=
  if t.accessible then .ok true else t.notify "abort failed" false

/-- `account_link`. The account that is read back is not checked. -/
def accountLink (config : Config U) : Prog Resp (Except Panic (Except IoError (Account U))) :=
  onAccount (Accounts.new accountDict config.host config.serviceEnvironment) fun
    | .error _ =>
      return t.notify "notification failed" (.error (other "failed to create new Account in pddb"))
    | .ok account =>
      match Manager.new account with
      | .error p => return .error p
      | .ok manager =>
        onAccount (manager.link t (t.nameModal.getD "xous")) fun
          | (.ok true, _) => onAccount (read accountDict) fun r => return .ok r
          | (.ok false, _) => return .ok (.error (other "failed to link Signal Account"))
          | (.error _, _) => do
            let _ ← delete accountDict
            return t.notify "notification failed"
              (.error (other "error while linking Signal Account"))

/-- `account_register`. It always fails, with a manager for the new account. -/
def accountRegister (config : Config U) :
    Prog Resp (Except Panic (Except IoError (Account U) × SigChat U)) :=
  let failed : Except IoError (Account U) := .error (other "not implmented")
  if t.notification then
    match t.numberModal with
    | none => return .ok (failed, c)
    | some number =>
      onAccount (Accounts.new accountDict config.host config.serviceEnvironment) fun
        | .error _ => return .ok (failed, c)
        | .ok account =>
          onAccount (account.setNumber number) fun
            | (.error _, _) => return .ok (failed, c)
            | (.ok (), account) =>
              return (Manager.new account).map fun m => (failed, { c with manager := some m })
  else return .error (.expect "notification failed")

/-- Set up an account on a host that can be trusted. -/
def onHost (f : Config U → Prog Resp (Except Panic (Except IoError (Account U) × SigChat U))) :
    Prog Resp (Except Panic (Except IoError (Account U) × SigChat U)) :=
  match signalConfig with
  | .error p => return .error p
  | .ok config =>
    match probeHost t with
    | .error p => return .error p
    | .ok true => f config
    | .ok false => return .ok (.error (other "failed to trust host certificate"), c)

/-- `account_setup`. -/
def accountSetup : Prog Resp (Except Panic (Except IoError (Account U) × SigChat U)) :=
  if !t.listItems then return .error (.expect "failed add list item")
  else if !t.radioButton then return .error (.expect "failed radiobutton modal")
  else
    match t.radioIndex with
    | .error _ =>
      return .ok (.error (other "failed to present account setup radio buttons"), c)
    | .ok 0 => onHost t c fun config => do return (← accountLink t config).map (·, c)
    | .ok 1 => onHost t c (accountRegister t c)
    | .ok 2 => return .ok (.error (other "account setup aborted"), c)
    | .ok _ => return .ok (.error (other "invalid radio index"), c)

/-- The account in `connect`: the one that is stored, if it is registered. -/
def connectAccount : Prog Resp (Except Panic (Except IoError (Account U) × SigChat U)) :=
  onAccount (read accountDict) fun r =>
    match registeredOnly r with
    | some account => return .ok (.ok account, c)
    | none => accountSetup t c

/-- `SigChat::connect`. -/
def connect : Prog Resp (Except Panic (Except IoError Bool × SigChat U)) :=
  if t.wifi then
    if c.isReady then return .ok (.ok true, c)
    else do
      match ← connectAccount t c with
      | .error p => return .error p
      | .ok (.error e, c') => return .ok (.error e, c')
      | .ok (.ok account, c') =>
        match Manager.new account with
        | .error p => return .error p
        | .ok m =>
          let c' := { c' with manager := some m }
          return .ok (.ok c'.isReady, c')
  else return t.notify "notification failed" (.ok false, c)

end SigChat

-- ---------------------------------------------------------------------------
-- Posting
-- ---------------------------------------------------------------------------

/-- `SigChat::post`: an echo in the chat, then the message is encrypted for the
default recipient. The ciphertext goes nowhere yet; it is logged, as a failure
is. -/
def post (P : Protocol L) (text : String) (ts : UInt64) (now : Nat) (rng : P.Rng) :
    Prog MainWs.AppResp Unit :=
  .call (.postAdd "me" ts text) fun _ => .call .redraw fun _ => do
    match ← MainWs.onPddb Outgoing.currentRecipient with
    | .error _ => return ()
    | .ok recipient =>
      let _ ← MainWs.onPddb (Outgoing.buildEncryptedMessage P text ts recipient now rng)
      return ()

-- ---------------------------------------------------------------------------
-- Sequences of operations
-- ---------------------------------------------------------------------------

/-- The public operations; `new` is a restart. -/
inductive Operation (U : UrlCrate) where
  | new
  | connect
  | accountLink (config : Config U)
  | accountRegister (config : Config U)

inductive Answer (U : UrlCrate) where
  | created
  | connected (r : Except IoError Bool)
  | account (r : Except IoError (Account U))

def Operation.prog (t : Turn U L) (c : SigChat U) :
    Operation U → Prog Resp (Except Panic (Answer U × SigChat U))
  | .new => do return (← SigChat.new).map (.created, ·)
  | .connect => do return (← c.connect t).map fun r => (.connected r.1, r.2)
  | .accountLink config => do return (← SigChat.accountLink t config).map fun r => (.account r, c)
  | .accountRegister config => do
    return (← c.accountRegister t config).map fun r => (.account r.1, r.2)

/-- An operation, what it meets, and the outcomes of its requests. -/
structure Input (U : UrlCrate) (L : Libsignal) where
  op : Operation U
  turn : Turn U L
  env : Env Req Outcome

/-- The app and PDDB, and what the last operation has answered. -/
structure State (U : UrlCrate) where
  app : SigChat U
  disk : Disk
  answer : Option (Answer U)

/-- A panic ends the process. -/
def step (i : Input U L) (s : State U) : Option (State U) :=
  match (i.op.prog i.turn s.app).run serve i.env s.disk with
  | (.error _, _) => none
  | (.ok (answer, app), disk) => some ⟨app, disk, some answer⟩

/-- Before `SigChat::new`. -/
def booted (disk : Disk) : State U := ⟨⟨none⟩, disk, none⟩

-- ---------------------------------------------------------------------------
-- The main loop
-- ---------------------------------------------------------------------------

inductive SigchatOp where
  | event
  | menu
  | post
  | rawkeys
  | quit
  deriving DecidableEq

def SigchatOp.fromUsize : Nat → Option SigchatOp
  | 0 => some .event
  | 1 => some .menu
  | 2 => some .post
  | 3 => some .rawkeys
  | 4 => some .quit
  | _ => none

/-- What the calls of one visit to the server end with, should they be made. -/
structure Visit where
  connect : Except IoError Bool
  /-- `dialogue_set` does not panic. -/
  dialogueSet : Bool
  startReceive : Except IoError Bool

/-- A message of the chat server, and what handling it meets. -/
structure Received where
  id : Nat
  /-- Its first argument is the code of `Event::Focus`. -/
  focus : Bool
  /-- It is a memory message with a text. -/
  text : Bool
  visit : Visit

/-- The loop's flag, how often `connect` has been called, and how many workers
`start_receive` has started. -/
structure Main where
  firstFocus : Bool
  connects : Nat
  workers : Nat
  deriving DecidableEq

namespace Main

/-- What follows `Ok(true)`: the state, and whether the process goes on. -/
def connected (v : Visit) (s : Main) : Main × Bool :=
  if v.dialogueSet then
    match v.startReceive with
    | .ok true => ({ s with workers := s.workers + 1 }, true)
    | _ => (s, true)
  else (s, false)

/-- Before the loop: a registered account is connected at once. -/
def autoConnect (isReady : Bool) (v : Visit) : Main × Bool :=
  let s : Main := ⟨true, 0, 0⟩
  if isReady then
    let s := { s with firstFocus := false, connects := s.connects + 1 }
    match v.connect with
    | .ok true => s.connected v
    | _ => (s, true)
  else (s, true)

/-- `Event::Focus`. -/
def onFocus (v : Visit) (s : Main) : Main × Bool :=
  if s.firstFocus then
    let s := { s with connects := s.connects + 1 }
    match v.connect with
    | .ok true => { s with firstFocus := false }.connected v
    | _ => (s, true)
  else (s, true)

/-- One round of the loop. A post without a text panics. -/
def handle (m : Received) (s : Main) : Main × Bool :=
  match SigchatOp.fromUsize m.id with
  | some .event => if m.focus then s.onFocus m.visit else (s, true)
  | some .post => (s, m.text)
  | some .quit => (s, false)
  | some .menu | some .rawkeys | none => (s, true)

/-- The state the loop goes on with. -/
def next (m : Received) (s : Main) : Option Main :=
  if (s.handle m).2 then some (s.handle m).1 else none

/-- `wrapped_main` after these messages, none if it has ended. -/
def after (isReady : Bool) (v : Visit) (ms : List Received) : Option Main :=
  if (autoConnect isReady v).2 then reach next ms (autoConnect isReady v).1 else none

end Main

end Sigchat.App

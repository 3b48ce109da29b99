import Sigchat.Model.SigChat

/-!
# The process

`wrapped_main` with all it calls: `SigChat::new`, the automatic `connect`, and
the loop over the messages of the chat server, with `start_receive` and `post`.
It is a program over storage and chat requests, so the receive worker may be
served between any two of them. Of a worker the model keeps what it has been
started with; how it authenticates is `SignalWS::new_message`. The worker's own
thread is the session loop on one connection after the other.

`Main` is the same loop with the results of its calls as inputs.
-/

namespace Sigchat.Process

open Sigchat.Lib
open Sigchat.Pddb
open Sigchat.Signal
open Sigchat.Accounts
open Sigchat.App
open Sigchat.MainWs (AppResp Flow SessResp SessionVars onPddb)

variable {U : UrlCrate} {L : Libsignal}

-- ---------------------------------------------------------------------------
-- The receive worker
-- ---------------------------------------------------------------------------

/-- The arguments of `MainWsWorker::spawn`. -/
structure WorkerArgs where
  aciServiceId : String
  deviceId : UInt32
  password : String
  host : String
  deriving DecidableEq

/-- `MainWsWorker::spawn`; `thread` is how starting the thread ends. -/
def spawn (thread : Except IoError Unit) (args : WorkerArgs) : Except IoError WorkerArgs :=
  match thread with
  | .error e => .error (other ("main_ws spawn: " ++ e.msg))
  | .ok () => .ok args

/-- `Manager::start_receive`. -/
def managerStartReceive (thread : Except IoError Unit) (m : Manager U) :
    Except IoError WorkerArgs :=
  match m.account.aciServiceId with
  | none => .error (other "account has no ACI service_id")
  | some aci =>
    match m.account.password with
    | none => .error (other "account has no password")
    | some password =>
      match spawn thread ⟨aci, m.account.deviceId, password, m.account.chatHost⟩ with
      | .error e => .error (other ("start_receive: " ++ e.msg))
      | .ok args => .ok args

/-- `SigChat::start_receive`: the worker of `Ok(true)`; there is none for
`Ok(false)`. -/
def startReceive (thread : Except IoError Unit) (c : SigChat U) :
    Except IoError (Option WorkerArgs) :=
  match c.manager with
  | some m =>
    match managerStartReceive thread m with
    | .error e => .error (other ("start_receive: " ++ e.msg))
    | .ok args => .ok (some args)
  | none => .ok none

/-- The request that `SignalWS::new_message` upgrades: URL and `Authorization`
header. -/
structure Upgrade where
  url : String
  authorization : String
  deriving DecidableEq

def newMessage (args : WorkerArgs) : Upgrade :=
  let login := args.aciServiceId ++ "." ++ decimal args.deviceId.toNat
  let auth := Base64.encodePadded Base64.standard (utf8 (login ++ ":" ++ args.password))
  ⟨"wss://" ++ args.host ++ "/v1/websocket/", "Basic " ++ auth⟩

-- ---------------------------------------------------------------------------
-- The loop
-- ---------------------------------------------------------------------------

/-- The variables of the loop, and the workers that have been started. -/
structure Loop (U : UrlCrate) where
  sigchat : SigChat U
  firstFocus : Bool
  workers : List WorkerArgs

/-- What connecting meets, should it be tried. -/
structure Visit (U : UrlCrate) (L : Libsignal) where
  turn : Turn U L
  /-- `dialogue_set` does not panic. -/
  dialogueSet : Bool
  thread : Except IoError Unit

/-- What follows `Ok(true)`. -/
def connected (v : Visit U L) (l : Loop U) : Option (Loop U) :=
  if v.dialogueSet then
    match startReceive v.thread l.sigchat with
    | .ok (some args) => some { l with workers := l.workers ++ [args] }
    | _ => some l
  else none

/-- `connect`, and what is made of its result; `firstFocus` is the flag after it
has succeeded. -/
def tryConnect (v : Visit U L) (l : Loop U) (firstFocus : Bool) :
    Prog AppResp (Option (Loop U)) := do
  match ← onPddb (l.sigchat.connect v.turn) with
  | .error _ => return none
  | .ok (.ok true, sigchat) => return connected v { l with sigchat, firstFocus }
  | .ok (_, sigchat) => return some { l with sigchat }

/-- Up to the loop. -/
def boot (v : Visit U L) : Prog AppResp (Option (Loop U)) := do
  match ← onPddb SigChat.new with
  | .error _ => return none
  | .ok sigchat =>
    if sigchat.isReady then tryConnect v ⟨sigchat, false, []⟩ false
    else return some ⟨sigchat, true, []⟩

/-- A message of the chat server, and what handling it meets. -/
structure Message (U : UrlCrate) (P : Protocol L) where
  id : Nat
  /-- Its first argument is the code of `Event::Focus`. -/
  focus : Bool
  /-- The text of a memory message, should it be one. -/
  text : Option String
  visit : Visit U L
  ts : UInt64
  now : Nat
  rng : P.Rng

variable {P : Protocol L}

/-- `Event::Focus`. -/
def onFocus (v : Visit U L) (l : Loop U) : Prog AppResp (Option (Loop U)) :=
  (if l.firstFocus then tryConnect v l false else .done (some l)) >>= fun
    | some l => .call .redraw fun _ => .done (some l)
    | none => .done none

/-- One round of the loop, none if the process ends in it. A text is posted once
its message has been dropped. -/
def handle (m : Message U P) (l : Loop U) : Prog AppResp (Option (Loop U)) :=
  match SigchatOp.fromUsize m.id with
  | some .event => if m.focus then onFocus m.visit l else return some l
  | some .post =>
    match m.text with
    | none => return none
    | some text =>
      if text = "" then return some l
      else do
        App.post P text m.ts m.now m.rng
        return some l
  | some .quit => return none
  | some .menu | some .rawkeys | none => return some l

def rounds : List (Message U P) → Option (Loop U) → Prog AppResp (Option (Loop U))
  | [], l => return l
  | _, none => return none
  | m :: ms, some l => handle m l >>= rounds ms

/-- `wrapped_main` up to the message after these. -/
def wrappedMain (v : Visit U L) (ms : List (Message U P)) : Prog AppResp (Option (Loop U)) :=
  boot v >>= rounds ms

-- ---------------------------------------------------------------------------
-- The worker's thread
-- ---------------------------------------------------------------------------

/-- The rounds on a connection, up to where it ends. -/
def receiving (P : Protocol L) (localAddr : ProtocolAddress) :
    List P.Rng → SessionVars → Prog SessResp Flow
  | [], v => return .next v
  | rng :: rngs, v => do
    match ← MainWs.round P localAddr rng v with
    | .next v' => receiving P localAddr rngs v'
    | ended => return ended

/-- A connection that has been made: the clocks before its loop, and what its
rounds draw. -/
structure Connected (P : Protocol L) where
  pingClock : Nat
  keepaliveClock : Nat
  rngs : List P.Rng

/-- `worker_loop`, on the connections it has made. A panic ends the thread. -/
def workerLoop (P : Protocol L) (localAddr : ProtocolAddress) :
    List (Connected P) → Prog SessResp Unit
  | [] => return ()
  | c :: cs => do
    match ← receiving P localAddr c.rngs (MainWs.sessionStart c.pingClock c.keepaliveClock) with
    | .exit _ => workerLoop P localAddr cs
    | .next _ | .panic _ => return ()

end Sigchat.Process

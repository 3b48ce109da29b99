import Mathlib.Data.List.DropRight
import Sigchat.Model.Outgoing
import Sigchat.Model.Protos
import Sigchat.Model.SignalWs

/-!
# The receive worker

`main_ws.rs`: envelopes are decrypted by libsignal over the PDDB stores, their
content is delivered to the chat, and every server request is acknowledged.

Delivery is a program over storage and chat requests (`AppReq`), the session
loop one over these and the websocket (`SessReq`). A Rust panic ends the worker
thread; it is the error of an `Except Panic`.
-/

namespace Sigchat.MainWs

open Sigchat.Lib
open Sigchat.Pddb
open Sigchat.Signal
open Sigchat.Stores
open Sigchat.Protos

-- ---------------------------------------------------------------------------
-- Storage and chat
-- ---------------------------------------------------------------------------

inductive AppReq where
  | pddb (r : Req)
  | postAdd (author : String) (ts : UInt64) (body : String)
  | redraw

abbrev AppResp : AppReq → Type
  | .pddb r => Resp r
  | _ => Unit

structure Post where
  author : String
  ts : UInt64
  body : String
  deriving DecidableEq

structure App where
  disk : Disk
  posts : List Post
  redraws : Nat

def appServe : Server AppResp App Outcome
  | o, .pddb r, a => ((serve o r a.disk).1, { a with disk := (serve o r a.disk).2 })
  | _, .postAdd author ts body, a => ((), { a with posts := a.posts ++ [⟨author, ts, body⟩] })
  | _, .redraw, a => ((), { a with redraws := a.redraws + 1 })

/-- A storage program of the application. -/
def onPddb {α : Type} (p : Prog Resp α) : Prog AppResp α :=
  p.interp fun r => Prog.request (.pddb r)

/-- The requests as they are issued one by one. -/
def appInPieces : (r : AppReq) → Prog AppResp (AppResp r)
  | .pddb r => onPddb (inPieces r)
  | r => .request r

/-- What the requests of the application satisfy their pieces do, if the reads
of a record do. -/
theorem all_appInPieces {P : AppReq → Prop} (hPieces : ∀ d k pos, P (.pddb (.readMore d k pos)))
    {r : AppReq} (hr : P r) : (appInPieces r).All P := by
  cases r with
  | pddb r =>
    exact Prog.All.interp_of (all_inPieces (P := fun r => P (.pddb r)) hPieces hr)
      fun _ h => ⟨h, fun _ => trivial⟩
  | _ => exact ⟨hr, fun _ => trivial⟩

theorem onPddb_inPieces {α : Type} (p : Prog Resp α) :
    (onPddb p).interp appInPieces = onPddb (p.interp inPieces) := by
  simp only [onPddb, Prog.interp_interp, Prog.interp_request, appInPieces]

/-- A libsignal call over the PDDB stores. -/
def onStores {L : Libsignal} {α : Type} (p : Prog (StoreOp.Resp (L := L)) α) : Prog AppResp α :=
  onPddb (p.interp handle)

-- ---------------------------------------------------------------------------
-- The local address
-- ---------------------------------------------------------------------------

/-- The address `worker_loop` receives under; without one it returns at once. -/
def workerLocalAddr (aciServiceId : String) (deviceId : UInt32) : Option ProtocolAddress :=
  if deviceId = 0 ∨ 127 < deviceId then none
  else (DeviceId.new deviceId.toUInt8.toNat).map fun localDevice => ⟨aciServiceId, localDevice⟩

-- ---------------------------------------------------------------------------
-- Content delivery
-- ---------------------------------------------------------------------------

/-- The panics of the receive path. -/
inductive Panic where
  /-- `&s[..index]` inside a character. -/
  | notCharBoundary (s : String) (index : Nat)
  deriving DecidableEq

/-- Content is followed by `0x80` and zeros. -/
def stripSignalPadding (plaintext : Bytes) : Bytes :=
  let plaintext := plaintext.rdropWhile (· = 0x00)
  if plaintext.getLast? = some 0x80 then plaintext.dropLast else plaintext

def deliverDataMessage (dm : DataMessageProto) (author : String) (serverTs : UInt64) :
    Prog AppResp Bool :=
  let body := dm.body.getD ""
  if body = "" then .done false
  else .call (.postAdd author (dm.timestamp.getD serverTs) body) fun _ => .done true

/-- The first eight bytes of a destination id. -/
def destPrefix (dest : String) : Option String := sliceTo dest (min dest.utf8ByteSize 8)

/-- The arrow marks messages sent by this device. -/
def deliverSyncMessage (sync : SyncMessageProto) (serverTs : UInt64) :
    Prog AppResp (Except Panic Bool) :=
  match sync.sent with
  | none => .done (.ok false)
  | some sent =>
  let dest := sent.destinationServiceId.getD ""
  match sent.message with
  | none => .done (.ok false)
  | some dm =>
  let body := dm.body.getD ""
  if body = "" then .done (.ok false)
  else
    let ts := dm.timestamp.getD (sent.timestamp.getD serverTs)
    match destPrefix dest with
    | none => .done (.error (.notCharBoundary dest (min dest.utf8ByteSize 8)))
    | some pre => .call (.postAdd ("\u2192" ++ pre) ts body) fun _ => .done (.ok true)

/-- The message of a content, if it has one; whether a post was added. -/
def deliverMessage (content : ContentProto) (remoteAddr : ProtocolAddress) (serverTs : UInt64) :
    Prog AppResp (Except Panic Bool) :=
  match content.dataMessage, content.syncMessage with
  | some dm, _ => do
    if ← deliverDataMessage dm remoteAddr.name serverTs then
      -- the sender becomes the default recipient; a failure is logged
      let _ ← onPddb (Outgoing.setCurrentRecipient remoteAddr)
      return .ok true
    else return .ok false
  | none, some sync => deliverSyncMessage sync serverTs
  | none, none => .done (.ok false)

def deliverContent (plaintext : Bytes) (remoteAddr : ProtocolAddress) (serverTs : UInt64) :
    Prog AppResp (Except Panic Unit) :=
  match ContentProto.decode (stripSignalPadding plaintext) with
  | none => .done (.ok ())
  | some content => do
    match ← deliverMessage content remoteAddr serverTs with
    | .error p => .done (.error p)
    | .ok true => .call .redraw fun _ => .done (.ok ())
    | .ok false => .done (.ok ())

-- ---------------------------------------------------------------------------
-- Envelope decryption
-- ---------------------------------------------------------------------------

section Envelopes

variable {L : Libsignal} (P : Protocol L)

def envelopeCiphertext : Int := 1
def envelopePrekeyBundle : Int := 3
def envelopeUnidentifiedSender : Int := 6

def sealedSenderTrustRoots : List String :=
  ["BXu6QIKVz5MA8gstzfOgRQGqyLqOwNKHL6INkv3IHWMF", "BUkY0I+9+oPgDCn4+Ac6Iu813yvqkDr/ga8DzLxFxuk6"]

/-- The roots that decode; at 44 characters they have no padding. -/
def trustRoots (L : Libsignal) : List L.PublicKey :=
  (sealedSenderTrustRoots.filterMap (Base64.decode Base64.standard)).filterMap
    fun raw => (L.publicKeyDeserialize raw).toOption

def decryptPrekeyMessage (contents : Bytes) (remoteAddr localAddr : ProtocolAddress)
    (rng : P.Rng) : Prog AppResp (Option Bytes) := do
  match P.parsePreKeySignalMessage contents with
  | .error _ => return none
  | .ok msg => return (← onStores (P.messageDecryptPrekey msg remoteAddr localAddr rng)).toOption

def decryptSignalMessage (contents : Bytes) (remoteAddr : ProtocolAddress) (rng : P.Rng) :
    Prog AppResp (Option Bytes) := do
  match P.parseSignalMessage contents with
  | .error _ => return none
  | .ok msg => return (← onStores (P.messageDecryptSignal msg remoteAddr rng)).toOption

/-- The sender of a sealed message, once its certificate has been accepted. -/
def sealedSender (usmc : P.Usmc) (ts : UInt64) : Option ProtocolAddress :=
  match P.usmcSender usmc with
  | .error _ => none
  | .ok senderCert =>
  match P.validateWithTrustRoots senderCert (trustRoots L) ts.toNat with
  | .error _ => none
  | .ok false => none
  | .ok true =>
  match P.senderUuid senderCert with
  | .error _ => none
  | .ok senderUuid =>
  match P.senderDeviceId senderCert with
  | .error _ => none
  | .ok senderDevId => some ⟨senderUuid, senderDevId⟩

/-- Sealed sender: the sender is inside the ciphertext, which is decrypted to
reveal it before the message itself is. -/
def decryptSealed (content : Bytes) (localAddr : ProtocolAddress) (ts : UInt64) (rng : P.Rng) :
    Prog AppResp (Option (Bytes × ProtocolAddress)) := do
  match ← onStores (P.sealedSenderDecryptToUsmc content) with
  | .error _ => return none
  | .ok usmc =>
  match sealedSender P usmc ts with
  | none => return none
  | some remoteAddr =>
  let contents := (P.usmcContents usmc).toOption.getD []
  match P.usmcMsgType usmc with
  | .ok .preKey =>
    return (← decryptPrekeyMessage P contents remoteAddr localAddr rng).map (·, remoteAddr)
  | .ok .whisper => return (← decryptSignalMessage P contents remoteAddr rng).map (·, remoteAddr)
  | _ => return none

/-- The other envelopes name their sender. -/
def decryptUnsealed (envType : Int) (sourceId : String) (sourceDev : UInt32) (content : Bytes)
    (localAddr : ProtocolAddress) (rng : P.Rng) :
    Prog AppResp (Option (Bytes × ProtocolAddress)) := do
  match DeviceId.new sourceDev.toNat with
  | none => return none
  | some senderDevice =>
  let remoteAddr : ProtocolAddress := ⟨sourceId, senderDevice⟩
  if envType = envelopePrekeyBundle then
    return (← decryptPrekeyMessage P content remoteAddr localAddr rng).map (·, remoteAddr)
  else if envType = envelopeCiphertext then
    return (← decryptSignalMessage P content remoteAddr rng).map (·, remoteAddr)
  else return none

/-- A decrypted envelope: plaintext, authenticated sender, server timestamp. -/
structure Decrypted where
  plaintext : Bytes
  remoteAddr : ProtocolAddress
  serverTs : UInt64
  deriving DecidableEq

/-- `dispatch_envelope` up to the plaintext; `none` where it drops the
envelope. -/
def decryptEnvelope (body : Bytes) (localAddr : ProtocolAddress) (rng : P.Rng) :
    Prog AppResp (Option Decrypted) := do
  match EnvelopeProto.decode body with
  | none => return none
  | some envelope =>
  let sourceId := envelope.sourceServiceId.getD ""
  let sourceDev := envelope.sourceDevice.getD 1
  let envType := envelope.type.getD 0
  let ts := envelope.serverTimestamp.getD 0
  match envelope.content with
  | none => return none
  | some content =>
  let plain ← if envType = envelopeUnidentifiedSender then decryptSealed P content localAddr ts rng
    else decryptUnsealed P envType sourceId sourceDev content localAddr rng
  return plain.map fun (plaintext, remoteAddr) => ⟨plaintext, remoteAddr, ts⟩

def dispatchEnvelope (body : Bytes) (localAddr : ProtocolAddress) (rng : P.Rng) :
    Prog AppResp (Except Panic Unit) := do
  match ← decryptEnvelope P body localAddr rng with
  | none => return .ok ()
  | some d => deliverContent d.plaintext d.remoteAddr d.serverTs

/-- What holds of finished programs and of libsignal's decryption calls, and is
kept where their results are put together. -/
structure KeptByDecryption (M : (α : Type) → Prog AppResp α → Prop) : Prop where
  done : ∀ {α : Type} (a : α), M α (.done a)
  map : ∀ {α β : Type} {p : Prog AppResp α} (g : α → β), M α p → M β (p >>= fun a => .done (g a))
  decryptPrekey : ∀ msg remoteAddr localAddr rng,
    M _ (onStores (P.messageDecryptPrekey msg remoteAddr localAddr rng))
  decryptSignal : ∀ msg remoteAddr rng, M _ (onStores (P.messageDecryptSignal msg remoteAddr rng))
  sealedSenderDecrypt : ∀ {β : Type} content {f : SignalResult P.Usmc → Prog AppResp β},
    (∀ x, M β (f x)) → M β (onStores (P.sealedSenderDecryptToUsmc content) >>= f)

namespace KeptByDecryption

variable {P} {M : (α : Type) → Prog AppResp α → Prop} (h : KeptByDecryption P M)
include h

theorem prekeyMessage (contents : Bytes) (remoteAddr localAddr : ProtocolAddress) (rng : P.Rng) :
    M _ (decryptPrekeyMessage P contents remoteAddr localAddr rng) := by
  unfold decryptPrekeyMessage
  split
  · exact h.done _
  · exact h.map _ (h.decryptPrekey _ _ _ rng)

theorem signalMessage (contents : Bytes) (remoteAddr : ProtocolAddress) (rng : P.Rng) :
    M _ (decryptSignalMessage P contents remoteAddr rng) := by
  unfold decryptSignalMessage
  split
  · exact h.done _
  · exact h.map _ (h.decryptSignal _ _ rng)

/-- Decrypting a sealed message: it is unsealed, and then decrypted for the
sender in it. -/
theorem sealedMessage (content : Bytes) (localAddr : ProtocolAddress) (ts : UInt64)
    (rng : P.Rng) : M _ (decryptSealed P content localAddr ts rng) := by
  refine h.sealedSenderDecrypt content fun x => ?_
  cases x with
  | error e => exact h.done _
  | ok usmc =>
    dsimp only
    split
    · exact h.done _
    · split
      · exact h.map _ (h.prekeyMessage _ _ _ rng)
      · exact h.map _ (h.signalMessage _ _ rng)
      · exact h.done _

/-- Decrypting a message whose envelope names the sender. -/
theorem unsealedMessage (envType : Int) (sourceId : String) (sourceDev : UInt32)
    (content : Bytes) (localAddr : ProtocolAddress) (rng : P.Rng) :
    M _ (decryptUnsealed P envType sourceId sourceDev content localAddr rng) := by
  unfold decryptUnsealed
  split
  · exact h.done _
  · dsimp only
    split
    · exact h.map _ (h.prekeyMessage _ _ _ rng)
    · split
      · exact h.map _ (h.signalMessage _ _ rng)
      · exact h.done _

/-- **Decryption rule.** Then it holds of the decryption of every envelope. -/
theorem envelope (body : Bytes) (localAddr : ProtocolAddress) (rng : P.Rng) :
    M _ (decryptEnvelope P body localAddr rng) := by
  unfold decryptEnvelope
  split
  · exact h.done _
  · dsimp only
    split
    · exact h.done _
    · split
      · exact h.map _ (h.sealedMessage _ _ _ rng)
      · exact h.map _ (h.unsealedMessage _ _ _ _ _ rng)

end KeptByDecryption

end Envelopes

-- ---------------------------------------------------------------------------
-- The session
-- ---------------------------------------------------------------------------

/-- `tungstenite::Message`. -/
inductive Frame where
  | text (t : String)
  | binary (b : Bytes)
  | ping (p : Bytes)
  | pong (p : Bytes)
  | close
  | frame
  deriving DecidableEq

/-- `tungstenite::Error`: an I/O error or another one. -/
inductive WsError where
  | io (kind : ErrorKind)
  | other
  deriving DecidableEq

def isTimeout : WsError → Bool
  | .io kind => kind = .wouldBlock ∨ kind = .timedOut
  | .other => false

inductive SessReq where
  | elapsedMs
  | send (m : Frame)
  | read
  | close
  | app (r : AppReq)

abbrev SessResp : SessReq → Type
  | .elapsedMs => Nat
  | .send _ => Except WsError Unit
  | .read => Except WsError Frame
  | .close => Unit
  | .app r => AppResp r

/-- What went over the websocket, in order. -/
inductive WireEvent where
  | sent (m : Frame) (result : Except WsError Unit)
  | received (result : Except WsError Frame)
  deriving DecidableEq

structure Sess where
  app : App
  wire : List WireEvent
  closed : Bool

/-- What the environment fixes about a request, whichever it is. -/
structure SessOutcome where
  pddb : Outcome
  clock : Nat
  send : Except WsError Unit
  read : Except WsError Frame

def sessServe : Server SessResp Sess SessOutcome
  | o, .elapsedMs, s => (o.clock, s)
  | o, .send m, s => (o.send, { s with wire := s.wire ++ [.sent m o.send] })
  | o, .read, s => (o.read, { s with wire := s.wire ++ [.received o.read] })
  | _, .close, s => ((), { s with closed := true })
  | o, .app r, s => ((appServe o.pddb r s.app).1, { s with app := (appServe o.pddb r s.app).2 })

def onApp {α : Type} (p : Prog AppResp α) : Prog SessResp α :=
  p.interp fun r => Prog.request (.app r)

def keepaliveMs : Nat := 25000
def appKeepaliveMs : Nat := 55000
def appKeepalivePath : String := "/v1/keepalive"

def wsTypeRequest : Int := 1
def wsTypeResponse : Int := 2

/-- The loop's variables. -/
structure SessionVars where
  lastPingMs : Nat
  nextRequestId : UInt64
  lastAppKeepaliveMs : Nat
  deriving DecidableEq

/-- Why the loop is left. -/
inductive Exit where
  | pingFailed
  | appKeepaliveFailed
  | closed
  | readError
  deriving DecidableEq

/-- (1a) The ping of the websocket protocol. -/
def sendPing (v : SessionVars) : Prog SessResp (Except Exit SessionVars) :=
  .call .elapsedMs fun now =>
    if keepaliveMs ≤ now - v.lastPingMs then
      .call (.send (.ping [])) fun
        | .ok () => .call .elapsedMs fun now => .done (.ok { v with lastPingMs := now })
        | .error _ => .done (.error .pingFailed)
    else .done (.ok v)

def appKeepalive (id : UInt64) : WsMessageProto where
  type := some wsTypeRequest
  request := some
    { verb := some "GET"
      path := some appKeepalivePath
      body := none
      id := some id
      headers := [] }
  response := none

/-- (1b) The keepalive request of the application layer. -/
def sendAppKeepalive (v : SessionVars) : Prog SessResp (Except Exit SessionVars) :=
  .call .elapsedMs fun now =>
    if appKeepaliveMs ≤ now - v.lastAppKeepaliveMs then
      .call (.send (.binary (appKeepalive v.nextRequestId).encode)) fun
        | .ok () => .call .elapsedMs fun now =>
          .done (.ok { v with lastAppKeepaliveMs := now, nextRequestId := v.nextRequestId + 1 })
        | .error _ => .done (.error .appKeepaliveFailed)
    else .done (.ok v)

def ack (id : UInt64) (status : UInt32) : WsMessageProto where
  type := some wsTypeResponse
  request := none
  response := some
    { id := some id, status := some status, message := some "OK", body := none, headers := [] }

/-- A failed acknowledgement is logged. -/
def sendAck (id : UInt64) (status : UInt32) : Prog SessResp Unit :=
  .call (.send (.binary (ack id status).encode)) fun _ => .done ()

/-- The envelope a request carries. -/
def requestEnvelope (req : WsRequestProto) : Option Bytes :=
  if req.verb.getD "" = "PUT" ∧ req.path.getD "" = "/api/v1/message" then req.body else none

/-- What reading the next frame led to. -/
inductive Poll where
  | exit (e : Exit)
  | next (v : SessionVars)
  | request (v : SessionVars) (req : WsRequestProto)

/-- (3) The request a binary frame holds, if it holds one. -/
def frameRequest (raw : Bytes) : Option WsRequestProto :=
  match WsMessageProto.decode raw with
  | none => none
  | some wsMsg => if wsMsg.type = some wsTypeRequest then wsMsg.request else none

/-- One round up to the request it has to handle: (1) keepalives, (2) read. -/
def poll (v : SessionVars) : Prog SessResp Poll := do
  match ← sendPing v with
  | .error e => return .exit e
  | .ok v =>
  match ← sendAppKeepalive v with
  | .error e => return .exit e
  | .ok v =>
  .call .read fun
    | .ok (.binary raw) => .done (match frameRequest raw with
      | some req => .request v req
      | none => .next v)
    | .ok .close => .done (.exit .closed)
    | .ok _ => .done (.next v)
    | .error e => .done (if isTimeout e then .next v else .exit .readError)

/-- How a round ends. -/
inductive Flow where
  | next (v : SessionVars)
  | exit (e : Exit)
  | panic (p : Panic)
  deriving DecidableEq

section Session

variable {L : Libsignal} (P : Protocol L)

/-- Every request is acknowledged with status 200, whatever came of it. -/
def handleRequest (req : WsRequestProto) (localAddr : ProtocolAddress) (rng : P.Rng) :
    Prog SessResp (Except Panic Unit) := do
  let id := req.id.getD 0
  match requestEnvelope req with
  | some body =>
    match ← onApp (dispatchEnvelope P body localAddr rng) with
    | .error p => return .error p
    | .ok () => sendAck id 200
  | none => sendAck id 200
  return .ok ()

def round (localAddr : ProtocolAddress) (rng : P.Rng) (v : SessionVars) : Prog SessResp Flow := do
  match ← poll v with
  | .exit e => .call .close fun _ => .done (.exit e)
  | .next v => return .next v
  | .request v req =>
    match ← handleRequest P req localAddr rng with
    | .error p => return .panic p
    | .ok () => return .next v

/-- The environment of one round. -/
structure RoundEnv where
  rng : P.Rng
  env : Env SessReq SessOutcome

/-- A finite part of a session: one environment a round. The result is the
state it is in when they are used up, or when it has ended before. -/
def sessionLoop (localAddr : ProtocolAddress) : List (RoundEnv P) → SessionVars → Sess → Flow × Sess
  | [], v, s => (.next v, s)
  | e :: es, v, s =>
    match (round P localAddr e.rng v).run sessServe e.env s with
    | (.next v', s') => sessionLoop localAddr es v' s'
    | ended => ended

/-- The loop starts with the application keepalive overdue. -/
def sessionStart (pingClock keepaliveClock : Nat) : SessionVars :=
  ⟨pingClock, 1, keepaliveClock - appKeepaliveMs⟩

def runSession (localAddr : ProtocolAddress) (pingClock keepaliveClock : Nat)
    (rounds : List (RoundEnv P)) (s : Sess) : Flow × Sess :=
  sessionLoop P localAddr rounds (sessionStart pingClock keepaliveClock) s

end Session

-- ---------------------------------------------------------------------------
-- Connections
-- ---------------------------------------------------------------------------

section Reconnect

open SignalWs

variable {L : Libsignal} {P : Protocol L}

/-- What a connection meets: whether `Ticktimer::new` succeeds, the clock before
the loop, the rounds, and what `flush` returns once it is closed. -/
structure Connection (P : Protocol L) where
  ticktimer : Bool
  pingClock : Nat
  keepaliveClock : Nat
  rounds : Nat → RoundEnv P
  flush : Flushes

/-- The session loop, for as long as it goes on: `i` rounds are over. -/
def roundStep (localAddr : ProtocolAddress) (rounds : Nat → RoundEnv P) :
    Nat × SessionVars × Sess → (Except Panic Exit × Sess) ⊕ (Nat × SessionVars × Sess)
  | (i, v, s) =>
    match (round P localAddr (rounds i).rng v).run sessServe (rounds i).env s with
    | (.next v', s') => .inr (i + 1, v', s')
    | (.exit e, s') => .inl (.ok e, s')
    | (.panic p, s') => .inl (.error p, s')

/-- The loop of a connection, which may go on for ever. -/
def Connection.loop (localAddr : ProtocolAddress) (c : Connection P) (app : App) :
    Computation (Except Panic Exit × Sess) :=
  .corec (roundStep localAddr c.rounds)
    (0, sessionStart c.pingClock c.keepaliveClock, ⟨app, [], false⟩)

/-- `run_session`, up to its return. -/
def Connection.runSession (localAddr : ProtocolAddress) (c : Connection P) (app : App) :
    Computation (Except Panic App) :=
  if c.ticktimer then do
    match ← c.loop localAddr app with
    | (.error p, _) => return .error p
    | (.ok _, s) => do
      let _ ← close c.flush
      return .ok s.app
  else do
    let _ ← close c.flush
    return .ok app

def reconnectBackoffInitialMs : Nat := 2000
def reconnectBackoffMaxMs : Nat := 64000

/-- An attempt to connect, and whether there is a ticktimer to wait with. -/
structure Attempt (P : Protocol L) where
  connection : Option (Connection P)
  ticktimer : Bool

/-- The reconnect loop between two attempts, with the waits so far. -/
structure Reconnect where
  app : App
  backoffMs : Nat
  sleptMs : List Nat

namespace Reconnect

def start (app : App) : Reconnect := ⟨app, reconnectBackoffInitialMs, []⟩

/-- A connection resets the backoff. -/
def established (r : Reconnect) (app : App) : Reconnect :=
  { r with app, backoffMs := reconnectBackoffInitialMs }

/-- The wait after an attempt. -/
def wait (ticktimer : Bool) (r : Reconnect) : Reconnect :=
  { r with
    backoffMs := min (r.backoffMs * 2) reconnectBackoffMaxMs
    sleptMs := if ticktimer then r.sleptMs ++ [r.backoffMs] else r.sleptMs }

/-- One iteration. -/
def attempt (localAddr : ProtocolAddress) (a : Attempt P) (r : Reconnect) :
    Computation (Except Panic Reconnect) :=
  match a.connection with
  | none => return .ok (r.wait a.ticktimer)
  | some c => do
    return (← c.runSession localAddr r.app).map fun app => (r.established app).wait a.ticktimer

/-- A finite part of the loop. A panic ends the thread. -/
def attempts (localAddr : ProtocolAddress) :
    List (Attempt P) → Reconnect → Computation (Except Panic Reconnect)
  | [], r => return .ok r
  | a :: as, r => do
    match ← r.attempt localAddr a with
    | .error p => return .error p
    | .ok r' => attempts localAddr as r'

end Reconnect

/-- `worker_loop`, none if it returns before its loop. -/
def workerLoop (aciServiceId : String) (deviceId : UInt32) (as : List (Attempt P)) (app : App) :
    Computation (Option (Except Panic Reconnect)) :=
  match workerLocalAddr aciServiceId deviceId with
  | none => return none
  | some localAddr => some <$> Reconnect.attempts localAddr as (.start app)

end Reconnect

end Sigchat.MainWs

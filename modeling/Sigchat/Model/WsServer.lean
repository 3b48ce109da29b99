import Sigchat.Model.MainWs

/-!
# The provisioning worker

A thread owns the websocket on which the provisioning envelope arrives and
serves one client over IPC. Each iteration of its loop serves one message,
checks the deadline, sends a keepalive, reads a frame and answers the parked
wait, in this order; the first result stays pending until it is asked for.

The pages of memory messages and their serialisation are a parameter.
-/

namespace Sigchat.WsServer

open Sigchat.Lib
open Sigchat.Pddb
open Sigchat.MainWs (Frame WsError isTimeout)

/-- `WS_PROVISION_MAX`. -/
def wsProvisionMax : Nat := 64 * 1024

/-- `KEEPALIVE_MS`. -/
def keepaliveMs : Nat := 25000

inductive WsServerOp where
  | waitAndTakeBinary
  | cancel
  deriving DecidableEq

def WsServerOp.fromUsize : Nat → Option WsServerOp
  | 0 => some .waitAndTakeBinary
  | 1 => some .cancel
  | _ => none

-- ---------------------------------------------------------------------------
-- Results and the pages they cross in
-- ---------------------------------------------------------------------------

def statusBinary : UInt8 := 0
def statusClosed : UInt8 := 1
def statusTimedOut : UInt8 := 2
def statusCancelled : UInt8 := 3
def statusError : UInt8 := 4

/-- The payload of a wait. -/
structure WsResultBuf where
  status : UInt8
  len : UInt32
  bytes : Bytes
  length_bytes : bytes.length = wsProvisionMax

def WsResultBuf.empty : WsResultBuf :=
  ⟨255, 0, List.replicate wsProvisionMax 0, List.length_replicate⟩

/-- What the caller gets. -/
inductive WsResult where
  | binary (b : Bytes)
  | closed
  | timedOut
  | cancelled
  | error (e : IoError)
  deriving DecidableEq

/-- A result of the worker. A binary one fits the payload. -/
inductive PendingResult where
  | binary (b : Bytes) (hLen : b.length ≤ wsProvisionMax)
  | closed
  | timedOut
  | cancelled
  | error

/-- The payload with a result written into it. -/
def WsResultBuf.fill (payload : WsResultBuf) : PendingResult → WsResultBuf
  | .binary b hLen =>
    { status := statusBinary
      len := UInt32.ofNat b.length
      bytes := b ++ payload.bytes.drop b.length
      length_bytes := by
        rw [List.length_append, List.length_drop, payload.length_bytes]
        exact Nat.add_sub_cancel' hLen }
  | .closed => { payload with status := statusClosed }
  | .timedOut => { payload with status := statusTimedOut }
  | .cancelled => { payload with status := statusCancelled }
  | .error => { payload with status := statusError }

/-- `xous_ipc::Buffer` on the pages of memory messages. An error is its debug
text. -/
structure IpcBuffer where
  Page : Type
  intoBuf : WsResultBuf → Except String Page
  toOriginal : Page → Except String WsResultBuf
  replace : Page → WsResultBuf → Except String Page

/-- Payloads survive the page they are put on. -/
structure IpcBuffer.Lawful (B : IpcBuffer) : Prop where
  intoBuf : ∀ r, ∃ p, B.intoBuf r = .ok p ∧ B.toOriginal p = .ok r
  replace : ∀ p r, ∃ p', B.replace p r = .ok p' ∧ B.toOriginal p' = .ok r

/-- A page that holds a payload can be given another. -/
def IpcBuffer.Rewritable (B : IpcBuffer) : Prop :=
  ∀ p old new, B.toOriginal p = .ok old → ∃ p', B.replace p new = .ok p' ∧ B.toOriginal p' = .ok new

theorem IpcBuffer.Lawful.rewritable {B : IpcBuffer} (h : B.Lawful) : B.Rewritable :=
  fun p _ new _ => h.replace p new

/-- Pages that are the payload. -/
def IpcBuffer.plain : IpcBuffer where
  Page := WsResultBuf
  intoBuf := .ok
  toOriginal := .ok
  replace _ := .ok

theorem IpcBuffer.plain_lawful : IpcBuffer.plain.Lawful :=
  ⟨fun r => ⟨r, rfl, rfl⟩, fun _ r => ⟨r, rfl, rfl⟩⟩

variable {B : IpcBuffer}

/-- A received message; `page` if it is a memory message. -/
structure Envelope (B : IpcBuffer) where
  sender : Nat
  opcode : Nat
  page : Option B.Page

def Envelope.op (msg : Envelope B) : Option WsServerOp := WsServerOp.fromUsize msg.opcode

/-- What goes back to senders. -/
inductive Reply (B : IpcBuffer) where
  | page (msg : Envelope B) (p : B.Page)
  | scalar (sender : Nat)

/-- The page of a message that is dropped goes back as it is. -/
def dropped (msg : Envelope B) : List (Reply B) := (msg.page.map (Reply.page msg)).toList

def filledPage (page : B.Page) (result : PendingResult) : B.Page :=
  match B.toOriginal page with
  | .error _ => page
  | .ok payload =>
    match B.replace page (payload.fill result) with
    | .error _ => page
    | .ok page' => page'

/-- `fill_buf`: a message without a page is dropped. -/
def fillBuf (msg : Envelope B) (result : PendingResult) : List (Reply B) :=
  (msg.page.map fun page => Reply.page msg (filledPage page result)).toList

-- ---------------------------------------------------------------------------
-- The caller
-- ---------------------------------------------------------------------------

/-- The result on a page that has come back. -/
def takeResult (page : B.Page) : WsResult :=
  match B.toOriginal page with
  | .error e => .error ⟨.other, "ipc to_original: " ++ e⟩
  | .ok result =>
    if result.status = statusBinary then
      if wsProvisionMax < result.len.toNat then
        .error ⟨.invalidData, "payload len exceeds WS_PROVISION_MAX"⟩
      else .binary (result.bytes.take result.len.toNat)
    else if result.status = statusClosed then .closed
    else if result.status = statusTimedOut then .timedOut
    else if result.status = statusCancelled then .cancelled
    else if result.status = statusError then .error ⟨.other, "worker error"⟩
    else .error ⟨.other, "unknown WsResultBuf.status " ++ toString result.status.toNat⟩

/-- `wait_and_take_binary`, where `lendMut` lends a page to the worker until it
comes back. -/
def waitAndTakeBinary (lendMut : B.Page → Except String B.Page) : WsResult :=
  match B.intoBuf .empty with
  | .error e => .error ⟨.other, "ipc into_buf: " ++ e⟩
  | .ok page =>
    match lendMut page with
    | .error e => .error ⟨.other, "ipc lend_mut: " ++ e⟩
    | .ok page' => takeResult page'

-- ---------------------------------------------------------------------------
-- The loop
-- ---------------------------------------------------------------------------

/-- The loop's variables, with the messages it has received and its replies. -/
structure Worker (B : IpcBuffer) where
  deadlineMs : UInt64
  lastSendAt : UInt64
  pending : Option PendingResult
  waiter : Option (Envelope B)
  received : List (Envelope B)
  replies : List (Reply B)

/-- What one iteration meets: the message it receives, and, should it look, the
clock at the deadline and keepalive checks, how sending a ping ends and the
clock after it, and what is read. -/
structure Iteration (B : IpcBuffer) where
  received : Except String (Option (Envelope B))
  deadlineClock : UInt64
  keepaliveClock : UInt64
  ping : Except WsError Unit
  sentClock : UInt64
  read : Except WsError Frame

/-- The loop goes on, or has been left. -/
inductive Flow (B : IpcBuffer) where
  | running (w : Worker B)
  | exited (w : Worker B)

def Flow.worker : Flow B → Worker B
  | .running w => w
  | .exited w => w

namespace Worker

/-- Park a wait. One that is parked already is dropped. -/
def park (w : Worker B) (msg : Envelope B) : Worker B :=
  { w with
    waiter := some msg
    replies := w.replies ++ (w.waiter.map dropped).getD [] }

/-- The wait gets what is pending, or is parked. -/
def takeWait (w : Worker B) (msg : Envelope B) : Worker B :=
  match w.pending with
  | some result => { w with pending := none, replies := w.replies ++ fillBuf msg result }
  | none => w.park msg

/-- A parked wait is cancelled, and the sender gets its scalar. -/
def cancel (w : Worker B) (msg : Envelope B) : Worker B :=
  { w with
    waiter := none
    replies := w.replies ++ (w.waiter.map fun m => fillBuf m .cancelled).getD [] ++
      [.scalar msg.sender] ++ dropped msg }

/-- (1) IPC. A failing receive leaves the loop, with the wait still parked. -/
def serviceIpc (e : Iteration B) (w : Worker B) : Flow B :=
  match e.received with
  | .ok (some msg) =>
    let w := { w with received := w.received ++ [msg] }
    match msg.op with
    | some .waitAndTakeBinary => .running (w.takeWait msg)
    | some .cancel => .exited (w.cancel msg)
    | none => .running { w with replies := w.replies ++ dropped msg }
  | .ok none => .running w
  | .error _ => .exited w

/-- (2) The deadline. -/
def checkDeadline (e : Iteration B) (w : Worker B) : Worker B :=
  if w.pending.isNone ∧ w.deadlineMs ≤ e.deadlineClock then { w with pending := some .timedOut }
  else w

/-- (3) The keepalive. -/
def keepalive (e : Iteration B) (w : Worker B) : Worker B :=
  if w.pending.isNone ∧ keepaliveMs ≤ e.keepaliveClock.toNat - w.lastSendAt.toNat then
    match e.ping with
    | .ok () => { w with lastSendAt := e.sentClock }
    | .error _ => { w with pending := some .error }
  else w

/-- (4) The websocket. -/
def driveRead (e : Iteration B) (w : Worker B) : Worker B :=
  if w.pending.isNone then
    match e.read with
    | .ok (.binary b) =>
      if hLen : b.length ≤ wsProvisionMax then { w with pending := some (.binary b hLen) }
      else { w with pending := some .error }
    | .ok .close => { w with pending := some .closed }
    | .ok _ => w
    | .error err => if isTimeout err then w else { w with pending := some .error }
  else w

/-- (5) A parked wait gets what is pending. -/
def deliver (w : Worker B) : Worker B :=
  match w.pending, w.waiter with
  | some result, some msg =>
    { w with pending := none, waiter := none, replies := w.replies ++ fillBuf msg result }
  | _, _ => w

def iteration (e : Iteration B) (w : Worker B) : Flow B :=
  match w.serviceIpc e with
  | .exited w => .exited w
  | .running w => .running (((w.checkDeadline e).keepalive e).driveRead e).deliver

/-- A finite part of the loop. -/
def loop : List (Iteration B) → Worker B → Flow B
  | [], w => .running w
  | e :: es, w =>
    match w.iteration e with
    | .running w' => loop es w'
    | .exited w' => .exited w'

/-- The variables before the loop. -/
def start (deadlineMs lastSendAt : UInt64) : Worker B :=
  ⟨deadlineMs, lastSendAt, none, none, [], []⟩

end Worker

/-- The deadline. An overflow wraps, or panics in a build that checks for it. -/
def deadline (overflowChecks : Bool) (now deadlineSecs : UInt64) : Option UInt64 :=
  let sum := now.toNat + min (deadlineSecs.toNat * 1000) (2 ^ 64 - 1)
  if overflowChecks ∧ 2 ^ 64 ≤ sum then none else some (UInt64.ofNat sum)

/-- `worker_loop`, none if it panics before its loop. -/
def workerLoop (overflowChecks : Bool) (deadlineSecs deadlineClock sendClock : UInt64)
    (es : List (Iteration B)) : Option (Flow B) :=
  (deadline overflowChecks deadlineClock deadlineSecs).map fun d =>
    Worker.loop es (Worker.start d sendClock)

-- ---------------------------------------------------------------------------
-- After the loop
-- ---------------------------------------------------------------------------

/-- How far the thread is: it serves messages, or has destroyed its server. -/
inductive Stage (B : IpcBuffer) where
  | serving (w : Worker B)
  | destroyed (w : Worker B)

/-- The worker returns, and a wait that is still parked is dropped. -/
def Worker.leave (w : Worker B) : Worker B :=
  { w with
    waiter := none
    replies := w.replies ++ (w.waiter.map dropped).getD [] }

/-- The worker at the end of a part of the loop, or after its return. -/
def Flow.ended : Flow B → Worker B
  | .running w => w
  | .exited w => w.leave

/-- What follows the loop: the websocket is closed, the server destroyed, and
the variables dropped. -/
def finish (flush : SignalWs.Flushes) : Flow B → Computation (Stage B)
  | .running w => return .serving w
  | .exited w => do
    let _ ← SignalWs.close flush
    return .destroyed w.leave

end Sigchat.WsServer

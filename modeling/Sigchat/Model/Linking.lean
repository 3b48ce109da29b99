import Sigchat.Model.SigChat
import Sigchat.Model.WsServer

/-!
# The provisioning exchange

`Manager::link` from the spawn of the provisioning worker on. Its thread shows
the QR code, lends the worker a page and waits for it, cancels the worker and
waits for that; the worker goes through its loop all the while. They meet in the
worker's message queue, and the thread is blocked until a reply comes.

A step is one action of the thread, one iteration of the worker, or the end of
the worker's server; which comes next is up to the scheduler. What an iteration
receives is the head of the queue, unless receiving fails.
-/

namespace Sigchat.Linking

open Sigchat.Lib
open Sigchat.Pddb
open Sigchat.Signal
open Sigchat.Accounts
open Sigchat.App
open Sigchat.WsServer

variable {B : IpcBuffer}

-- ---------------------------------------------------------------------------
-- The two parties
-- ---------------------------------------------------------------------------

/-- Where the thread of `Manager::link` is, with the result of the wait. There
is none if the modal has failed. -/
inductive Caller where
  /-- In `show_notification`. -/
  | showing
  /-- In `lend_mut`. -/
  | waiting
  /-- Before `cancel`. -/
  | resumed (r : Option WsResult)
  /-- In the blocking scalar of `cancel`. -/
  | cancelling (r : Option WsResult)
  /-- After `cancel`. -/
  | returned (r : Option WsResult)
  deriving DecidableEq

/-- The worker thread, and the server it owns. -/
inductive Server (B : IpcBuffer) where
  /-- It has ended before its loop, and left the server behind. -/
  | abandoned
  | serving (w : Worker B)
  /-- The loop has been left, and the websocket is being closed. -/
  | closing (w : Worker B)
  | destroyed (w : Worker B)

/-- What an iteration leaves. -/
def Server.ofFlow : Flow B → Server B
  | .running w => .serving w
  | .exited w => .closing w

/-- The exchange, with the iterations the worker has made. -/
structure Exchange (B : IpcBuffer) where
  caller : Caller
  queue : List (Envelope B)
  server : Server B
  iterations : List (Iteration B)

/-- The kernel's name for the thread of `Manager::link`. -/
def callerId : Nat := 0

def waitMessage (page : B.Page) : Envelope B := ⟨callerId, 0, some page⟩

def cancelMessage : Envelope B := ⟨callerId, 1, none⟩

/-- The thread goes on when what it waits for comes back. -/
def Caller.receive (c : Caller) : Reply B → Caller
  | .page _ p =>
    match c with
    | .waiting => .resumed (some (waitAndTakeBinary (B := B) fun _ => .ok p))
    | c => c
  | .scalar _ =>
    match c with
    | .cancelling r => .returned r
    | c => c

/-- An error of the kernel wakes it as well. -/
def Caller.fail (B : IpcBuffer) (err : String) : Caller → Caller
  | .waiting => .resumed (some (waitAndTakeBinary (B := B) fun _ => .error err))
  | .cancelling r => .returned r
  | c => c

-- ---------------------------------------------------------------------------
-- Steps
-- ---------------------------------------------------------------------------

inductive Label (B : IpcBuffer) where
  /-- The modal is closed, or has failed. If it was shown the wait is sent. -/
  | modal (shown : Bool)
  /-- The modal is closed, and the kernel refuses the wait. -/
  | waitRefused (err : String)
  | cancel
  | cancelRefused
  /-- One iteration. Of what it receives it only matters whether that fails. -/
  | iterate (e : Iteration B)
  /-- The `i`-th flush ends the closing of the websocket, and the server is
  destroyed. Whoever still waits gets the error; a page that the worker drops
  afterwards wakes nobody. -/
  | destroy (i : Nat) (err : String)

namespace Exchange

/-- The server takes messages. -/
def isUp (x : Exchange B) : Bool :=
  match x.server with
  | .destroyed _ => false
  | _ => true

/-- `wait_and_take_binary`, up to the lending of its page. -/
def sendWait (x : Exchange B) : Option (Exchange B) :=
  match B.intoBuf .empty with
  | .error _ => some
    { x with caller := .resumed (some (waitAndTakeBinary (B := B) fun page => .ok page)) }
  | .ok page =>
    if x.isUp then some { x with caller := .waiting, queue := x.queue ++ [waitMessage page] }
    else none

/-- What an iteration meets. -/
def meets (x : Exchange B) (e : Iteration B) : Iteration B :=
  { e with received := e.received.map fun _ => x.queue.head? }

/-- One iteration of the worker, and the replies it sends. -/
def iterate (x : Exchange B) (w : Worker B) (e : Iteration B) : Exchange B :=
  let f := w.iteration (x.meets e)
  { caller := (f.worker.replies.drop w.replies.length).foldl Caller.receive x.caller
    queue := if e.received.isOk then x.queue.tail else x.queue
    server := Server.ofFlow f
    iterations := x.iterations ++ [x.meets e] }

/-- A step, if it is possible. The parameter is what flushing the websocket
returns once it is closed. -/
def step (flush : SignalWs.Flushes) (l : Label B) (x : Exchange B) : Option (Exchange B) :=
  match l, x.caller, x.server with
  | .modal false, .showing, _ => some { x with caller := .resumed none }
  | .modal true, .showing, _ => x.sendWait
  | .waitRefused err, .showing, _ => some
    { x with caller := .resumed (some (waitAndTakeBinary (B := B) fun _ => .error err)) }
  | .cancel, .resumed r, _ =>
    if x.isUp then some { x with caller := .cancelling r, queue := x.queue ++ [cancelMessage] }
    else none
  | .cancelRefused, .resumed r, _ => some { x with caller := .returned r }
  | .iterate e, _, .serving w => some (x.iterate w e)
  | .destroy i err, c, .closing w =>
    if (SignalWs.closeEnd (flush i)).isSome then
      some { x with caller := c.fail B err, queue := [], server := .destroyed w.leave }
    else none
  | _, _, _ => none

end Exchange

/-- The worker that `SignalWsServer::spawn` starts with a deadline of 180
seconds. Without a ticktimer, or where the sum overflows, it ends at once. -/
def spawned (ticktimer overflowChecks : Bool) (deadlineClock sendClock : UInt64) : Server B :=
  if ticktimer then
    match deadline overflowChecks deadlineClock 180 with
    | some d => .serving (Worker.start d sendClock)
    | none => .abandoned
  else .abandoned

/-- The exchange once the worker is spawned. -/
def opened (server : Server B) : Exchange B := ⟨.showing, [], server, []⟩

-- ---------------------------------------------------------------------------
-- The end of `Manager::link`
-- ---------------------------------------------------------------------------

variable {U : UrlCrate} {L : Libsignal}

/-- The message that has come over the provisioning websocket. Decoding it does
not panic. -/
def provisioned (C : Curve L) (P : Provisioning.Primitives)
    (identityKeyPair : ProvisionedIdentity) : Option WsResult → Except IoError ProvisionMessage
  | some (.binary b) =>
    match Provisioning.decode C P identityKeyPair b with
    | .ok msg => .ok msg
    | .error _ => .error linkErr
  | _ => .error linkErr

/-- `Manager::link` from the end of the exchange on. -/
def finishLink (C : Curve L) (P : Provisioning.Primitives) (identityKeyPair : ProvisionedIdentity)
    (t : Turn U L) (m : Manager U) (name : String) (r : Option WsResult) :
    Prog Resp (Except Accounts.Panic (Except IoError Bool × Manager U)) :=
  m.link { t with provisioned := provisioned C P identityKeyPair r } name

end Sigchat.Linking

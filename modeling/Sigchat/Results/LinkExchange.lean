import Sigchat.Model.Linking
import Sigchat.Results.Closing
import Sigchat.Results.LoadedManager
import Sigchat.Results.ProvisionFormat
import Sigchat.Results.WsProvisioning

/-!
# The provisioning exchange

The thread of `Manager::link` and the provisioning worker take turns in any
order, while the user looks at the QR code for as long as he likes. The
invariant says what is in the queue and what the worker holds, for each point
the thread can be at.
-/

namespace Sigchat.Results.LinkExchange

open Sigchat.Lib
open Sigchat.Pddb
open Sigchat.Signal
open Sigchat.Accounts
open Sigchat.App
open Sigchat.SignalWs
open Sigchat.WsServer
open Sigchat.Linking

variable {B : IpcBuffer}

-- ---------------------------------------------------------------------------
-- Steps
-- ---------------------------------------------------------------------------

section Steps

variable (flush : Flushes) (x : Exchange B)

/-- What a step can do. -/
inductive Taken : Label B → Exchange B → Prop
  | modalFailed (hCaller : x.caller = .showing) :
    Taken (.modal false) { x with caller := .resumed none }
  | pageFailed (hCaller : x.caller = .showing) {err : String}
      (hInto : B.intoBuf .empty = .error err) : Taken (.modal true)
      { x with caller := .resumed (some (waitAndTakeBinary (B := B) fun page => .ok page)) }
  | waits (hCaller : x.caller = .showing) {page : B.Page} (hInto : B.intoBuf .empty = .ok page)
      (hUp : x.isUp = true) :
    Taken (.modal true) { x with caller := .waiting, queue := x.queue ++ [waitMessage page] }
  | waitRefused (hCaller : x.caller = .showing) (err : String) : Taken (.waitRefused err)
      { x with caller := .resumed (some (waitAndTakeBinary (B := B) fun _ => .error err)) }
  | cancels {r : Option WsResult} (hCaller : x.caller = .resumed r) (hUp : x.isUp = true) :
    Taken .cancel { x with caller := .cancelling r, queue := x.queue ++ [cancelMessage] }
  | cancelRefused {r : Option WsResult} (hCaller : x.caller = .resumed r) :
    Taken .cancelRefused { x with caller := .returned r }
  | iterates {w : Worker B} (hServer : x.server = .serving w) (e : Iteration B) :
    Taken (.iterate e) (x.iterate w e)
  | destroys {w : Worker B} (hServer : x.server = .closing w) {i : Nat} (err : String)
      (hEnd : (closeEnd (flush i)).isSome = true) : Taken (.destroy i err)
      { x with caller := x.caller.fail B err, queue := [], server := .destroyed w.leave }

variable {flush x}

/-- A step is one of these nine, with what it changes. -/
theorem step_taken {l : Label B} {x' : Exchange B} (h : x.step flush l = some x') :
    Taken flush x l x' := by
  -- One case per label and per state of the party that moves.
  unfold Exchange.step at h
  split at h
  case h_1 hCaller =>
    obtain rfl := Option.some.inj h
    exact .modalFailed hCaller
  case h_2 hCaller =>
    unfold Exchange.sendWait at h
    split at h
    · obtain rfl := Option.some.inj h
      exact .pageFailed hCaller ‹_›
    · split at h
      · obtain rfl := Option.some.inj h
        exact .waits hCaller ‹_› ‹_›
      · cases h
  case h_3 err hCaller =>
    obtain rfl := Option.some.inj h
    exact .waitRefused hCaller err
  case h_4 r hCaller =>
    split at h
    · obtain rfl := Option.some.inj h
      exact .cancels hCaller ‹_›
    · cases h
  case h_5 r hCaller =>
    obtain rfl := Option.some.inj h
    exact .cancelRefused hCaller
  case h_6 e w hServer =>
    obtain rfl := Option.some.inj h
    exact .iterates hServer e
  case h_7 i err w hServer =>
    split at h
    · obtain rfl := Option.some.inj h
      exact .destroys hServer err ‹_›
    · cases h
  case h_8 => cases h

end Steps

-- ---------------------------------------------------------------------------
-- Iterations
-- ---------------------------------------------------------------------------

section Iterations

variable {e : Iteration B} {w : Worker B} {msg : Envelope B}

/-- A parked wait is still there, or has been answered. -/
inductive Delivered (w w' : Worker B) : Prop
  | kept (hWaiter : w'.waiter = w.waiter) (hReplies : w'.replies = w.replies)
  | answered (msg : Envelope B) (r : PendingResult) (hParked : w.waiter = some msg)
      (hWaiter : w'.waiter = none) (hReplies : w'.replies = w.replies ++ fillBuf msg r)

/-- Whatever the worker observes, it delivers at most one result to the wait it
has parked. -/
theorem delivered_observed (e : Iteration B) (w : Worker B) :
    ∃ w', (((w.checkDeadline e).keepalive e).driveRead e).deliver = w' ∧
      w'.received = w.received ∧ Delivered w w' := by
  refine ⟨_, rfl, by rw [received_deliver, received_observe], ?_⟩
  obtain ⟨last, hObserve, -⟩ := observe_eq e w
  rw [hObserve]
  unfold Worker.deliver
  split
  · rename_i r msg _ hWaiter
    exact .answered msg r hWaiter rfl rfl
  · exact .kept rfl rfl

/-- An iteration that receives nothing may only deliver. -/
theorem iteration_idle (hReceived : e.received = .ok none) :
    ∃ w', w.iteration e = .running w' ∧ w'.received = w.received ∧ Delivered w w' := by
  obtain ⟨w', hEq, hSame, hDelivered⟩ := delivered_observed e w
  refine ⟨w', ?_, hSame, hDelivered⟩
  rw [Worker.iteration, Worker.serviceIpc, hReceived, ← hEq]

/-- A wait that comes is answered at once, or parked and then answered or not. -/
theorem iteration_wait (hReceived : e.received = .ok (some msg))
    (hOp : msg.op = some .waitAndTakeBinary) (hWaiter : w.waiter = none) :
    ∃ w', w.iteration e = .running w' ∧ w'.received = w.received ++ [msg] ∧
      ((w'.waiter = some msg ∧ w'.replies = w.replies) ∨
        ∃ r, w'.waiter = none ∧ w'.replies = w.replies ++ fillBuf msg r) := by
  obtain ⟨w', hEq, hSame, hDelivered⟩ := delivered_observed e ((receive w msg).takeWait msg)
  refine ⟨w', ?_, by rw [hSame, received_takeWait]; rfl, ?_⟩
  · rw [← hEq, Worker.iteration, Worker.serviceIpc, hReceived]
    simp only [hOp]
    rfl
  -- A wait is answered on the spot if a result is pending, and parked otherwise.
  · have hTaken : ((receive w msg).takeWait msg).waiter = some msg ∧
        ((receive w msg).takeWait msg).replies = w.replies ∨
        ∃ r, ((receive w msg).takeWait msg).waiter = none ∧
          ((receive w msg).takeWait msg).replies = w.replies ++ fillBuf msg r := by
      unfold Worker.takeWait
      split
      · rename_i r _
        exact .inr ⟨r, hWaiter, rfl⟩
      · refine .inl ⟨rfl, ?_⟩
        simp [Worker.park, receive, hWaiter]
    -- A wait that was parked may still be answered by the end of the iteration; one that
    -- was answered is not answered again.
    rcases hTaken with ⟨hParked, hReplies⟩ | ⟨r, hNone, hReplies⟩
    · cases hDelivered with
      | kept hW hR => exact .inl ⟨hW.trans hParked, hR.trans hReplies⟩
      | answered msg' r hP hW hR =>
        obtain rfl := Option.some.inj (hParked.symm.trans hP)
        exact .inr ⟨r, hW, by rw [hR, hReplies]⟩
    · cases hDelivered with
      | kept hW hR => exact .inr ⟨r, hW.trans hNone, hR.trans hReplies⟩
      | answered msg' r' hP => cases hNone.symm.trans hP

/-- Cancel acknowledges and leaves the loop. -/
theorem iteration_cancel (hReceived : e.received = .ok (some msg)) (hOp : msg.op = some .cancel)
    (hWaiter : w.waiter = none) (hPage : msg.page = none) :
    ∃ w', w.iteration e = .exited w' ∧ w'.replies = w.replies ++ [.scalar msg.sender] := by
  refine ⟨(receive w msg).cancel msg, ?_, ?_⟩
  · rw [Worker.iteration, Worker.serviceIpc, hReceived]
    simp only [hOp]
    rfl
  · simp [Worker.cancel, receive, hWaiter, dropped, hPage]

/-- A failing receive leaves the loop as it is. -/
theorem iteration_failed {err : String} (hReceived : e.received = .error err) :
    w.iteration e = .exited w := by
  rw [Worker.iteration, Worker.serviceIpc, hReceived]

end Iterations

-- ---------------------------------------------------------------------------
-- Terminal events
-- ---------------------------------------------------------------------------

section Events

variable {es es' : List (Iteration B)} {d s : UInt64} {ev : PendingResult}

/-- The first terminal event stays the first. -/
theorem firstTerminal_append (h : firstTerminal es d s = some ev) :
    firstTerminal (es ++ es') d s = some ev := by
  -- What comes after the first terminal event does not count.
  induction es generalizing s with
  | nil => cases h
  | cons e es ih =>
    rw [firstTerminal] at h
    rw [List.cons_append, firstTerminal]
    cases hLeaves : leaves e with
    | true => rw [hLeaves] at h; cases h
    | false =>
      rw [hLeaves] at h
      rw [if_neg Bool.false_ne_true] at h ⊢
      cases hEvent : terminalEvent e d s with
      | some r =>
        rw [hEvent, Option.some_or] at h
        rw [Option.some_or, h]
      | none =>
        rw [hEvent, Option.none_or] at h
        rw [Option.none_or, ih h]

/-- An event of an iteration is the deadline, a failure, or what was read. -/
theorem terminalEvent_cases {e : Iteration B} (h : terminalEvent e d s = some ev) :
    ev = .timedOut ∨ ev = .error ∨ (ev = .closed ∧ e.read = .ok .close) ∨
      ∃ b hLen, ev = .binary b hLen ∧ e.read = .ok (.binary b) := by
  unfold terminalEvent at h
  split at h
  · exact .inl (Option.some.inj h).symm
  · split at h
    · exact .inr (.inl (Option.some.inj h).symm)
    · unfold readEvent at h
      split at h
      · rename_i b hRead
        obtain rfl := Option.some.inj h
        by_cases hLen : b.length ≤ wsProvisionMax
        · exact .inr (.inr (.inr ⟨b, hLen, dif_pos hLen, hRead⟩))
        · exact .inr (.inl (dif_neg hLen))
      · rename_i hRead
        exact .inr (.inr (.inl ⟨(Option.some.inj h).symm, hRead⟩))
      · cases h
      · split at h
        · cases h
        · exact .inr (.inl (Option.some.inj h).symm)

/-- The same of a run. -/
theorem firstTerminal_cases (h : firstTerminal es d s = some ev) :
    ev = .timedOut ∨ ev = .error ∨ ev = .closed ∨
      ∃ b hLen, ev = .binary b hLen ∧ ∃ e ∈ es, e.read = .ok (.binary b) := by
  induction es generalizing s with
  | nil => cases h
  | cons e es ih =>
    rw [firstTerminal] at h
    split at h
    · cases h
    · cases hEvent : terminalEvent e d s with
      | some r =>
        rw [hEvent, Option.some_or] at h
        obtain rfl := Option.some.inj h
        rcases terminalEvent_cases hEvent with rfl | rfl | ⟨rfl, -⟩ | ⟨b, hLen, rfl, hRead⟩
        · exact .inl rfl
        · exact .inr (.inl rfl)
        · exact .inr (.inr (.inl rfl))
        · exact .inr (.inr (.inr ⟨b, hLen, rfl, e, List.mem_cons_self, hRead⟩))
      | none =>
        rw [hEvent, Option.none_or] at h
        rcases ih h with h | h | h | ⟨b, hLen, rfl, e', hMem, hRead⟩
        · exact .inl h
        · exact .inr (.inl h)
        · exact .inr (.inr (.inl h))
        · exact .inr (.inr (.inr ⟨b, hLen, rfl, e', List.mem_cons_of_mem _ hMem, hRead⟩))

end Events

-- ---------------------------------------------------------------------------
-- The invariant
-- ---------------------------------------------------------------------------

/-- The result the thread has, once the modal or the wait is over. -/
def resultOf : Caller → Option (Option WsResult)
  | .showing | .waiting => none
  | .resumed r | .cancelling r | .returned r => some r

/-- Where a result comes from, in an exchange whose worker has made the
iterations `es`: the first terminal event, or an error of the kernel. -/
inductive Explained (d s : UInt64) (es : List (Iteration B)) : Option WsResult → Prop
  | modalFailed : Explained d s es none
  | event {ev : PendingResult} (hEvent : firstTerminal es d s = some ev) :
    Explained d s es (some (callerResult ev))
  | refused (err : String) :
    Explained d s es (some (waitAndTakeBinary (B := B) fun _ => .error err))

/-- What is in the queue and with the worker, for each point the thread is at. -/
inductive Talk : Caller → List (Envelope B) → Server B → Prop
  | showing {w : Worker B} (hReceived : w.received = []) (hWaiter : w.waiter = none)
      (hReplies : w.replies = []) : Talk .showing [] (.serving w)
  | sent {w : Worker B} {page : B.Page} (hInto : B.intoBuf .empty = .ok page)
      (hReceived : w.received = []) (hWaiter : w.waiter = none) (hReplies : w.replies = []) :
    Talk .waiting [waitMessage page] (.serving w)
  | parked {w : Worker B} {page : B.Page} (hInto : B.intoBuf .empty = .ok page)
      (hReceived : w.received = [waitMessage page]) (hWaiter : w.waiter = some (waitMessage page))
      (hReplies : w.replies = []) : Talk .waiting [] (.serving w)
  | resumed {w : Worker B} {r : Option WsResult} (hWaiter : w.waiter = none) :
    Talk (.resumed r) [] (.serving w)
  | cancelling {w : Worker B} {r : Option WsResult} (hWaiter : w.waiter = none) :
    Talk (.cancelling r) [cancelMessage] (.serving w)
  | returned {w : Worker B} {r : Option WsResult} (hWaiter : w.waiter = none) :
    Talk (.returned r) [] (.serving w)
  | left {w : Worker B} {c : Caller} {queue : List (Envelope B)} : Talk c queue (.closing w)
  | gone {w : Worker B} {c : Caller} (hWaiting : c ≠ .waiting)
      (hCancelling : ∀ r, c ≠ .cancelling r) : Talk c [] (.destroyed w)
  | abandoned {c : Caller} {queue : List (Envelope B)} : Talk c queue .abandoned

/-- A worker that serves is what its iterations have made of it. -/
def Ran (d s : UInt64) (x : Exchange B) : Prop :=
  ∀ w, x.server = .serving w → Worker.loop x.iterations (Worker.start d s) = .running w ∧
    ∀ e ∈ x.iterations, ∃ m, e.received = .ok m

structure Inv (d s : UInt64) (x : Exchange B) : Prop where
  ran : Ran d s x
  talk : Talk x.caller x.queue x.server
  explained : ∀ r, resultOf x.caller = some r → Explained d s x.iterations r

section Invariant

variable {d s : UInt64} {es : List (Iteration B)} {e : Iteration B} {w w' : Worker B}

theorem Explained.append {r : Option WsResult} (h : Explained d s es r) (es' : List (Iteration B)) :
    Explained d s (es ++ es') r := by
  cases h with
  | modalFailed => exact .modalFailed
  | event hEvent => exact .event (firstTerminal_append hEvent)
  | refused err => exact .refused err

theorem loop_snoc (hLoop : Worker.loop es (Worker.start d s) = .running w) :
    Worker.loop (es ++ [e]) (Worker.start d s) = w.iteration e := by
  rw [loop_append, hLoop]
  show Worker.loop [e] w = _
  rw [Worker.loop]
  cases w.iteration e <;> rfl

/-- The wait of the thread. -/
theorem op_waitMessage (page : B.Page) : (waitMessage page).op = some .waitAndTakeBinary := rfl

theorem op_cancelMessage : (cancelMessage : Envelope B).op = some .cancel := rfl

theorem waits_of_received {page : B.Page} (h : w.received = [waitMessage page]) :
    waits w = [waitMessage page] := by
  rw [waits, h]
  rfl

/-- The run of a worker that has received one wait. -/
theorem waiting_of_run {page : B.Page} (hRun : Worker.loop es (Worker.start d s) = .running w)
    (hReceives : ∀ e ∈ es, ∃ m, e.received = .ok m) (hReceived : w.received = [waitMessage page]) :
    Waiting w (firstTerminal es d s) := by
  have hOne : AtMostOneWait (Worker.loop es (Worker.start d s)).worker := by
    rw [hRun]
    exact .inr ⟨waitMessage page, page, waits_of_received hReceived, rfl⟩
  have hSettled := loop_settled (waiting_start d s) hReceives hOne
  rw [hRun] at hSettled
  exact hSettled

/-- What it has answered is the first terminal event. -/
theorem event_of_answered {page : B.Page} {r : PendingResult}
    (hRun : Worker.loop es (Worker.start d s) = .running w)
    (hReceives : ∀ e ∈ es, ∃ m, e.received = .ok m) (hReceived : w.received = [waitMessage page])
    (hWaiter : w.waiter = none) (hReplies : w.replies = fillBuf (waitMessage page) r) :
    ∃ ev, firstTerminal es d s = some ev ∧ filledPage page r = filledPage page ev := by
  have hWaits := waits_of_received hReceived
  cases waiting_of_run hRun hReceives hReceived with
  | noWait hNone => cases hNone.symm.trans hWaits
  | parked _ _ _ _ hParked => cases hWaiter.symm.trans hParked
  | answered msg page' ev hOne hPage _ hEvent hAnswers =>
    obtain rfl := List.singleton_inj.mp (hWaits.symm.trans hOne)
    obtain rfl := Option.some.inj hPage
    refine ⟨ev, hEvent, ?_⟩
    rw [answers, hReplies, answersIn_fillBuf (op_waitMessage page) rfl] at hAnswers
    exact (Prod.mk.inj (List.singleton_inj.mp hAnswers)).2

/-- While the wait is parked there has been no event. -/
theorem no_event_of_parked {page : B.Page}
    (hRun : Worker.loop es (Worker.start d s) = .running w)
    (hReceives : ∀ e ∈ es, ∃ m, e.received = .ok m) (hReceived : w.received = [waitMessage page])
    (hWaiter : w.waiter = some (waitMessage page)) : firstTerminal es d s = none := by
  cases waiting_of_run hRun hReceives hReceived with
  | noWait _ hNone => cases hNone.symm.trans hWaiter
  | parked _ _ _ _ _ _ hEvent => exact hEvent
  | answered _ _ _ _ _ hNone => cases hNone.symm.trans hWaiter

/-- The result on the page that comes back filled. -/
theorem takes_filled (hB : B.Lawful) {page : B.Page} (hInto : B.intoBuf .empty = .ok page)
    (ev : PendingResult) :
    waitAndTakeBinary (B := B) (fun _ => .ok (filledPage page ev)) = callerResult ev := by
  obtain ⟨page', hInto', hOriginal⟩ := hB.intoBuf .empty
  obtain rfl := Except.ok.inj (hInto'.symm.trans hInto)
  rw [waitAndTakeBinary, hInto]
  exact takeResult_filledPage hB.rewritable hOriginal ev

variable {x : Exchange B}

/-- The state after an iteration, once the iteration itself is known. -/
theorem iterate_eq {f : Flow B} {a : List (Reply B)} (hIter : w.iteration (x.meets e) = f)
    (hReplies : f.worker.replies = w.replies ++ a) :
    x.iterate w e = ⟨a.foldl Caller.receive x.caller,
      if e.received.isOk then x.queue.tail else x.queue, Server.ofFlow f,
      x.iterations ++ [x.meets e]⟩ := by
  simp only [Exchange.iterate, hIter, hReplies, List.drop_left]

/-- A worker that goes on serving. -/
theorem ran_snoc {c : Caller} {q : List (Envelope B)} {m : Option (Envelope B)}
    (hLoop : Worker.loop es (Worker.start d s) = .running w)
    (hReceives : ∀ e ∈ es, ∃ m, e.received = .ok m) (hReceived : e.received = .ok m)
    (hIter : w.iteration e = .running w') :
    Ran d s ⟨c, q, .serving w', es ++ [e]⟩ := by
  intro w₁ hServer
  obtain rfl := Server.serving.inj hServer
  refine ⟨(loop_snoc hLoop).trans hIter, fun e' he' => ?_⟩
  rcases List.mem_append.mp he' with hOld | hNew
  · exact hReceives e' hOld
  · rw [List.mem_singleton.mp hNew]
    exact ⟨m, hReceived⟩

theorem ran_of_closing {c : Caller} {queue : List (Envelope B)} :
    Ran d s ⟨c, queue, .closing w, es⟩ := fun _ h => nomatch h

/-- An iteration whose receive fails: a parked wait stays unanswered. -/
theorem inv_failed (h : Inv d s x) {err : String} (hErr : e.received = .error err) :
    Inv d s (x.iterate w e) := by
  have hMeets : (x.meets e).received = .error err := by rw [Exchange.meets, hErr]; rfl
  rw [iterate_eq (iteration_failed hMeets) (List.append_nil _).symm]
  exact ⟨ran_of_closing, .left, fun r hr => (h.explained r hr).append _⟩

/-- An iteration that answers the wait. -/
theorem inv_answered (hB : B.Lawful) {queue : List (Envelope B)} {m : Option (Envelope B)}
    {page : B.Page} {r : PendingResult}
    (hLoop : Worker.loop es (Worker.start d s) = .running w)
    (hReceives : ∀ e ∈ es, ∃ m, e.received = .ok m)
    (hMeets : (Exchange.meets ⟨.waiting, queue, .serving w, es⟩ e).received = .ok m)
    (hOk : e.received.isOk = true) (hInto : B.intoBuf .empty = .ok page) (hReplies : w.replies = [])
    (hIter : w.iteration (Exchange.meets ⟨.waiting, queue, .serving w, es⟩ e) = .running w')
    (hReceived : w'.received = [waitMessage page]) (hWaiter : w'.waiter = none)
    (hReplies' : w'.replies = w.replies ++ fillBuf (waitMessage page) r)
    (hQueue : queue.tail = []) :
    Inv d s (Exchange.iterate ⟨.waiting, queue, .serving w, es⟩ w e) := by
  have hRan := ran_snoc (c := .waiting) (q := []) hLoop hReceives hMeets hIter
  obtain ⟨hLoop', hReceives'⟩ := hRan w' rfl
  rw [hReplies, List.nil_append] at hReplies'
  obtain ⟨ev, hEvent, hPage⟩ := event_of_answered hLoop' hReceives' hReceived hWaiter hReplies'
  rw [iterate_eq hIter (a := fillBuf (waitMessage page) r)
    (by rw [Flow.worker, hReplies', hReplies, List.nil_append]), hOk, if_pos rfl, hQueue]
  refine ⟨ran_snoc hLoop hReceives hMeets hIter, .resumed hWaiter, fun res hRes => ?_⟩
  obtain rfl := Option.some.inj hRes
  show Explained d s _ (some (waitAndTakeBinary (B := B) fun _ => .ok (filledPage page r)))
  rw [hPage, takes_filled hB hInto]
  exact .event hEvent

/-- **One iteration** keeps the invariant. -/
theorem inv_iterate (hB : B.Lawful) (h : Inv d s x) (hServer : x.server = .serving w)
    (e : Iteration B) : Inv d s (x.iterate w e) := by
  -- A failed receive ends the loop, whatever the parties have said to each other.
  rcases hReceived : e.received with err | m
  · exact inv_failed h hReceived
  have hMeets : (x.meets e).received = .ok x.queue.head? := by
    rw [Exchange.meets, hReceived]
    rfl
  have hOk : e.received.isOk = true := by rw [hReceived]; rfl
  obtain ⟨hLoop, hReceives⟩ := h.ran w hServer
  have hTalk := h.talk
  have hExplained := h.explained
  obtain ⟨c, queue, sv, es⟩ := x
  subst hServer
  -- nothing is received, and no wait is parked
  have hIdle (hQueue : queue = []) (hWaiter : w.waiter = none)
      (hNext : ∀ w' : Worker B, w'.received = w.received → w'.waiter = none →
        w'.replies = w.replies → Talk c [] (.serving w')) :
      Inv d s (Exchange.iterate ⟨c, queue, .serving w, es⟩ w e) := by
    subst hQueue
    obtain ⟨w', hIter, hSame, hDelivered⟩ := iteration_idle (w := w) hMeets
    cases hDelivered with
    | answered msg r hParked => cases hWaiter.symm.trans hParked
    | kept hWaiter' hReplies =>
      rw [iterate_eq hIter (a := []) (by rw [Flow.worker, hReplies, List.append_nil]), hOk]
      exact ⟨ran_snoc hLoop hReceives hMeets hIter,
        hNext w' hSame (hWaiter'.trans hWaiter) hReplies, fun r hr => (hExplained r hr).append _⟩
  -- One case per stage of the conversation; in most of them the queue is empty and nothing
  -- is parked.
  cases hTalk with
  | showing hNone hWaiter hReplies =>
    exact hIdle rfl hWaiter fun w' h₁ h₂ h₃ => .showing (h₁.trans hNone) h₂ (h₃.trans hReplies)
  | resumed hWaiter => exact hIdle rfl hWaiter fun w' _ h₂ _ => .resumed h₂
  | returned hWaiter => exact hIdle rfl hWaiter fun w' _ h₂ _ => .returned h₂
  | cancelling hWaiter =>
    obtain ⟨w', hIter, hReplies⟩ := iteration_cancel (w := w) hMeets op_cancelMessage hWaiter rfl
    rw [iterate_eq hIter hReplies, hOk]
    exact ⟨ran_of_closing, .left, fun r hr => (hExplained r hr).append _⟩
  | sent hInto hNone hWaiter hReplies =>
    rename_i page
    obtain ⟨w', hIter, hSame, hCases⟩ :=
      iteration_wait (w := w) hMeets (op_waitMessage page) hWaiter
    have hReceived' : w'.received = [waitMessage page] := by rw [hSame, hNone]; rfl
    rcases hCases with ⟨hParked, hReplies'⟩ | ⟨r, hWaiter', hReplies'⟩
    · rw [iterate_eq hIter (a := []) (by rw [Flow.worker, hReplies', List.append_nil]), hOk]
      exact ⟨ran_snoc hLoop hReceives hMeets hIter,
        .parked hInto hReceived' hParked (hReplies'.trans hReplies), fun r hr => by cases hr⟩
    · exact inv_answered hB hLoop hReceives hMeets hOk hInto hReplies hIter hReceived'
        hWaiter' hReplies' rfl
  | parked hInto hOnly hWaiter hReplies =>
    rename_i page
    obtain ⟨w', hIter, hSame, hDelivered⟩ := iteration_idle (w := w) hMeets
    cases hDelivered with
    | kept hWaiter' hReplies' =>
      rw [iterate_eq hIter (a := []) (by rw [Flow.worker, hReplies', List.append_nil]), hOk]
      exact ⟨ran_snoc hLoop hReceives hMeets hIter,
        .parked hInto (hSame.trans hOnly) (hWaiter'.trans hWaiter) (hReplies'.trans hReplies),
        fun r hr => by cases hr⟩
    | answered msg r hParked hWaiter' hReplies' =>
      obtain rfl := Option.some.inj (hWaiter.symm.trans hParked)
      exact inv_answered hB hLoop hReceives hMeets hOk hInto hReplies hIter
        (hSame.trans hOnly) hWaiter' hReplies' rfl

/-- A page that could not be made has not been lent. -/
theorem explained_pageFailed {err : String} (hInto : B.intoBuf .empty = .error err) :
    Explained d s es (some (waitAndTakeBinary (B := B) fun page => .ok page)) := by
  have hEq : waitAndTakeBinary (B := B) (fun page => .ok page) =
      waitAndTakeBinary (B := B) fun _ => .error err := by
    rw [waitAndTakeBinary, waitAndTakeBinary, hInto]
  rw [hEq]
  exact .refused err

/-- The thread goes on by itself. -/
theorem talk_resumed {queue : List (Envelope B)} {sv : Server B} (h : Talk .showing queue sv)
    (r : Option WsResult) : Talk (.resumed r) queue sv := by
  cases h with
  | showing _ hWaiter => exact .resumed hWaiter
  | left => exact .left
  | gone => exact .gone nofun nofun
  | abandoned => exact .abandoned

/-- **One step** keeps the invariant. -/
theorem inv_step (hB : B.Lawful) {flush : Flushes} {l : Label B} {x' : Exchange B}
    (h : Inv d s x) (hStep : x.step flush l = some x') : Inv d s x' := by
  have hTaken := step_taken hStep
  obtain ⟨hRan, hTalk, hExplained⟩ := h
  -- The worker's own iterations are done; the others change the caller, its queue or the
  -- server.
  cases hTaken with
  | iterates hServer e => exact inv_iterate hB ⟨hRan, hTalk, hExplained⟩ hServer e
  | modalFailed hCaller =>
    rw [hCaller] at hTalk
    refine ⟨hRan, talk_resumed hTalk none, fun r hr => ?_⟩
    obtain rfl := Option.some.inj hr
    exact .modalFailed
  | pageFailed hCaller hInto =>
    rw [hCaller] at hTalk
    refine ⟨hRan, talk_resumed hTalk _, fun r hr => ?_⟩
    obtain rfl := Option.some.inj hr
    exact explained_pageFailed hInto
  | waitRefused hCaller err =>
    rw [hCaller] at hTalk
    refine ⟨hRan, talk_resumed hTalk _, fun r hr => ?_⟩
    obtain rfl := Option.some.inj hr
    exact .refused err
  | waits hCaller hInto hUp =>
    refine ⟨hRan, ?_, fun r hr => by cases hr⟩
    obtain ⟨c, queue, sv, es⟩ := x
    obtain rfl := hCaller
    cases hTalk with
    | showing hReceived hWaiter hReplies => exact .sent hInto hReceived hWaiter hReplies
    | left => exact .left
    | gone => cases hUp
    | abandoned => exact .abandoned
  | cancels hCaller hUp =>
    refine ⟨hRan, ?_, fun r hr => hExplained r (by rw [hCaller]; exact hr)⟩
    obtain ⟨c, queue, sv, es⟩ := x
    obtain rfl := hCaller
    cases hTalk with
    | resumed hWaiter => exact .cancelling hWaiter
    | left => exact .left
    | gone => cases hUp
    | abandoned => exact .abandoned
  | cancelRefused hCaller =>
    refine ⟨hRan, ?_, fun r hr => hExplained r (by rw [hCaller]; exact hr)⟩
    obtain ⟨c, queue, sv, es⟩ := x
    obtain rfl := hCaller
    cases hTalk with
    | resumed hWaiter => exact .returned hWaiter
    | left => exact .left
    | gone => exact .gone nofun nofun
    | abandoned => exact .abandoned
  | destroys hServer err hEnd =>
    refine ⟨fun _ h => (by cases h), ?_, fun r hr => ?_⟩
    · cases x.caller <;> exact .gone nofun nofun
    · cases hCaller : x.caller with
      | showing => rw [hCaller] at hr; cases hr
      | waiting =>
        rw [hCaller] at hr
        obtain rfl := Option.some.inj hr
        exact .refused err
      | resumed r' => rw [hCaller] at hr; exact hExplained r (by rw [hCaller]; exact hr)
      | cancelling r' => rw [hCaller] at hr; exact hExplained r (by rw [hCaller]; exact hr)
      | returned r' => rw [hCaller] at hr; exact hExplained r (by rw [hCaller]; exact hr)

theorem inv_serving (d s : UInt64) : Inv d s (opened (.serving (Worker.start d s) : Server B)) := by
  refine ⟨fun w hServer => ?_, .showing rfl rfl rfl, fun r hr => by cases hr⟩
  obtain rfl := Server.serving.inj hServer
  exact ⟨rfl, fun _ h => absurd h List.not_mem_nil⟩

theorem inv_abandoned (d s : UInt64) : Inv d s (opened (.abandoned : Server B)) :=
  ⟨fun _ h => (by cases h), .abandoned, fun _ hr => by cases hr⟩

/-- The deadline of a worker, if it has come to set one. -/
def deadlineOf (overflowChecks : Bool) (clock : UInt64) : UInt64 :=
  (deadline overflowChecks clock 180).getD 0

/-- **Every run** keeps the invariant. -/
theorem inv_reach (hB : B.Lawful) {flush : Flushes} {ticktimer overflowChecks : Bool}
    {deadlineClock sendClock : UInt64} {ls : List (Label B)}
    (hReach : reach (Exchange.step flush) ls
      (opened (spawned ticktimer overflowChecks deadlineClock sendClock)) = some x) :
    Inv (deadlineOf overflowChecks deadlineClock) sendClock x := by
  refine reach_invariant (fun _ _ _ => inv_step hB) ?_ hReach
  unfold spawned deadlineOf
  split
  · split
    · rename_i hDeadline
      rw [hDeadline]
      exact inv_serving _ _
    · exact inv_abandoned _ _
  · exact inv_abandoned _ _

end Invariant

-- ---------------------------------------------------------------------------
-- The result
-- ---------------------------------------------------------------------------

section Result

variable {d s : UInt64} {es : List (Iteration B)} {r : Option WsResult}

/-- An error of the kernel is the caller's error. -/
theorem takes_refused (err : String) :
    ∃ e, waitAndTakeBinary (B := B) (fun _ => .error err) = .error e := by
  unfold waitAndTakeBinary
  split <;> exact ⟨_, rfl⟩

/-- A result is the deadline, an end of the websocket, a frame that an iteration
has read, or an error; it is never that the wait was cancelled. -/
theorem Explained.cases (h : Explained d s es r) :
    r = none ∨ r = some .timedOut ∨ r = some .closed ∨ (∃ e, r = some (.error e)) ∨
      ∃ b hLen, r = some (.binary b) ∧ firstTerminal es d s = some (.binary b hLen) ∧
        ∃ e ∈ es, e.read = .ok (.binary b) := by
  cases h with
  | modalFailed => exact .inl rfl
  | refused err =>
    obtain ⟨e, he⟩ := takes_refused (B := B) err
    exact .inr (.inr (.inr (.inl ⟨e, congrArg some he⟩)))
  | event hEvent =>
    rcases firstTerminal_cases hEvent with rfl | rfl | rfl | ⟨b, hLen, rfl, hRead⟩
    · exact .inr (.inl rfl)
    · exact .inr (.inr (.inr (.inl ⟨_, rfl⟩)))
    · exact .inr (.inr (.inl rfl))
    · exact .inr (.inr (.inr (.inr ⟨b, hLen, rfl, hEvent, hRead⟩)))

end Result

/-- **The account is touched for an authentic message only.** However the thread
of `Manager::link` and the worker take turns, whatever the websocket, the clock,
the modal and the kernel do: once the exchange is over, either the first terminal
event was a frame that an iteration of the worker has read and that is authentic
under the temporary key, and linking goes on with the message in it; or linking
fails, issues no request and leaves the manager as it is. -/
theorem link_authentic {U : UrlCrate} {L : Libsignal} (hB : B.Lawful) {flush : Flushes}
    {ticktimer overflowChecks : Bool} {deadlineClock sendClock : UInt64} {ls : List (Label B)}
    {x : Exchange B} {r : Option WsResult}
    (hReach : reach (Exchange.step flush) ls
      (opened (spawned ticktimer overflowChecks deadlineClock sendClock)) = some x)
    (hReturned : x.caller = .returned r) (C : Curve L) (P : Provisioning.Primitives)
    (identityKeyPair : ProvisionedIdentity) (t : Turn U L) (m : Manager U) (name : String) :
    (∃ b hLen msg, r = some (.binary b) ∧
      firstTerminal x.iterations (deadlineOf overflowChecks deadlineClock) sendClock =
        some (.binary b hLen) ∧
      (∃ e ∈ x.iterations, e.read = .ok (.binary b)) ∧
      ProvisionFormat.Authentic C P identityKeyPair b ∧
      Provisioning.decode C P identityKeyPair b = .ok msg ∧
      finishLink C P identityKeyPair t m name r = m.link { t with provisioned := .ok msg } name) ∨
    finishLink C P identityKeyPair t m name r = .done (.ok (.error linkErr, m)) := by
  have hExplained := (inv_reach hB hReach).explained r (by rw [hReturned]; rfl)
  rcases hExplained.cases with rfl | rfl | rfl | ⟨e, rfl⟩ | ⟨b, hLen, rfl, hEvent, hRead⟩
  · exact .inr rfl
  · exact .inr rfl
  · exact .inr rfl
  · exact .inr rfl
  · rcases hDecode : Provisioning.decode C P identityKeyPair b with f | msg
    · refine .inr ?_
      rw [finishLink, provisioned, hDecode]
      rfl
    · refine .inl ⟨b, hLen, msg, rfl, hEvent, hRead,
        ProvisionFormat.authentic_of_decode C P hDecode, hDecode, ?_⟩
      rw [finishLink, provisioned, hDecode]

/-- With a message linking does not end like that. -/
theorem link_yields {U : UrlCrate} {L : Libsignal} {t : Turn U L} {msg : ProvisionMessage}
    (hProvisioned : t.provisioned = .ok msg) (m : Manager U) (name : String) :
    (m.link t name).Yields fun r => ∀ e m', r ≠ .ok (.error e, m') := by
  rw [Manager.link, hProvisioned]
  refine (Prog.yields_of_forall (fun _ => trivial) _).bind (Q := fun _ => True) fun r _ => ?_
  rcases r with p | ⟨e | result, account⟩ <;> exact fun _ _ => nofun

/-- An iteration that receives what there is. -/
def reads (clock : UInt64) (read : Except MainWs.WsError MainWs.Frame) : Iteration .plain :=
  ⟨.ok none, clock, 0, .ok (), 0, read⟩

/-- A message for the temporary key `[4]`. -/
def plainEnvelope : Bytes :=
  (ProvisionFormat.encode Curve.plain ProvisionFormat.Primitives.plain ProvisionFormat.plainEncrypt
    ProvisionFormat.plainFrame [9] [4] (List.replicate 16 8)
    ProvisionFormat.plainContent).toOption.getD []

def temporaryKey : ProvisionedIdentity := ⟨"", "", Base64.encode Base64.urlSafe [4]⟩

/-- The envelope comes while the modal is shown. -/
def linkedRun : List (Label .plain) :=
  [.iterate (reads 0 (.ok (.binary plainEnvelope))), .modal true, .iterate (reads 0 (.ok .close)),
    .cancel, .iterate (reads 0 (.ok .close))]

theorem link_authentic_plain : ∃ x, reach (Exchange.step fun _ => .ok ()) linkedRun
      (opened (spawned true false 0 0)) = some x ∧
    x.caller = .returned (some (.binary plainEnvelope)) ∧
    ProvisionFormat.Authentic Curve.plain ProvisionFormat.Primitives.plain temporaryKey
      plainEnvelope := by
  have hRun : (reach (Exchange.step fun _ => .ok ()) linkedRun
      (opened (spawned true false 0 0))).map Exchange.caller =
      some (.returned (some (.binary plainEnvelope))) := by decide +kernel
  obtain ⟨x, hReach, hReturned⟩ := Option.map_eq_some_iff.mp hRun
  refine ⟨x, hReach, hReturned, ?_⟩
  have hDecode : (Provisioning.decode Curve.plain ProvisionFormat.Primitives.plain temporaryKey
      plainEnvelope).isOk = true := by decide +kernel
  rcases link_authentic IpcBuffer.plain_lawful hReach hReturned Curve.plain
    ProvisionFormat.Primitives.plain temporaryKey LoadedManager.registering
    ⟨fresh, "signal.org", .live, "https://chat.signal.org"⟩ "xous" with
    ⟨b, hLen, msg, hResult, -, -, hAuthentic, -⟩ | hFailed
  · obtain rfl := WsResult.binary.inj (Option.some.inj hResult)
    exact hAuthentic
  · rcases hMsg : Provisioning.decode Curve.plain ProvisionFormat.Primitives.plain temporaryKey
      plainEnvelope with f | msg
    · rw [hMsg] at hDecode
      cases hDecode
    · rw [finishLink, provisioned, hMsg] at hFailed
      have hYields := link_yields (t := { LoadedManager.registering with provisioned := .ok msg })
        rfl ⟨fresh, "signal.org", .live, "https://chat.signal.org"⟩ "xous"
      rw [hFailed] at hYields
      exact absurd rfl (hYields _ _)

end Sigchat.Results.LinkExchange

import Sigchat.Model.WsServer

/-!
# One wait gets the first terminal event

The worker may meet its terminal event before the wait arrives or after. What
its loop has met is summarised by the first terminal event of its iterations,
found without the variables `pending` and `waiter`; the invariant says what
these two hold, and what has been answered, for each value of it.

* `loop_settled` — the invariant at the end of every run;
* `wait_gets_first_terminal` — the wait is answered at most once, and once
  there is an event or a cancel with that event, down to what the caller gets.
-/

namespace Sigchat.Results

open Sigchat.Lib
open Sigchat.Pddb
open Sigchat.MainWs (Frame WsError isTimeout)
open Sigchat.WsServer

variable {B : IpcBuffer}

-- ---------------------------------------------------------------------------
-- Waits and their answers
-- ---------------------------------------------------------------------------

/-- The waits the worker has received. -/
def waits (w : Worker B) : List (Envelope B) :=
  w.received.filter fun msg => msg.op = some .waitAndTakeBinary

def waitAnswer : Reply B → Option (Envelope B × B.Page)
  | .page msg p => if msg.op = some .waitAndTakeBinary then some (msg, p) else none
  | .scalar _ => none

/-- The pages that have gone back to senders of waits. -/
def answersIn (rs : List (Reply B)) : List (Envelope B × B.Page) := rs.filterMap waitAnswer

def answers (w : Worker B) : List (Envelope B × B.Page) := answersIn w.replies

/-- At most one wait has been received, as a memory message. -/
def AtMostOneWait (w : Worker B) : Prop :=
  waits w = [] ∨ ∃ msg page, waits w = [msg] ∧ msg.page = some page

@[simp] theorem answersIn_append (rs rs' : List (Reply B)) :
    answersIn (rs ++ rs') = answersIn rs ++ answersIn rs' := List.filterMap_append

/-- A page of another message is not an answer to a wait. -/
theorem answersIn_dropped {msg : Envelope B} (h : msg.op ≠ some .waitAndTakeBinary) :
    answersIn (dropped msg) = [] := by
  unfold dropped
  cases msg.page with
  | none => rfl
  | some page => simp [answersIn, waitAnswer, h]

theorem answersIn_fillBuf {msg : Envelope B} {page : B.Page}
    (h : msg.op = some .waitAndTakeBinary) (hPage : msg.page = some page) (r : PendingResult) :
    answersIn (fillBuf msg r) = [(msg, filledPage page r)] := by
  simp [fillBuf, hPage, answersIn, waitAnswer, h]

theorem answersIn_scalar (sender : Nat) : answersIn ([.scalar sender] : List (Reply B)) = [] := rfl

/-- A worker that has received fewer messages has received fewer waits. -/
theorem AtMostOneWait.of_prefix {w w' : Worker B} (h : AtMostOneWait w')
    (hPrefix : w.received <+: w'.received) : AtMostOneWait w := by
  have hWaits : waits w <+: waits w' := hPrefix.filter _
  rcases h with hNone | ⟨msg, page, hOne, hPage⟩
  · rw [hNone, List.prefix_nil] at hWaits
    exact .inl hWaits
  · rw [hOne, List.prefix_cons_iff] at hWaits
    rcases hWaits with hNil | ⟨rest, hEq, hRest⟩
    · exact .inl hNil
    · rw [List.prefix_nil] at hRest
      exact .inr ⟨msg, page, by rw [hEq, hRest], hPage⟩

-- ---------------------------------------------------------------------------
-- Terminal events
-- ---------------------------------------------------------------------------

/-- The result a frame is, if it is one. -/
def readEvent : Except WsError Frame → Option PendingResult
  | .ok (.binary b) =>
    some (if hLen : b.length ≤ wsProvisionMax then .binary b hLen else .error)
  | .ok .close => some .closed
  | .ok _ => none
  | .error err => if isTimeout err then none else some .error

/-- A keepalive is due. -/
def PingDue (e : Iteration B) (lastSendAt : UInt64) : Prop :=
  keepaliveMs ≤ e.keepaliveClock.toNat - lastSendAt.toNat

instance (e : Iteration B) (lastSendAt : UInt64) : Decidable (PingDue e lastSendAt) :=
  inferInstanceAs (Decidable (_ ≤ _))

/-- The terminal event of an iteration: the deadline, a failed ping, or what is
read. -/
def terminalEvent (e : Iteration B) (deadlineMs lastSendAt : UInt64) : Option PendingResult :=
  if deadlineMs ≤ e.deadlineClock then some .timedOut
  else if PingDue e lastSendAt ∧ e.ping.isOk = false then some .error
  else readEvent e.read

/-- When the last ping has been sent, after an iteration without an event. -/
def lastSendAfter (e : Iteration B) (lastSendAt : UInt64) : UInt64 :=
  if PingDue e lastSendAt then e.sentClock else lastSendAt

/-- The loop is left in this iteration. -/
def leaves (e : Iteration B) : Bool :=
  match e.received with
  | .ok (some msg) => msg.op = some .cancel
  | .ok none => false
  | .error _ => true

/-- The first terminal event of a run, in loop order. -/
def firstTerminal : List (Iteration B) → UInt64 → UInt64 → Option PendingResult
  | [], _, _ => none
  | e :: es, deadlineMs, lastSendAt =>
    if leaves e then none
    else (terminalEvent e deadlineMs lastSendAt).or
      (firstTerminal es deadlineMs (lastSendAfter e lastSendAt))

-- ---------------------------------------------------------------------------
-- The checks of one iteration
-- ---------------------------------------------------------------------------

/-- A read sets a result if none is pending. -/
theorem driveRead_eq (e : Iteration B) (w : Worker B) :
    w.driveRead e = { w with pending := w.pending.or (readEvent e.read) } := by
  obtain ⟨deadlineMs, lastSendAt, pending, waiter, received, replies⟩ := w
  cases pending with
  | some r => rfl
  | none =>
    simp only [Worker.driveRead, Option.isNone_none, if_true, Option.none_or]
    cases e.read with
    | error err =>
      by_cases hTimeout : isTimeout err = true <;> simp [readEvent, hTimeout]
    | ok m =>
      cases m with
      | binary b => by_cases hLen : b.length ≤ wsProvisionMax <;> simp [readEvent, hLen]
      | _ => rfl

/-- A keepalive that is due either fails, or has been sent. -/
theorem keepalive_eq (e : Iteration B) {w : Worker B} (hNone : w.pending = none) :
    w.keepalive e =
      if PingDue e w.lastSendAt ∧ e.ping.isOk = false then { w with pending := some .error }
      else { w with lastSendAt := lastSendAfter e w.lastSendAt } := by
  unfold Worker.keepalive lastSendAfter
  by_cases hDue : PingDue e w.lastSendAt
  · rw [if_pos ⟨by rw [hNone]; rfl, hDue⟩]
    cases hPing : e.ping with
    | ok _ => simp [hDue, Except.isOk, Except.toBool]
    | error err => simp [hDue, Except.isOk, Except.toBool]
  · rw [if_neg fun h => hDue h.2, if_neg fun h => hDue h.1, if_neg hDue]

theorem keepalive_some (e : Iteration B) {w : Worker B} {r : PendingResult}
    (hSome : w.pending = some r) : w.keepalive e = w := by
  simp [Worker.keepalive, hSome]

/-- **The checks together** look for an event unless one is pending. -/
theorem observe_eq (e : Iteration B) (w : Worker B) :
    ∃ last, ((w.checkDeadline e).keepalive e).driveRead e =
      { w with
        pending := w.pending.or (terminalEvent e w.deadlineMs w.lastSendAt)
        lastSendAt := last } ∧
      (w.pending = none → terminalEvent e w.deadlineMs w.lastSendAt = none →
        last = lastSendAfter e w.lastSendAt) := by
  rw [driveRead_eq]
  -- With a result pending the three checks do nothing.
  by_cases hPending : w.pending = none
  -- The deadline comes before the keepalive and the read.
  · by_cases hDeadline : w.deadlineMs ≤ e.deadlineClock
    · have hEvent : terminalEvent e w.deadlineMs w.lastSendAt = some .timedOut := if_pos hDeadline
      have hCheck : w.checkDeadline e = { w with pending := some .timedOut } :=
        if_pos ⟨by rw [hPending]; rfl, hDeadline⟩
      rw [hCheck, keepalive_some e rfl, hEvent, hPending]
      exact ⟨w.lastSendAt, rfl, nofun⟩
    · have hCheck : w.checkDeadline e = w := if_neg fun h => hDeadline h.2
      rw [hCheck, keepalive_eq e hPending, terminalEvent, if_neg hDeadline]
      split
      · rw [hPending]
        exact ⟨w.lastSendAt, rfl, nofun⟩
      · exact ⟨lastSendAfter e w.lastSendAt, rfl, fun _ _ => rfl⟩
  · obtain ⟨r, hSome⟩ := Option.ne_none_iff_exists'.mp hPending
    have hCheck : w.checkDeadline e = w := if_neg fun h => by simp [hSome] at h
    rw [hCheck, keepalive_some e hSome, hSome]
    exact ⟨w.lastSendAt, rfl, nofun⟩

-- ---------------------------------------------------------------------------
-- The invariant
-- ---------------------------------------------------------------------------

/-- What the worker holds and has answered when `ev` is the first terminal
event so far: no wait has come, one is parked, or it has got the event. -/
inductive Waiting (w : Worker B) (ev : Option PendingResult) : Prop
  | noWait (hWaits : waits w = []) (hWaiter : w.waiter = none) (hPending : w.pending = ev)
      (hAnswers : answers w = [])
  | parked (msg : Envelope B) (page : B.Page) (hWaits : waits w = [msg])
      (hPage : msg.page = some page) (hWaiter : w.waiter = some msg) (hPending : w.pending = none)
      (hEvent : ev = none) (hAnswers : answers w = [])
  | answered (msg : Envelope B) (page : B.Page) (r : PendingResult) (hWaits : waits w = [msg])
      (hPage : msg.page = some page) (hWaiter : w.waiter = none) (hEvent : ev = some r)
      (hAnswers : answers w = [(msg, filledPage page r)])

/-- The same once a cancel has been handled. -/
inductive Cancelled (w : Worker B) (ev : Option PendingResult) : Prop
  | noWait (hWaits : waits w = []) (hAnswers : answers w = [])
  | answered (msg : Envelope B) (page : B.Page) (hWaits : waits w = [msg])
      (hPage : msg.page = some page)
      (hAnswers : answers w = [(msg, filledPage page (ev.getD .cancelled))])

/-- Without an event nothing is pending. -/
theorem Waiting.pending {w : Worker B} (h : Waiting w none) : w.pending = none := by
  cases h with
  | noWait _ _ hPending => exact hPending
  | parked _ _ _ _ _ hPending => exact hPending
  | answered _ _ _ _ _ _ hEvent => exact absurd hEvent nofun

/-- What is said of a run. -/
def Settled (ev : Option PendingResult) : Flow B → Prop
  | .running w => Waiting w ev
  | .exited w => Cancelled w ev

/-- A message that has just been received. -/
def receive (w : Worker B) (msg : Envelope B) : Worker B :=
  { w with received := w.received ++ [msg] }

/-- The outcomes of serving a message. -/
inductive Served (e : Iteration B) (w : Worker B) : Flow B → Prop
  | idle (hNone : e.received = .ok none) : Served e w (.running w)
  | wait (msg : Envelope B) (hMsg : e.received = .ok (some msg))
      (hOp : msg.op = some .waitAndTakeBinary) :
      Served e w (.running ((receive w msg).takeWait msg))
  | unknown (msg : Envelope B) (hMsg : e.received = .ok (some msg)) (hOp : msg.op = none) :
      Served e w (.running { receive w msg with replies := w.replies ++ dropped msg })
  | cancel (msg : Envelope B) (hMsg : e.received = .ok (some msg)) (hOp : msg.op = some .cancel) :
      Served e w (.exited ((receive w msg).cancel msg))
  | failed (err : String) (hErr : e.received = .error err) : Served e w (.exited w)

/-- What an iteration receives is one of five things. -/
theorem serviceIpc_served (e : Iteration B) (w : Worker B) : Served e w (w.serviceIpc e) := by
  unfold Worker.serviceIpc
  cases hReceived : e.received with
  | error err => exact .failed err hReceived
  | ok m =>
    cases m with
    | none => exact .idle hReceived
    | some msg =>
      dsimp only
      cases hOp : msg.op with
      | none => exact .unknown msg hReceived hOp
      | some op =>
        cases op with
        | waitAndTakeBinary => exact .wait msg hReceived hOp
        | cancel => exact .cancel msg hReceived hOp

section Iterations

variable {e : Iteration B} {w : Worker B} {ev : Option PendingResult} {msg : Envelope B}

theorem op_of_waits (h : waits w = [msg]) : msg.op = some .waitAndTakeBinary := by
  have hMem : msg ∈ waits w := by rw [h]; exact List.mem_singleton_self _
  simpa using (List.mem_filter.mp hMem).2

theorem waits_receive_other (h : msg.op ≠ some .waitAndTakeBinary) :
    waits (receive w msg) = waits w := by
  simp [receive, waits, h]

/-- The only wait that is received. -/
theorem waits_receive_wait (h : msg.op = some .waitAndTakeBinary)
    (hOne : AtMostOneWait (receive w msg)) :
    waits w = [] ∧ waits (receive w msg) = [msg] ∧ ∃ page, msg.page = some page := by
  have hWaits : waits (receive w msg) = waits w ++ [msg] := by simp [receive, waits, h]
  rcases hOne with hNone | ⟨msg', page, hEq, hPage⟩
  · rw [hWaits] at hNone
    exact absurd hNone (List.append_ne_nil_of_right_ne_nil _ (List.cons_ne_nil _ _))
  · rw [hWaits] at hEq
    obtain ⟨hNil, hMsg⟩ := List.append_eq_singleton_iff.mp hEq |>.resolve_right fun h =>
      absurd h.2 (List.cons_ne_nil _ _)
    obtain rfl := List.singleton_inj.mp hMsg
    exact ⟨hNil, by rw [hWaits, hNil]; rfl, page, hPage⟩

/-- A wait gets the event, or is parked. -/
theorem waiting_takeWait (h : Waiting w ev) (hOp : msg.op = some .waitAndTakeBinary)
    (hOne : AtMostOneWait (receive w msg)) : Waiting ((receive w msg).takeWait msg) ev := by
  obtain ⟨hNone, hWaits, page, hPage⟩ := waits_receive_wait hOp hOne
  -- It is the only wait, so none is parked or answered yet.
  cases h with
  | parked msg' _ hWaits' => exact absurd (hNone.symm.trans hWaits') nofun
  | answered msg' _ _ hWaits' => exact absurd (hNone.symm.trans hWaits') nofun
  | noWait _ hWaiter hPending hAnswers =>
    unfold Worker.takeWait
    cases hCase : (receive w msg).pending with
    | some r =>
      refine .answered msg page r hWaits hPage hWaiter (hPending.symm.trans hCase) ?_
      show answersIn (w.replies ++ fillBuf msg r) = _
      rw [answersIn_append, answersIn_fillBuf hOp hPage]
      exact congrArg (· ++ _) hAnswers
    | none =>
      refine .parked msg page hWaits hPage rfl hCase (hPending.symm.trans hCase) ?_
      have hReplies : ((receive w msg).park msg).replies = w.replies := by
        simp [Worker.park, receive, hWaiter]
      rw [answers, hReplies]
      exact hAnswers

/-- An unknown opcode changes nothing. -/
theorem waiting_unknown (h : Waiting w ev) (hOp : msg.op ≠ some .waitAndTakeBinary) :
    Waiting { receive w msg with replies := w.replies ++ dropped msg } ev := by
  have hWaits : waits { receive w msg with replies := w.replies ++ dropped msg } = waits w :=
    waits_receive_other hOp
  have hAnswers : answers { receive w msg with replies := w.replies ++ dropped msg } =
      answers w := by
    rw [answers, answersIn_append, answersIn_dropped hOp, List.append_nil]
    rfl
  cases h with
  | noWait h₁ h₂ h₃ h₄ => exact .noWait (hWaits.trans h₁) h₂ h₃ (hAnswers.trans h₄)
  | parked m p h₁ h₂ h₃ h₄ h₅ h₆ =>
    exact .parked m p (hWaits.trans h₁) h₂ h₃ h₄ h₅ (hAnswers.trans h₆)
  | answered m p r h₁ h₂ h₃ h₄ h₅ =>
    exact .answered m p r (hWaits.trans h₁) h₂ h₃ h₄ (hAnswers.trans h₅)

/-- A cancel answers a parked wait. -/
theorem cancelled_cancel (h : Waiting w ev) (hOp : msg.op ≠ some .waitAndTakeBinary) :
    Cancelled ((receive w msg).cancel msg) ev := by
  have hWaits : waits ((receive w msg).cancel msg) = waits w := waits_receive_other hOp
  have hAnswers : answers ((receive w msg).cancel msg) =
      answers w ++ answersIn ((w.waiter.map fun m => fillBuf m .cancelled).getD []) := by
    rw [answers, Worker.cancel, answersIn_append, answersIn_dropped hOp, answersIn_append,
      answersIn_scalar, answersIn_append, List.append_nil, List.append_nil]
    rfl
  -- A wait that is parked is answered with the cancellation, if no result was first.
  cases h with
  | noWait h₁ hWaiter _ h₄ =>
    rw [hWaiter, h₄] at hAnswers
    exact .noWait (hWaits.trans h₁) hAnswers
  | parked m p h₁ hPage hWaiter _ hEvent h₆ =>
    rw [hWaiter, h₆, List.nil_append] at hAnswers
    subst hEvent
    exact .answered m p (hWaits.trans h₁) hPage
      (hAnswers.trans (answersIn_fillBuf (op_of_waits h₁) hPage _))
  | answered m p r h₁ hPage hWaiter hEvent h₅ =>
    rw [hWaiter, h₅] at hAnswers
    subst hEvent
    exact .answered m p (hWaits.trans h₁) hPage hAnswers

theorem deliver_of_none (hWaiter : w.waiter = none) : w.deliver = w := by
  simp [Worker.deliver, hWaiter]

/-- With a wait and a result there, the wait gets the result. -/
theorem deliver_of_some (hWaiter : w.waiter = some msg) {r : PendingResult}
    (hPending : w.pending = some r) :
    w.deliver =
      { w with pending := none, waiter := none, replies := w.replies ++ fillBuf msg r } := by
  simp [Worker.deliver, hWaiter, hPending]

/-- Nothing is delivered while no wait is parked. -/
theorem observed_of_none (hWaiter : w.waiter = none) (e : Iteration B) :
    ∃ last, (((w.checkDeadline e).keepalive e).driveRead e).deliver =
      { w with
        pending := w.pending.or (terminalEvent e w.deadlineMs w.lastSendAt)
        lastSendAt := last } := by
  obtain ⟨last, hObserve, -⟩ := observe_eq e w
  refine ⟨last, ?_⟩
  rw [hObserve, deliver_of_none (w := { w with pending := _, lastSendAt := last }) hWaiter]

/-- What the checks find is delivered to a parked wait. -/
theorem waiting_observed (h : Waiting w ev) (e : Iteration B) :
    Waiting (((w.checkDeadline e).keepalive e).driveRead e).deliver
      (ev.or (terminalEvent e w.deadlineMs w.lastSendAt)) := by
  obtain ⟨last, hObserve, -⟩ := observe_eq e w
  rw [hObserve]
  generalize terminalEvent e w.deadlineMs w.lastSendAt = found
  -- A result is kept for the wait, given to it, or of no use any more.
  cases h with
  | noWait h₁ hWaiter hPending h₄ =>
    rw [deliver_of_none (w := { w with pending := _, lastSendAt := last }) hWaiter]
    exact .noWait h₁ hWaiter (by rw [hPending]) h₄
  | parked m p h₁ hPage hWaiter hPending hEvent h₆ =>
    subst hEvent
    rw [hPending, Option.none_or]
    cases found with
    | none => exact .parked m p h₁ hPage hWaiter rfl rfl h₆
    | some r =>
      rw [deliver_of_some (w := { w with pending := some r, lastSendAt := last }) hWaiter rfl]
      refine .answered m p r h₁ hPage rfl rfl ?_
      rw [answers, answersIn_append, answersIn_fillBuf (op_of_waits h₁) hPage]
      exact congrArg (· ++ _) h₆
  | answered m p r h₁ hPage hWaiter hEvent h₅ =>
    rw [deliver_of_none (w := { w with pending := _, lastSendAt := last }) hWaiter]
    exact .answered m p r h₁ hPage hWaiter (by rw [hEvent]; rfl) h₅

@[simp] theorem received_takeWait (w : Worker B) (msg : Envelope B) :
    (w.takeWait msg).received = w.received := by
  unfold Worker.takeWait
  split <;> rfl

@[simp] theorem received_deliver (w : Worker B) : w.deliver.received = w.received := by
  unfold Worker.deliver
  split <;> rfl

@[simp] theorem received_observe (e : Iteration B) (w : Worker B) :
    (((w.checkDeadline e).keepalive e).driveRead e).received = w.received := by
  obtain ⟨last, hObserve, -⟩ := observe_eq e w
  rw [hObserve]

@[simp] theorem received_iteration (e : Iteration B) (w : Worker B) :
    (w.iteration e).worker.received = (w.serviceIpc e).worker.received := by
  unfold Worker.iteration
  cases w.serviceIpc e with
  | exited w' => rfl
  | running w' => exact (received_deliver _).trans (received_observe e w')

/-- IPC leaves the clocks alone. -/
theorem takeWait_clocks (w : Worker B) (msg : Envelope B) :
    (w.takeWait msg).deadlineMs = w.deadlineMs ∧ (w.takeWait msg).lastSendAt = w.lastSendAt := by
  unfold Worker.takeWait
  split <;> exact ⟨rfl, rfl⟩

theorem deliver_clocks (w : Worker B) :
    w.deliver.deadlineMs = w.deadlineMs ∧ w.deliver.lastSendAt = w.lastSendAt := by
  unfold Worker.deliver
  split <;> exact ⟨rfl, rfl⟩

/-- What the first step of an iteration does, unless it leaves the loop. -/
theorem serviceIpc_stays (h : Waiting w ev) {m : Option (Envelope B)}
    (hReceived : e.received = .ok m) (hOne : AtMostOneWait (w.serviceIpc e).worker)
    (hStays : leaves e = false) :
    ∃ w', w.serviceIpc e = .running w' ∧ w'.deadlineMs = w.deadlineMs ∧
      w'.lastSendAt = w.lastSendAt ∧ Waiting w' ev := by
  have hServed := serviceIpc_served e w
  generalize w.serviceIpc e = f at hServed hOne ⊢
  cases hServed with
  | idle => exact ⟨w, rfl, rfl, rfl, h⟩
  | wait msg hMsg hOp =>
    have hReceive : AtMostOneWait (receive w msg) :=
      hOne.of_prefix ⟨[], by rw [List.append_nil, Flow.worker, received_takeWait]⟩
    obtain ⟨hDeadline, hLast⟩ := takeWait_clocks (receive w msg) msg
    exact ⟨_, rfl, hDeadline, hLast, waiting_takeWait h hOp hReceive⟩
  | unknown msg hMsg hOp =>
    exact ⟨_, rfl, rfl, rfl, waiting_unknown h (by rw [hOp]; exact nofun)⟩
  | cancel msg hMsg hOp => simp [leaves, hMsg, hOp] at hStays
  | failed err hErr => exact absurd (hReceived.symm.trans hErr) nofun

/-- A Cancel answers the wait that is parked and leaves the loop. -/
theorem serviceIpc_leaves (h : Waiting w ev) {m : Option (Envelope B)}
    (hReceived : e.received = .ok m) (hLeaves : leaves e = true) :
    ∃ w', w.serviceIpc e = .exited w' ∧ Cancelled w' ev := by
  have hServed := serviceIpc_served e w
  generalize w.serviceIpc e = f at hServed ⊢
  cases hServed with
  | idle hNone => simp [leaves, hNone] at hLeaves
  | wait msg hMsg hOp => simp [leaves, hMsg, hOp] at hLeaves
  | unknown msg hMsg hOp => simp [leaves, hMsg, hOp] at hLeaves
  | cancel msg hMsg hOp => exact ⟨_, rfl, cancelled_cancel h (by rw [hOp]; exact nofun)⟩
  | failed err hErr => exact absurd (hReceived.symm.trans hErr) nofun

/-- **One iteration.** -/
theorem iteration_settled (h : Waiting w ev) {m : Option (Envelope B)}
    (hReceived : e.received = .ok m) (hOne : AtMostOneWait (w.iteration e).worker) :
    if leaves e then ∃ w', w.iteration e = .exited w' ∧ Cancelled w' ev
    else ∃ w', w.iteration e = .running w' ∧ w'.deadlineMs = w.deadlineMs ∧
      Waiting w' (ev.or (terminalEvent e w.deadlineMs w.lastSendAt)) ∧
      (ev.or (terminalEvent e w.deadlineMs w.lastSendAt) = none →
        w'.lastSendAt = lastSendAfter e w.lastSendAt) := by
  have hOne' : AtMostOneWait (w.serviceIpc e).worker :=
    hOne.of_prefix ⟨[], by rw [List.append_nil, received_iteration]⟩
  unfold Worker.iteration
  -- A Cancel ends it; everything else goes through the checks.
  cases hLeaves : leaves e with
  | true =>
    obtain ⟨w', hService, hCancelled⟩ := serviceIpc_leaves h hReceived hLeaves
    rw [hService]
    exact ⟨w', rfl, hCancelled⟩
  | false =>
    obtain ⟨w', hService, hDeadline, hLast, hWaiting⟩ :=
      serviceIpc_stays h hReceived hOne' hLeaves
    rw [hService, ← hDeadline, ← hLast]
    obtain ⟨last, hObserve, hSent⟩ := observe_eq e w'
    obtain ⟨hDeadline', hLast'⟩ := deliver_clocks (((w'.checkDeadline e).keepalive e).driveRead e)
    refine ⟨_, rfl, ?_, waiting_observed hWaiting e, fun hNone => ?_⟩
    · rw [hDeadline', hObserve]
    · obtain ⟨rfl, hEvent⟩ := Option.or_eq_none_iff.mp hNone
      rw [hLast', hObserve]
      exact hSent hWaiting.pending hEvent

-- ---------------------------------------------------------------------------
-- Whole runs
-- ---------------------------------------------------------------------------

/-- What has been received stays received. -/
theorem received_serviceIpc (e : Iteration B) (w : Worker B) :
    w.received <+: (w.serviceIpc e).worker.received := by
  have hServed := serviceIpc_served e w
  generalize w.serviceIpc e = f at hServed ⊢
  cases hServed with
  | idle | failed => exact List.prefix_rfl
  | wait msg =>
    rw [Flow.worker, received_takeWait]
    exact List.prefix_append _ _
  | unknown | cancel => exact List.prefix_append _ _

/-- What has been received stays received over any number of iterations. -/
theorem received_loop (es : List (Iteration B)) (w : Worker B) :
    w.received <+: (Worker.loop es w).worker.received := by
  induction es generalizing w with
  | nil => exact List.prefix_rfl
  | cons e es ih =>
    have hHead : w.received <+: (w.iteration e).worker.received := by
      rw [received_iteration]
      exact received_serviceIpc e w
    unfold Worker.loop
    cases hIter : w.iteration e with
    | exited w' => rwa [hIter] at hHead
    | running w' =>
      rw [hIter] at hHead
      exact hHead.trans (ih w')

/-- **The loop** keeps the invariant, for the first terminal event of its
iterations. -/
theorem loop_settled {es : List (Iteration B)} (h : Waiting w ev)
    (hReceives : ∀ e ∈ es, ∃ m, e.received = .ok m)
    (hOne : AtMostOneWait (Worker.loop es w).worker) :
    Settled (ev.or (firstTerminal es w.deadlineMs w.lastSendAt)) (Worker.loop es w) := by
  -- Iteration by iteration, with the first event found so far.
  induction es generalizing w ev with
  | nil =>
    rw [firstTerminal, Option.or_none]
    exact h
  | cons e es ih =>
    obtain ⟨m, hReceived⟩ := hReceives e List.mem_cons_self
    have hOneHead : AtMostOneWait (w.iteration e).worker := by
      refine hOne.of_prefix ?_
      unfold Worker.loop
      cases w.iteration e with
      | exited w' => exact List.prefix_rfl
      | running w' => exact received_loop es w'
    have hStep := iteration_settled h hReceived hOneHead
    rw [Worker.loop] at hOne ⊢
    rw [firstTerminal]
    cases hLeaves : leaves e with
    | true =>
      rw [hLeaves] at hStep
      obtain ⟨w', hIter, hCancelled⟩ := hStep
      rw [hIter, if_pos rfl, Option.or_none]
      exact hCancelled
    | false =>
      rw [hLeaves] at hStep
      obtain ⟨w', hIter, hDeadline, hWaiting, hLast⟩ := hStep
      rw [hIter] at hOne ⊢
      have hRest := ih hWaiting (fun e' he' => hReceives e' (List.mem_cons_of_mem _ he')) hOne
      rw [if_neg (by exact nofun), ← Option.or_assoc]
      rw [hDeadline] at hRest
      cases hEvent : ev.or (terminalEvent e w.deadlineMs w.lastSendAt) with
      | some r =>
        rw [hEvent] at hRest
        exact hRest
      | none =>
        rw [hLast hEvent, hEvent] at hRest
        exact hRest

/-- The loop can be cut anywhere, if it has not ended. -/
theorem loop_append (es es' : List (Iteration B)) (w : Worker B) :
    Worker.loop (es ++ es') w =
      match Worker.loop es w with
      | .running w' => Worker.loop es' w'
      | .exited w' => .exited w' := by
  induction es generalizing w with
  | nil => rfl
  | cons e es ih =>
    rw [List.cons_append, Worker.loop, Worker.loop]
    cases w.iteration e with
    | exited w' => rfl
    | running w' => exact ih w'

/-- An iteration that does not leave the loop has not received a cancel. -/
theorem no_cancel_of_iteration {w' : Worker B} (hRunning : w.iteration e = .running w')
    {m : Envelope B} (hm : m ∈ w'.received) : m ∈ w.received ∨ m.op ≠ some .cancel := by
  have hReceived : (w.iteration e).worker.received = w'.received := by rw [hRunning]; rfl
  rw [← hReceived, received_iteration] at hm
  have hServed := serviceIpc_served e w
  unfold Worker.iteration at hRunning
  generalize w.serviceIpc e = f at hServed hm hRunning
  have hAppend {msg : Envelope B} (h : m ∈ w.received ++ [msg]) (hOp : msg.op ≠ some .cancel) :
      m ∈ w.received ∨ m.op ≠ some .cancel :=
    (List.mem_append.mp h).imp id fun hLast => by rwa [List.mem_singleton.mp hLast]
  -- The worker goes on, so what it has received is no Cancel.
  cases hServed with
  | idle => exact .inl hm
  | wait msg hMsg hOp =>
    rw [Flow.worker, received_takeWait] at hm
    exact hAppend hm (by rw [hOp]; exact nofun)
  | unknown msg hMsg hOp => exact hAppend hm (by rw [hOp]; exact nofun)
  | cancel => cases hRunning
  | failed => cases hRunning

/-- Nor has a loop that goes on. -/
theorem no_cancel_of_running {es : List (Iteration B)} {w' : Worker B}
    (hRunning : Worker.loop es w = .running w') (h : ∀ m ∈ w.received, m.op ≠ some .cancel) :
    ∀ m ∈ w'.received, m.op ≠ some .cancel := by
  induction es generalizing w with
  | nil =>
    obtain rfl := Flow.running.inj hRunning
    exact h
  | cons e es ih =>
    rw [Worker.loop] at hRunning
    cases hIter : w.iteration e with
    | exited _ =>
      rw [hIter] at hRunning
      exact absurd hRunning nofun
    | running w₁ =>
      rw [hIter] at hRunning
      exact ih hRunning fun m hm => (no_cancel_of_iteration hIter hm).elim (h m) id

/-- **A pending result is kept** until a wait asks for it. -/
theorem iteration_keeps {r : PendingResult} (hPending : w.pending = some r)
    (hWaiter : w.waiter = none) (e : Iteration B) :
    (w.iteration e).worker.pending = some r ∨
      ∃ msg, e.received = .ok (some msg) ∧ msg.op = some .waitAndTakeBinary ∧
        (w.iteration e).worker.replies = w.replies ++ fillBuf msg r := by
  -- with no wait parked the checks deliver nothing
  have hStays (w' : Worker B) (h : w'.waiter = none) (hPending' : w'.pending = some r) :
      (((w'.checkDeadline e).keepalive e).driveRead e).deliver.pending = some r := by
    obtain ⟨last, hEq⟩ := observed_of_none h e
    rw [hEq, hPending', Option.some_or]
  have hServed := serviceIpc_served e w
  unfold Worker.iteration
  generalize w.serviceIpc e = f at hServed ⊢
  -- Only a wait takes the result.
  cases hServed with
  | idle => exact .inl (hStays w hWaiter hPending)
  | wait msg hMsg hOp =>
    refine .inr ⟨msg, hMsg, hOp, ?_⟩
    have hTaken : (receive w msg).takeWait msg =
        { receive w msg with pending := none, replies := w.replies ++ fillBuf msg r } := by
      simp [Worker.takeWait, receive, hPending]
    obtain ⟨last, hEq⟩ := observed_of_none
      (w := { receive w msg with pending := none, replies := w.replies ++ fillBuf msg r }) hWaiter e
    rw [hTaken]
    exact congrArg Worker.replies hEq
  | unknown => exact .inl (hStays _ hWaiter hPending)
  | cancel => exact .inl hPending
  | failed => exact .inl hPending

end Iterations

-- ---------------------------------------------------------------------------
-- What the caller gets
-- ---------------------------------------------------------------------------

/-- A result of the worker as the caller sees it. -/
def callerResult : PendingResult → WsResult
  | .binary b _ => .binary b
  | .closed => .closed
  | .timedOut => .timedOut
  | .cancelled => .cancelled
  | .error => .error ⟨.other, "worker error"⟩

/-- The caller reads back the result that was filled in. -/
theorem takeResult_filledPage (hB : B.Rewritable) {page : B.Page} {payload : WsResultBuf}
    (hPayload : B.toOriginal page = .ok payload) (r : PendingResult) :
    takeResult (filledPage page r) = callerResult r := by
  obtain ⟨page', hReplace, hOriginal⟩ := hB page payload (payload.fill r) hPayload
  have hPage : filledPage page r = page' := by simp [filledPage, hPayload, hReplace]
  rw [hPage, takeResult, hOriginal]
  cases r with
  | binary b hLen =>
    have hSize : (UInt32.ofNat b.length).toNat = b.length :=
      UInt32.toNat_ofNat_of_lt' (Nat.lt_of_le_of_lt hLen (by decide))
    simp [WsResultBuf.fill, hSize, callerResult, Nat.not_lt.mpr hLen]
  | _ => rfl

-- ---------------------------------------------------------------------------
-- The protocol
-- ---------------------------------------------------------------------------

/-- A cancel has been handled. -/
def HandledCancel (w : Worker B) : Prop := ∃ m ∈ w.received, m.op = some .cancel

/-- The result a wait gets from a run: its first terminal event, or the cancel
that has come before one. -/
def dueResult (es : List (Iteration B)) (deadlineMs sendClock : UInt64) : PendingResult :=
  (firstTerminal es deadlineMs sendClock).getD .cancelled

/-- What holds of a run of the loop that has ended in `f`. -/
structure WaitProtocol (deadlineMs sendClock : UInt64) (es : List (Iteration B)) (f : Flow B) :
    Prop where
  atMostOnce : (answers f.worker).length ≤ 1
  answered : ∀ msg ∈ f.worker.received, msg.op = some .waitAndTakeBinary →
    ∀ page, msg.page = some page →
    firstTerminal es deadlineMs sendClock ≠ none ∨ HandledCancel f.worker →
    answers f.worker = [(msg, filledPage page (dueResult es deadlineMs sendClock))]
  kept : ∀ es₁ e es₂ w r, es = es₁ ++ e :: es₂ →
    Worker.loop es₁ (Worker.start deadlineMs sendClock) = .running w → w.pending = some r →
    (w.iteration e).worker.pending = some r ∨
      ∃ msg, e.received = .ok (some msg) ∧ msg.op = some .waitAndTakeBinary ∧
        (w.iteration e).worker.replies = w.replies ++ fillBuf msg r
  taken : ∀ (lendMut : B.Page → Except String B.Page) msg page page',
    B.intoBuf .empty = .ok page → msg.page = some page → (msg, page') ∈ answers f.worker →
    lendMut page = .ok page' →
    waitAndTakeBinary lendMut = callerResult (dueResult es deadlineMs sendClock)

theorem waiting_start (deadlineMs sendClock : UInt64) :
    Waiting (Worker.start deadlineMs sendClock : Worker B) none := .noWait rfl rfl rfl rfl

section Protocol

variable {deadlineMs sendClock : UInt64} {es : List (Iteration B)}

/-- The answers of a run: none, or the result that is due. -/
theorem answers_of_settled {f : Flow B} (h : Settled (firstTerminal es deadlineMs sendClock) f) :
    answers f.worker = [] ∨ ∃ msg page, waits f.worker = [msg] ∧ msg.page = some page ∧
      answers f.worker = [(msg, filledPage page (dueResult es deadlineMs sendClock))] := by
  cases f with
  | running w =>
    cases h with
    | noWait _ _ _ hAnswers => exact .inl hAnswers
    | parked _ _ _ _ _ _ _ hAnswers => exact .inl hAnswers
    | answered msg page r hWaits hPage _ hEvent hAnswers =>
      refine .inr ⟨msg, page, hWaits, hPage, ?_⟩
      rw [dueResult, hEvent]
      exact hAnswers
  | exited w =>
    cases h with
    | noWait _ hAnswers => exact .inl hAnswers
    | answered msg page hWaits hPage hAnswers => exact .inr ⟨msg, page, hWaits, hPage, hAnswers⟩

/-- Once there is an event or a cancel, a wait that has been received has its
answer. -/
theorem answered_of_settled {f : Flow B} (h : Settled (firstTerminal es deadlineMs sendClock) f)
    (hCancel : ∀ w, f = .running w → ¬HandledCancel w) {msg : Envelope B}
    (hMsg : msg ∈ waits f.worker)
    (hDone : firstTerminal es deadlineMs sendClock ≠ none ∨ HandledCancel f.worker) :
    answers f.worker ≠ [] := by
  cases f with
  | running w =>
    have hEvent := hDone.resolve_right (hCancel w rfl)
    -- The wait is there, so it is parked or answered; with an event or a Cancel it is not
    -- parked.
    cases h with
    | noWait hWaits => exact absurd hMsg (by rw [Flow.worker, hWaits]; exact List.not_mem_nil)
    | parked _ _ _ _ _ _ hNone => exact absurd hNone hEvent
    | answered _ _ _ _ _ _ _ hAnswers =>
      rw [Flow.worker, hAnswers]
      exact List.cons_ne_nil _ _
  | exited w =>
    cases h with
    | noWait hWaits => exact absurd hMsg (by rw [Flow.worker, hWaits]; exact List.not_mem_nil)
    | answered _ _ _ _ hAnswers =>
      rw [Flow.worker, hAnswers]
      exact List.cons_ne_nil _ _

/-- The run so far, at any of its iterations. -/
theorem kept_of_loop {es₁ es₂ : List (Iteration B)} {e : Iteration B} {w : Worker B}
    {r : PendingResult} (hReceives : ∀ e' ∈ es₁ ++ e :: es₂, ∃ m, e'.received = .ok m)
    (hOne : AtMostOneWait
      (Worker.loop (es₁ ++ e :: es₂) (Worker.start deadlineMs sendClock)).worker)
    (hLoop : Worker.loop es₁ (Worker.start deadlineMs sendClock) = .running w)
    (hPending : w.pending = some r) : w.waiter = none := by
  have hOneHead : AtMostOneWait w := by
    refine hOne.of_prefix ?_
    rw [loop_append, hLoop]
    exact received_loop (e :: es₂) w
  have hSettled : Settled (firstTerminal es₁ deadlineMs sendClock)
      (Worker.loop es₁ (Worker.start deadlineMs sendClock)) :=
    loop_settled (waiting_start deadlineMs sendClock)
      (fun e' he' => hReceives e' (List.mem_append_left _ he')) (by rw [hLoop]; exact hOneHead)
  rw [hLoop] at hSettled
  cases hSettled with
  | noWait _ hWaiter => exact hWaiter
  | answered _ _ _ _ _ hWaiter => exact hWaiter
  | parked _ _ _ _ _ hNone => exact absurd (hNone.symm.trans hPending) nofun

end Protocol

/-- **One wait gets the first terminal event.** Whatever the clock says, however
pings and reads end and in whatever order the messages come, a single wait is
answered at most once, and with the first terminal event of the run (or as
cancelled, if a cancel comes before one); a pending result is kept until the
wait takes it, and the caller gets that result. -/
theorem wait_gets_first_terminal (hLawful : B.Lawful) {overflowChecks : Bool}
    {deadlineSecs deadlineClock sendClock : UInt64} {es : List (Iteration B)} {f : Flow B}
    (hRun : workerLoop overflowChecks deadlineSecs deadlineClock sendClock es = some f)
    (hReceives : ∀ e ∈ es, ∃ m, e.received = .ok m) (hOne : AtMostOneWait f.worker) :
    ∃ deadlineMs, deadline overflowChecks deadlineClock deadlineSecs = some deadlineMs ∧
      WaitProtocol deadlineMs sendClock es f := by
  obtain ⟨deadlineMs, hDeadline, rfl⟩ := Option.map_eq_some_iff.mp hRun
  refine ⟨deadlineMs, hDeadline, ?_⟩
  -- The loop ends settled with the first terminal event, from which the four clauses are
  -- read.
  have hSettled : Settled (firstTerminal es deadlineMs sendClock) _ :=
    loop_settled (waiting_start deadlineMs sendClock) hReceives hOne
  have hAnswers := answers_of_settled hSettled
  constructor
  case atMostOnce =>
    rcases hAnswers with h | ⟨_, _, -, -, h⟩ <;> rw [h]
    · exact Nat.zero_le _
    · exact Nat.le_refl _
  case answered =>
    intro msg hMsg hOp page hPage hDone
    have hWait : msg ∈ waits _ := List.mem_filter.mpr ⟨hMsg, decide_eq_true hOp⟩
    have hSome := answered_of_settled hSettled (fun w hw ⟨m, hm, hCancel⟩ =>
      no_cancel_of_running hw (fun _ => nofun) m hm hCancel) hWait hDone
    obtain ⟨msg', page', hWaits, hPage', hEq⟩ := hAnswers.resolve_left hSome
    rw [hWaits, List.mem_singleton] at hWait
    obtain rfl := hWait
    rw [hEq, Option.some.inj (hPage.symm.trans hPage')]
  case kept =>
    rintro es₁ e es₂ w r rfl hLoop hPending
    exact iteration_keeps hPending (kept_of_loop hReceives hOne hLoop hPending) e
  case taken =>
    intro lendMut msg page page' hPage hMsg hMem hLend
    rcases hAnswers with h | ⟨msg', page₁, -, hPage', hEq⟩
    · rw [h] at hMem
      exact absurd hMem List.not_mem_nil
    · rw [hEq, List.mem_singleton] at hMem
      obtain ⟨rfl, hPage₁⟩ := Prod.mk.inj hMem
      obtain rfl := Option.some.inj (hMsg.symm.trans hPage')
      obtain ⟨p, hInto, hOriginal⟩ := hLawful.intoBuf .empty
      obtain rfl := Except.ok.inj (hInto.symm.trans hPage)
      rw [waitAndTakeBinary, hPage]
      dsimp only
      rw [hLend, hPage₁]
      exact takeResult_filledPage hLawful.rewritable hOriginal _

/-- The wait of the caller. -/
def plainWait : Envelope .plain := ⟨7, 0, some WsResultBuf.empty⟩

/-- An envelope arrives, then the wait. -/
def plainRun : List (Iteration .plain) :=
  [⟨.ok none, 0, 0, .ok (), 0, .ok (.binary [1, 2, 3])⟩,
    ⟨.ok (some plainWait), 0, 0, .ok (), 0, .ok .close⟩]

/-- The theorem for a wait that comes after the envelope: it gets the envelope. -/
theorem wait_gets_first_terminal_plain :
    answers (Worker.loop plainRun (Worker.start 180000 0)).worker =
      [(plainWait, filledPage WsResultBuf.empty (.binary [1, 2, 3] (by decide)))] := by
  obtain ⟨d, hDeadline, hProtocol⟩ := wait_gets_first_terminal IpcBuffer.plain_lawful
    (show workerLoop false 180 0 0 plainRun = _ from rfl)
    (by simp [plainRun]) (.inr ⟨plainWait, WsResultBuf.empty, rfl, rfl⟩)
  obtain rfl : (180000 : UInt64) = d := Option.some.inj hDeadline
  exact hProtocol.answered plainWait (List.mem_singleton_self _) rfl WsResultBuf.empty rfl
    (.inl nofun)

end Sigchat.Results

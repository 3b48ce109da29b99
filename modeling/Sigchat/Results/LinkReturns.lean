import Sigchat.Lib.Schedules
import Sigchat.Results.LinkExchange

/-!
# Linking returns unless its worker is lost

The thread of `Manager::link` is blocked until the worker answers it, first with
the page of the wait and then with the scalar of the cancel. A worker that
serves answers both in the end; one whose server is destroyed is not waited for.
What is waited for for ever is a worker that has ended before its loop, and one
that never gets through the closing of its websocket.

* `iterated`         — what an iteration makes of the thread;
* `resumed_of_late`  — an iteration after the deadline answers the wait;
* `canReturn_iff`    — no step changes whether the thread can still return;
* `link_returns_iff` — on fair schedules it returns exactly if it can.
-/

namespace Sigchat.Results.LinkReturns

open Sigchat.Lib
open Sigchat.Pddb
open Sigchat.SignalWs
open Sigchat.WsServer
open Sigchat.Linking
open Sigchat.Results.LinkExchange

variable {B : IpcBuffer}

-- ---------------------------------------------------------------------------
-- Fair schedules
-- ---------------------------------------------------------------------------

/-- The kernel refuses. -/
def refuses : Label B → Bool
  | .waitRefused _ | .cancelRefused => true
  | _ => false

/-- A step where the kernel refuses only what is sent to a server that is gone. -/
def promptStep (flush : Flushes) (l : Label B) (x : Exchange B) : Option (Exchange B) :=
  if refuses l ∧ x.isUp then none else x.step flush l

/-- What has to happen happens again and again: the modal is closed, the thread
goes on, the worker iterates after its deadline, and the closing of the websocket
ends if it can. Receiving does not fail. -/
structure Fair (flush : Flushes) (d : UInt64) (ls : Nat → Label B) : Prop where
  modal : Often ls fun l => ∃ shown, l = .modal shown
  waitRefused : Often ls fun l => ∃ err, l = .waitRefused err
  cancel : Often ls fun l => l = .cancel
  cancelRefused : Often ls fun l => l = .cancelRefused
  late : Often ls fun l => ∃ e, l = .iterate e ∧ d ≤ e.deadlineClock
  destroy : Breaks flush →
    Often ls fun l => ∃ i err, l = .destroy i err ∧ (closeEnd (flush i)).isSome = true
  receives : ∀ n e, ls n = .iterate e → ∃ m, e.received = .ok m

/-- Somebody is left to answer the thread. -/
def Answerable (flush : Flushes) : Server B → Prop
  | .abandoned => False
  | .serving _ => True
  | .closing _ => Breaks flush
  | .destroyed _ => True

/-- The thread has got through the exchange, or can still get through it. -/
def CanReturn (flush : Flushes) (x : Exchange B) : Prop :=
  (∃ r, x.caller = .returned r) ∨ Answerable flush x.server

/-- How far the thread is from the end of the exchange. -/
def distance : Caller → Server B → Nat
  | .returned _, _ => 0
  | .cancelling _, .serving _ => 1
  | .resumed _, .serving _ => 2
  | .waiting, .serving _ => 3
  | .showing, .serving _ => 4
  | .resumed _, .destroyed _ => 5
  | .showing, .destroyed _ => 6
  | .cancelling _, .destroyed _ => 7
  | .waiting, .destroyed _ => 7
  | .cancelling _, _ => 8
  | .resumed _, _ => 9
  | .waiting, _ => 10
  | .showing, _ => 11

section Liveness

variable {d s : UInt64} {es : List (Iteration B)} {e : Iteration B} {w w' : Worker B}
variable {flush : Flushes} {x x' : Exchange B} {l : Label B}

/-- Only a thread that has returned is at distance zero. -/
theorem returned_of_distance {c : Caller} {sv : Server B} (h : distance c sv = 0) :
    ∃ r, c = .returned r := by
  cases c with
  | returned r => exact ⟨r, rfl⟩
  | _ => cases sv <;> cases h

/-- A worker that goes on has not left its loop. -/
theorem stays_of_running (h : w.iteration e = .running w') : leaves e = false := by
  have hServed := serviceIpc_served e w
  unfold Worker.iteration at h
  generalize w.serviceIpc e = f at hServed h
  cases hServed with
  | idle hNone => rw [leaves, hNone]
  | wait msg hMsg hOp => rw [leaves, hMsg]; exact decide_eq_false (by simp [hOp])
  | unknown msg hMsg hOp => rw [leaves, hMsg]; exact decide_eq_false (by simp [hOp])
  | cancel => cases h
  | failed => cases h

/-- The deadline is an event. -/
theorem event_of_deadline (hLoop : Worker.loop es w = .running w') (hMem : e ∈ es)
    (hLate : d ≤ e.deadlineClock) : firstTerminal es d s ≠ none := by
  -- The iterations before the late one may have seen an event already; then that one comes
  -- first.
  induction es generalizing w s with
  | nil => cases hMem
  | cons e' es ih =>
    rw [Worker.loop] at hLoop
    rcases hIter : w.iteration e' with w₁ | w₁
    · rw [hIter] at hLoop
      rw [firstTerminal, stays_of_running hIter, if_neg Bool.false_ne_true]
      rcases List.mem_cons.mp hMem with rfl | hLater
      · rw [terminalEvent, if_pos hLate]
        exact Option.some_ne_none _
      · intro hNone
        exact ih hLoop hLater (Option.or_eq_none_iff.mp hNone).2
    · rw [hIter] at hLoop
      cases hLoop

/-- An iteration that receives neither a Cancel nor an error keeps the worker
running. -/
theorem running_of_stays (h : leaves e = false) (w : Worker B) :
    ∃ w', w.iteration e = .running w' := by
  have hServed := serviceIpc_served e w
  unfold Worker.iteration
  generalize w.serviceIpc e = f at hServed ⊢
  cases hServed with
  | idle => exact ⟨_, rfl⟩
  | wait => exact ⟨_, rfl⟩
  | unknown => exact ⟨_, rfl⟩
  | cancel msg hMsg hOp =>
    rw [leaves, hMsg] at h
    exact absurd hOp (of_decide_eq_false h)
  | failed err hErr =>
    rw [leaves, hErr] at h
    cases h

/-- A thread that is not blocked takes no replies. -/
theorem foldl_receive_of_free {c : Caller} (hWaiting : c ≠ .waiting)
    (hCancelling : ∀ r, c ≠ .cancelling r) (rs : List (Reply B)) :
    rs.foldl Caller.receive c = c := by
  induction rs with
  | nil => rfl
  | cons reply rs ih =>
    have hFree : c.receive reply = c := by
      cases reply <;> cases c
      case page.waiting => exact absurd rfl hWaiting
      case scalar.cancelling r => exact absurd rfl (hCancelling r)
      all_goals rfl
    rw [List.foldl_cons, hFree, ih]

/-- A thread that waits either goes on waiting or resumes with the first reply
that is for it. -/
theorem foldl_receive_waiting (rs : List (Reply B)) :
    rs.foldl Caller.receive .waiting = .waiting ∨
      ∃ r, rs.foldl Caller.receive .waiting = .resumed r := by
  induction rs with
  | nil => exact .inl rfl
  | cons reply rs ih =>
    cases reply with
    | scalar => exact ih
    | page msg p =>
      refine .inr ⟨some (waitAndTakeBinary (B := B) fun _ => .ok p), ?_⟩
      exact foldl_receive_of_free (c := .resumed _) nofun (fun _ => nofun) rs

/-- What an iteration that receives makes of the thread. -/
inductive Iterated : Caller → Exchange B → Prop
  | cancelled {r : Option WsResult} {x' : Exchange B} (hCaller : x'.caller = .returned r) :
    Iterated (.cancelling r) x'
  | same {c : Caller} {x' : Exchange B} {w' : Worker B} (hOther : ∀ r, c ≠ .cancelling r)
      (hServer : x'.server = .serving w') (hCaller : x'.caller = c) : Iterated c x'
  | answered {x' : Exchange B} {w' : Worker B} {r : Option WsResult}
      (hServer : x'.server = .serving w') (hCaller : x'.caller = .resumed r) : Iterated .waiting x'

/-- The queue holds a wait or nothing, unless the thread cancels. -/
theorem stays_of_talk {m : Option (Envelope B)} (h : Talk x.caller x.queue (.serving w))
    (hCancelling : ∀ r, x.caller ≠ .cancelling r) (hReceived : e.received = .ok m) :
    leaves (x.meets e) = false := by
  have hMeets : (x.meets e).received = .ok x.queue.head? := by
    rw [Exchange.meets, hReceived]
    rfl
  obtain ⟨c, queue, sv, es⟩ := x
  rw [leaves, hMeets]
  cases h with
  | sent => exact decide_eq_false (by simp [op_waitMessage])
  | cancelling => exact absurd rfl (hCancelling _)
  | _ => rfl

/-- An iteration that receives does one of three things to the thread. -/
theorem iterated {m : Option (Envelope B)} (h : Inv d s x) (hServer : x.server = .serving w)
    (hReceived : e.received = .ok m) : Iterated x.caller (x.iterate w e) := by
  have hTalk := h.talk
  rw [hServer] at hTalk
  -- A thread that has sent its Cancel is the one case in which the worker leaves.
  by_cases hCancelling : ∃ r, x.caller = .cancelling r
  · obtain ⟨r, hCaller⟩ := hCancelling
    have hMeets : (x.meets e).received = .ok x.queue.head? := by
      rw [Exchange.meets, hReceived]
      rfl
    obtain ⟨c, queue, sv, es⟩ := x
    obtain rfl := hCaller
    cases hTalk with
    | cancelling hWaiter =>
      obtain ⟨w', hIter, hReplies⟩ := iteration_cancel (w := w) hMeets op_cancelMessage hWaiter rfl
      rw [iterate_eq hIter hReplies]
      exact .cancelled rfl
  · have hOther (r : Option WsResult) : x.caller ≠ .cancelling r := fun h => hCancelling ⟨r, h⟩
    obtain ⟨w', hIter⟩ := running_of_stays (stays_of_talk hTalk hOther hReceived) w
    have hServing : (x.iterate w e).server = .serving w' := congrArg Server.ofFlow hIter
    have hCaller : (x.iterate w e).caller =
        (w'.replies.drop w.replies.length).foldl Caller.receive x.caller := by
      rw [Exchange.iterate, hIter]
      rfl
    -- Only a waiting thread takes the new replies.
    by_cases hWaiting : x.caller = .waiting
    · rw [hWaiting] at hCaller ⊢
      rcases foldl_receive_waiting (w'.replies.drop w.replies.length) with hStill | ⟨r, hResumed⟩
      · exact .same (fun _ h => by cases h) hServing (hCaller.trans hStill)
      · exact .answered hServing (hCaller.trans hResumed)
    · exact .same hOther hServing (hCaller.trans (foldl_receive_of_free hWaiting hOther _))

/-- **A late iteration answers the wait.** -/
theorem resumed_of_late {m : Option (Envelope B)} (hB : B.Lawful) (h : Inv d s x)
    (hServer : x.server = .serving w) (hCaller : x.caller = .waiting)
    (hReceived : e.received = .ok m) (hLate : d ≤ e.deadlineClock) :
    ∃ w' r, (x.iterate w e).server = .serving w' ∧ (x.iterate w e).caller = .resumed r := by
  have hIterated := iterated h hServer hReceived
  have hNext := inv_iterate hB h hServer e
  rw [hCaller] at hIterated
  cases hIterated with
  | answered hServer' hCaller' => exact ⟨_, _, hServer', hCaller'⟩
  | same _ hServer' hCaller' =>
    -- it would be parked, and there would have been no event
    obtain ⟨hLoop, hReceives⟩ := hNext.ran _ hServer'
    have hMem : x.meets e ∈ (x.iterate w e).iterations :=
      List.mem_append_right _ (List.mem_singleton_self _)
    -- The iteration at which the thread would still be parked has seen the deadline.
    have hEvent := event_of_deadline (s := s) hLoop hMem hLate
    have hQueue : (x.iterate w e).queue = x.queue.tail := by
      rw [Exchange.iterate, hReceived]
      rfl
    -- While the thread waits, the queue holds its message at most.
    have hTail : x.queue.tail = [] := by
      have hTalk := h.talk
      rw [hCaller, hServer] at hTalk
      generalize x.queue = queue at hTalk
      cases hTalk <;> rfl
    have hTalk := hNext.talk
    rw [hServer', hCaller', hQueue, hTail] at hTalk
    cases hTalk with
    | parked _ hOnly hWaiter =>
      exact absurd (no_event_of_parked hLoop hReceives hOnly hWaiter) hEvent

/-- A step with a prompt kernel is a step, and it refuses only when the server
is gone. -/
theorem promptStep_taken (h : promptStep flush l x = some x') :
    Taken flush x l x' ∧ (refuses l = true → x.isUp = false) := by
  unfold promptStep at h
  split at h
  · cases h
  · rename_i hNot
    exact ⟨step_taken h, fun hRefuses => Bool.eq_false_iff.mpr fun hUp => hNot ⟨hRefuses, hUp⟩⟩

/-- A server that is not up is gone. -/
theorem destroyed_of_down (h : x.isUp = false) : ∃ w, x.server = .destroyed w := by
  unfold Exchange.isUp at h
  split at h
  · exact ⟨_, ‹_›⟩
  · cases h

theorem breaks_of_closeEnd {i : Nat} (h : (closeEnd (flush i)).isSome = true) : Breaks flush :=
  ⟨i, exists_closeEnd_iff.mp (Option.isSome_iff_exists.mp h)⟩

/-- **Whether the thread can still return** does not change. -/
theorem canReturn_iff (h : Inv d s x) (hReceives : ∀ e, l = .iterate e → ∃ m, e.received = .ok m)
    (hStep : promptStep flush l x = some x') : CanReturn flush x' ↔ CanReturn flush x := by
  obtain ⟨hTaken, hDown⟩ := promptStep_taken hStep
  -- Most steps move the thread between two states in which it has not returned.
  have hSame {c c' : Caller} (hOld : ∀ r, c ≠ .returned r) (hNew : ∀ r, c' ≠ .returned r) :
      (∃ r, c' = .returned r) ↔ ∃ r, c = .returned r :=
    ⟨fun ⟨r, hr⟩ => absurd hr (hNew r), fun ⟨r, hr⟩ => absurd hr (hOld r)⟩
  cases hTaken with
  | modalFailed hCaller =>
    exact or_congr (hSame (by rw [hCaller]; nofun) (fun _ => nofun)) Iff.rfl
  | pageFailed hCaller =>
    exact or_congr (hSame (by rw [hCaller]; nofun) (fun _ => nofun)) Iff.rfl
  | waits hCaller => exact or_congr (hSame (by rw [hCaller]; nofun) (fun _ => nofun)) Iff.rfl
  | waitRefused hCaller =>
    exact or_congr (hSame (by rw [hCaller]; nofun) (fun _ => nofun)) Iff.rfl
  | cancels hCaller => exact or_congr (hSame (by rw [hCaller]; nofun) (fun _ => nofun)) Iff.rfl
  -- The kernel refuses only for a server that is gone, and for it nothing is in the way.
  | cancelRefused hCaller =>
    obtain ⟨w, hGone⟩ := destroyed_of_down (hDown rfl)
    exact iff_of_true (.inl ⟨_, rfl⟩) (.inr (by rw [hGone]; trivial))
  | iterates hServer e =>
    refine iff_of_true ?_ (.inr (by rw [hServer]; trivial))
    obtain ⟨m, hReceived⟩ := hReceives e rfl
    have hIterated := iterated h hServer hReceived
    generalize x.caller = c at hIterated
    cases hIterated with
    | cancelled hReturned => exact .inl ⟨_, hReturned⟩
    | same _ hServing => exact .inr (by rw [hServing]; trivial)
    | answered hServing => exact .inr (by rw [hServing]; trivial)
  -- The closing ends exactly if a flush can fail, so nothing is lost here either.
  | destroys hServer err hEnd =>
    exact iff_of_true (.inr trivial) (.inr (by rw [hServer]; exact breaks_of_closeEnd hEnd))

/-- **No step** takes the thread away from the end. -/
theorem distance_step (h : Inv d s x) (hReceives : ∀ e, l = .iterate e → ∃ m, e.received = .ok m)
    (hStep : promptStep flush l x = some x') :
    distance x'.caller x'.server ≤ distance x.caller x.server := by
  have hTaken := (promptStep_taken hStep).1
  -- The distance depends on the thread's state and the server's; each step is looked up.
  cases hTaken with
  | modalFailed hCaller =>
    rw [hCaller]
    cases x.server <;> simp [distance]
  | pageFailed hCaller =>
    rw [hCaller]
    cases x.server <;> simp [distance]
  | waits hCaller hInto hUp =>
    rw [hCaller]
    cases hServer : x.server with
    | destroyed w => rw [Exchange.isUp, hServer] at hUp; cases hUp
    | _ => simp [distance]
  | waitRefused hCaller =>
    rw [hCaller]
    cases x.server <;> simp [distance]
  | cancels hCaller hUp =>
    rw [hCaller]
    cases hServer : x.server with
    | destroyed w => rw [Exchange.isUp, hServer] at hUp; cases hUp
    | _ => simp [distance]
  | cancelRefused hCaller =>
    rw [hCaller]
    cases x.server <;> simp [distance]
  | iterates hServer e =>
    obtain ⟨m, hReceived⟩ := hReceives e rfl
    have hIterated := iterated h hServer hReceived
    rw [hServer]
    generalize x.caller = c at hIterated
    cases hIterated with
    | cancelled hReturned => rw [hReturned]; exact Nat.zero_le _
    | same _ hServing hSame =>
      rw [hServing, hSame]
      cases c <;> exact Nat.le_refl _
    | answered hServing hResumed => rw [hServing, hResumed]; exact Nat.le_succ 2
  | destroys hServer err hEnd =>
    rw [hServer]
    cases x.caller <;> simp [distance, Caller.fail]

/-- The step that takes the thread nearer, by its distance. -/
def Helps (flush : Flushes) (d : UInt64) : Nat → Label B → Prop
  | 0, _ => True
  | 1, l | 3, l => ∃ e m, l = .iterate e ∧ e.received = .ok m ∧ d ≤ e.deadlineClock
  | 2, l => l = .cancel
  | 4, l => ∃ shown, l = .modal shown
  | 5, l => l = .cancelRefused
  | 6, l => ∃ err, l = .waitRefused err
  | _, l => ∃ i err, l = .destroy i err ∧ (closeEnd (flush i)).isSome = true

/-- At every distance the step that helps comes again and again. -/
theorem Fair.helps {ls : Nat → Label B} (h : Fair flush d ls) {k : Nat}
    (hBreaks : 7 ≤ k → Breaks flush) : Often ls (Helps flush d k) := by
  have hLate : Often ls fun l =>
      ∃ e m, l = .iterate e ∧ e.received = .ok m ∧ d ≤ e.deadlineClock := by
    intro n
    obtain ⟨m, hLe, e, hLabel, hClock⟩ := h.late n
    obtain ⟨msg, hReceived⟩ := h.receives m e hLabel
    exact ⟨m, hLe, e, msg, hLabel, hReceived, hClock⟩
  match k with
  | 0 => exact fun n => ⟨n, Nat.le_refl n, trivial⟩
  | 1 => exact hLate
  | 2 => exact h.cancel
  | 3 => exact hLate
  | 4 => exact h.modal
  | 5 => exact h.cancelRefused
  | 6 => exact h.waitRefused
  | k + 7 => exact h.destroy (hBreaks (Nat.le_add_left 7 k))

/-- A step that the kernel does not hold back. -/
theorem next_step (hPrompt : refuses l = false ∨ x.isUp = false)
    (hStep : x.step flush l = some x') : next (promptStep flush) l x = x' := by
  have hNot : ¬(refuses l = true ∧ x.isUp = true) := fun ⟨hRefuses, hUp⟩ =>
    hPrompt.elim (fun h => nomatch h.symm.trans hRefuses) fun h => nomatch h.symm.trans hUp
  rw [next, promptStep, if_neg hNot, hStep, Option.getD_some]

/-- The measure of the exchange. -/
abbrev distanceOf (x : Exchange B) : Nat := distance x.caller x.server

/-- While the worker serves, the step that helps brings the thread nearer: the
modal, the deadline, the Cancel, and the iteration that takes it. -/
theorem lowers_serving (hB : B.Lawful) (h : Inv d s x) (hServer : x.server = .serving w)
    (hPos : 0 < distanceOf x) (hHelps : Helps flush d (distanceOf x) l) :
    distanceOf (next (promptStep flush) l x) < distanceOf x := by
  have hUp : x.isUp = true := by rw [Exchange.isUp, hServer]
  unfold distanceOf at hPos hHelps ⊢
  -- One state of the thread after the other, as the label is another one for each.
  cases hCaller : x.caller with
  | showing =>
    rw [hServer, hCaller] at hHelps
    obtain ⟨shown, rfl⟩ := hHelps
    obtain ⟨page, hInto, -⟩ := hB.intoBuf .empty
    cases shown with
    -- Without a modal the thread does not wait at all.
    | false =>
      have hStep : x.step flush (.modal false) = some { x with caller := .resumed none } := by
        simp only [Exchange.step, hCaller]
      rw [next_step (.inl rfl) hStep, hServer]
      exact Nat.lt_add_of_pos_right (Nat.succ_pos 1)
    | true =>
      have hStep : x.step flush (.modal true) =
          some { x with caller := .waiting, queue := x.queue ++ [waitMessage page] } := by
        simp only [Exchange.step, hCaller, Exchange.sendWait, hInto, if_pos hUp]
      rw [next_step (.inl rfl) hStep, hServer]
      exact Nat.lt_add_one 3
  | waiting =>
    rw [hServer, hCaller] at hHelps
    obtain ⟨e, m, rfl, hReceived, hLate⟩ := hHelps
    have hStep : x.step flush (.iterate e) = some (x.iterate w e) := by
      simp only [Exchange.step, hServer]
    -- After its deadline the worker has a result, and the wait is there to take it.
    obtain ⟨w', r, hServing, hResumed⟩ := resumed_of_late hB h hServer hCaller hReceived hLate
    rw [next_step (.inl rfl) hStep, hServing, hResumed, hServer]
    exact Nat.lt_add_one 2
  | resumed r =>
    rw [hServer, hCaller] at hHelps
    obtain rfl := hHelps
    have hStep : x.step flush .cancel =
        some { x with caller := .cancelling r, queue := x.queue ++ [cancelMessage] } := by
      simp only [Exchange.step, hCaller, if_pos hUp]
    rw [next_step (.inl rfl) hStep, hServer]
    exact Nat.lt_add_one 1
  | cancelling r =>
    rw [hServer, hCaller] at hHelps
    obtain ⟨e, m, rfl, hReceived, -⟩ := hHelps
    have hStep : x.step flush (.iterate e) = some (x.iterate w e) := by
      simp only [Exchange.step, hServer]
    have hIterated := iterated h hServer hReceived
    rw [hCaller] at hIterated
    rw [next_step (.inl rfl) hStep, hServer]
    cases hIterated with
    | cancelled hReturned => rw [hReturned]; exact Nat.lt_add_one 0
    -- The Cancel is in the queue, so the iteration cannot leave the thread as it is.
    | same hOther => exact absurd rfl (hOther r)
  | returned r =>
    rw [hCaller] at hPos
    exact absurd hPos (Nat.lt_irrefl 0)

/-- While the worker closes, the end of the closing brings the thread nearer,
whatever it is doing. -/
theorem lowers_closing (hServer : x.server = .closing w)
    (hPos : 0 < distanceOf x) (hHelps : Helps flush d (distanceOf x) l) :
    distanceOf (next (promptStep flush) l x) < distanceOf x := by
  have hEnds (hEnd : ∃ i err, l = .destroy i err ∧ (closeEnd (flush i)).isSome = true) :
      ∃ err, next (promptStep flush) l x =
        { x with caller := x.caller.fail B err, queue := [], server := .destroyed w.leave } := by
    obtain ⟨i, err, rfl, hSome⟩ := hEnd
    refine ⟨err, next_step (.inl rfl) ?_⟩
    simp only [Exchange.step, hServer, if_pos hSome]
  unfold distanceOf at hPos hHelps ⊢
  rw [hServer] at hPos hHelps ⊢
  cases hCaller : x.caller with
  | returned r =>
    rw [hCaller] at hPos
    exact absurd hPos (Nat.lt_irrefl 0)
  | _ =>
    rw [hCaller] at hHelps
    obtain ⟨err, hNext⟩ := hEnds hHelps
    rw [hNext, hCaller]
    simp [distance, Caller.fail]

/-- Once the server is gone, the kernel's refusals bring the thread nearer. -/
theorem lowers_destroyed (h : Inv d s x) (hServer : x.server = .destroyed w)
    (hPos : 0 < distanceOf x) (hHelps : Helps flush d (distanceOf x) l) :
    distanceOf (next (promptStep flush) l x) < distanceOf x := by
  have hDown : x.isUp = false := by rw [Exchange.isUp, hServer]
  have hTalk := h.talk
  unfold distanceOf at hPos hHelps ⊢
  rw [hServer] at hTalk hHelps
  generalize hCaller : x.caller = c at hTalk hPos hHelps
  generalize x.queue = queue at hTalk
  -- No message of the thread is left without an answer when its server goes.
  cases hTalk with
  | gone hWaiting hCancelling =>
    cases c with
    | showing =>
      obtain ⟨err, rfl⟩ := hHelps
      have hStep : x.step flush (.waitRefused err) = some { x with
          caller := .resumed (some (waitAndTakeBinary (B := B) fun _ => .error err)) } := by
        simp only [Exchange.step, hCaller]
      rw [next_step (.inr hDown) hStep, hServer]
      exact Nat.lt_add_one 5
    | waiting => exact absurd rfl hWaiting
    | resumed r =>
      obtain rfl := hHelps
      have hStep : x.step flush .cancelRefused = some { x with caller := .returned r } := by
        simp only [Exchange.step, hCaller]
      rw [next_step (.inr hDown) hStep, hServer]
      exact Nat.succ_pos 4
    | cancelling r => exact absurd rfl (hCancelling r)
    | returned r => exact absurd hPos (Nat.lt_irrefl 0)

/-- **Every helpful step** takes the thread nearer. -/
theorem lowers (hB : B.Lawful) (h : Inv d s x) (hCan : CanReturn flush x)
    (hPos : 0 < distanceOf x) (hHelps : Helps flush d (distanceOf x) l) :
    distanceOf (next (promptStep flush) l x) < distanceOf x := by
  cases hServer : x.server with
  | abandoned =>
    rcases hCan with ⟨r, hReturned⟩ | hAnswerable
    · rw [distanceOf, hReturned] at hPos
      exact absurd hPos (Nat.lt_irrefl 0)
    · rw [hServer] at hAnswerable
      exact hAnswerable.elim
  | serving w => exact lowers_serving hB h hServer hPos hHelps
  | closing w => exact lowers_closing hServer hPos hHelps
  | destroyed w => exact lowers_destroyed h hServer hPos hHelps

/-- Only the closing of the websocket is that far. -/
theorem breaks_of_far (h : Inv d s x) (hCan : CanReturn flush x) (hFar : 7 ≤ distanceOf x) :
    Breaks flush := by
  have hTalk := h.talk
  unfold distanceOf at hFar
  generalize x.queue = queue at hTalk
  -- At such a distance the worker is closing, so that somebody is left to answer only if a
  -- flush fails.
  rcases hCan with ⟨r, hReturned⟩ | hAnswerable
  · rw [hReturned] at hFar
    exact absurd hFar (Nat.not_succ_le_zero 6)
  · cases hServer : x.server with
    | abandoned => rw [hServer] at hAnswerable; exact hAnswerable.elim
    | closing w => rw [hServer] at hAnswerable; exact hAnswerable
    | serving w =>
      rw [hServer] at hFar
      generalize x.caller = c at hFar
      cases c <;> simp [distance] at hFar
    | destroyed w =>
      rw [hServer] at hFar hTalk
      generalize x.caller = c at hFar hTalk
      cases hTalk with
      | gone hWaiting hCancelling =>
        cases c with
        | waiting => exact absurd rfl hWaiting
        | cancelling r => exact absurd rfl (hCancelling r)
        | _ => simp [distance] at hFar

/-- **One input of a schedule** keeps the invariant, whether the thread can still
return, and the distance at most. -/
theorem next_keeps (hB : B.Lawful) (h : Inv d s x)
    (hReceives : ∀ e, l = .iterate e → ∃ m, e.received = .ok m) :
    Inv d s (next (promptStep flush) l x) ∧
      (CanReturn flush (next (promptStep flush) l x) ↔ CanReturn flush x) ∧
      distanceOf (next (promptStep flush) l x) ≤ distanceOf x := by
  refine next_induction (motive := fun y => Inv d s y ∧ (CanReturn flush y ↔ CanReturn flush x) ∧
    distanceOf y ≤ distanceOf x) (fun _ => ⟨h, Iff.rfl, Nat.le_refl _⟩) fun x' hStep => ?_
  refine ⟨?_, canReturn_iff h hReceives hStep, distance_step h hReceives hStep⟩
  unfold promptStep at hStep
  split at hStep
  · cases hStep
  · exact inv_step hB h hStep

end Liveness

/-- **Linking returns unless its worker is lost.** From every state that the
exchange can get to, on every schedule on which what has to happen happens again
and again, `Manager::link` gets through the exchange if and only if it has got
through it already, its worker serves it, the server is destroyed, or the worker
is closing a websocket some flush of which fails. A worker that has ended before
its loop, or that closes a websocket whose flushes never fail, is waited for for
ever. -/
theorem link_returns_iff (hB : B.Lawful) {flush : Flushes} {ticktimer overflowChecks : Bool}
    {deadlineClock sendClock : UInt64} {before : List (Label B)} {x : Exchange B}
    (hReach : reach (Exchange.step flush) before
      (opened (spawned ticktimer overflowChecks deadlineClock sendClock)) = some x)
    {ls : Nat → Label B} (hFair : Fair flush (deadlineOf overflowChecks deadlineClock) ls) :
    (∃ n r, (trace (promptStep flush) ls x n).caller = .returned r) ↔ CanReturn flush x := by
  have hInv := inv_reach hB hReach
  have hNext (n : Nat) (y : Exchange B)
      (h : Inv (deadlineOf overflowChecks deadlineClock) sendClock y) :
      Inv (deadlineOf overflowChecks deadlineClock) sendClock (next (promptStep flush) (ls n) y) ∧
        (CanReturn flush (next (promptStep flush) (ls n) y) ↔ CanReturn flush y) ∧
        distanceOf (next (promptStep flush) (ls n) y) ≤ distanceOf y :=
    next_keeps hB h (hFair.receives n)
  -- Whether it can return is kept by every step, and a thread that can is brought nearer
  -- again and again.
  constructor
  · rintro ⟨n, r, hReturned⟩
    have hKept : Inv (deadlineOf overflowChecks deadlineClock) sendClock
        (trace (promptStep flush) ls x n) ∧
        (CanReturn flush (trace (promptStep flush) ls x n) ↔ CanReturn flush x) := by
      refine trace_invariant (I := fun y => Inv _ sendClock y ∧
        (CanReturn flush y ↔ CanReturn flush x)) (fun n y hy => ?_) ⟨hInv, Iff.rfl⟩ n
      obtain ⟨hInv', hCan, -⟩ := hNext n y hy.1
      exact ⟨hInv', hCan.trans hy.2⟩
    exact hKept.2.mp (.inl ⟨r, hReturned⟩)
  · intro hCan
    have hZero : ∃ n, distanceOf (trace (promptStep flush) ls x n) = 0 := by
      refine exists_zero_of_variant (I := fun y => Inv _ sendClock y ∧ CanReturn flush y)
        (fun n y hy => ?_) (fun k hPos => ?_) ⟨hInv, hCan⟩
      · obtain ⟨hInv', hCan', hLe⟩ := hNext n y hy.1
        exact ⟨⟨hInv', hCan'.mpr hy.2⟩, hLe⟩
      -- At the distances of a closing worker the step that helps is promised only if a
      -- flush fails.
      · by_cases hBreaks : 7 ≤ k → Breaks flush
        · refine (hFair.helps hBreaks).mono fun l hHelps y hy hDistance => ?_
          subst hDistance
          exact lowers hB hy.1 hy.2 hPos hHelps
        · intro n
          refine ⟨n, Nat.le_refl n, fun y hy hDistance => absurd (fun hFar => ?_) hBreaks⟩
          exact breaks_of_far hy.1 hy.2 (hDistance.symm ▸ hFar)
    obtain ⟨n, hZero⟩ := hZero
    obtain ⟨r, hReturned⟩ := returned_of_distance hZero
    exact ⟨n, r, hReturned⟩

/-- A schedule that takes turns. -/
def turn : Nat → Label .plain
  | 0 => .modal true
  | 1 => .waitRefused "ServerNotFound"
  | 2 => .cancel
  | 3 => .cancelRefused
  | 4 => .iterate (reads 180000 (.ok .close))
  | _ => .destroy 0 "ServerNotFound"

def turns (n : Nat) : Label .plain := turn (n % 6)

/-- What comes at one of its six turns comes again and again. -/
theorem often_turns {k : Nat} (hk : k < 6) {P : Label .plain → Prop} (h : P (turn k)) :
    Often turns P := by
  intro n
  have hTurn : (6 * n + k) % 6 = k := by omega
  exact ⟨6 * n + k, by omega, by rw [turns, hTurn]; exact h⟩

/-- Turn and turn about is a fair schedule. -/
theorem fair_turns : Fair (fun _ => .error .connectionClosed) 180000 turns where
  modal := often_turns (k := 0) (by decide) ⟨true, rfl⟩
  waitRefused := often_turns (k := 1) (by decide) ⟨_, rfl⟩
  cancel := often_turns (k := 2) (by decide) rfl
  cancelRefused := often_turns (k := 3) (by decide) rfl
  late := often_turns (k := 4) (by decide) ⟨_, rfl, Nat.le_refl _⟩
  destroy _ := often_turns (k := 5) (by decide) ⟨0, _, rfl, rfl⟩
  receives n e h := by
    unfold turns turn at h
    split at h <;> cases h
    exact ⟨none, rfl⟩

/-- Linking with a fair scheduler returns. -/
theorem link_returns_iff_turns : ∃ n r,
    (trace (promptStep fun _ => .error .connectionClosed) turns
      (opened (spawned (B := .plain) true false 0 0)) n).caller = .returned r :=
  have hReach : reach (Exchange.step fun _ => .error .connectionClosed) []
      (opened (spawned (B := .plain) true false 0 0)) = some _ := rfl
  (link_returns_iff IpcBuffer.plain_lawful hReach fair_turns).mpr (.inr trivial)

end Sigchat.Results.LinkReturns

import Sigchat.Lib.Runs
import Sigchat.Results.WsProvisioning

/-!
# Other IPC traffic and the parked wait

Any process that has the provisioning worker's SID can send it any message. A
second wait takes the place of a parked one, which goes back unfilled, and a
wait that is a scalar message takes a result that it has no page for. While no
message does either, every wait is answered once and in order, and every
envelope that is accepted goes to the first wait without an answer.

* `orderly_iteration` — one iteration keeps the order of the answers;
* `owed_iteration` — an accepted envelope stays owed until it is delivered;
* `waits_answered_undisturbed` — the law of a run without such messages;
* `wait_dislodged` — two runs that break it.
-/

namespace Sigchat.Results.HostileIpc

open Sigchat.Lib
open Sigchat.Pddb
open Sigchat.WsServer

variable {B : IpcBuffer}

-- ---------------------------------------------------------------------------
-- The law
-- ---------------------------------------------------------------------------

/-- The waits received as memory messages. -/
def memoryWaits (w : Worker B) : List (Envelope B) := (waits w).filter (·.page.isSome)

/-- The parked wait, if it is a memory message. -/
def parkedWait (w : Worker B) : List (Envelope B) := w.waiter.toList.filter (·.page.isSome)

def terminalStatuses : List UInt8 :=
  [statusBinary, statusClosed, statusTimedOut, statusCancelled, statusError]

/-- The page holds a result. -/
def Populated (page : B.Page) : Prop :=
  ∃ result, B.toOriginal page = .ok result ∧ result.status ∈ terminalStatuses

/-- The checks of an iteration that has served its message read an envelope. -/
def Accepts (e : Iteration B) (w : Worker B) (b : Bytes) : Prop :=
  w.pending = none ∧
    ∃ hLen, (((w.checkDeadline e).keepalive e).driveRead e).pending = some (.binary b hLen)

/-- What the traffic must not take from the waits, in a run that has ended in
`f`. Waits are answered in order, so the first one without an answer is the one
whose number is the number of answers given. -/
structure WaitLaw (deadlineMs sendClock : UInt64) (es : List (Iteration B)) (f : Flow B) :
    Prop where
  inOrder : (answers f.ended).map Prod.fst ++ parkedWait f.ended = memoryWaits f.ended
  returned : HandledCancel f.ended → (answers f.ended).map Prod.fst = memoryWaits f.ended
  populated : ∀ a ∈ answers f.ended, Populated a.2
  delivered : ∀ es₁ e es₂ w w₁ b, es = es₁ ++ e :: es₂ →
    Worker.loop es₁ (Worker.start deadlineMs sendClock) = .running w →
    w.serviceIpc e = .running w₁ → Accepts e w₁ b →
    ∀ msg, (memoryWaits f.ended)[(answers w₁).length]? = some msg →
    ∃ page, (answers f.ended)[(answers w₁).length]? = some (msg, page) ∧
      takeResult page = .binary b

-- ---------------------------------------------------------------------------
-- The condition
-- ---------------------------------------------------------------------------

/-- The wait an iteration receives. -/
def arriving (e : Iteration B) : Option (Envelope B) :=
  e.received.toOption.join.filter fun msg => msg.op = some .waitAndTakeBinary

/-- The traffic of an iteration takes nothing from a wait. -/
structure Undisturbed (e : Iteration B) (w : Worker B) : Prop where
  /-- No wait comes, and no receive fails, while a memory message is parked. -/
  alone : parkedWait w ≠ [] → arriving e = none ∧ e.received.isOk
  readable : ∀ msg page, arriving e = some msg → msg.page = some page →
    ∃ payload, B.toOriginal page = .ok payload
  /-- No scalar message is served when an envelope is there. -/
  unspent : ∀ msg, (arriving e).or w.waiter = some msg → msg.page = none → leaves e = false →
    ∀ b hLen, w.pending.or (terminalEvent e w.deadlineMs w.lastSendAt) ≠ some (.binary b hLen)

/-- The worker after an iteration, unless the loop has been left. -/
def goOn (e : Iteration B) (w : Worker B) : Option (Worker B) :=
  match w.iteration e with
  | .running w' => some w'
  | .exited _ => none

theorem goOn_eq_some_iff {e : Iteration B} {w w' : Worker B} :
    goOn e w = some w' ↔ w.iteration e = .running w' := by
  unfold goOn
  split <;> simp [*]

/-- A loop that is still running is a run of its iterations. -/
theorem reach_goOn {es : List (Iteration B)} {w w' : Worker B}
    (hLoop : Worker.loop es w = .running w') : reach goOn es w = some w' := by
  induction es generalizing w with
  | nil => rw [Flow.running.inj hLoop, reach_nil]
  | cons e es ih =>
    rw [Worker.loop] at hLoop
    cases hIter : w.iteration e with
    | exited w₁ =>
      rw [hIter] at hLoop
      cases hLoop
    | running w₁ =>
      rw [hIter] at hLoop
      exact reach_cons.mpr ⟨w₁, goOn_eq_some_iff.mpr hIter, ih hLoop⟩

/-- **An invariant of every step** holds at the end of the run. -/
theorem loop_invariant {P : Iteration B → Worker B → Prop} {I : Worker B → Prop}
    (hStep : ∀ e w, P e w → I w → I (w.iteration e).ended) {es : List (Iteration B)}
    {w : Worker B} (h : Throughout goOn P es w) (hInv : I w) : I (Worker.loop es w).ended := by
  induction es generalizing w with
  | nil => exact hInv
  | cons e es ih =>
    have hNext := hStep e w h.1 hInv
    rw [Worker.loop]
    cases hIter : w.iteration e with
    | exited w' => rwa [hIter] at hNext
    | running w' =>
      rw [hIter] at hNext
      exact ih (h.2 w' (goOn_eq_some_iff.mpr hIter)) hNext

/-- What holds once a message has been served, and is kept by the checks, holds
after the iteration. -/
theorem iteration_invariant {I : Worker B → Prop} {e : Iteration B} {w : Worker B}
    (hServed : I (w.serviceIpc e).ended)
    (hObserved : ∀ w', I w' → I (((w'.checkDeadline e).keepalive e).driveRead e).deliver) :
    I (w.iteration e).ended := by
  unfold Worker.iteration
  cases hIpc : w.serviceIpc e with
  | exited w' => rwa [hIpc] at hServed
  | running w' =>
    rw [hIpc] at hServed
    exact hObserved w' hServed

-- ---------------------------------------------------------------------------
-- What goes back
-- ---------------------------------------------------------------------------

section Replies

variable {msg : Envelope B}

/-- A wait that is filled is answered if it is a memory message. -/
theorem answersIn_fillBuf_fst (hOp : msg.op = some .waitAndTakeBinary) (r : PendingResult) :
    (answersIn (fillBuf msg r)).map Prod.fst = [msg].filter (·.page.isSome) := by
  cases hPage : msg.page with
  | none => simp [fillBuf, answersIn, hPage]
  | some page => simp [answersIn_fillBuf hOp hPage, hPage]

theorem dropped_of_filter (h : [msg].filter (·.page.isSome) = []) : dropped msg = [] := by
  cases hPage : msg.page with
  | none => simp [dropped, hPage]
  | some page => simp [hPage] at h

/-- Dropping the parked wait loses nothing if it is a scalar message. -/
theorem dropped_parked {w : Worker B} (h : parkedWait w = []) :
    (w.waiter.map dropped).getD [] = [] := by
  unfold parkedWait at h
  cases hWaiter : w.waiter with
  | none => rfl
  | some parked =>
    rw [hWaiter] at h
    exact dropped_of_filter h

theorem status_fill (payload : WsResultBuf) (r : PendingResult) :
    (payload.fill r).status ∈ terminalStatuses := by
  rcases r with ⟨b, hLen⟩ | _ | _ | _ | _ <;> simp [WsResultBuf.fill, terminalStatuses]

/-- Filling a page that can be read leaves one that its owner can read. -/
theorem populated_filledPage (hB : B.Rewritable) {page : B.Page} {payload : WsResultBuf}
    (hPayload : B.toOriginal page = .ok payload) (r : PendingResult) :
    Populated (filledPage page r) := by
  obtain ⟨page', hReplace, hOriginal⟩ := hB page payload (payload.fill r) hPayload
  refine ⟨payload.fill r, ?_, status_fill payload r⟩
  simpa [filledPage, hPayload, hReplace] using hOriginal

/-- Its page holds a payload, should it have one. -/
def Readable (msg : Envelope B) : Prop :=
  ∀ page, msg.page = some page → ∃ payload, B.toOriginal page = .ok payload

/-- A page that has been filled in is populated. -/
theorem populated_fillBuf (hB : B.Rewritable) (hOp : msg.op = some .waitAndTakeBinary)
    (hRead : Readable msg) (r : PendingResult) :
    ∀ a ∈ answersIn (fillBuf msg r), Populated a.2 := by
  intro a ha
  cases hPage : msg.page with
  | none => simp [fillBuf, answersIn, hPage] at ha
  | some page =>
    obtain ⟨payload, hPayload⟩ := hRead page hPage
    rw [answersIn_fillBuf hOp hPage, List.mem_singleton] at ha
    rw [ha]
    exact populated_filledPage hB hPayload r

end Replies

-- ---------------------------------------------------------------------------
-- What an iteration receives
-- ---------------------------------------------------------------------------

section Arriving

variable {e : Iteration B} {msg : Envelope B}

theorem arriving_wait (hMsg : e.received = .ok (some msg))
    (hOp : msg.op = some .waitAndTakeBinary) : arriving e = some msg ∧ leaves e = false := by
  simp [arriving, leaves, hMsg, hOp, Except.toOption]

theorem arriving_other (hMsg : e.received = .ok (some msg))
    (hOp : msg.op ≠ some .waitAndTakeBinary) : arriving e = none := by
  simp [arriving, hMsg, hOp, Except.toOption]

theorem arriving_idle (hNone : e.received = .ok none) :
    arriving e = none ∧ leaves e = false := by
  simp [arriving, leaves, hNone, Except.toOption]

end Arriving

-- ---------------------------------------------------------------------------
-- The order of the answers
-- ---------------------------------------------------------------------------

/-- The memory messages among the waits are answered in order, up to the one
that is parked; nothing is pending while one is parked. -/
structure Orderly (w : Worker B) : Prop where
  inOrder : (answers w).map Prod.fst ++ parkedWait w = memoryWaits w
  populated : ∀ a ∈ answers w, Populated a.2
  parked : ∀ msg, w.waiter = some msg → msg.op = some .waitAndTakeBinary ∧ Readable msg
  idle : w.waiter = none ∨ w.pending = none

theorem orderly_start (deadlineMs sendClock : UInt64) :
    Orderly (Worker.start deadlineMs sendClock : Worker B) :=
  ⟨rfl, fun _ h => absurd h List.not_mem_nil, nofun, .inl rfl⟩

section Steps

variable {e : Iteration B} {w : Worker B} {msg : Envelope B}

theorem memoryWaits_receive_wait (hOp : msg.op = some .waitAndTakeBinary) :
    memoryWaits (receive w msg) = memoryWaits w ++ [msg].filter (·.page.isSome) := by
  have hWaits : waits (receive w msg) = waits w ++ [msg] := by simp [receive, waits, hOp]
  rw [memoryWaits, hWaits, List.filter_append]
  rfl

theorem memoryWaits_receive_other (hOp : msg.op ≠ some .waitAndTakeBinary) :
    memoryWaits (receive w msg) = memoryWaits w := by
  rw [memoryWaits, waits_receive_other hOp]
  rfl

/-- A wait that comes while no memory message is parked. -/
theorem orderly_takeWait (hB : B.Rewritable) (h : Orderly w)
    (hOp : msg.op = some .waitAndTakeBinary) (hRead : Readable msg) (hAlone : parkedWait w = []) :
    Orderly ((receive w msg).takeWait msg) := by
  -- nothing is parked, so all waits so far have been answered
  have hBefore : (answers w).map Prod.fst = memoryWaits w := by
    rw [← h.inOrder, hAlone, List.append_nil]
  unfold Worker.takeWait
  cases hPending : (receive w msg).pending with
  -- a result is there: the wait is answered at once
  | some r =>
    have hWaiter : w.waiter = none := h.idle.resolve_right fun hNone => by
      rw [show w.pending = some r from hPending] at hNone
      exact absurd hNone nofun
    constructor
    case inOrder =>
      show (answersIn (w.replies ++ fillBuf msg r)).map Prod.fst ++ parkedWait w =
        memoryWaits (receive w msg)
      rw [hAlone, List.append_nil, answersIn_append, List.map_append, answersIn_fillBuf_fst hOp,
        memoryWaits_receive_wait hOp]
      exact congrArg (· ++ _) hBefore
    case populated =>
      intro a ha
      replace ha : a ∈ answersIn (w.replies ++ fillBuf msg r) := ha
      rw [answersIn_append] at ha
      rcases List.mem_append.mp ha with hOld | hNew
      · exact h.populated a hOld
      · exact populated_fillBuf hB hOp hRead r a hNew
    case parked => exact h.parked
    case idle => exact .inl hWaiter
  -- there is none yet: the wait is parked
  | none =>
    have hReplies : ((receive w msg).park msg).replies = w.replies := by
      show w.replies ++ (w.waiter.map dropped).getD [] = w.replies
      rw [dropped_parked hAlone, List.append_nil]
    constructor
    case inOrder =>
      show (answersIn ((receive w msg).park msg).replies).map Prod.fst ++
        [msg].filter (·.page.isSome) = memoryWaits (receive w msg)
      rw [hReplies, memoryWaits_receive_wait hOp]
      exact congrArg (· ++ _) hBefore
    case populated =>
      intro a ha
      replace ha : a ∈ answersIn ((receive w msg).park msg).replies := ha
      rw [hReplies] at ha
      exact h.populated a ha
    case parked =>
      intro m hm
      obtain rfl := Option.some.inj hm
      exact ⟨hOp, hRead⟩
    case idle => exact .inr hPending

/-- An unknown opcode changes nothing. -/
theorem orderly_unknown (h : Orderly w) (hOp : msg.op ≠ some .waitAndTakeBinary) :
    Orderly { receive w msg with replies := w.replies ++ dropped msg } := by
  have hAnswers : answers { receive w msg with replies := w.replies ++ dropped msg } =
      answers w := by
    show answersIn (w.replies ++ dropped msg) = answersIn w.replies
    rw [answersIn_append, answersIn_dropped hOp, List.append_nil]
  refine ⟨?_, by rw [hAnswers]; exact h.populated, h.parked, h.idle⟩
  rw [hAnswers]
  exact h.inOrder.trans (memoryWaits_receive_other hOp).symm

/-- A parked wait that gets a result, which leaves none parked. -/
theorem orderly_answered (hB : B.Rewritable) (h : Orderly w) (hWaiter : w.waiter = some msg)
    (r : PendingResult) :
    (answersIn (w.replies ++ fillBuf msg r)).map Prod.fst = memoryWaits w ∧
      ∀ a ∈ answersIn (w.replies ++ fillBuf msg r), Populated a.2 := by
  obtain ⟨hOp, hRead⟩ := h.parked msg hWaiter
  rw [answersIn_append, List.map_append, answersIn_fillBuf_fst hOp]
  constructor
  · rw [← h.inOrder, parkedWait, hWaiter]
    rfl
  · intro a ha
    rcases List.mem_append.mp ha with hOld | hNew
    · exact h.populated a hOld
    · exact populated_fillBuf hB hOp hRead r a hNew

/-- A cancel answers the parked wait. -/
theorem orderly_cancel (hB : B.Rewritable) (h : Orderly w)
    (hOp : msg.op ≠ some .waitAndTakeBinary) : Orderly ((receive w msg).cancel msg) := by
  have hAnswers : answers ((receive w msg).cancel msg) =
      answersIn (w.replies ++ (w.waiter.map fun m => fillBuf m .cancelled).getD []) := by
    rw [answers, Worker.cancel, answersIn_append, answersIn_dropped hOp, answersIn_append,
      answersIn_scalar, List.append_nil, List.append_nil]
    rfl
  have hParked : parkedWait ((receive w msg).cancel msg) = [] := rfl
  have hWaits : memoryWaits ((receive w msg).cancel msg) = memoryWaits w :=
    memoryWaits_receive_other hOp
  have hNone (m : Envelope B) : ((receive w msg).cancel msg).waiter ≠ some m :=
    (Option.some_ne_none m).symm
  cases hWaiter : w.waiter with
  -- nothing is parked
  | none =>
    rw [hWaiter, Option.map_none, Option.getD_none, List.append_nil] at hAnswers
    refine ⟨?_, by rw [hAnswers]; exact h.populated,
      fun m hSome => absurd hSome (hNone m), .inl rfl⟩
    have hBefore := h.inOrder
    rw [parkedWait, hWaiter] at hBefore
    rw [hAnswers, hParked, hWaits]
    exact hBefore
  -- the parked wait is answered first
  | some parked =>
    obtain ⟨hOrder, hPopulated⟩ := orderly_answered hB h hWaiter .cancelled
    rw [hWaiter, Option.map_some, Option.getD_some] at hAnswers
    refine ⟨?_, by rw [hAnswers]; exact hPopulated,
      fun m hSome => absurd hSome (hNone m), .inl rfl⟩
    rw [hAnswers, hParked, List.append_nil, hWaits]
    exact hOrder

/-- After a cancel there is no wait to drop. -/
theorem leave_cancel (w : Worker B) (msg : Envelope B) : (w.cancel msg).leave = w.cancel msg := by
  rw [Worker.leave, show (w.cancel msg).waiter = none from rfl, Option.map_none, Option.getD_none,
    List.append_nil]
  rfl

/-- A failing receive loses no memory message if none is parked. -/
theorem orderly_failed (h : Orderly w) (hAlone : parkedWait w = []) : Orderly w.leave := by
  rw [Worker.leave, dropped_parked hAlone, List.append_nil]
  refine ⟨?_, h.populated, nofun, .inl rfl⟩
  have hBefore := h.inOrder
  rw [hAlone] at hBefore
  exact hBefore

/-- What the checks find is delivered to the parked wait. -/
theorem orderly_observed (hB : B.Rewritable) (h : Orderly w) (e : Iteration B) :
    Orderly (((w.checkDeadline e).keepalive e).driveRead e).deliver := by
  obtain ⟨last, hObserve, -⟩ := observe_eq e w
  rw [hObserve]
  generalize w.pending.or (terminalEvent e w.deadlineMs w.lastSendAt) = found
  -- a result is delivered if there is a wait, and kept otherwise
  obtain hWaiter | ⟨parked, hWaiter⟩ := Option.eq_none_or_eq_some w.waiter
  · rw [deliver_of_none (w := { w with pending := found, lastSendAt := last }) hWaiter]
    exact ⟨h.inOrder, h.populated, h.parked, .inl hWaiter⟩
  · rcases found with _ | r
    · have hDeliver : ({ w with pending := none, lastSendAt := last } : Worker B).deliver =
          { w with pending := none, lastSendAt := last } := rfl
      rw [hDeliver]
      exact ⟨h.inOrder, h.populated, h.parked, .inr rfl⟩
    · rw [deliver_of_some (w := { w with pending := some r, lastSendAt := last }) hWaiter rfl]
      obtain ⟨hOrder, hPopulated⟩ := orderly_answered hB h hWaiter r
      exact ⟨(List.append_nil _).trans hOrder, hPopulated, nofun, .inl rfl⟩

/-- No memory message is parked when a wait comes or a receive fails. -/
theorem Undisturbed.parkedWait_eq (hU : Undisturbed e w)
    (h : arriving e ≠ none ∨ e.received.isOk = false) : parkedWait w = [] := by
  by_contra hParked
  obtain ⟨hNone, hOk⟩ := hU.alone hParked
  rcases h with hSome | hFailed
  · exact hSome hNone
  · rw [hFailed] at hOk
    exact absurd hOk nofun

/-- **Serving a message** keeps the order, if it is not disturbed. -/
theorem orderly_served (hB : B.Rewritable) (h : Orderly w) (hU : Undisturbed e w) :
    Orderly (w.serviceIpc e).ended := by
  have hServed := serviceIpc_served e w
  generalize w.serviceIpc e = f at hServed ⊢
  cases hServed with
  | idle => exact h
  | wait msg hMsg hOp =>
    obtain ⟨hArriving, -⟩ := arriving_wait hMsg hOp
    have hAlone := hU.parkedWait_eq (.inl (by rw [hArriving]; exact nofun))
    exact orderly_takeWait hB h hOp (fun page => hU.readable msg page hArriving) hAlone
  | unknown msg hMsg hOp => exact orderly_unknown h (by rw [hOp]; exact nofun)
  | cancel msg hMsg hOp =>
    rw [Flow.ended, leave_cancel]
    exact orderly_cancel hB h (by rw [hOp]; exact nofun)
  | failed err hErr => exact orderly_failed h (hU.parkedWait_eq (.inr (by rw [hErr]; rfl)))

/-- **One iteration** keeps the order of the answers. -/
theorem orderly_iteration (hB : B.Rewritable) (hU : Undisturbed e w) (h : Orderly w) :
    Orderly (w.iteration e).ended :=
  iteration_invariant (orderly_served hB h hU) fun _ hServed => orderly_observed hB hServed e

-- ---------------------------------------------------------------------------
-- An accepted envelope
-- ---------------------------------------------------------------------------

/-- Serving a message takes no reply back. -/
theorem replies_serviceIpc (e : Iteration B) (w : Worker B) :
    w.replies <+: (w.serviceIpc e).ended.replies := by
  have hServed := serviceIpc_served e w
  generalize w.serviceIpc e = f at hServed ⊢
  cases hServed with
  | idle => exact List.prefix_rfl
  | wait msg hMsg hOp =>
    show w.replies <+: ((receive w msg).takeWait msg).replies
    unfold Worker.takeWait
    split <;> exact List.prefix_append _ _
  | unknown msg hMsg hOp => exact List.prefix_append _ _
  | cancel msg hMsg hOp =>
    rw [Flow.ended, leave_cancel]
    show w.replies <+: w.replies ++ _ ++ _ ++ _
    rw [List.append_assoc, List.append_assoc]
    exact List.prefix_append _ _
  | failed err hErr => exact List.prefix_append _ _

/-- The checks of an iteration only add replies. -/
theorem replies_observed (e : Iteration B) (w : Worker B) :
    w.replies <+: (((w.checkDeadline e).keepalive e).driveRead e).deliver.replies := by
  obtain ⟨last, hObserve, -⟩ := observe_eq e w
  rw [hObserve]
  unfold Worker.deliver
  split
  · exact List.prefix_append _ _
  · exact List.prefix_rfl

/-- The envelope `b` is owed to the wait that is answered after `k` others: it
has it, or the envelope is pending and no wait is there. -/
inductive Owed (k : Nat) (b : Bytes) (w : Worker B) : Prop
  | delivered (a : Envelope B × B.Page) (hAnswer : (answers w)[k]? = some a)
      (hTaken : takeResult a.2 = .binary b)
  | pending (hWaiter : w.waiter = none) (hLength : (answers w).length = k)
      (hLen : b.length ≤ wsProvisionMax) (hPending : w.pending = some (.binary b hLen))

/-- An answer that has been given stays given. -/
theorem Owed.of_prefix {k : Nat} {b : Bytes} {w w' : Worker B} {a : Envelope B × B.Page}
    (hAnswer : (answers w)[k]? = some a) (hTaken : takeResult a.2 = .binary b)
    (hPrefix : answers w <+: answers w') : Owed k b w' := by
  obtain ⟨rest, hRest⟩ := hPrefix
  obtain ⟨hk, -⟩ := List.getElem?_eq_some_iff.mp hAnswer
  exact .delivered a (by rw [← hRest, List.getElem?_append_left hk, hAnswer]) hTaken

/-- A wait with a page that gets the envelope. -/
theorem owed_filled (hB : B.Rewritable) {page : B.Page} {payload : WsResultBuf} {b : Bytes}
    (hOp : msg.op = some .waitAndTakeBinary) (hPage : msg.page = some page)
    (hPayload : B.toOriginal page = .ok payload) (hLen : b.length ≤ wsProvisionMax)
    {w' : Worker B} (hReplies : w'.replies = w.replies ++ fillBuf msg (.binary b hLen)) :
    Owed (answers w).length b w' := by
  refine .delivered (msg, filledPage page (.binary b hLen)) ?_
    (takeResult_filledPage hB hPayload (.binary b hLen))
  have hAnswers : answers w' = answers w ++ [(msg, filledPage page (.binary b hLen))] := by
    rw [answers, hReplies, answersIn_append, answersIn_fillBuf hOp hPage]
    rfl
  rw [hAnswers]
  exact List.getElem?_concat_length

theorem owed_observed {k : Nat} {b : Bytes} (h : Owed k b w) (e : Iteration B) :
    Owed k b (((w.checkDeadline e).keepalive e).driveRead e).deliver := by
  rcases h with ⟨a, hAnswer, hTaken⟩ | ⟨hWaiter, hLength, hLen, hPending⟩
  · exact Owed.of_prefix hAnswer hTaken ((replies_observed e w).filterMap _)
  · obtain ⟨last, hSame⟩ := observed_of_none hWaiter e
    rw [hSame]
    exact .pending hWaiter hLength hLen (by rw [hPending]; rfl)

/-- Serving a message leaves an envelope owed, or delivers it. -/
theorem owed_served (hB : B.Rewritable) (hU : Undisturbed e w) {k : Nat} {b : Bytes}
    (h : Owed k b w) : Owed k b (w.serviceIpc e).ended := by
  -- A frame owed is either answered already, and stays so as answers are only added, or
  -- still pending with no wait parked to take it.
  rcases h with ⟨a, hAnswer, hTaken⟩ | ⟨hWaiter, rfl, hLen, hPending⟩
  · exact Owed.of_prefix hAnswer hTaken ((replies_serviceIpc e w).filterMap _)
  have hServed := serviceIpc_served e w
  generalize w.serviceIpc e = f at hServed ⊢
  cases hServed with
  | idle => exact .pending hWaiter rfl hLen hPending
  | wait msg hMsg hOp =>
    obtain ⟨hArriving, hStays⟩ := arriving_wait hMsg hOp
    -- A scalar wait would take the frame and have nowhere to put it; `Undisturbed` excludes
    -- exactly this.
    have hPage : msg.page ≠ none := fun hNone =>
      hU.unspent msg (by rw [hArriving]; rfl) hNone hStays b hLen (by rw [hPending]; rfl)
    obtain ⟨page, hPage⟩ := Option.ne_none_iff_exists'.mp hPage
    obtain ⟨payload, hPayload⟩ := hU.readable msg page hArriving hPage
    refine owed_filled hB hOp hPage hPayload hLen ?_
    simp [Flow.ended, Worker.takeWait, receive, hPending]
  | unknown msg hMsg hOp =>
    refine .pending hWaiter ?_ hLen hPending
    show (answersIn (w.replies ++ dropped msg)).length = (answersIn w.replies).length
    rw [answersIn_append, answersIn_dropped (by simp [hOp]), List.append_nil]
  | cancel msg hMsg hOp =>
    rw [Flow.ended, leave_cancel]
    refine .pending rfl ?_ hLen hPending
    show (answersIn (w.replies ++ (w.waiter.map fun m => fillBuf m .cancelled).getD [] ++ _ ++
      dropped msg)).length = (answersIn w.replies).length
    rw [hWaiter, answersIn_append, answersIn_dropped (by simp [hOp]), answersIn_append,
      answersIn_scalar, Option.map_none, Option.getD_none, List.append_nil, List.append_nil,
      List.append_nil]
  | failed err hErr =>
    refine .pending rfl ?_ hLen hPending
    show (answersIn (w.replies ++ (w.waiter.map dropped).getD [])).length =
      (answersIn w.replies).length
    rw [hWaiter, Option.map_none, Option.getD_none, List.append_nil]

/-- **One iteration** keeps an accepted envelope owed. -/
theorem owed_iteration (hB : B.Rewritable) (hU : Undisturbed e w) {k : Nat} {b : Bytes}
    (h : Owed k b w) : Owed k b (w.iteration e).ended :=
  iteration_invariant (owed_served hB hU h) fun _ hServed => owed_observed hServed e

/-- The wait that is parked once a message has been served. -/
theorem parked_served (h : Orderly w) {w₁ : Worker B} (hIpc : w.serviceIpc e = .running w₁)
    (hWaiter : w₁.waiter = some msg) :
    leaves e = false ∧ (arriving e).or w.waiter = some msg ∧ w.pending = none ∧
      w₁.deadlineMs = w.deadlineMs ∧ w₁.lastSendAt = w.lastSendAt := by
  have hServed := serviceIpc_served e w
  rw [hIpc] at hServed
  generalize hFlow : Flow.running w₁ = f at hServed
  -- A worker that holds a wait holds no result, so nothing was pending if one is parked.
  have hIdle {m : Envelope B} (hSome : w.waiter = some m) : w.pending = none :=
    h.idle.resolve_left (by rw [hSome]; exact Option.some_ne_none m)
  cases hServed with
  | idle hNone =>
    obtain rfl := Flow.running.inj hFlow
    obtain ⟨hArriving, hStays⟩ := arriving_idle hNone
    exact ⟨hStays, by rw [hArriving]; exact hWaiter, hIdle hWaiter, rfl, rfl⟩
  | wait m hMsg hOp =>
    obtain rfl := Flow.running.inj hFlow
    obtain ⟨hArriving, hStays⟩ := arriving_wait hMsg hOp
    obtain ⟨hDeadline, hLast⟩ := takeWait_clocks (receive w m) m
    refine ⟨hStays, ?_, ?_, hDeadline, hLast⟩
    all_goals
      unfold Worker.takeWait at hWaiter
      cases hPending : (receive w m).pending with
      | none =>
        rw [hPending] at hWaiter
        first | exact hPending | (rw [hArriving]; exact hWaiter)
      | some r =>
        rw [hPending] at hWaiter
        cases (hIdle hWaiter).symm.trans hPending
  | unknown m hMsg hOp =>
    obtain rfl := Flow.running.inj hFlow
    have hArriving := arriving_other hMsg (by simp [hOp])
    have hStays : leaves e = false := by simp [leaves, hMsg, hOp]
    exact ⟨hStays, by rw [hArriving]; exact hWaiter, hIdle hWaiter, rfl, rfl⟩
  | cancel => cases hFlow
  | failed => cases hFlow

/-- **An envelope that is accepted** is owed to the first wait without an
answer. -/
theorem owed_accepted (hB : B.Rewritable) (h : Orderly w) (hU : Undisturbed e w) {w₁ : Worker B}
    (hIpc : w.serviceIpc e = .running w₁) {b : Bytes} (hAccepts : Accepts e w₁ b) :
    Owed (answers w₁).length b (w.iteration e).ended := by
  obtain ⟨hNone, hLen, hFound⟩ := hAccepts
  have hIter : (w.iteration e).ended =
      (((w₁.checkDeadline e).keepalive e).driveRead e).deliver := by
    rw [Worker.iteration, hIpc]
    rfl
  have hServed : Orderly w₁ := by
    have hOrderly := orderly_served hB h hU
    rwa [hIpc] at hOrderly
  obtain ⟨last, hObserve, -⟩ := observe_eq e w₁
  have hEvent : terminalEvent e w₁.deadlineMs w₁.lastSendAt = some (.binary b hLen) := by
    rw [hObserve, hNone] at hFound
    exact hFound
  rw [hIter, hObserve, hNone, hEvent, Option.none_or]
  -- With no wait parked the frame stays pending; with one parked it is written into that
  -- wait's page.
  obtain hWaiter | ⟨msg, hWaiter⟩ := Option.eq_none_or_eq_some w₁.waiter
  · rw [deliver_of_none (w := { w₁ with pending := _, lastSendAt := last }) hWaiter]
    exact .pending hWaiter rfl hLen rfl
  · obtain ⟨hStays, hParked, hPending, hDeadline, hLast⟩ := parked_served h hIpc hWaiter
    obtain ⟨hOp, hRead⟩ := hServed.parked msg hWaiter
    have hPage : msg.page ≠ none := fun hScalar =>
      hU.unspent msg hParked hScalar hStays b hLen (by
        rw [hPending, ← hDeadline, ← hLast]
        exact hEvent)
    obtain ⟨page, hPage⟩ := Option.ne_none_iff_exists'.mp hPage
    obtain ⟨payload, hPayload⟩ := hRead page hPage
    rw [deliver_of_some (w := { w₁ with pending := some (.binary b hLen), lastSendAt := last })
      hWaiter rfl]
    exact owed_filled hB hOp hPage hPayload hLen rfl

end Steps

-- ---------------------------------------------------------------------------
-- Whole runs
-- ---------------------------------------------------------------------------

section Runs

variable {deadlineMs sendClock : UInt64} {es : List (Iteration B)}

/-- No wait is parked once a cancel has been handled. -/
theorem parkedWait_of_cancelled
    (h : HandledCancel (Worker.loop es (Worker.start deadlineMs sendClock)).ended) :
    parkedWait (Worker.loop es (Worker.start deadlineMs sendClock)).ended = [] := by
  obtain ⟨m, hMem, hOp⟩ := h
  cases hLoop : Worker.loop es (Worker.start deadlineMs sendClock) with
  | running w =>
    rw [hLoop] at hMem
    exact absurd hOp (no_cancel_of_running hLoop (fun _ h => absurd h List.not_mem_nil) m hMem)
  | exited w => rfl

/-- What is owed to a wait that has come has been delivered to it. -/
theorem delivered_of_owed {w : Worker B} (h : Orderly w) {k : Nat} {b : Bytes} (hOwed : Owed k b w)
    {msg : Envelope B} (hMsg : (memoryWaits w)[k]? = some msg) :
    ∃ page, (answers w)[k]? = some (msg, page) ∧ takeResult page = .binary b := by
  rw [← h.inOrder] at hMsg
  rcases hOwed with ⟨⟨msg', page⟩, hAnswer, hTaken⟩ | ⟨hWaiter, rfl, hLen, hPending⟩
  · obtain ⟨hk, -⟩ := List.getElem?_eq_some_iff.mp hAnswer
    rw [List.getElem?_append_left (by rwa [List.length_map]), List.getElem?_map, hAnswer] at hMsg
    obtain rfl := Option.some.inj hMsg
    exact ⟨page, hAnswer, hTaken⟩
  · have hNone : parkedWait w = [] := by rw [parkedWait, hWaiter]; rfl
    rw [hNone, List.append_nil, List.getElem?_eq_none (by rw [List.length_map])] at hMsg
    exact absurd hMsg nofun

/-- **Waits are answered** under any traffic that takes nothing from them:
every memory message exactly once and with a terminal status, and an accepted
envelope goes to the first of them without an answer. -/
theorem waits_answered_undisturbed (hB : B.Rewritable)
    (hTraffic : Throughout goOn Undisturbed es (Worker.start deadlineMs sendClock)) :
    WaitLaw deadlineMs sendClock es (Worker.loop es (Worker.start deadlineMs sendClock)) := by
  -- The first three clauses are about the end of the run and follow from the invariant; the
  -- last is followed from the iteration that accepts the frame on.
  have hOrderly := loop_invariant (fun _ _ => orderly_iteration hB) hTraffic
    (orderly_start deadlineMs sendClock)
  constructor
  case inOrder => exact hOrderly.inOrder
  case populated => exact hOrderly.populated
  case returned =>
    intro hCancelled
    rw [← hOrderly.inOrder, parkedWait_of_cancelled hCancelled, List.append_nil]
  case delivered =>
    rintro es₁ e es₂ w w₁ b rfl hLoop hIpc hAccepts msg hMsg
    obtain ⟨hBefore, hHead, hAfter⟩ := hTraffic.split (reach_goOn hLoop)
    have hOrderly₁ : Orderly w := by
      have h := loop_invariant (fun _ _ => orderly_iteration hB) hBefore
        (orderly_start deadlineMs sendClock)
      rwa [hLoop] at h
    have hOwed := owed_accepted hB hOrderly₁ hHead hIpc hAccepts
    refine delivered_of_owed hOrderly ?_ hMsg
    -- From the accepting iteration the frame is owed, and every later iteration keeps it
    -- owed.
    rw [loop_append, hLoop]
    show Owed _ b (Worker.loop (e :: es₂) w).ended
    rw [Worker.loop]
    cases hIter : w.iteration e with
    | exited w' => rwa [hIter] at hOwed
    | running w' =>
      rw [hIter] at hOwed
      exact loop_invariant (fun _ _ hU => owed_iteration hB hU)
        (hAfter w' (goOn_eq_some_iff.mpr hIter)) hOwed

end Runs

-- ---------------------------------------------------------------------------
-- Runs on pages that are the payload
-- ---------------------------------------------------------------------------

def plainPage : IpcBuffer.plain.Page := WsResultBuf.empty

theorem toOriginal_plainPage : IpcBuffer.plain.toOriginal plainPage = .ok .empty := rfl

/-- An iteration that receives `msg` and reads a frame. -/
def receives (msg : Envelope .plain) (read : MainWs.Frame) : Iteration .plain :=
  ⟨.ok (some msg), 0, 0, .ok (), 0, .ok read⟩

def memoryWait (sender : Nat) : Envelope .plain := ⟨sender, 0, some plainPage⟩

def scalarWait (sender : Nat) : Envelope .plain := ⟨sender, 0, none⟩

def plainCancel : Envelope .plain := ⟨7, 1, none⟩

/-- A second wait comes while one is parked. -/
def secondWait : List (Iteration .plain) :=
  [receives (memoryWait 7) .frame, receives (memoryWait 8) .frame, receives plainCancel .frame]

/-- A scalar message is parked when the envelope comes, before the wait. -/
def takenEnvelope : List (Iteration .plain) :=
  [receives (scalarWait 8) (.binary [1, 2, 3]), receives (memoryWait 7) .close]

/-- A wait that is dislodged, and an envelope that is lost. -/
theorem wait_dislodged :
    (¬WaitLaw 180000 0 secondWait (Worker.loop secondWait (Worker.start 180000 0))) ∧
    ¬WaitLaw 180000 0 takenEnvelope (Worker.loop takenEnvelope (Worker.start 180000 0)) := by
  constructor
  · intro h
    have hAnswers : answers (Worker.loop secondWait (Worker.start 180000 0)).ended =
        [(memoryWait 7, plainPage), (memoryWait 8, filledPage plainPage .cancelled)] := rfl
    obtain ⟨result, hResult, hStatus⟩ := h.populated (memoryWait 7, plainPage)
      (by rw [hAnswers]; exact List.mem_cons_self)
    -- The first of the two waits gets its own page back, whose status is none of the four
    -- terminal ones.
    obtain rfl := Except.ok.inj (toOriginal_plainPage.symm.trans hResult)
    exact absurd hStatus (by decide)
  · intro h
    -- A scalar wait takes the frame, so that the wait with a page that follows gets the
    -- close instead.
    obtain ⟨page, hPage, hTaken⟩ := h.delivered [] (receives (scalarWait 8) (.binary [1, 2, 3]))
      [receives (memoryWait 7) .close] _ _ [1, 2, 3] rfl rfl rfl ⟨rfl, by decide, rfl⟩
      (memoryWait 7) rfl
    have hAnswers : answers (Worker.loop takenEnvelope (Worker.start 180000 0)).ended =
        [(memoryWait 7, filledPage plainPage .closed)] := rfl
    rw [hAnswers] at hPage
    obtain ⟨-, rfl⟩ := Prod.mk.inj (Option.some.inj hPage)
    rw [takeResult_filledPage IpcBuffer.plain_lawful.rewritable toOriginal_plainPage] at hTaken
    exact absurd hTaken nofun

/-- A scalar message before the wait, and an unknown opcode with the envelope. -/
def disturbedRun : List (Iteration .plain) :=
  [receives (scalarWait 8) .frame, receives (memoryWait 7) .frame,
    receives ⟨8, 5, some plainPage⟩ (.binary [1, 2, 3]), receives plainCancel .frame]

/-- It meets the hypothesis: the wait replaces the scalar message before there is
a result to give away. -/
theorem disturbedRun_undisturbed :
    Throughout goOn Undisturbed disturbedRun (Worker.start 180000 0) := by
  have hReadable (msg : Envelope .plain) (page : IpcBuffer.plain.Page) :
      ∃ payload, IpcBuffer.plain.toOriginal page = .ok payload := ⟨page, rfl⟩
  refine ⟨⟨fun h => absurd rfl h, fun msg page _ _ => hReadable msg page, ?_⟩, fun w₁ h₁ => ?_⟩
  · intro _ _ _ _ b hLen h
    exact absurd h nofun
  obtain rfl := Option.some.inj h₁
  refine ⟨⟨fun h => absurd rfl h, fun msg page _ _ => hReadable msg page, ?_⟩, fun w₂ h₂ => ?_⟩
  · intro _ _ _ _ b hLen h
    exact absurd h nofun
  obtain rfl := Option.some.inj h₂
  refine ⟨⟨fun _ => ⟨rfl, rfl⟩, fun msg page _ _ => hReadable msg page, ?_⟩, fun w₃ h₃ => ?_⟩
  · intro msg hMsg hScalar
    obtain rfl := Option.some.inj hMsg
    exact absurd hScalar nofun
  obtain rfl := Option.some.inj h₃
  refine ⟨⟨fun h => absurd rfl h, fun msg page _ _ => hReadable msg page, ?_⟩, fun w₄ _ => trivial⟩
  intro _ _ _ hStays
  exact absurd hStays nofun

/-- The theorem for this traffic: the wait gets the envelope. -/
theorem waits_answered_undisturbed_plain :
    (answers (Worker.loop disturbedRun (Worker.start 180000 0)).ended).map Prod.fst =
      [memoryWait 7] ∧
    ∃ page, (answers (Worker.loop disturbedRun (Worker.start 180000 0)).ended)[0]? =
      some (memoryWait 7, page) ∧ takeResult page = .binary [1, 2, 3] := by
  have hLaw := waits_answered_undisturbed IpcBuffer.plain_lawful.rewritable
    disturbedRun_undisturbed
  refine ⟨hLaw.returned ⟨plainCancel, ?_, rfl⟩, ?_⟩
  · show plainCancel ∈ [scalarWait 8, memoryWait 7, ⟨8, 5, some plainPage⟩, plainCancel]
    simp
  · exact hLaw.delivered [receives (scalarWait 8) .frame, receives (memoryWait 7) .frame]
      (receives ⟨8, 5, some plainPage⟩ (.binary [1, 2, 3])) [receives plainCancel .frame] _ _
      [1, 2, 3] rfl rfl rfl ⟨rfl, by decide, rfl⟩ (memoryWait 7) rfl

end Sigchat.Results.HostileIpc

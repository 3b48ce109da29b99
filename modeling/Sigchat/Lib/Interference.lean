import Sigchat.Lib.Transcript

/-!
# Invariants under interference

Between two requests of a call other calls are served. A call is *stable* under
an invariant if each of its requests keeps it, from every state that meets it,
so it does not matter what happens in between; calls that are all stable keep
the invariant together, however they are interleaved.

Some calls keep the invariant only because they ask before they act. What they
have learnt from the answers is followed by a `Discipline`. A discipline may
also leave calls free once they have learnt something; then the invariant holds
of the runs in which no call has been told that.

* `stable_bind`, `stable_of_all` — sequencing, and the frame rule;
* `Follows.stable_interp`        — a client that follows a discipline is stable
  if each handler is, given what the client has learnt;
* `execute_invariant`            — the invariant holds after every schedule;
* `boots_invariant`              — and through restarts;
* `boots_follows`                — the same of calls that follow a discipline,
  for as long as none has been told what sets it free.
-/

namespace Sigchat.Lib

variable {Req : Type} {Resp : Req → Type} {α β σ φ ε : Type}

-- ---------------------------------------------------------------------------
-- Stable calls
-- ---------------------------------------------------------------------------

namespace Prog

/-- Each request keeps `I`, from whatever state that meets it, and the call ends
in `Q`. -/
def Stable (sv : Server Resp σ φ) (I : σ → Prop) (Q : α → Prop) : Prog Resp α → Prop
  | .done a => Q a
  | .call r k => ∀ s, I s → ∀ o, I (sv o r s).2 ∧ (k (sv o r s).1).Stable sv I Q

variable {sv : Server Resp σ φ} {I : σ → Prop}

theorem stable_call {Q : α → Prop} {r : Req} {k : Resp r → Prog Resp α} :
    (Prog.call r k).Stable sv I Q ↔
      ∀ s, I s → ∀ o, I (sv o r s).2 ∧ (k (sv o r s).1).Stable sv I Q := Iff.rfl

theorem stable_mono {Q Q' : α → Prop} {p : Prog Resp α} (hQ : ∀ a, Q a → Q' a)
    (h : p.Stable sv I Q) : p.Stable sv I Q' := by
  induction p with
  | done a => exact hQ a h
  | call r k ih => exact fun s hs o => ⟨(h s hs o).1, ih _ (h s hs o).2⟩

/-- **Sequencing.** -/
theorem stable_bind {Q : β → Prop} {p : Prog Resp α} {f : α → Prog Resp β} :
    (p >>= f).Stable sv I Q ↔ p.Stable sv I fun a => (f a).Stable sv I Q := by
  induction p with
  | done a => rfl
  | call r k ih =>
    simp only [call_bind, stable_call]
    exact forall_congr' fun s => imp_congr_right fun _ =>
      forall_congr' fun o => and_congr_right fun _ => ih _

theorem Stable.then {Q : α → Prop} {Q' : β → Prop} {p : Prog Resp α} {f : α → Prog Resp β}
    (h : p.Stable sv I Q) (hf : ∀ a, Q a → (f a).Stable sv I Q') : (p >>= f).Stable sv I Q' :=
  stable_bind.mpr (stable_mono hf h)

/-- **Frame rule.** Requests of which each keeps the invariant. -/
theorem stable_of_all {P : Req → Prop} (hKeep : ∀ r, P r → ∀ o s, I s → I (sv o r s).2)
    {p : Prog Resp α} (hp : p.All P) : p.Stable sv I fun _ => True := by
  induction p with
  | done a => trivial
  | call r k ih => exact fun s hs o => ⟨hKeep r hp.1 o s hs, ih _ (hp.2 _)⟩

end Prog

-- ---------------------------------------------------------------------------
-- Disciplines
-- ---------------------------------------------------------------------------

/-- What a client may ask for, given what it has learnt from the answers so
far. -/
structure Discipline {Req : Type} (Resp : Req → Type) (κ : Type) where
  allows : κ → Req → Prop
  learn : κ → (r : Req) → Resp r → κ

section Disciplines

variable {κ : Type} {d : Discipline Resp κ}

/-- What there is to know once the requests have been answered like this. -/
def Discipline.heard (d : Discipline Resp κ) (w : κ) (answered : List (Sigma Resp)) : κ :=
  answered.foldl (fun w e => d.learn w e.1 e.2) w

theorem Discipline.heard_append (w : κ) (es es' : List (Sigma Resp)) :
    d.heard w (es ++ es') = d.heard (d.heard w es) es' := List.foldl_append

namespace Prog

/-- The client keeps to the discipline, whatever it is answered, and ends with a
result that is in `Q` with what it has learnt. -/
def FollowsTo (d : Discipline Resp κ) (Q : κ → α → Prop) : κ → Prog Resp α → Prop
  | w, .done a => Q w a
  | w, .call r k => d.allows w r ∧ ∀ x, (k x).FollowsTo d Q (d.learn w r x)

/-- The same whatever it ends with. -/
abbrev Follows (d : Discipline Resp κ) (w : κ) (p : Prog Resp α) : Prop :=
  p.FollowsTo d (fun _ _ => True) w

/-- **Sequencing.** The second step starts with what the first has learnt. -/
theorem FollowsTo.bind {Q : κ → α → Prop} {Q' : κ → β → Prop} {p : Prog Resp α}
    {f : α → Prog Resp β} {w : κ} (hp : p.FollowsTo d Q w)
    (hf : ∀ w a, Q w a → (f a).FollowsTo d Q' w) : (p >>= f).FollowsTo d Q' w := by
  induction p generalizing w with
  | done a => exact hf w a hp
  | call r k ih => exact ⟨hp.1, fun x => ih x (hp.2 x)⟩

theorem Follows.bind {p : Prog Resp α} {f : α → Prog Resp β} {w : κ} (hp : p.Follows d w)
    (hf : ∀ w a, (f a).Follows d w) : (p >>= f).Follows d w :=
  FollowsTo.bind hp fun w a _ => hf w a

/-- Requests that are allowed whatever has been learnt. -/
theorem follows_of_all {P : Req → Prop} (hAllows : ∀ w r, P r → d.allows w r) {p : Prog Resp α}
    (hp : p.All P) (w : κ) : p.Follows d w := by
  induction p generalizing w with
  | done a => trivial
  | call r k ih => exact ⟨hAllows w r hp.1, fun x => ih x (hp.2 x) _⟩

/-- A client that has learnt what sets it free. -/
theorem follows_of_free {Free : κ → Prop} (hFree : ∀ w r x, Free w → Free (d.learn w r x))
    (hAllows : ∀ w r, Free w → d.allows w r) (p : Prog Resp α) {w : κ} (h : Free w) :
    p.Follows d w := by
  induction p generalizing w with
  | done a => trivial
  | call r k ih => exact ⟨hAllows w r h, fun x => ih x (hFree w r x h)⟩

variable {Req' : Type} {Resp' : Req' → Type} {sv : Server Resp' σ φ} {I : σ → Prop}

/-- **Discipline rule.** If each handler is stable for what is allowed, and what
its answer teaches is valid again, then so is the client over the handlers. -/
theorem Follows.stable_interp {Valid : κ → Prop} {h : (r : Req) → Prog Resp' (Resp r)}
    (hHandler : ∀ w r, Valid w → d.allows w r →
      (h r).Stable sv I fun x => Valid (d.learn w r x))
    {p : Prog Resp α} {w : κ} (hp : p.Follows d w) (hw : Valid w) :
    (p.interp h).Stable sv I fun _ => True := by
  induction p generalizing w with
  | done a => trivial
  | call r k ih =>
    exact (hHandler w r hw hp.1).then fun x hx => ih x (hp.2 x) hx

end Prog

end Disciplines

-- ---------------------------------------------------------------------------
-- Schedules
-- ---------------------------------------------------------------------------

section Schedules

variable {ι : Type} [DecidableEq ι] {sv : Server Resp σ φ} {I : σ → Prop}

/-- One step of a stable call. -/
theorem stable_next {c : Running Resp φ} (h : c.prog.Stable sv I fun _ => True) {s : σ}
    (hs : I s) :
    ((c.next sv s).1.prog.Stable sv I fun _ => True) ∧ I (c.next sv s).2 := by
  obtain ⟨p, env⟩ := c
  cases p with
  | done a => exact ⟨h, hs⟩
  | call r k =>
    obtain ⟨hKept, hRest⟩ := h s hs (env 0 r)
    exact ⟨hRest, hKept⟩

/-- **Any interleaving** of stable calls keeps the invariant. -/
theorem execute_invariant {pool : ι → Running Resp φ}
    (hPool : ∀ i, (pool i).prog.Stable sv I fun _ => True) (sched : List ι) {s : σ} (hs : I s) :
    I (execute sv sched pool s).2 := by
  induction sched generalizing pool s with
  | nil => exact hs
  | cons i sched ih =>
    obtain ⟨hNext, hKept⟩ := stable_next (hPool i) hs
    -- only the call that was served has changed
    refine ih (fun j => ?_) hKept
    by_cases hj : j = i
    · subst hj
      rw [Function.update_self]
      exact hNext
    · rw [Function.update_of_ne hj]
      exact hPool j

/-- What runs from one start to the next: calls, and how far they get. -/
structure Session (ι : Type) (Resp : Req → Type) (φ : Type) where
  pool : ι → Running Resp φ
  sched : List ι

/-- The state after one session after the other; a restart leaves the state and
drops the calls. -/
def boots (sv : Server Resp σ φ) (sessions : List (Session ι Resp φ)) (s : σ) : σ :=
  sessions.foldl (fun s b => (execute sv b.sched b.pool s).2) s

/-- **Restarts.** The invariant outlives them, wherever the calls were stopped. -/
theorem boots_invariant {sessions : List (Session ι Resp φ)}
    (hSessions : ∀ b ∈ sessions, ∀ i, (b.pool i).prog.Stable sv I fun _ => True) {s : σ}
    (hs : I s) : I (boots sv sessions s) := by
  induction sessions generalizing s with
  | nil => exact hs
  | cons b sessions ih =>
    obtain ⟨hFirst, hRest⟩ := List.forall_mem_cons.mp hSessions
    exact ih hRest (execute_invariant hFirst b.sched hs)

end Schedules

-- ---------------------------------------------------------------------------
-- Schedules of disciplined calls
-- ---------------------------------------------------------------------------

section Disciplined

variable {ι κ : Type} [DecidableEq ι] {sv : Server Resp σ φ} {I : σ → Prop}
  {d : Discipline Resp κ} {Free : κ → Prop}

/-- All that a request is answered. -/
def answered (r : Req) (x : Resp r) : List (Sigma Resp) := [⟨r, x⟩]

/-- The transcripts of the sessions. -/
def bootTranscripts (sv : Server Resp σ φ) (obs : (r : Req) → Resp r → List ε) :
    List (Session ι Resp φ) → σ → List (List (ι × ε))
  | [], _ => []
  | b :: sessions, s =>
    transcript sv obs b.sched b.pool s ::
      bootTranscripts sv obs sessions (execute sv b.sched b.pool s).2

/-- What sets a call free is not taken back by what it hears afterwards. -/
theorem free_heard (hFree : ∀ w r x, Free w → Free (d.learn w r x)) {w : κ} (h : Free w)
    (es : List (Sigma Resp)) : Free (d.heard w es) := by
  induction es generalizing w with
  | nil => exact h
  | cons e es ih => exact ih (hFree w e.1 e.2 h)

/-- A step of a call that is not free keeps the invariant, and the call goes on
with what it has been answered. -/
theorem follows_next (hKeep : ∀ w r, ¬Free w → d.allows w r → ∀ o s, I s → I (sv o r s).2)
    {c : Running Resp φ} {w : κ} (h : c.prog.Follows d w) (hw : ¬Free w) {s : σ} (hs : I s) :
    (c.next sv s).1.prog.Follows d (d.heard w (c.shown sv answered s)) ∧ I (c.next sv s).2 := by
  obtain ⟨p, env⟩ := c
  cases p with
  | done a => exact ⟨trivial, hs⟩
  | call r k => exact ⟨h.2 _, hKeep w r hw h.1 (env 0 r) s hs⟩

/-- **Any interleaving** of calls that follow a discipline keeps what it keeps,
if none of them is set free by what it is answered. -/
theorem execute_follows (hKeep : ∀ w r, ¬Free w → d.allows w r → ∀ o s, I s → I (sv o r s).2)
    (hFree : ∀ w r x, Free w → Free (d.learn w r x)) (sched : List ι)
    {pool : ι → Running Resp φ} {w : ι → κ} (hPool : ∀ i, (pool i).prog.Follows d (w i)) {s : σ}
    (hBound : ∀ i, ¬Free (d.heard (w i) (shownBy i (transcript sv answered sched pool s))))
    (hs : I s) : I (execute sv sched pool s).2 := by
  induction sched generalizing pool w s with
  | nil => exact hs
  | cons i sched ih =>
    -- the call is not free at the end, so it is not free now
    have hNow : ¬Free (w i) := fun h => hBound i (free_heard hFree h _)
    obtain ⟨hNext, hKept⟩ := follows_next hKeep (hPool i) hNow hs
    -- only the call that was served has heard something
    refine ih (w := Function.update w i (d.heard (w i) ((pool i).shown sv answered s)))
      (fun j => ?_) (fun j => ?_) hKept
    · by_cases hj : j = i
      · subst hj
        rw [Function.update_self, Function.update_self]
        exact hNext
      · rw [Function.update_of_ne hj, Function.update_of_ne hj]
        exact hPool j
    · have hRest := hBound j
      rw [transcript, shownBy_append] at hRest
      by_cases hj : j = i
      · subst hj
        rw [shownBy_own, Discipline.heard_append] at hRest
        rw [Function.update_self]
        exact hRest
      · rw [shownBy_other (Ne.symm hj)] at hRest
        rw [Function.update_of_ne hj]
        exact hRest

/-- **Restarts.** A call knows nothing of the sessions before. -/
theorem boots_follows (hKeep : ∀ w r, ¬Free w → d.allows w r → ∀ o s, I s → I (sv o r s).2)
    (hFree : ∀ w r x, Free w → Free (d.learn w r x)) {w : κ}
    {sessions : List (Session ι Resp φ)}
    (hSessions : ∀ b ∈ sessions, ∀ i, (b.pool i).prog.Follows d w) {s : σ}
    (hBound : ∀ tr ∈ bootTranscripts sv answered sessions s, ∀ i,
      ¬Free (d.heard w (shownBy i tr)))
    (hs : I s) : I (boots sv sessions s) := by
  induction sessions generalizing s with
  | nil => exact hs
  | cons b sessions ih =>
    obtain ⟨hFirst, hRest⟩ := List.forall_mem_cons.mp hSessions
    obtain ⟨hNow, hLater⟩ := List.forall_mem_cons.mp hBound
    exact ih hRest hLater (execute_follows hKeep hFree b.sched hFirst hNow hs)

end Disciplined

end Sigchat.Lib

import Sigchat.Lib.Interleave

/-!
# Transcripts

What interleaved calls show of their requests, with the calls that show it. A
log that the server keeps is the whole transcript; the part of one call is what
its program shows on the way to where it has got, so a property of programs,
each for itself, holds of every interleaving of them.

* `transcript_reaches` — the part of a call;
* `execute_log`        — the whole, as the server has logged it.
-/

namespace Sigchat.Lib

variable {Req : Type} {Resp : Req → Type} {σ φ ε δ α β ι : Type}

-- ---------------------------------------------------------------------------
-- Programs on their way
-- ---------------------------------------------------------------------------

namespace Prog

/-- The program may end with `a`, if its requests are answered by anything. -/
def MayEnd : Prog Resp α → α → Prop
  | .done a, a' => a' = a
  | .call _ k, a' => ∃ x, (k x).MayEnd a'

/-- The program may have shown `es` and have `q` left to do. -/
inductive Reaches (obs : (r : Req) → Resp r → List ε) : Prog Resp α → List ε → Prog Resp α → Prop
  | start (p : Prog Resp α) : Reaches obs p [] p
  | step {r : Req} {k : Resp r → Prog Resp α} (x : Resp r) {es : List ε} {q : Prog Resp α}
      (h : Reaches obs (k x) es q) : Reaches obs (.call r k) (obs r x ++ es) q

variable {obs : (r : Req) → Resp r → List ε}

/-- What a program may end with when it shows something, it may end with. -/
theorem Shows.mayEnd {p : Prog Resp α} {es : List ε} {a : α} (h : p.Shows obs es a) :
    p.MayEnd a := by
  induction p generalizing es with
  | done b => exact h.2
  | call r k ih =>
    obtain ⟨x, es', -, hRest⟩ := h
    exact ⟨x, ih x hRest⟩

/-- A sequence may end as its second step may, on what the first may end with.
-/
theorem mayEnd_bind {p : Prog Resp α} {f : α → Prog Resp β} {b : β} :
    (p >>= f).MayEnd b ↔ ∃ a, p.MayEnd a ∧ (f a).MayEnd b := by
  induction p with
  | done a =>
    constructor
    · intro h
      exact ⟨a, rfl, h⟩
    · rintro ⟨a', rfl, h⟩
      exact h
  | call r k ih =>
    constructor
    · rintro ⟨x, h⟩
      obtain ⟨a, hFirst, hRest⟩ := (ih x).mp h
      exact ⟨a, ⟨x, hFirst⟩, hRest⟩
    · rintro ⟨a, ⟨x, hFirst⟩, hRest⟩
      exact ⟨x, (ih x).mpr ⟨a, hFirst, hRest⟩⟩

/-- Where a client run over another interface may end, it may end by itself. -/
theorem mayEnd_of_interp {Req' : Type} {Resp' : Req' → Type} {h : (r : Req) → Prog Resp' (Resp r)}
    {p : Prog Resp α} {a : α} (hEnd : (p.interp h).MayEnd a) : p.MayEnd a := by
  induction p with
  | done b => exact hEnd
  | call r k ih =>
    obtain ⟨x, -, hRest⟩ := mayEnd_bind.mp hEnd
    exact ⟨x, ih x hRest⟩

/-- What holds of all that a program may end with holds of its results. -/
theorem yields_of_mayEnd {Q : α → Prop} {p : Prog Resp α} (h : ∀ a, p.MayEnd a → Q a) :
    p.Yields Q := by
  induction p with
  | done a => exact h a rfl
  | call r k ih => exact fun x => ih x fun a hEnd => h a ⟨x, hEnd⟩

/-- A program may end in some way, if requests have answers. -/
theorem exists_shows (hResp : ∀ r, Nonempty (Resp r)) (obs : (r : Req) → Resp r → List ε)
    (p : Prog Resp α) : ∃ es a, p.Shows obs es a := by
  induction p with
  | done a => exact ⟨[], a, rfl, rfl⟩
  | call r k ih =>
    obtain ⟨x⟩ := hResp r
    obtain ⟨es, a, hRest⟩ := ih x
    exact ⟨obs r x ++ es, a, x, es, rfl, hRest⟩

/-- What a program shows on its way is the beginning of what it may show. -/
theorem Reaches.exists_shows (hResp : ∀ r, Nonempty (Resp r)) {p q : Prog Resp α} {es : List ε}
    (h : p.Reaches obs es q) : ∃ es' a, p.Shows obs (es ++ es') a := by
  induction h with
  | start p => exact Prog.exists_shows hResp obs p
  | step x h ih =>
    obtain ⟨es', a, hRest⟩ := ih
    exact ⟨es', a, x, _, List.append_assoc .., hRest⟩

end Prog

-- ---------------------------------------------------------------------------
-- Interleaved calls
-- ---------------------------------------------------------------------------

section Schedules

variable [DecidableEq ι] (sv : Server Resp σ φ) (obs : (r : Req) → Resp r → List ε)

/-- What the next request of a call shows. -/
def Running.shown (c : Running Resp φ) (s : σ) : List ε :=
  match c.prog with
  | .done _ => []
  | .call r _ => obs r (sv (c.env 0 r) r s).1

/-- What the calls show, with the calls that show it. -/
def transcript : List ι → (ι → Running Resp φ) → σ → List (ι × ε)
  | [], _, _ => []
  | i :: sched, pool, s =>
    ((pool i).shown sv obs s).map (i, ·) ++
      transcript sched (Function.update pool i ((pool i).next sv s).1) ((pool i).next sv s).2

/-- What one of them shows. -/
def shownBy (i : ι) (tr : List (ι × ε)) : List ε := (tr.filter (·.1 = i)).map Prod.snd

theorem shownBy_append (i : ι) (tr tr' : List (ι × ε)) :
    shownBy i (tr ++ tr') = shownBy i tr ++ shownBy i tr' := by
  rw [shownBy, List.filter_append, List.map_append]
  rfl

/-- Of its own events it shows all. -/
theorem shownBy_own (i : ι) (es : List ε) : shownBy i (es.map (i, ·)) = es := by
  have hAll : (es.map (i, ·)).filter (·.1 = i) = es.map (i, ·) := by
    rw [List.filter_eq_self]
    intro x hx
    obtain ⟨e, -, rfl⟩ := List.mem_map.mp hx
    exact decide_eq_true rfl
  rw [shownBy, hAll, List.map_map]
  exact List.map_id es

/-- Of those of another call it shows none. -/
theorem shownBy_other {i j : ι} (h : j ≠ i) (es : List ε) : shownBy i (es.map (j, ·)) = [] := by
  have hNone : (es.map (j, ·)).filter (·.1 = i) = [] := by
    rw [List.filter_eq_nil_iff]
    intro x hx
    obtain ⟨e, -, rfl⟩ := List.mem_map.mp hx
    exact fun hEq => h (of_decide_eq_true hEq)
  rw [shownBy, hNone]
  rfl

variable {obs}

/-- A step of a call, and where it goes on to. -/
theorem reaches_of_next {c : Running Resp φ} {s : σ} {es : List ε} {q : Prog Resp Unit}
    (h : (c.next sv s).1.prog.Reaches obs es q) :
    c.prog.Reaches obs (c.shown sv obs s ++ es) q := by
  obtain ⟨p, env⟩ := c
  cases p with
  | done a => exact h
  | call r k => exact .step _ h

variable (obs)

/-- **The part of a call** is what its program shows on the way to what is left
of it, whatever the others do. -/
theorem transcript_reaches (sched : List ι) (pool : ι → Running Resp φ) (s : σ) (i : ι) :
    (pool i).prog.Reaches obs (shownBy i (transcript sv obs sched pool s))
      ((execute sv sched pool s).1 i).prog := by
  induction sched generalizing pool s with
  | nil => exact .start _
  | cons j sched ih =>
    have hRest := ih (Function.update pool j ((pool j).next sv s).1) ((pool j).next sv s).2
    show (pool i).prog.Reaches obs (shownBy i (((pool j).shown sv obs s).map (j, ·) ++ _)) _
    rw [shownBy_append]
    -- the call takes a step, or another does
    by_cases hj : j = i
    · subst hj
      rw [Function.update_self] at hRest
      rw [shownBy_own]
      exact reaches_of_next sv hRest
    · rw [Function.update_of_ne (fun h => hj h.symm)] at hRest
      rw [shownBy_other hj]
      exact hRest

variable {obs}

/-- **A log** to which every request adds some of what it shows. -/
theorem execute_log (log : σ → List δ) (f : ε → Option δ)
    (hLog : ∀ o r s, log (sv o r s).2 = log s ++ (obs r (sv o r s).1).filterMap f)
    (sched : List ι) (pool : ι → Running Resp φ) (s : σ) :
    log (execute sv sched pool s).2 =
      log s ++ (transcript sv obs sched pool s).filterMap fun e => f e.2 := by
  have hNext (c : Running Resp φ) (s : σ) :
      log (c.next sv s).2 = log s ++ (c.shown sv obs s).filterMap f := by
    obtain ⟨p, env⟩ := c
    cases p with
    | done a => exact (List.append_nil _).symm
    | call r k => exact hLog _ _ _
  induction sched generalizing pool s with
  | nil => exact (List.append_nil _).symm
  | cons j sched ih =>
    show log (execute sv sched _ _).2 =
      log s ++ (((pool j).shown sv obs s).map (j, ·) ++ _).filterMap _
    rw [ih, hNext, List.filterMap_append, List.filterMap_map, List.append_assoc]
    rfl

end Schedules

end Sigchat.Lib

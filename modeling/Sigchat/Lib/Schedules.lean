import Mathlib.Order.Basic
import Mathlib.Order.Nat
import Sigchat.Lib.Runs

/-!
# Schedules

A schedule is an endless sequence of inputs. An input that the system cannot
take is skipped.

* `trace_invariant`        — what every input of the schedule keeps;
* `exists_zero_of_variant` — what happens in the end: a measure that no input
  raises, and that some input which comes again and again lowers, reaches zero.
-/

namespace Sigchat.Lib

variable {ι σ : Type*}

/-- The state after an input, if it can be taken. -/
def next (step : ι → σ → Option σ) (i : ι) (s : σ) : σ := (step i s).getD s

/-- The state after the first `n` inputs. -/
def trace (step : ι → σ → Option σ) (is : Nat → ι) (s : σ) : Nat → σ
  | 0 => s
  | n + 1 => next step (is n) (trace step is s n)

/-- Such inputs come again and again. -/
def Often (is : Nat → ι) (P : ι → Prop) : Prop := ∀ n, ∃ m, n ≤ m ∧ P (is m)

variable {step : ι → σ → Option σ} {is : Nat → ι} {I : σ → Prop} {s : σ}

theorem Often.mono {P Q : ι → Prop} (h : Often is P) (hImp : ∀ i, P i → Q i) : Often is Q := by
  intro n
  obtain ⟨m, hLe, hP⟩ := h n
  exact ⟨m, hLe, hImp _ hP⟩

theorem next_of_some {i : ι} {s' : σ} (h : step i s = some s') : next step i s = s' := by
  rw [next, h, Option.getD_some]

/-- What holds of a state and of every state it is stepped to holds next. -/
theorem next_induction {motive : σ → Prop} {i : ι} (hSkip : step i s = none → motive s)
    (hStep : ∀ s', step i s = some s' → motive s') : motive (next step i s) := by
  rcases h : step i s with _ | s'
  · rw [next, h]
    exact hSkip h
  · rw [next_of_some h]
    exact hStep s' h

/-- **Invariance** along a schedule. -/
theorem trace_invariant (hKeep : ∀ n s, I s → I (next step (is n) s)) (hInv : I s) (n : Nat) :
    I (trace step is s n) := by
  induction n with
  | zero => exact hInv
  | succ n ih => exact hKeep n _ ih

/-- What no input raises. -/
theorem trace_antitone {μ : σ → Nat}
    (hKeep : ∀ n s, I s → I (next step (is n) s) ∧ μ (next step (is n) s) ≤ μ s) (hInv : I s)
    {n m : Nat} (h : n ≤ m) : μ (trace step is s m) ≤ μ (trace step is s n) := by
  induction m, h using Nat.le_induction with
  | base => exact Nat.le_refl _
  | succ m _ ih =>
    have hAt : I (trace step is s m) := trace_invariant (fun n s h => (hKeep n s h).1) hInv m
    exact (hKeep m _ hAt).2.trans ih

/-- **Variant rule.** -/
theorem exists_zero_of_variant {μ : σ → Nat}
    (hKeep : ∀ n s, I s → I (next step (is n) s) ∧ μ (next step (is n) s) ≤ μ s)
    (hHelp : ∀ k, 0 < k → Often is fun i => ∀ s, I s → μ s = k → μ (next step i s) < k)
    (hInv : I s) : ∃ n, μ (trace step is s n) = 0 := by
  -- by induction on the value of the measure at some time
  suffices h : ∀ k n, μ (trace step is s n) ≤ k → ∃ m, μ (trace step is s m) = 0 from
    h _ 0 (Nat.le_refl _)
  intro k
  induction k with
  | zero => exact fun n hZero => ⟨n, Nat.le_zero.mp hZero⟩
  | succ k ih =>
    intro n hLe
    obtain ⟨m, hLater, hLower⟩ := hHelp (k + 1) (Nat.succ_pos k) n
    have hAt : I (trace step is s m) := trace_invariant (fun n s h => (hKeep n s h).1) hInv m
    have hStill : μ (trace step is s m) ≤ k + 1 := (trace_antitone hKeep hInv hLater).trans hLe
    -- it has become less in the meantime, or the step that helps makes it less
    rcases Nat.lt_or_eq_of_le hStill with hLess | hSame
    · exact ih m (Nat.le_of_lt_succ hLess)
    · exact ih (m + 1) (Nat.le_of_lt_succ (hLower _ hAt hSame))

end Sigchat.Lib

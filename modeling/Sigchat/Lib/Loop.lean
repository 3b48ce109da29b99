import Mathlib.Data.Seq.Computation

/-!
# Loops that may not end

Code that may run for ever is a `Computation`, and a loop the `corec` of its
step, which goes on with another state or ends with a result.

* `mem_bind_iff`                — sequencing;
* `corec_induction`             — the rule for a loop that ends;
* `scan`, `terminates_scan_iff` — a loop over a sequence, up to its first result.
-/

namespace Sigchat.Lib

open Computation

variable {α β σ : Type}

-- ---------------------------------------------------------------------------
-- Sequencing
-- ---------------------------------------------------------------------------

theorem mem_bind_iff {s : Computation α} {f : α → Computation β} {b : β} :
    b ∈ s >>= f ↔ ∃ a ∈ s, b ∈ f a :=
  ⟨exists_of_mem_bind, fun ⟨_, ha, hb⟩ => mem_bind ha hb⟩

theorem mem_return_iff {a b : α} : a ∈ (return b : Computation α) ↔ a = b := mem_pure_iff a b

/-- A result that does not depend on the first part, which has to end. -/
theorem mem_then_iff {s : Computation α} {b c : β} :
    c ∈ (s >>= fun _ => return b) ↔ s.Terminates ∧ c = b := by
  simp only [mem_bind_iff, mem_return_iff, terminates_iff]
  exact exists_and_right

-- ---------------------------------------------------------------------------
-- Loops
-- ---------------------------------------------------------------------------

variable {step : σ → α ⊕ σ}

theorem corec_of_inl {s : σ} {a : α} (h : step s = .inl a) : corec step s = Computation.pure a :=
  destruct_eq_pure (by rw [corec_eq, h, rmap])

theorem corec_of_inr {s s' : σ} (h : step s = .inr s') : corec step s = think (corec step s') :=
  destruct_eq_think (by rw [corec_eq, h, rmap])

theorem mem_corec_of_inl {s : σ} {a b : α} (h : step s = .inl a) : b ∈ corec step s ↔ b = a := by
  rw [corec_of_inl h, mem_pure_iff]

theorem mem_corec_of_inr {s s' : σ} {b : α} (h : step s = .inr s') :
    b ∈ corec step s ↔ b ∈ corec step s' := by
  rw [corec_of_inr h]
  exact ⟨of_think_mem, think_mem⟩

/-- **Loop rule.** Where a loop ends with `a`, what holds in the states that end
so, and is passed on backwards by a step, holds at its start. -/
theorem corec_induction {motive : σ → Prop} {a : α} (hEnd : ∀ s, step s = .inl a → motive s)
    (hStep : ∀ s s', step s = .inr s' → motive s' → motive s) {s : σ} (h : a ∈ corec step s) :
    motive s := by
  obtain ⟨k, hk⟩ := exists_results_of_mem h
  -- by induction on how long it takes
  induction k generalizing s with
  | zero =>
    rcases hAt : step s with b | s'
    · obtain rfl := (mem_corec_of_inl hAt).mp h
      exact hEnd s hAt
    · rw [corec_of_inr hAt] at hk
      obtain ⟨m, -, hm⟩ := of_results_think hk
      cases hm
  | succ k ih =>
    rcases hAt : step s with b | s'
    · obtain rfl := (mem_corec_of_inl hAt).mp h
      exact hEnd s hAt
    · rw [corec_of_inr hAt, results_think_iff] at hk
      exact hStep s s' hAt (ih ((mem_corec_of_inr hAt).mp h) hk)

-- ---------------------------------------------------------------------------
-- Sequences
-- ---------------------------------------------------------------------------

/-- Go through a sequence from its `i`-th element on, up to the first result. -/
def scanFrom (result : σ → Option α) (xs : Nat → σ) (i : Nat) : Computation α :=
  corec (fun i => match result (xs i) with
    | some a => .inl a
    | none => .inr (i + 1)) i

def scan (result : σ → Option α) (xs : Nat → σ) : Computation α := scanFrom result xs 0

variable {result : σ → Option α} {xs : Nat → σ}

theorem mem_scanFrom_of_some {i : Nat} {a b : α} (h : result (xs i) = some a) :
    b ∈ scanFrom result xs i ↔ b = a :=
  mem_corec_of_inl (by simp only [h])

theorem mem_scanFrom_of_none {i : Nat} {b : α} (h : result (xs i) = none) :
    b ∈ scanFrom result xs i ↔ b ∈ scanFrom result xs (i + 1) :=
  mem_corec_of_inr (by simp only [h])

/-- A scan returns exactly if there is a result somewhere. -/
theorem terminates_scanFrom {n i : Nat} {a : α} (h : result (xs (i + n)) = some a) :
    (scanFrom result xs i).Terminates := by
  induction n generalizing i with
  | zero => exact terminates_of_mem ((mem_scanFrom_of_some h).mpr rfl)
  | succ n ih =>
    rcases hHead : result (xs i) with _ | b
    · rw [show i + (n + 1) = i + 1 + n by omega] at h
      obtain ⟨b, hb⟩ := ih h
      exact terminates_of_mem ((mem_scanFrom_of_none hHead).mpr hb)
    · exact terminates_of_mem ((mem_scanFrom_of_some hHead).mpr rfl)

/-- What a scan ends with is a result of the sequence. -/
theorem exists_of_mem_scan {a : α} (h : a ∈ scan result xs) : ∃ i, result (xs i) = some a := by
  refine corec_induction (motive := fun _ => ∃ i, result (xs i) = some a) (fun i hEnd => ?_)
    (fun _ _ _ hLater => hLater) h
  rcases hAt : result (xs i) with _ | b
  · rw [hAt] at hEnd
    cases hEnd
  · rw [hAt] at hEnd
    exact ⟨i, hAt.trans (congrArg some (Sum.inl.inj hEnd))⟩

/-- **Scan rule.** A scan ends if and only if the sequence has a result. -/
theorem terminates_scan_iff : (scan result xs).Terminates ↔ ∃ i a, result (xs i) = some a := by
  constructor
  · rintro ⟨a, ha⟩
    obtain ⟨i, hi⟩ := exists_of_mem_scan ha
    exact ⟨i, a, hi⟩
  · rintro ⟨i, a, hi⟩
    exact terminates_scanFrom (n := i) (i := 0) (by rwa [Nat.zero_add])

end Sigchat.Lib

import Mathlib.Data.Option.Basic

/-!
# Runs of a step function

A system takes one input after the other; where it stops for good its step
function is `none`.

* `reach`                — the state after the inputs;
* `Throughout`           — every step that is taken meets a condition;
* `Throughout.invariant` — what such steps keep holds in the state reached;
* `throughout_iff`       — the condition is exact if a step that breaks it
  breaks the invariant.
-/

namespace Sigchat.Lib

variable {ι σ : Type*} {step : ι → σ → Option σ} {P : ι → σ → Prop} {I : σ → Prop}

/-- The state after the inputs, none if the system has stopped before. -/
def reach (step : ι → σ → Option σ) : List ι → σ → Option σ
  | [], s => some s
  | i :: is, s => (step i s).bind (reach step is)

/-- Every step that is taken from `s` on the inputs meets `P`. -/
def Throughout (step : ι → σ → Option σ) (P : ι → σ → Prop) : List ι → σ → Prop
  | [], _ => True
  | i :: is, s => P i s ∧ ∀ s', step i s = some s' → Throughout step P is s'

@[simp] theorem reach_nil (s : σ) : reach step [] s = some s := rfl

theorem reach_cons {i : ι} {is : List ι} {s s' : σ} :
    reach step (i :: is) s = some s' ↔ ∃ s₁, step i s = some s₁ ∧ reach step is s₁ = some s' :=
  Option.bind_eq_some_iff

/-- A run that is cut in two. -/
theorem Throughout.split {is js : List ι} {s s' : σ} (h : Throughout step P (is ++ js) s)
    (hReach : reach step is s = some s') : Throughout step P is s ∧ Throughout step P js s' := by
  induction is generalizing s with
  | nil =>
    obtain rfl := Option.some.inj hReach
    exact ⟨trivial, h⟩
  | cons i is ih =>
    obtain ⟨s₁, hStep, hRest⟩ := reach_cons.mp hReach
    obtain ⟨hHead, hTail⟩ := h
    obtain ⟨hFirst, hSecond⟩ := ih (hTail s₁ hStep) hRest
    refine ⟨⟨hHead, fun s₂ h₂ => ?_⟩, hSecond⟩
    obtain rfl := Option.some.inj (hStep.symm.trans h₂)
    exact hFirst

/-- **Invariance.** What every step that meets the condition keeps holds in the
state reached. -/
theorem Throughout.invariant (hStep : ∀ i s s', P i s → I s → step i s = some s' → I s')
    {is : List ι} {s s' : σ} (h : Throughout step P is s) (hInv : I s)
    (hReach : reach step is s = some s') : I s' := by
  induction is generalizing s with
  | nil =>
    obtain rfl := Option.some.inj hReach
    exact hInv
  | cons i is ih =>
    obtain ⟨s₁, hTaken, hRest⟩ := reach_cons.mp hReach
    exact ih (h.2 s₁ hTaken) (hStep i s s₁ h.1 hInv hTaken) hRest

/-- Steps that keep an invariant meet what it implies. -/
theorem throughout_of_invariant (hMeets : ∀ i s, I s → P i s)
    (hStep : ∀ i s s', I s → step i s = some s' → I s') (is : List ι) {s : σ} (hInv : I s) :
    Throughout step P is s := by
  induction is generalizing s with
  | nil => trivial
  | cons i is ih =>
    refine ⟨hMeets i s hInv, fun s' hTaken => ?_⟩
    exact ih (hStep i s s' hInv hTaken)

/-- What every step keeps holds in every state reached. -/
theorem reach_invariant (hStep : ∀ i s s', I s → step i s = some s' → I s') {is : List ι}
    {s s' : σ} (hInv : I s) (hReach : reach step is s = some s') : I s' := by
  have hKept : Throughout step (fun _ s => I s) is s :=
    throughout_of_invariant (fun _ _ h => h) hStep is hInv
  exact hKept.invariant (fun i s s' _ => hStep i s s') hInv hReach

/-- **Exactness.** Steps that break the condition break the invariant. -/
theorem throughout_iff (hStep : ∀ i s s', I s → step i s = some s' → (P i s ↔ I s'))
    (hStop : ∀ i s, I s → step i s = none → P i s) {is : List ι} {s : σ} (hInv : I s) :
    Throughout step P is s ↔ ∀ js, js <+: is → ∀ s', reach step js s = some s' → I s' := by
  constructor
  -- the invariant holds after every part of the run
  · rintro h js ⟨ks, rfl⟩ s' hReach
    exact (h.split hReach).1.invariant (fun i s s' hP hI hTaken => (hStep i s s' hI hTaken).mp hP)
      hInv hReach
  · intro h
    induction is generalizing s with
    | nil => trivial
    | cons i is ih =>
      -- the property of a step is read off the invariant after it
      have hNext {s₁ : σ} (hTaken : step i s = some s₁) : I s₁ :=
        h [i] (List.prefix_append [i] is) s₁ (reach_cons.mpr ⟨s₁, hTaken, rfl⟩)
      refine ⟨?_, fun s₁ hTaken => ih (hNext hTaken) fun js hjs s' hReach => ?_⟩
      · rcases hTaken : step i s with _ | s₁
        · exact hStop i s hInv hTaken
        · exact (hStep i s s₁ hInv hTaken).mpr (hNext hTaken)
      · exact h (i :: js) (List.cons_prefix_cons.mpr ⟨rfl, hjs⟩) s'
          (reach_cons.mpr ⟨s₁, hTaken, hReach⟩)

end Sigchat.Lib

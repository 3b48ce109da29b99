import Mathlib.Data.Fintype.Basic
import Mathlib.Data.Finset.Dedup
import Sigchat.Lib.Request

/-!
# Interleaved calls on one part of the state

Several calls run at once, each a program with an environment of its own; a
schedule says whose request is served next. The calls meet on one part of the
state. A call that is *local* there has an effect on that part which does not
depend on anything the other calls change; if no two calls are at work on the
part at the same time, the schedule is as good as a serial execution.

* `Prog.Local` and its rules;
* `unsplit_serializable` — unsplit schedules end as serial ones, with the same
  history of requests and answers on the part.
-/

namespace Sigchat.Lib

variable {Req : Type} {Resp : Req → Type} {σ φ κ α β ι : Type}

-- ---------------------------------------------------------------------------
-- Schedules
-- ---------------------------------------------------------------------------

/-- A call in progress: what is left of its program and of its environment. -/
structure Running (Resp : Req → Type) (φ : Type) where
  prog : Prog Resp Unit
  env : Env Req φ

/-- Serve the next request of a call, if it has one. -/
def Running.next (sv : Server Resp σ φ) (c : Running Resp φ) (s : σ) : Running Resp φ × σ :=
  match c.prog with
  | .done _ => (c, s)
  | .call r k => (⟨k (sv (c.env 0 r) r s).1, c.env.tail⟩, (sv (c.env 0 r) r s).2)

section Schedules

variable (sv : Server Resp σ φ) (On : Req → Prop) [DecidablePred On]

/-- Serve one request after the other, as the schedule has it. -/
def execute [DecidableEq ι] : List ι → (ι → Running Resp φ) → σ → (ι → Running Resp φ) × σ
  | [], pool, s => (pool, s)
  | i :: sched, pool, s =>
    execute sched (Function.update pool i ((pool i).next sv s).1) ((pool i).next sv s).2

/-- The next request of a call and its answer, if the request is on the part. -/
def Running.event (c : Running Resp φ) (s : σ) : List (Sigma Resp) :=
  match c.prog with
  | .done _ => []
  | .call r _ => if On r then [⟨r, (sv (c.env 0 r) r s).1⟩] else []

/-- The requests on the part, with the calls they are from and their answers. -/
def history [DecidableEq ι] : List ι → (ι → Running Resp φ) → σ → List (ι × Sigma Resp)
  | [], _, _ => []
  | i :: sched, pool, s =>
    ((pool i).event sv On s).map (i, ·) ++
      history sched (Function.update pool i ((pool i).next sv s).1) ((pool i).next sv s).2

/-- The same of a complete run. -/
def Prog.eventsOn : Prog Resp α → Env Req φ → σ → List (Sigma Resp)
  | .done _, _, _ => []
  | .call r k, env, s =>
    (if On r then [⟨r, (sv (env 0 r) r s).1⟩] else []) ++
      (k (sv (env 0 r) r s).1).eventsOn env.tail (sv (env 0 r) r s).2

/-- Complete runs, one after the other. -/
def serial : List ι → (ι → Running Resp φ) → σ → σ × List (ι × Sigma Resp)
  | [], _, s => (s, [])
  | i :: order, pool, s =>
    let rest := serial order pool ((pool i).prog.run sv (pool i).env s).2
    (rest.1, ((pool i).prog.eventsOn sv On (pool i).env s).map (i, ·) ++ rest.2)

end Schedules

/-- The call has ended. -/
def Running.ended (c : Running Resp φ) : Bool :=
  match c.prog with
  | .done _ => true
  | .call .. => false

/-- A call that has ended has nothing left to do. -/
theorem Running.prog_of_ended {c : Running Resp φ} (h : c.ended = true) : c.prog = .done () := by
  unfold Running.ended at h
  split at h
  · assumption
  · exact absurd h nofun

/-- A call that comes again comes again at once: between two entries of one call
there is none of another. -/
def Unsplit : List ι → Prop
  | [] => True
  | i :: ids => (i ∈ ids → ids.head? = some i) ∧ Unsplit ids

instance Unsplit.decidable [DecidableEq ι] : (ids : List ι) → Decidable (Unsplit ids)
  | [] => isTrue trivial
  | i :: ids =>
    have : Decidable (Unsplit ids) := Unsplit.decidable ids
    inferInstanceAs (Decidable ((i ∈ ids → ids.head? = some i) ∧ Unsplit ids))

-- ---------------------------------------------------------------------------
-- Effects on a part of the state
-- ---------------------------------------------------------------------------

/-- The requests `On` a part read and change nothing but that part. -/
structure IsPart (sv : Server Resp σ φ) (cell : σ → κ) (On : Req → Prop) : Prop where
  frame : ∀ {r}, ¬On r → ∀ o s, cell (sv o r s).2 = cell s
  answer : ∀ {r}, On r → ∀ o {s s'}, cell s = cell s' → (sv o r s).1 = (sv o r s').1
  change : ∀ {r}, On r → ∀ o {s s'}, cell s = cell s' → cell (sv o r s).2 = cell (sv o r s').2

/-- What becomes of the part, and the requests on it with their answers. -/
abbrev Effect (κ : Type) (Resp : Req → Type) : Type := κ → κ × List (Sigma Resp)

section Effects

variable (sv : Server Resp σ φ) (cell : σ → κ) (On : Req → Prop) [DecidablePred On]
  (I : σ → Prop)

/-- Whatever happens to the rest of the state between its requests, as long as
`I` holds, the program has the effect `g` on the part. -/
def Prog.Acts : Prog Resp α → Env Req φ → Effect κ Resp → Prop
  | .done _, _, g => ∀ c, g c = (c, [])
  | .call r k, env, g => ∀ s, I s →
    if On r then
      ∃ g', (k (sv (env 0 r) r s).1).Acts env.tail g' ∧
        g (cell s) = ((g' (cell (sv (env 0 r) r s).2)).1,
          ⟨r, (sv (env 0 r) r s).1⟩ :: (g' (cell (sv (env 0 r) r s).2)).2)
    else (k (sv (env 0 r) r s).1).Acts env.tail g

/-- A program with an effect of its own on the part. -/
def Prog.Local (p : Prog Resp α) : Prop := ∀ env : Env Req φ, ∃ g, p.Acts sv cell On I env g

/-- Every answer but those from the part is fixed by `I`. -/
def Steady (r : Req) : Prop :=
  On r ∨ ∀ o s s', I s → I s' → (sv o r s).1 = (sv o r s').1

/-- The request keeps `I`. -/
def Keeps (r : Req) : Prop := ∀ o s, I s → I (sv o r s).2

end Effects

section Rules

variable {sv : Server Resp σ φ} {cell : σ → κ} {On : Req → Prop} [DecidablePred On]
  {I : σ → Prop}

/-- A program without requests on the part has no effect on it. -/
theorem Prog.acts_of_off {p : Prog Resp α} (hp : p.All fun r => ¬On r) (env : Env Req φ) :
    p.Acts sv cell On I env fun c => (c, []) := by
  induction p generalizing env with
  | done a => exact fun _ => rfl
  | call r k ih =>
    intro s _
    rw [if_neg hp.1]
    exact ih _ (hp.2 _) _

/-- A program that is never on the part leaves it alone. -/
theorem Prog.local_of_off {p : Prog Resp α} (hp : p.All fun r => ¬On r) :
    p.Local sv cell On I := fun env => ⟨_, acts_of_off hp env⟩

/-- **Locality rule.** A program is local if it is after a part whose answers
are fixed by `I`, or come from the part. -/
theorem Prog.local_bind (hPart : IsPart sv cell On) {p : Prog Resp α} {f : α → Prog Resp β}
    (hp : p.All (Steady sv On I)) (hf : ∀ a, (f a).Local sv cell On I) :
    (p >>= f).Local sv cell On I := by
  induction p with
  | done a => exact hf a
  | call r k ih =>
    intro env
    have hRest (x : Resp r) : ∃ g, (k x >>= f).Acts sv cell On I env.tail g :=
      ih x (hp.2 x) env.tail
    choose g hg using hRest
    by_cases hOn : On r
    -- the effect, as it is from a state with this part
    · let out (s : σ) : κ × List (Sigma Resp) :=
        let after := g (sv (env 0 r) r s).1 (cell (sv (env 0 r) r s).2)
        (after.1, ⟨r, (sv (env 0 r) r s).1⟩ :: after.2)
      have hOut {s s' : σ} (h : cell s = cell s') : out s = out s' := by
        simp only [out, hPart.answer hOn (env 0 r) h, hPart.change hOn (env 0 r) h]
      classical
      -- where no state has such a part the effect does not matter
      refine ⟨fun c => if h : ∃ s, I s ∧ cell s = c then out h.choose else (c, []),
        fun s hs => ?_⟩
      have hSeen : ∃ s', I s' ∧ cell s' = cell s := ⟨s, hs, rfl⟩
      rw [if_pos hOn]
      refine ⟨g _, hg _, ?_⟩
      exact (dif_pos hSeen).trans (hOut hSeen.choose_spec.2)
    -- off the part: the answer is the same from every state
    · by_cases hSome : ∃ s, I s
      · obtain ⟨s₀, hs₀⟩ := hSome
        refine ⟨g (sv (env 0 r) r s₀).1, fun s hs => ?_⟩
        rw [if_neg hOn, hp.1.resolve_left hOn (env 0 r) s s₀ hs hs₀]
        exact hg _
      · exact ⟨fun c => (c, []), fun s hs => absurd ⟨s, hs⟩ hSome⟩

theorem Prog.local_done (a : α) : (Prog.done a : Prog Resp α).Local sv cell On I :=
  local_of_off trivial

/-- A program whose answers are fixed, or from the part. -/
theorem Prog.local_of_steady (hPart : IsPart sv cell On) {p : Prog Resp α}
    (hp : p.All (Steady sv On I)) : p.Local sv cell On I := by
  have hBind := local_bind hPart hp fun a => local_done a
  rwa [Prog.bind_done] at hBind

/-- What follows off the part adds nothing to the effect. -/
theorem Prog.Acts.bind_off {p : Prog Resp α} {f : α → Prog Resp β} {env : Env Req φ}
    {g : Effect κ Resp} (h : p.Acts sv cell On I env g) (hf : ∀ a, (f a).All fun r => ¬On r) :
    (p >>= f).Acts sv cell On I env g := by
  induction p generalizing env g with
  | done a =>
    obtain rfl : g = fun c => (c, []) := funext h
    exact acts_of_off (hf a) env
  | call r k ih =>
    intro s hs
    have hCall := h s hs
    by_cases hOn : On r
    · rw [if_pos hOn] at hCall ⊢
      obtain ⟨g', hg', hEq⟩ := hCall
      exact ⟨g', ih _ hg', hEq⟩
    · rw [if_neg hOn] at hCall ⊢
      exact ih _ hCall

/-- What follows a local program may do anything off the part. -/
theorem Prog.Local.bind_off {p : Prog Resp α} {f : α → Prog Resp β}
    (h : p.Local sv cell On I) (hf : ∀ a, (f a).All fun r => ¬On r) :
    (p >>= f).Local sv cell On I := fun env =>
  let ⟨g, hg⟩ := h env
  ⟨g, hg.bind_off hf⟩

/-- A complete run has the effect. -/
theorem Prog.Acts.run (hPart : IsPart sv cell On) {p : Prog Resp α} {env : Env Req φ}
    {g : Effect κ Resp} (h : p.Acts sv cell On I env g) (hKeeps : p.All (Keeps sv I)) {s : σ}
    (hs : I s) :
    g (cell s) = (cell (p.run sv env s).2, p.eventsOn sv On env s) ∧ I (p.run sv env s).2 := by
  induction p generalizing env g s with
  | done a => exact ⟨h _, hs⟩
  | call r k ih =>
    have hCall := h s hs
    have hNext := hKeeps.1 (env 0 r) s hs
    rw [Prog.run_call, Prog.eventsOn]
    -- a request off the part leaves it as it is for the rest of the run
    by_cases hOn : On r
    · rw [if_pos hOn] at hCall ⊢
      obtain ⟨g', hg', hEq⟩ := hCall
      obtain ⟨hRun, hI⟩ := ih _ hg' (hKeeps.2 _) hNext
      refine ⟨?_, hI⟩
      rw [hEq, hRun]
      rfl
    · rw [if_neg hOn] at hCall ⊢
      obtain ⟨hRun, hI⟩ := ih _ hCall (hKeeps.2 _) hNext
      refine ⟨?_, hI⟩
      rw [← hPart.frame hOn (env 0 r) s, hRun]
      rfl

end Rules

-- ---------------------------------------------------------------------------
-- Unsplit schedules
-- ---------------------------------------------------------------------------

/-- Effects one after the other, with their histories. -/
def inOrder (g : ι → Effect κ Resp) : List ι → κ → κ × List (ι × Sigma Resp)
  | [], c => (c, [])
  | i :: order, c =>
    let rest := inOrder g order (g i c).1
    (rest.1, (g i c).2.map (i, ·) ++ rest.2)

/-- Only the effects of the calls in the order matter. -/
theorem inOrder_congr {g g' : ι → Effect κ Resp} {order : List ι} (h : ∀ i ∈ order, g i = g' i)
    (c : κ) : inOrder g order c = inOrder g' order c := by
  induction order generalizing c with
  | nil => rfl
  | cons i order ih =>
    rw [inOrder, inOrder, h i List.mem_cons_self,
      ih fun j hj => h j (List.mem_cons_of_mem _ hj)]

/-- Calls without an effect may follow. -/
theorem inOrder_append_idle {g : ι → Effect κ Resp} {order idle : List ι}
    (h : ∀ i ∈ idle, ∀ c, g i c = (c, [])) (c : κ) :
    inOrder g (order ++ idle) c = inOrder g order c := by
  induction order generalizing c with
  | nil =>
    induction idle generalizing c with
    | nil => rfl
    | cons i idle ih =>
      have hRest := ih (fun j hj => h j (List.mem_cons_of_mem _ hj)) c
      rw [List.nil_append] at hRest ⊢
      simp only [inOrder, h i List.mem_cons_self, hRest, List.map_nil, List.nil_append]
  | cons i order ih => rw [List.cons_append, inOrder, inOrder, ih]

section Unsplit

variable {sv : Server Resp σ φ} {cell : σ → κ} {On : Req → Prop} [DecidablePred On]
  {I : σ → Prop} {pool : ι → Running Resp φ} {g : ι → Effect κ Resp}

/-- Complete runs one after the other have their effects one after the other. -/
theorem serial_eq (hPart : IsPart sv cell On)
    (hActs : ∀ i, (pool i).prog.Acts sv cell On I (pool i).env (g i))
    (hKeeps : ∀ i, (pool i).prog.All (Keeps sv I)) (order : List ι) {s : σ} (hs : I s) :
    inOrder g order (cell s) =
      (cell (serial sv On order pool s).1, (serial sv On order pool s).2) := by
  induction order generalizing s with
  | nil => rfl
  | cons i order ih =>
    obtain ⟨hRun, hI⟩ := (hActs i).run hPart (hKeeps i) hs
    rw [inOrder, hRun, serial, ih hI]

/-- **One request** of a call: its effect is the request, and what is left. -/
theorem acts_next (hPart : IsPart sv cell On) {c : Running Resp φ} {f : Effect κ Resp}
    (h : c.prog.Acts sv cell On I c.env f) {s : σ} (hs : I s) :
    ∃ f', (c.next sv s).1.prog.Acts sv cell On I (c.next sv s).1.env f' ∧
      ((c.event sv On s = [] ∧ f' = f ∧ cell (c.next sv s).2 = cell s) ∨
        ∃ e, c.event sv On s = [e] ∧ f (cell s) =
          ((f' (cell (c.next sv s).2)).1, e :: (f' (cell (c.next sv s).2)).2)) := by
  obtain ⟨prog, env⟩ := c
  cases prog with
  | done a => exact ⟨f, h, .inl ⟨rfl, rfl, rfl⟩⟩
  | call r k =>
    have hCall := h s hs
    by_cases hOn : On r
    · rw [if_pos hOn] at hCall
      obtain ⟨f', hf', hEq⟩ := hCall
      exact ⟨f', hf', .inr ⟨_, if_pos hOn, hEq⟩⟩
    · rw [if_neg hOn] at hCall
      exact ⟨f, hCall, .inl ⟨if_neg hOn, rfl, hPart.frame hOn _ s⟩⟩

/-- A step of a call that keeps the invariant. -/
theorem keeps_next {c : Running Resp φ} (h : c.prog.All (Keeps sv I)) {s : σ} (hs : I s) :
    (c.next sv s).1.prog.All (Keeps sv I) ∧ I (c.next sv s).2 := by
  obtain ⟨prog, env⟩ := c
  cases prog with
  | done a => exact ⟨h, hs⟩
  | call r k => exact ⟨h.2 _, h.1 _ s hs⟩

/-- The order in which calls with the effects `g` come to the part explains a
history on it, and what becomes of it. -/
structure Explains (g : ι → Effect κ Resp) (c c' : κ) (events : List (ι × Sigma Resp))
    (order : List ι) : Prop where
  nodup : order.Nodup
  head : order.head? = (events.map Prod.fst).head?
  mem : ∀ i, i ∈ order ↔ i ∈ events.map Prod.fst
  idle : ∀ i, i ∉ order → ∀ c, g i c = (c, [])
  effect : inOrder g order c = (c', events)

/-- **One event more**, of a call that comes next or not again. -/
theorem Explains.cons [DecidableEq ι] {i : ι} {f : Effect κ Resp} {c c₁ c' : κ}
    {e : Sigma Resp} {events : List (ι × Sigma Resp)} {order : List ι}
    (h : Explains (Function.update g i f) c₁ c' events order)
    (hEffect : g i c = ((f c₁).1, e :: (f c₁).2))
    (hAtOnce : i ∈ events.map Prod.fst → (events.map Prod.fst).head? = some i) :
    ∃ order', Explains g c c' ((i, e) :: events) order' := by
  -- the effects of the other calls are what they were
  have hOthers {order' : List ι} (hi : i ∉ order') (c : κ) :
      inOrder (Function.update g i f) order' c = inOrder g order' c :=
    inOrder_congr (fun j hj => Function.update_of_ne (fun hEq : j = i => hi (hEq ▸ hj)) _ _) c
  have hIdle {j : ι} (hNe : j ≠ i) (hj : j ∉ order) (c : κ) : g j c = (c, []) := by
    rw [← h.idle j hj c, Function.update_of_ne hNe]
  by_cases hAgain : i ∈ order
  · -- the call goes on
    obtain ⟨order, rfl⟩ : ∃ os, order = i :: os :=
      List.head?_eq_some_iff.mp (h.head.trans (hAtOnce ((h.mem i).mp hAgain)))
    refine ⟨i :: order, h.nodup, rfl, fun j => ?_,
      fun j hj => hIdle (fun hEq => hj (hEq ▸ List.mem_cons_self)) hj, ?_⟩
    · rw [h.mem j, List.map_cons, List.mem_cons]
      refine ⟨.inr, fun hHere => hHere.elim (fun hEq => ?_) id⟩
      rw [hEq]
      exact (h.mem i).mp hAgain
    · have hOrder := h.effect
      rw [inOrder, Function.update_self, hOthers (List.nodup_cons.mp h.nodup).1] at hOrder
      obtain ⟨hCell, hEvents⟩ := Prod.mk.inj hOrder
      rw [inOrder, hEffect, hCell, ← hEvents]
      rfl
  · -- it was its last request
    have hDone : f c₁ = (c₁, []) := by
      rw [← h.idle i hAgain c₁, Function.update_self]
    refine ⟨i :: order, List.nodup_cons.mpr ⟨hAgain, h.nodup⟩, rfl, fun j => ?_,
      fun j hj => ?_, ?_⟩
    · rw [List.mem_cons, h.mem j, List.map_cons, List.mem_cons]
    · obtain ⟨hNe, hNotMem⟩ := not_or.mp (List.mem_cons.not.mp hj)
      exact hIdle hNe hNotMem
    · rw [inOrder, hEffect, hDone, ← hOthers hAgain, h.effect]
      rfl

/-- **An unsplit schedule** has the effects of its calls, in the order in which
they come to the part. -/
theorem execute_unsplit [DecidableEq ι] (hPart : IsPart sv cell On) {sched : List ι} {s : σ}
    (hActs : ∀ i, (pool i).prog.Acts sv cell On I (pool i).env (g i))
    (hKeeps : ∀ i, (pool i).prog.All (Keeps sv I)) (hs : I s)
    (hComplete : ∀ i, ((execute sv sched pool s).1 i).ended = true)
    (hUnsplit : Unsplit ((history sv On sched pool s).map Prod.fst)) :
    ∃ order : List ι, Explains g (cell s) (cell (execute sv sched pool s).2)
      (history sv On sched pool s) order := by
  induction sched generalizing pool s g with
  | nil =>
    refine ⟨[], List.nodup_nil, rfl, fun i => Iff.rfl, fun i _ => ?_, rfl⟩
    have hDone := hActs i
    have hProg : (pool i).prog = .done () := Running.prog_of_ended (hComplete i)
    rw [hProg] at hDone
    exact hDone
  | cons i sched ih =>
    obtain ⟨f, hf, hNext⟩ := acts_next hPart (hActs i) hs
    obtain ⟨hKeepsNext, hsNext⟩ := keeps_next (hKeeps i) hs
    -- the call that was served has the rest of its effect left, the others all of theirs
    have hActs' (j : ι) : (Function.update pool i ((pool i).next sv s).1 j).prog.Acts sv cell On I
        (Function.update pool i ((pool i).next sv s).1 j).env (Function.update g i f j) := by
      by_cases hj : j = i
      · subst hj
        rwa [Function.update_self, Function.update_self]
      · rw [Function.update_of_ne hj, Function.update_of_ne hj]
        exact hActs j
    have hKeeps' (j : ι) :
        (Function.update pool i ((pool i).next sv s).1 j).prog.All (Keeps sv I) :=
      (Function.forall_update_iff pool fun _ c => c.prog.All (Keeps sv I)).mpr
        ⟨hKeepsNext, fun j _ => hKeeps j⟩ j
    rw [execute] at hComplete ⊢
    rw [history] at hUnsplit ⊢
    have hRest := ih hActs' hKeeps' hsNext hComplete
    rcases hNext with ⟨hEvent, rfl, hCell⟩ | ⟨e, hEvent, hEffect⟩
    · -- off the part
      rw [Function.update_eq_self, hCell] at hRest
      rw [hEvent] at hUnsplit ⊢
      exact hRest hUnsplit
    -- on the part
    · rw [hEvent] at hUnsplit ⊢
      obtain ⟨hAtOnce, hBlocks⟩ := hUnsplit
      obtain ⟨order, hOrder⟩ := hRest hBlocks
      exact hOrder.cons hEffect hAtOnce

/-- **Unsplit schedules are serializable.** If all calls are local to the part
and keep what their locality rests on, an unsplit schedule that completes them
leaves the part as a serial execution does, and the requests on the part have
the same answers there. -/
theorem unsplit_serializable [DecidableEq ι] [Fintype ι] (hPart : IsPart sv cell On)
    (hLocal : ∀ i, (pool i).prog.Local sv cell On I)
    (hKeeps : ∀ i, (pool i).prog.All (Keeps sv I)) {sched : List ι} {s : σ} (hs : I s)
    (hComplete : ∀ i, ((execute sv sched pool s).1 i).ended = true)
    (hUnsplit : Unsplit ((history sv On sched pool s).map Prod.fst)) :
    ∃ order : List ι, order.Nodup ∧ (∀ i, i ∈ order) ∧
      cell (serial sv On order pool s).1 = cell (execute sv sched pool s).2 ∧
      (serial sv On order pool s).2 = history sv On sched pool s := by
  choose g hActs using fun i => hLocal i (pool i).env
  obtain ⟨order, hOrder⟩ := execute_unsplit hPart hActs hKeeps hs hComplete hUnsplit
  -- calls without requests on the part may come last
  let idle : List ι := Finset.univ.toList.filter (· ∉ order)
  have hMem (i : ι) : i ∈ idle ↔ i ∉ order := by
    simp [idle]
  refine ⟨order ++ idle, ?_, fun i => ?_, ?_⟩
  · refine hOrder.nodup.append (Finset.univ.nodup_toList.filter _) fun i hi hIdle => ?_
    exact (hMem i).mp hIdle hi
  · rw [List.mem_append, hMem]
    exact Classical.em _
  · have hSerial := serial_eq hPart hActs hKeeps (order ++ idle) hs
    rw [inOrder_append_idle fun i hi => hOrder.idle i ((hMem i).mp hi), hOrder.effect] at hSerial
    exact ⟨(Prod.mk.inj hSerial).1.symm, (Prod.mk.inj hSerial).2.symm⟩

end Unsplit

end Sigchat.Lib

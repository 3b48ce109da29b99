import Mathlib.Logic.Function.Basic

/-!
# Request programs

A client that talks to a server by request and response is a tree: it has
either finished, or it issues one request and continues with the answer.
`Prog` is that tree, `Server` says what a request answers and does, and an
`Env` fixes the outcome of every request in advance (the i-th request, if it
is `r`, is served under `env i r`), so one environment is one pattern of
failures.

* `run`   — the complete run under an environment;
* `after` — the state once `n` requests have been served: the points at which
  the client may be stopped or the server observed;
* `wp` / `always` — what every complete run, respectively every such point,
  satisfies when the outcomes are drawn from `adm`;
* `trace` / `Shows` — what a complete run shows of its requests, and what the
  program may show whatever they are answered;
* `interp` — a client of one interface run over another, and
  `wp_interp`, the refinement rule for it.
-/

namespace Sigchat.Lib

variable {Req : Type} {Resp : Req → Type} {α β γ σ τ φ : Type}

-- ---------------------------------------------------------------------------
-- Fallible results
-- ---------------------------------------------------------------------------

/-- A result of a sequence is one of its second step, run on one of the first. -/
theorem exists_of_bind_ok {ε α β : Type} {x : Except ε α} {f : α → Except ε β} {b : β}
    (h : (x >>= f) = .ok b) : ∃ a, x = .ok a ∧ f a = .ok b := by
  cases x with
  | error e => exact nomatch h
  | ok a => exact ⟨a, rfl, h⟩

theorem ok_bind {ε α β : Type} (a : α) (f : α → Except ε β) : (Except.ok a >>= f) = f a := rfl

/-- Where the error is replaced there is no success to replace. -/
theorem ok_of_mapError {ε ε' α : Type} {f : ε → ε'} {x : Except ε α} {a : α}
    (h : x.mapError f = .ok a) : x = .ok a := by
  rcases x with e | b
  · cases h
  · exact congrArg Except.ok (Except.ok.inj h)

theorem ok_of_toOption {ε α : Type} {x : Except ε α} {a : α} (h : x.toOption = some a) :
    x = .ok a := by
  cases x with
  | error e => exact nomatch h
  | ok b => exact congrArg Except.ok (Option.some.inj h)

theorem exists_of_map_fst {ε α β : Type} {r : Except ε (α × β)} {x : α}
    (h : r.map Prod.fst = .ok x) : ∃ y, r = .ok (x, y) := by
  rcases r with e | ⟨x', y⟩
  · exact nomatch h
  · obtain rfl := Except.ok.inj h
    exact ⟨y, rfl⟩

/-- A function on successes makes none and loses none. -/
theorem exists_map_ok {ε α β : Type} {r : Except ε α} {f : α → β} :
    (∃ b, r.map f = .ok b) ↔ ∃ a, r = .ok a := by
  rcases r with e | a
  · constructor <;> rintro ⟨_, h⟩ <;> cases h
  · exact ⟨fun _ => ⟨a, rfl⟩, fun _ => ⟨f a, rfl⟩⟩

-- ---------------------------------------------------------------------------
-- Programs
-- ---------------------------------------------------------------------------

/-- A client program over the request interface `Resp`. -/
inductive Prog (Resp : Req → Type) (α : Type) : Type where
  | done (a : α)
  | call (r : Req) (k : Resp r → Prog Resp α)

namespace Prog

/-- Issue one request and return its answer. -/
def request (r : Req) : Prog Resp (Resp r) := .call r .done

def bind : Prog Resp α → (α → Prog Resp β) → Prog Resp β
  | .done a, f => f a
  | .call r k, f => .call r fun x => (k x).bind f

instance : Monad (Prog Resp) where
  pure := .done
  bind := .bind

@[simp] theorem pure_eq (a : α) : (pure a : Prog Resp α) = .done a := rfl

@[simp] theorem done_bind (a : α) (f : α → Prog Resp β) : (.done a >>= f) = f a := rfl

@[simp] theorem call_bind (r : Req) (k : Resp r → Prog Resp α) (f : α → Prog Resp β) :
    (.call r k >>= f) = .call r fun x => k x >>= f := rfl

@[simp] theorem request_bind (r : Req) (f : Resp r → Prog Resp β) :
    (request r >>= f) = .call r f := rfl

theorem bind_done (p : Prog Resp α) : (p >>= Prog.done) = p := by
  induction p with
  | done a => rfl
  | call r k ih => simp only [call_bind, ih]

theorem bind_assoc' (p : Prog Resp α) (f : α → Prog Resp β) (g : β → Prog Resp γ) :
    ((p >>= f) >>= g) = p >>= fun a => f a >>= g := by
  induction p with
  | done a => rfl
  | call r k ih => simp only [call_bind, ih]

instance : LawfulMonad (Prog Resp) :=
  LawfulMonad.mk' (Prog Resp) bind_done (fun _ _ => rfl) bind_assoc'

/-- Every request the program can issue satisfies `P`. -/
def All (P : Req → Prop) : Prog Resp α → Prop
  | .done _ => True
  | .call r k => P r ∧ ∀ x, (k x).All P

@[simp] theorem all_done (P : Req → Prop) (a : α) : (Prog.done a : Prog Resp α).All P := trivial

@[simp] theorem all_call (P : Req → Prop) (r : Req) (k : Resp r → Prog Resp α) :
    (Prog.call r k).All P ↔ P r ∧ ∀ x, (k x).All P := Iff.rfl

/-- The requests of a sequence are those of its two steps. -/
theorem All.bind {P : Req → Prop} {p : Prog Resp α} {f : α → Prog Resp β}
    (hp : p.All P) (hf : ∀ a, (f a).All P) : (p >>= f).All P := by
  induction p with
  | done a => exact hf a
  | call r k ih => exact ⟨hp.1, fun x => ih x (hp.2 x)⟩

/-- Requests of a kind are requests of every wider kind. -/
theorem All.mono {P Q : Req → Prop} {p : Prog Resp α} (hp : p.All P) (hPQ : ∀ r, P r → Q r) :
    p.All Q := by
  induction p with
  | done a => trivial
  | call r k ih => exact ⟨hPQ r hp.1, fun x => ih x (hp.2 x)⟩

/-- Every result the program can end with satisfies `Q`. -/
def Yields (Q : α → Prop) : Prog Resp α → Prop
  | .done a => Q a
  | .call _ k => ∀ x, (k x).Yields Q

@[simp] theorem yields_done (Q : α → Prop) (a : α) :
    (Prog.done a : Prog Resp α).Yields Q ↔ Q a := Iff.rfl

@[simp] theorem yields_call (Q : α → Prop) (r : Req) (k : Resp r → Prog Resp α) :
    (Prog.call r k).Yields Q ↔ ∀ x, (k x).Yields Q := Iff.rfl

theorem yields_of_forall {Q : α → Prop} (h : ∀ a, Q a) (p : Prog Resp α) : p.Yields Q := by
  induction p with
  | done a => exact h a
  | call r k ih => exact ih

/-- The results of a sequence are those of its second step, run on results of
the first. -/
theorem Yields.bind {Q : α → Prop} {Q' : β → Prop} {p : Prog Resp α} {f : α → Prog Resp β}
    (hp : p.Yields Q) (hf : ∀ a, Q a → (f a).Yields Q') : (p >>= f).Yields Q' := by
  induction p with
  | done a => exact hf a hp
  | call r k ih => exact fun x => ih x (hp x)

/-- Only the results the first part can end with matter. -/
theorem All.bind_of_yields {P : Req → Prop} {Q : α → Prop} {p : Prog Resp α}
    {f : α → Prog Resp β} (hp : p.All P) (hq : p.Yields Q) (hf : ∀ a, Q a → (f a).All P) :
    (p >>= f).All P := by
  induction p with
  | done a => exact hf a hq
  | call r k ih => exact ⟨hp.1, fun x => ih x (hp.2 x) (hq x)⟩

end Prog

-- ---------------------------------------------------------------------------
-- Servers and runs
-- ---------------------------------------------------------------------------

/-- What a request answers and what it does to the state, under the outcome
the environment picked for it. -/
abbrev Server (Resp : Req → Type) (σ φ : Type) := φ → (r : Req) → σ → Resp r × σ

/-- The outcome of the `i`-th request, should it be `r`. -/
abbrev Env (Req φ : Type) := Nat → Req → φ

/-- What is left of an environment after its first request. -/
def Env.tail (env : Env Req φ) : Env Req φ := fun i => env (i + 1)

namespace Prog

variable (sv : Server Resp σ φ)

/-- The complete run of a program. -/
def run : Prog Resp α → Env Req φ → σ → α × σ
  | .done a, _, s => (a, s)
  | .call r k, env, s => (k (sv (env 0 r) r s).1).run env.tail (sv (env 0 r) r s).2

/-- The state once `n` requests have been served (all of them, if there are
fewer). -/
def after : Nat → Prog Resp α → Env Req φ → σ → σ
  | 0, _, _, s => s
  | _ + 1, .done _, _, s => s
  | n + 1, .call r k, env, s => (k (sv (env 0 r) r s).1).after n env.tail (sv (env 0 r) r s).2

/-- The run in which every request is served under the outcome `o`. -/
def runAll (o : φ) (p : Prog Resp α) (s : σ) : α × σ := p.run sv (fun _ _ => o) s

@[simp] theorem run_done (a : α) (env : Env Req φ) (s : σ) :
    (Prog.done a : Prog Resp α).run sv env s = (a, s) := rfl

@[simp] theorem run_call (r : Req) (k : Resp r → Prog Resp α) (env : Env Req φ) (s : σ) :
    (Prog.call r k).run sv env s =
      (k (sv (env 0 r) r s).1).run sv env.tail (sv (env 0 r) r s).2 := rfl

@[simp] theorem runAll_done (o : φ) (a : α) (s : σ) :
    (Prog.done a : Prog Resp α).runAll sv o s = (a, s) := rfl

@[simp] theorem runAll_call (o : φ) (r : Req) (k : Resp r → Prog Resp α) (s : σ) :
    (Prog.call r k).runAll sv o s = (k (sv o r s).1).runAll sv o (sv o r s).2 := rfl

theorem runAll_bind (o : φ) (p : Prog Resp α) (f : α → Prog Resp β) (s : σ) :
    (p >>= f).runAll sv o s = (f (p.runAll sv o s).1).runAll sv o (p.runAll sv o s).2 := by
  induction p generalizing s with
  | done a => rfl
  | call r k ih => exact ih _ _

/-- What a complete run leaves of its environment. -/
def left : Prog Resp α → Env Req φ → σ → Env Req φ
  | .done _, env, _ => env
  | .call r k, env, s => (k (sv (env 0 r) r s).1).left env.tail (sv (env 0 r) r s).2

/-- How many requests a complete run issues. -/
def steps : Prog Resp α → Env Req φ → σ → Nat
  | .done _, _, _ => 0
  | .call r k, env, s => (k (sv (env 0 r) r s).1).steps env.tail (sv (env 0 r) r s).2 + 1

/-- **Sequencing of runs.** The second step gets the result, the state and the
outcomes that the first has left. -/
theorem run_bind (p : Prog Resp α) (f : α → Prog Resp β) (env : Env Req φ) (s : σ) :
    (p >>= f).run sv env s =
      (f (p.run sv env s).1).run sv (p.left sv env s) (p.run sv env s).2 := by
  induction p generalizing env s with
  | done a => rfl
  | call r k ih => exact ih _ _ _

/-- A sequence that ends with `Ok` has run its first part to `Ok`, and the rest
from there. -/
theorem run_then_ok {ε : Type} {p : Prog Resp (Except ε Unit)} {q : Prog Resp (Except ε α)}
    {f : Except ε Unit → Prog Resp (Except ε α)} {env : Env Req φ} {s : σ} {a : α}
    (h : ((p >>= f).run sv env s).1 = .ok a) (hError : ∀ e, f (.error e) = .done (.error e))
    (hOk : f (.ok ()) = q) :
    (p.run sv env s).1 = .ok () ∧
      (p >>= f).run sv env s = q.run sv (p.left sv env s) (p.run sv env s).2 := by
  rw [run_bind] at h ⊢
  rcases hFirst : (p.run sv env s).1 with e | u
  · rw [hFirst, hError] at h
    exact nomatch h
  · exact ⟨rfl, by rw [hOk]⟩

/-- What the second step leaves of the outcomes is what the sequence leaves. -/
theorem left_bind (p : Prog Resp α) (f : α → Prog Resp β) (env : Env Req φ) (s : σ) :
    (p >>= f).left sv env s =
      (f (p.run sv env s).1).left sv (p.left sv env s) (p.run sv env s).2 := by
  induction p generalizing env s with
  | done a => rfl
  | call r k ih => exact ih _ _ _

/-- The complete run ends with `a`, in `s'`, and leaves `env'`. -/
def Ends (p : Prog Resp α) (env : Env Req φ) (s : σ) (a : α) (env' : Env Req φ) (s' : σ) : Prop :=
  p.run sv env s = (a, s') ∧ p.left sv env s = env'

theorem ends_run (p : Prog Resp α) (env : Env Req φ) (s : σ) :
    p.Ends sv env s (p.run sv env s).1 (p.left sv env s) (p.run sv env s).2 := ⟨rfl, rfl⟩

/-- The points of a sequence up to the end of its first part are the points of
that part. -/
theorem after_bind_of_le (p : Prog Resp α) (f : α → Prog Resp β) {n : Nat} {env : Env Req φ}
    {s : σ} (hn : n ≤ p.steps sv env s) : (p >>= f).after sv n env s = p.after sv n env s := by
  induction p generalizing n env s with
  | done a =>
    obtain rfl : n = 0 := Nat.le_zero.mp hn
    cases f a <;> rfl
  | call r k ih =>
    cases n with
    | zero => rfl
    | succ n => exact ih _ (Nat.le_of_succ_le_succ hn)

/-- The later points are those of the second part. -/
theorem after_bind_of_ge (p : Prog Resp α) (f : α → Prog Resp β) {n : Nat} {env : Env Req φ}
    {s : σ} (hn : p.steps sv env s ≤ n) :
    (p >>= f).after sv n env s =
      (f (p.run sv env s).1).after sv (n - p.steps sv env s) (p.left sv env s)
        (p.run sv env s).2 := by
  induction p generalizing n env s with
  | done a => rfl
  | call r k ih =>
    cases n with
    | zero => exact absurd hn (Nat.not_succ_le_zero _)
    | succ n =>
      have hSub : n + 1 - (Prog.call r k).steps sv env s =
          n - (k (sv (env 0 r) r s).1).steps sv env.tail (sv (env 0 r) r s).2 :=
        Nat.add_sub_add_right n 1 _
      rw [hSub]
      exact ih _ (Nat.le_of_succ_le_succ hn)

/-- Once all requests have been served nothing more happens. -/
theorem after_of_steps_le (p : Prog Resp α) {n : Nat} {env : Env Req φ} {s : σ}
    (hn : p.steps sv env s ≤ n) : p.after sv n env s = (p.run sv env s).2 := by
  induction p generalizing n env s with
  | done a => cases n <;> rfl
  | call r k ih =>
    cases n with
    | zero => exact absurd hn (Nat.not_succ_le_zero _)
    | succ n => exact ih _ (Nat.le_of_succ_le_succ hn)

-- ---------------------------------------------------------------------------
-- What a run shows
-- ---------------------------------------------------------------------------

section Traces

variable {ε : Type} (obs : (r : Req) → Resp r → List ε)

/-- What a complete run shows: `obs r x` of a request `r` that is answered `x`. -/
def trace : Prog Resp α → Env Req φ → σ → List ε
  | .done _, _, _ => []
  | .call r k, env, s =>
    obs r (sv (env 0 r) r s).1 ++ (k (sv (env 0 r) r s).1).trace env.tail (sv (env 0 r) r s).2

/-- A program may end with `a` and have shown `es`, if its requests are answered
by anything. -/
def Shows : Prog Resp α → List ε → α → Prop
  | .done a, es, a' => es = [] ∧ a' = a
  | .call r k, es, a' => ∃ x es', es = obs r x ++ es' ∧ (k x).Shows es' a'

@[simp] theorem trace_done (a : α) (env : Env Req φ) (s : σ) :
    (Prog.done a : Prog Resp α).trace sv obs env s = [] := rfl

@[simp] theorem trace_call (r : Req) (k : Resp r → Prog Resp α) (env : Env Req φ) (s : σ) :
    (Prog.call r k).trace sv obs env s = obs r (sv (env 0 r) r s).1 ++
      (k (sv (env 0 r) r s).1).trace sv obs env.tail (sv (env 0 r) r s).2 := rfl

/-- A sequence shows what its first step shows, and then what its second does.
-/
theorem trace_bind (p : Prog Resp α) (f : α → Prog Resp β) (env : Env Req φ) (s : σ) :
    (p >>= f).trace sv obs env s = p.trace sv obs env s ++
      (f (p.run sv env s).1).trace sv obs (p.left sv env s) (p.run sv env s).2 := by
  induction p generalizing env s with
  | done a => rfl
  | call r k ih => rw [call_bind, trace_call, ih, trace_call, List.append_assoc]; rfl

/-- A run shows what the program may show. -/
theorem shows_run (p : Prog Resp α) (env : Env Req φ) (s : σ) :
    p.Shows obs (p.trace sv obs env s) (p.run sv env s).1 := by
  induction p generalizing env s with
  | done a => exact ⟨rfl, rfl⟩
  | call r k ih => exact ⟨_, _, rfl, ih _ _ _⟩

variable {obs}

@[simp] theorem shows_done {a a' : α} {es : List ε} :
    (Prog.done a : Prog Resp α).Shows obs es a' ↔ es = [] ∧ a' = a := Iff.rfl

@[simp] theorem shows_call {r : Req} {k : Resp r → Prog Resp α} {es : List ε} {a : α} :
    (Prog.call r k).Shows obs es a ↔ ∃ x es', es = obs r x ++ es' ∧ (k x).Shows obs es' a := Iff.rfl

/-- Two steps in a row show what the first may show and then what the second
may. -/
theorem shows_bind {p : Prog Resp α} {f : α → Prog Resp β} {es : List ε} {b : β} :
    (p >>= f).Shows obs es b ↔
      ∃ a es₁ es₂, es = es₁ ++ es₂ ∧ p.Shows obs es₁ a ∧ (f a).Shows obs es₂ b := by
  induction p generalizing es with
  | done a =>
    constructor
    · exact fun h => ⟨a, [], es, rfl, ⟨rfl, rfl⟩, h⟩
    · rintro ⟨a', es₁, es₂, rfl, ⟨rfl, rfl⟩, h⟩
      exact h
  | call r k ih =>
    constructor
    · rintro ⟨x, es', rfl, h⟩
      obtain ⟨a, es₁, es₂, rfl, hFirst, hSecond⟩ := (ih x).mp h
      exact ⟨a, obs r x ++ es₁, es₂, (List.append_assoc ..).symm, ⟨x, es₁, rfl, hFirst⟩, hSecond⟩
    · rintro ⟨a, es₁, es₂, rfl, ⟨x, es', rfl, hFirst⟩, hSecond⟩
      exact ⟨x, es' ++ es₂, List.append_assoc .., (ih x).mpr ⟨a, es', es₂, rfl, hFirst, hSecond⟩⟩

/-- What all its requests show, a program shows. -/
theorem Shows.forall_mem {P : Req → Prop} {Q : ε → Prop}
    (hObs : ∀ r, P r → ∀ x, ∀ e ∈ obs r x, Q e) {p : Prog Resp α} (hp : p.All P) {es : List ε}
    {a : α} (h : p.Shows obs es a) : ∀ e ∈ es, Q e := by
  induction p generalizing es with
  | done _ =>
    rw [h.1]
    exact List.forall_mem_nil Q
  | call r k ih =>
    obtain ⟨x, es', rfl, hRest⟩ := h
    exact List.forall_mem_append.mpr ⟨hObs r hp.1 x, ih x (hp.2 x) hRest⟩

/-- A program whose requests show nothing shows nothing. -/
theorem Shows.eq_nil {P : Req → Prop} (hObs : ∀ r, P r → ∀ x, obs r x = []) {p : Prog Resp α}
    (hp : p.All P) {es : List ε} {a : α} (h : p.Shows obs es a) : es = [] := by
  induction p generalizing es with
  | done _ => exact h.1
  | call r k ih =>
    obtain ⟨x, es', rfl, hRest⟩ := h
    rw [hObs r hp.1 x, ih x (hp.2 x) hRest, List.append_nil]

end Traces

-- ---------------------------------------------------------------------------
-- Preconditions and points of a run
-- ---------------------------------------------------------------------------

variable (adm : Req → φ → Prop)

/-- Every complete run under outcomes admitted by `adm` ends in `Q`. -/
def wp : Prog Resp α → (α → σ → Prop) → σ → Prop
  | .done a, Q, s => Q a s
  | .call r k, Q, s => ∀ o, adm r o → (k (sv o r s).1).wp Q (sv o r s).2

/-- `I` holds at every point of every run under outcomes admitted by `adm`. -/
def always : Prog Resp α → (σ → Prop) → σ → Prop
  | .done _, I, s => I s
  | .call r k, I, s => I s ∧ ∀ o, adm r o → (k (sv o r s).1).always I (sv o r s).2

variable {sv adm}

@[simp] theorem ends_done {a b : α} {env env' : Env Req φ} {s s' : σ} :
    (Prog.done a : Prog Resp α).Ends sv env s b env' s' ↔ a = b ∧ s = s' ∧ env = env' := by
  rw [Ends, run_done, Prod.mk.injEq, and_assoc]
  rfl

/-- A run ends in one way only. -/
theorem Ends.unique {p : Prog Resp α} {env env₁ env₂ : Env Req φ} {s s₁ s₂ : σ} {a b : α}
    (h : p.Ends sv env s a env₁ s₁) (h' : p.Ends sv env s b env₂ s₂) :
    a = b ∧ env₁ = env₂ ∧ s₁ = s₂ := by
  obtain ⟨hRun, hLeft⟩ := h
  obtain ⟨hRun', hLeft'⟩ := h'
  obtain ⟨rfl, rfl⟩ := Prod.mk.inj (hRun.symm.trans hRun')
  exact ⟨rfl, hLeft.symm.trans hLeft', rfl⟩

/-- Of one outcome for all requests the same is left. -/
theorem left_const (p : Prog Resp α) (o : φ) (s : σ) :
    p.left sv (fun _ _ => o) s = fun _ _ => o := by
  induction p generalizing s with
  | done a => rfl
  | call r k ih => exact ih _ _

/-- In a run under one outcome everything ends under it. -/
theorem ends_const {p : Prog Resp α} {o : φ} {env' : Env Req φ} {s s' : σ} {a : α} :
    p.Ends sv (fun _ _ => o) s a env' s' ↔ p.runAll sv o s = (a, s') ∧ env' = fun _ _ => o := by
  rw [Ends, left_const, eq_comm (a := fun _ _ => o)]
  rfl

/-- **Sequencing.** The first part ends, and the second starts from there. -/
theorem ends_bind {p : Prog Resp α} {f : α → Prog Resp β} {env env' : Env Req φ} {s s' : σ}
    {b : β} : (p >>= f).Ends sv env s b env' s' ↔
      ∃ a env₁ s₁, p.Ends sv env s a env₁ s₁ ∧ (f a).Ends sv env₁ s₁ b env' s' := by
  constructor
  · intro h
    rw [Ends, run_bind, left_bind] at h
    exact ⟨_, _, _, p.ends_run sv env s, h⟩
  · rintro ⟨a, env₁, s₁, ⟨hRun, hLeft⟩, h⟩
    rw [Ends, run_bind, left_bind, hRun, hLeft]
    exact h

@[simp] theorem wp_done {a : α} {Q : α → σ → Prop} {s : σ} :
    (Prog.done a : Prog Resp α).wp sv adm Q s ↔ Q a s := Iff.rfl

@[simp] theorem wp_call {r : Req} {k : Resp r → Prog Resp α} {Q : α → σ → Prop} {s : σ} :
    (Prog.call r k).wp sv adm Q s ↔
      ∀ o, adm r o → (k (sv o r s).1).wp sv adm Q (sv o r s).2 := Iff.rfl

@[simp] theorem always_done {a : α} {I : σ → Prop} {s : σ} :
    (Prog.done a : Prog Resp α).always sv adm I s ↔ I s := Iff.rfl

@[simp] theorem always_call {r : Req} {k : Resp r → Prog Resp α} {I : σ → Prop} {s : σ} :
    (Prog.call r k).always sv adm I s ↔
      I s ∧ ∀ o, adm r o → (k (sv o r s).1).always sv adm I (sv o r s).2 := Iff.rfl

theorem wp_bind {p : Prog Resp α} {f : α → Prog Resp β} {Q : β → σ → Prop} {s : σ} :
    (p >>= f).wp sv adm Q s ↔ p.wp sv adm (fun a s' => (f a).wp sv adm Q s') s := by
  induction p generalizing s with
  | done a => rfl
  | call r k ih => exact forall_congr' fun o => imp_congr_right fun _ => ih _

theorem wp_mono {p : Prog Resp α} {Q Q' : α → σ → Prop} {s : σ}
    (hQ : ∀ a s, Q a s → Q' a s) (h : p.wp sv adm Q s) : p.wp sv adm Q' s := by
  induction p generalizing s with
  | done a => exact hQ a s h
  | call r k ih => exact fun o ho => ih _ (h o ho)

theorem wp_true {p : Prog Resp α} {s : σ} : p.wp sv adm (fun _ _ => True) s := by
  induction p generalizing s with
  | done a => trivial
  | call r k ih => exact fun o _ => ih _

/-- What holds for each index holds for all of them. -/
theorem wp_forall {ι : Type} {Q : ι → α → σ → Prop} {p : Prog Resp α} {s : σ}
    (h : ∀ i, p.wp sv adm (Q i) s) : p.wp sv adm (fun a s => ∀ i, Q i a s) s := by
  induction p generalizing s with
  | done a => exact h
  | call r k ih => exact fun o ho => ih _ fun i => h i o ho

/-- What all results satisfy the result of every run does. -/
theorem wp_of_yields {Q : α → Prop} {p : Prog Resp α} (h : p.Yields Q) {s : σ} :
    p.wp sv adm (fun a _ => Q a) s := by
  induction p generalizing s with
  | done a => exact h
  | call r k ih => exact fun o _ => ih _ (h _)

theorem wp_and {p : Prog Resp α} {Q Q' : α → σ → Prop} {s : σ}
    (h : p.wp sv adm Q s) (h' : p.wp sv adm Q' s) :
    p.wp sv adm (fun a s => Q a s ∧ Q' a s) s := by
  induction p generalizing s with
  | done a => exact ⟨h, h'⟩
  | call r k ih => exact fun o ho => ih _ (h o ho) (h' o ho)

/-- What `wp` proves holds of the run under every admitted environment. -/
theorem wp_run {p : Prog Resp α} {Q : α → σ → Prop} {s : σ} (h : p.wp sv adm Q s)
    {env : Env Req φ} (hEnv : ∀ i r, adm r (env i r)) :
    Q (p.run sv env s).1 (p.run sv env s).2 := by
  induction p generalizing s env with
  | done a => exact h
  | call r k ih => exact ih _ (h _ (hEnv 0 r)) fun i => hEnv (i + 1)

theorem wp_run_any {p : Prog Resp α} {Q : α → σ → Prop} {s : σ}
    (h : p.wp sv (fun _ _ => True) Q s) (env : Env Req φ) :
    Q (p.run sv env s).1 (p.run sv env s).2 :=
  wp_run h fun _ _ => trivial

/-- What `always` proves holds at every point of the run. -/
theorem always_after {p : Prog Resp α} {I : σ → Prop} {s : σ} (h : p.always sv adm I s)
    {env : Env Req φ} (hEnv : ∀ i r, adm r (env i r)) (n : Nat) :
    I (p.after sv n env s) := by
  induction p generalizing s env n with
  | done a => cases n <;> exact h
  | call r k ih =>
    cases n with
    | zero => exact h.1
    | succ n => exact ih _ (h.2 _ (hEnv 0 r)) (fun i => hEnv (i + 1)) n

theorem always_after_any {p : Prog Resp α} {I : σ → Prop} {s : σ}
    (h : p.always sv (fun _ _ => True) I s) (env : Env Req φ) (n : Nat) : I (p.after sv n env s) :=
  always_after h (fun _ _ => trivial) n

/-- **Sequencing** of invariants of the points: those of the first step, and
those of the second from where the first may end. -/
theorem always_bind {p : Prog Resp α} {f : α → Prog Resp β} {I : σ → Prop} {s : σ}
    (hp : p.always sv adm I s) (hf : p.wp sv adm (fun a s' => (f a).always sv adm I s') s) :
    (p >>= f).always sv adm I s := by
  induction p generalizing s with
  | done a => exact hf
  | call r k ih => exact ⟨hp.1, fun o ho => ih _ (hp.2 o ho) (hf o ho)⟩

/-- **Frame rule.** An invariant every request of the program keeps holds at
every point of its runs. -/
theorem always_of_all {P : Req → Prop} {I : σ → Prop}
    (hKeep : ∀ r, P r → ∀ o s, I s → I (sv o r s).2)
    {p : Prog Resp α} (hp : p.All P) {s : σ} (hs : I s) : p.always sv adm I s := by
  induction p generalizing s with
  | done a => exact hs
  | call r k ih => exact ⟨hs, fun o _ => ih _ (hp.2 _) (hKeep r hp.1 o s hs)⟩

/-- The frame rule for complete runs. -/
theorem wp_of_all {P : Req → Prop} {I : σ → Prop}
    (hKeep : ∀ r, P r → ∀ o s, I s → I (sv o r s).2)
    {p : Prog Resp α} (hp : p.All P) {s : σ} (hs : I s) :
    p.wp sv adm (fun _ s' => I s') s := by
  induction p generalizing s with
  | done a => exact hs
  | call r k ih => exact fun o _ => ih _ (hp.2 _) (hKeep r hp.1 o s hs)

-- ---------------------------------------------------------------------------
-- Clients of one interface over another
-- ---------------------------------------------------------------------------

variable {Req' : Type} {Resp' : Req' → Type}

/-- Run a client of the interface `Resp` over `Resp'`, each request by its
handler. -/
def interp (h : (r : Req) → Prog Resp' (Resp r)) : Prog Resp α → Prog Resp' α
  | .done a => .done a
  | .call r k => h r >>= fun x => (k x).interp h

@[simp] theorem interp_done (h : (r : Req) → Prog Resp' (Resp r)) (a : α) :
    (Prog.done a : Prog Resp α).interp h = .done a := rfl

@[simp] theorem interp_call (h : (r : Req) → Prog Resp' (Resp r)) (r : Req)
    (k : Resp r → Prog Resp α) :
    (Prog.call r k).interp h = h r >>= fun x => (k x).interp h := rfl

/-- The requests of the handlers a client uses. -/
theorem All.interp_of {h : (r : Req) → Prog Resp' (Resp r)} {P : Req' → Prop} {Q : Req → Prop}
    {p : Prog Resp α} (hp : p.All Q) (hh : ∀ r, Q r → (h r).All P) : (p.interp h).All P := by
  induction p with
  | done a => trivial
  | call r k ih => exact (hh r hp.1).bind fun x => ih x (hp.2 x)

/-- The requests of a client over handlers are the handlers'. -/
theorem All.interp {h : (r : Req) → Prog Resp' (Resp r)} {P : Req' → Prop}
    (hh : ∀ r, (h r).All P) (p : Prog Resp α) : (p.interp h).All P := by
  induction p with
  | done a => trivial
  | call r k ih => exact (hh r).bind ih

/-- Issue the requests of a list one after the other and collect the answers. -/
def script : List Req → Prog Resp (List (Sigma Resp))
  | [] => .done []
  | r :: rs => .call r fun x => script rs >>= fun xs => .done (⟨r, x⟩ :: xs)

/-- **Refinement of single requests.** If each handler ends as its request does
under some outcome, so does every client over the handlers. -/
theorem exists_run_interp {φ' : Type} {sv' : Server Resp' σ φ'} {sv : Server Resp σ φ}
    {h : (r : Req) → Prog Resp' (Resp r)}
    (hStep : ∀ r env s, ∃ o, (h r).run sv' env s = sv o r s) (p : Prog Resp α) (env : Env Req' φ')
    (s : σ) : ∃ env', (p.interp h).run sv' env s = p.run sv env' s := by
  induction p generalizing env s with
  | done a => exact ⟨fun _ r => (hStep r env s).choose, rfl⟩
  | call r k ih =>
    obtain ⟨o, ho⟩ := hStep r env s
    obtain ⟨env', hRest⟩ := ih (sv o r s).1 ((h r).left sv' env s) (sv o r s).2
    -- the outcome of the request comes first, then those of the rest
    refine ⟨fun | 0 => fun _ => o | i + 1 => env' i, ?_⟩
    rw [interp_call, run_bind, ho]
    exact hRest

/-- A sequence of a client is run as the sequence of its two steps. -/
theorem interp_bind (h : (r : Req) → Prog Resp' (Resp r)) (p : Prog Resp α)
    (f : α → Prog Resp β) : (p >>= f).interp h = p.interp h >>= fun a => (f a).interp h := by
  induction p with
  | done a => rfl
  | call r k ih =>
    simp only [call_bind, interp_call, bind_assoc]
    congr 1
    funext x
    exact ih x

@[simp] theorem interp_request (h : (r : Req) → Prog Resp' (Resp r)) (r : Req) :
    (request r).interp h = h r := bind_done (h r)

/-- Handlers that are clients themselves. -/
theorem interp_interp {Req'' : Type} {Resp'' : Req'' → Type} (h : (r : Req) → Prog Resp' (Resp r))
    (h' : (r : Req') → Prog Resp'' (Resp' r)) (p : Prog Resp α) :
    (p.interp h).interp h' = p.interp fun r => (h r).interp h' := by
  induction p with
  | done a => rfl
  | call r k ih =>
    rw [interp_call, interp_bind, interp_call]
    exact congrArg _ (funext ih)

/-- The rule for a script: the first request, then the others. -/
theorem wp_interp_script_cons {sv' : Server Resp' σ φ} {adm' : Req' → φ → Prop}
    {h : (r : Req) → Prog Resp' (Resp r)} {r : Req} {rs : List Req}
    {Q : List (Sigma Resp) → σ → Prop} {s : σ} :
    ((script (r :: rs)).interp h).wp sv' adm' Q s ↔
      (h r).wp sv' adm' (fun x s' => ((script rs).interp h).wp sv' adm'
        (fun xs s'' => Q (⟨r, x⟩ :: xs) s'') s') s := by
  rw [script, interp_call, wp_bind]
  simp only [interp_bind, interp_done, wp_bind, wp_done]

/-- **Refinement rule.** If every handler answers as the server `asv` does and
keeps the relation `R` between the two states, then so does every client run
over the handlers. -/
theorem wp_interp {sv' : Server Resp' σ φ} {adm' : Req' → φ → Prop} {asv : Server Resp τ Unit}
    {h : (r : Req) → Prog Resp' (Resp r)} {R : σ → τ → Prop}
    (hStep : ∀ r s t, R s t →
      (h r).wp sv' adm' (fun x s' => x = (asv () r t).1 ∧ R s' (asv () r t).2) s)
    (p : Prog Resp α) {s : σ} {t : τ} (hR : R s t) :
    (p.interp h).wp sv' adm'
      (fun a s' => a = (p.runAll asv () t).1 ∧ R s' (p.runAll asv () t).2) s := by
  induction p generalizing s t with
  | done a => exact ⟨rfl, hR⟩
  | call r k ih =>
    rw [interp_call, wp_bind, runAll_call]
    refine wp_mono (fun x s' hx => ?_) (hStep r s t hR)
    obtain ⟨rfl, hR'⟩ := hx
    exact ih _ hR'

end Prog

end Sigchat.Lib

import Sigchat.Lib.Request

/-!
# Computations that log

Two kinds of computations that emit lines: those that may fail and ask nothing
of a server (`Emit`), and clients of a request interface (`Logged`). A line is
emitted when control passes its place, so a computation that fails has emitted
the lines in front of the failure.

* `Emit.agree_bind`     — two computations emit the same lines and end alike if
  their first parts do, and their second parts on whatever these return;
* `Logged.erase_bind`   — a client without its lines is put together like the
  client;
* `Logged.lines_bind`   — the lines of a run are those of its two parts.
-/

namespace Sigchat.Lib

inductive Level where
  | error
  | warn
  | info
  | debug
  | trace
  deriving DecidableEq

structure Line where
  level : Level
  text : String
  deriving DecidableEq

variable {ε err α β : Type}

-- ---------------------------------------------------------------------------
-- Fallible computations
-- ---------------------------------------------------------------------------

/-- What a fallible computation emits, and what it ends with. -/
structure Emit (ε err α : Type) where
  lines : List ε
  result : Except err α

namespace Emit

instance : Monad (Emit ε err) where
  pure a := ⟨[], .ok a⟩
  bind p f :=
    match p.result with
    | .error e => ⟨p.lines, .error e⟩
    | .ok a => ⟨p.lines ++ (f a).lines, (f a).result⟩

def log (line : ε) : Emit ε err Unit := ⟨[line], .ok ()⟩

def fail (e : err) : Emit ε err α := ⟨[], .error e⟩

/-- A computation that emits nothing. -/
def silent (x : Except err α) : Emit ε err α := ⟨[], x⟩

/-- Go on after a failure. -/
def handle {err' : Type} (p : Emit ε err α) (h : err → Emit ε err' α) : Emit ε err' α :=
  match p.result with
  | .error e => ⟨p.lines ++ (h e).lines, (h e).result⟩
  | .ok a => ⟨p.lines, .ok a⟩

theorem result_bind (p : Emit ε err α) (f : α → Emit ε err β) :
    (p >>= f).result = p.result >>= fun a => (f a).result := by
  obtain ⟨lines, e | a⟩ := p <;> rfl

theorem result_handle_ok {err' : Type} {p : Emit ε err α} {a : α} (hp : p.result = .ok a)
    (h : err → Emit ε err' α) : (p.handle h).result = .ok a := by
  unfold handle
  rw [hp]

theorem result_handle_error {err' : Type} {p : Emit ε err α} {e : err} (hp : p.result = .error e)
    (h : err → Emit ε err' α) : (p.handle h).result = (h e).result := by
  unfold handle
  rw [hp]

/-- Only the error is replaced. -/
theorem result_handle_fail {err' : Type} {p : Emit ε err α} {f : err → err'} {a : α} :
    (p.handle fun e => fail (f e) : Emit ε err' α).result = .ok a ↔ p.result = .ok a := by
  rcases hp : p.result with e | b
  · rw [result_handle_error hp]
    exact iff_of_false (by intro h; cases h) (by intro h; cases h)
  · rw [result_handle_ok hp, Except.ok.injEq, Except.ok.injEq]

/-- Two results are the same failure, or related. -/
inductive Related (R : α → β → Prop) : Except err α → Except err β → Prop where
  | error (e : err) : Related R (.error e) (.error e)
  | ok {a : α} {b : β} (h : R a b) : Related R (.ok a) (.ok b)

/-- Two computations emit the same lines and end alike. -/
structure Agree (R : α → β → Prop) (p : Emit ε err α) (q : Emit ε err β) : Prop where
  lines : p.lines = q.lines
  result : Related R p.result q.result

theorem agree_refl (p : Emit ε err α) : Agree Eq p p := by
  obtain ⟨lines, e | a⟩ := p
  · exact ⟨rfl, .error e⟩
  · exact ⟨rfl, .ok rfl⟩

/-- The results that are related are those of the two computations. -/
theorem Agree.results {R : α → β → Prop} {p : Emit ε err α} {q : Emit ε err β} (h : Agree R p q) :
    Agree (fun a b => R a b ∧ p.result = .ok a ∧ q.result = .ok b) p q := by
  obtain ⟨lines, x⟩ := p
  obtain ⟨lines', y⟩ := q
  obtain ⟨hLines, hResult⟩ := h
  refine ⟨hLines, ?_⟩
  cases hResult with
  | error e => exact .error e
  | ok hab => exact .ok ⟨hab, rfl, rfl⟩

theorem agree_fail {R : α → β → Prop} (e : err) : Agree R (fail e : Emit ε err α) (fail e) :=
  ⟨rfl, .error e⟩

theorem agree_silent {R : α → β → Prop} {x : Except err α} {y : Except err β}
    (h : Related R x y) : Agree R (silent x : Emit ε err α) (silent y) := ⟨rfl, h⟩

/-- **Two computations in sequence.** -/
theorem agree_bind {γ δ : Type} {R : α → β → Prop} {Q : γ → δ → Prop} {p : Emit ε err α}
    {q : Emit ε err β} {f : α → Emit ε err γ} {g : β → Emit ε err δ} (hFirst : Agree R p q)
    (hSecond : ∀ a b, R a b → Agree Q (f a) (g b)) : Agree Q (p >>= f) (q >>= g) := by
  obtain ⟨lines, x⟩ := p
  obtain ⟨lines', y⟩ := q
  obtain ⟨hLines, hResult⟩ := hFirst
  obtain rfl : lines = lines' := hLines
  cases hResult with
  | error e => exact ⟨rfl, .error e⟩
  | ok h =>
    obtain ⟨hRest, hEnd⟩ := hSecond _ _ h
    exact ⟨congrArg (lines ++ ·) hRest, hEnd⟩

/-- One computation, and what may follow it. -/
theorem agree_bind_refl {γ δ : Type} {Q : γ → δ → Prop} (p : Emit ε err α) {f : α → Emit ε err γ}
    {g : α → Emit ε err δ} (h : ∀ a, Agree Q (f a) (g a)) : Agree Q (p >>= f) (p >>= g) :=
  agree_bind (agree_refl p) fun a _ hEq => hEq ▸ h a

end Emit

-- ---------------------------------------------------------------------------
-- Clients
-- ---------------------------------------------------------------------------

variable {Req : Type} {Resp : Req → Type} {σ φ : Type}

/-- A client that emits lines: what it returns comes with them. -/
def Logged (ε : Type) (Resp : Req → Type) (α : Type) : Type := Prog Resp (α × List ε)

namespace Logged

instance : Monad (Logged ε Resp) where
  pure a := Prog.done (a, [])
  bind p f := Prog.bind p fun x => Prog.bind (f x.1) fun y => Prog.done (y.1, x.2 ++ y.2)

def log (line : ε) : Logged ε Resp Unit := Prog.done ((), [line])

def emit (lines : List ε) : Logged ε Resp Unit := Prog.done ((), lines)

def request (r : Req) : Logged ε Resp (Resp r) := Prog.call r fun x => Prog.done (x, [])

/-- A client that emits nothing. -/
def silent (p : Prog Resp α) : Logged ε Resp α := Prog.bind p fun a => Prog.done (a, [])

/-- The client without its lines. -/
def erase (p : Logged ε Resp α) : Prog Resp α := Prog.bind p fun x => Prog.done x.1

@[simp] theorem erase_pure (a : α) : (pure a : Logged ε Resp α).erase = .done a := rfl

@[simp] theorem erase_emit (lines : List ε) :
    (emit lines : Logged ε Resp Unit).erase = .done () := rfl

@[simp] theorem erase_silent (p : Prog Resp α) : (silent p : Logged ε Resp α).erase = p :=
  (Prog.bind_assoc' p _ _).trans (Prog.bind_done p)

/-- **Erasure keeps sequences.** -/
theorem erase_bind (p : Logged ε Resp α) (f : α → Logged ε Resp β) :
    (p >>= f).erase = p.erase >>= fun a => (f a).erase := by
  have hFirst := Prog.bind_assoc' (p : Prog Resp (α × List ε)) (fun x => Prog.done x.1)
    fun a => (f a).erase
  refine Eq.trans ?_ hFirst.symm
  refine (Prog.bind_assoc' (p : Prog Resp (α × List ε)) _ _).trans ?_
  refine congrArg _ (funext fun x => ?_)
  exact Prog.bind_assoc' (f x.1 : Prog Resp (β × List ε)) _ _

@[simp] theorem erase_request_bind (r : Req) (f : Resp r → Logged ε Resp α) :
    (request r >>= f).erase = .call r fun x => (f x).erase := erase_bind ..

@[simp] theorem erase_log_bind (line : ε) (f : Unit → Logged ε Resp α) :
    (log line >>= f).erase = (f ()).erase := erase_bind ..

variable (sv : Server Resp σ φ)

/-- The lines of a complete run. -/
def lines (p : Logged ε Resp α) (env : Env Req φ) (s : σ) : List ε :=
  (Prog.run sv (p : Prog Resp (α × List ε)) env s).1.2

/-- A logging program runs as the program does, with its lines beside the
result. -/
theorem run_erase (p : Logged ε Resp α) (env : Env Req φ) (s : σ) :
    p.erase.run sv env s = ((Prog.run sv (p : Prog Resp (α × List ε)) env s).1.1,
      (Prog.run sv (p : Prog Resp (α × List ε)) env s).2) :=
  Prog.run_bind ..

theorem left_erase (p : Logged ε Resp α) (env : Env Req φ) (s : σ) :
    p.erase.left sv env s = Prog.left sv (p : Prog Resp (α × List ε)) env s :=
  Prog.left_bind ..

@[simp] theorem lines_pure (a : α) (env : Env Req φ) (s : σ) :
    (pure a : Logged ε Resp α).lines sv env s = [] := rfl

@[simp] theorem lines_emit (es : List ε) (env : Env Req φ) (s : σ) :
    (emit es : Logged ε Resp Unit).lines sv env s = es := rfl

@[simp] theorem lines_silent (p : Prog Resp α) (env : Env Req φ) (s : σ) :
    (silent p : Logged ε Resp α).lines sv env s = [] := by
  have hRun := Prog.run_bind sv p (fun a => Prog.done (a, ([] : List ε))) env s
  exact congrArg (fun x : (α × List ε) × σ => x.1.2) hRun

/-- **The lines of a sequence.** -/
theorem lines_bind (p : Logged ε Resp α) (f : α → Logged ε Resp β) (env : Env Req φ) (s : σ) :
    (p >>= f).lines sv env s = p.lines sv env s ++
      (f (p.erase.run sv env s).1).lines sv (p.erase.left sv env s) (p.erase.run sv env s).2 := by
  rw [run_erase, left_erase]
  have hFirst := Prog.run_bind sv (p : Prog Resp (α × List ε))
    (fun x => Prog.bind (f x.1) fun y => Prog.done (y.1, x.2 ++ y.2)) env s
  have hSecond (x : α × List ε) (env' : Env Req φ) (s' : σ) :=
    Prog.run_bind sv (f x.1 : Prog Resp (β × List ε)) (fun y => Prog.done (y.1, x.2 ++ y.2)) env' s'
  exact congrArg (fun x : (β × List ε) × σ => x.1.2) (hFirst.trans (hSecond _ _ _))

@[simp] theorem lines_request_bind (r : Req) (f : Resp r → Logged ε Resp α) (env : Env Req φ)
    (s : σ) : (request r >>= f).lines sv env s =
      (f (sv (env 0 r) r s).1).lines sv env.tail (sv (env 0 r) r s).2 := lines_bind ..

@[simp] theorem lines_log_bind (line : ε) (f : Unit → Logged ε Resp α) (env : Env Req φ) (s : σ) :
    (log line >>= f).lines sv env s = line :: (f ()).lines sv env s := lines_bind ..

end Logged

end Sigchat.Lib

import Sigchat.Model.SigChat
import Sigchat.Model.WsServer

/-!
# Closing returns

`close` flushes until a flush fails. A peer that has not closed its side gives
no reason to: every flush is `Ok`, nothing is read that would change it, and the
thread spins. It is the thread that would reconnect, destroy its server or show
that linking failed.

## Results

* `close_terminates_iff`    — `close` returns if and only if some flush fails.
* `mem_loop_iff`            — the session loop ends as its finite parts do.
* `ok_mem_attempts_iff`     — reconnecting, over every list of attempts.
* `destroyed_mem_finish_iff` — the end of the provisioning worker.
* `link_terminates_iff`     — the failures of `Manager::link`.
* `close_returns_iff`       — all of them.
-/

namespace Sigchat.Results

open Sigchat.Lib
open Sigchat.Pddb
open Sigchat.Signal
open Sigchat.SignalWs
open Sigchat.MainWs
open Sigchat.WsServer (IpcBuffer Iteration Worker Stage WsServerOp finish)
open Computation

-- ---------------------------------------------------------------------------
-- The loop of `close`
-- ---------------------------------------------------------------------------

/-- Some flush fails. -/
def Breaks (flush : Flushes) : Prop := ∃ i e, flush i = .error e

/-- A flush ends the loop exactly if it fails. -/
theorem exists_closeEnd_iff {r : Except FlushError Unit} :
    (∃ a, closeEnd r = some a) ↔ ∃ e, r = .error e := by
  rcases r with e | u
  · cases e <;> exact ⟨fun _ => ⟨_, rfl⟩, fun _ => ⟨_, rfl⟩⟩
  · constructor <;> rintro ⟨_, h⟩ <;> cases h

theorem close_terminates_iff {flush : Flushes} : (close flush).Terminates ↔ Breaks flush := by
  rw [close, terminates_scan_iff]
  exact exists_congr fun i => exists_closeEnd_iff

/-- What follows a call of `close`. -/
theorem mem_close_then_iff {α : Type} {flush : Flushes} {a b : α} :
    b ∈ (close flush >>= fun _ => return a) ↔ Breaks flush ∧ b = a := by
  rw [mem_then_iff, close_terminates_iff]

/-- The peer does not answer: no flush fails. -/
theorem close_spins : ¬ (close fun _ => .ok ()).Terminates := by
  rw [close_terminates_iff]
  rintro ⟨i, e, h⟩
  cases h

-- ---------------------------------------------------------------------------
-- Sessions
-- ---------------------------------------------------------------------------

section Sessions

variable {L : Libsignal} {P : Protocol L} {localAddr : ProtocolAddress}

/-- The rounds from the `i`-th on. -/
abbrev roundsFrom (rounds : Nat → RoundEnv P) (i n : Nat) : List (RoundEnv P) :=
  (List.range' i n).map rounds

/-- What a number of rounds comes to the loop returns. -/
theorem mem_corec_of_sessionLoop {rounds : Nat → RoundEnv P} {n i : Nat} {v : SessionVars}
    {s s' : Sess} {e : Exit}
    (h : sessionLoop P localAddr (roundsFrom rounds i n) v s = (.exit e, s')) :
    (.ok e, s') ∈ corec (roundStep localAddr rounds) (i, v, s) := by
  induction n generalizing i v s with
  | zero => cases h
  | succ n ih =>
    rw [roundsFrom, List.range'_succ, List.map_cons, sessionLoop] at h
    rcases hRound : (round P localAddr (rounds i).rng v).run sessServe (rounds i).env s with
      ⟨v' | e' | p, s₁⟩
    · rw [hRound] at h
      exact (mem_corec_of_inr (by rw [roundStep, hRound])).mpr (ih h)
    · rw [hRound] at h
      obtain ⟨hExit, rfl⟩ := Prod.mk.inj h
      obtain rfl := Flow.exit.inj hExit
      exact (mem_corec_of_inl (by rw [roundStep, hRound])).mpr rfl
    · rw [hRound] at h
      cases h

/-- What the loop returns it comes to after some number of rounds. -/
theorem exists_sessionLoop_of_mem {rounds : Nat → RoundEnv P} {e : Exit} {s' : Sess}
    {st : Nat × SessionVars × Sess} (h : (.ok e, s') ∈ corec (roundStep localAddr rounds) st) :
    ∃ n, sessionLoop P localAddr (roundsFrom rounds st.1 n) st.2.1 st.2.2 = (.exit e, s') := by
  refine corec_induction (motive := fun st =>
    ∃ n, sessionLoop P localAddr (roundsFrom rounds st.1 n) st.2.1 st.2.2 = (.exit e, s')) ?_ ?_ h
  -- the last round
  · rintro ⟨i, v, s⟩ hEnd
    refine ⟨1, ?_⟩
    rw [roundsFrom, List.range'_succ, List.map_cons, sessionLoop]
    rw [roundStep] at hEnd
    split at hEnd
    case h_1 => cases hEnd
    case h_2 hRound =>
      obtain ⟨hExit, rfl⟩ := Prod.mk.inj (Sum.inl.inj hEnd)
      obtain rfl := Except.ok.inj hExit
      rw [hRound]
    case h_3 => cases hEnd
  -- one more round before the others
  · rintro ⟨i, v, s⟩ st' hStep ⟨n, hn⟩
    refine ⟨n + 1, ?_⟩
    rw [roundsFrom, List.range'_succ, List.map_cons, sessionLoop]
    rw [roundStep] at hStep
    split at hStep
    case h_1 hRound =>
      obtain rfl := Sum.inr.inj hStep
      rw [hRound]
      exact hn
    case h_2 => cases hStep
    case h_3 => cases hStep

/-- The loop is left as one of its finite parts is. -/
theorem mem_loop_iff {c : Connection P} {app : App} {e : Exit} {s : Sess} :
    (.ok e, s) ∈ c.loop localAddr app ↔
      ∃ n, runSession P localAddr c.pingClock c.keepaliveClock (roundsFrom c.rounds 0 n)
        ⟨app, [], false⟩ = (.exit e, s) := by
  constructor
  · intro h
    exact exists_sessionLoop_of_mem h
  · rintro ⟨n, h⟩
    exact mem_corec_of_sessionLoop h

/-- `run_session` gets to its call of `close`: without a ticktimer at once, else
where the loop is left. -/
def Leaves (localAddr : ProtocolAddress) (c : Connection P) (app app' : App) : Prop :=
  if c.ticktimer then ∃ n e s,
    runSession P localAddr c.pingClock c.keepaliveClock (roundsFrom c.rounds 0 n)
      ⟨app, [], false⟩ = (.exit e, s) ∧ s.app = app'
  else app' = app

/-- `run_session` returns if it gets to `close` and a flush fails. -/
theorem ok_mem_runSession_iff {c : Connection P} {app app' : App} :
    .ok app' ∈ c.runSession localAddr app ↔ Leaves localAddr c app app' ∧ Breaks c.flush := by
  unfold Connection.runSession Leaves
  split
  · rw [mem_bind_iff]
    constructor
    · rintro ⟨⟨p | e, s⟩, hLoop, hEnd⟩
      · rw [mem_return_iff] at hEnd
        cases hEnd
      · obtain ⟨hBreaks, hApp⟩ := mem_close_then_iff.mp hEnd
        obtain ⟨n, hn⟩ := mem_loop_iff.mp hLoop
        exact ⟨⟨n, e, s, hn, (Except.ok.inj hApp).symm⟩, hBreaks⟩
    · rintro ⟨⟨n, e, s, hn, rfl⟩, hBreaks⟩
      exact ⟨(.ok e, s), mem_loop_iff.mpr ⟨n, hn⟩, mem_close_then_iff.mpr ⟨hBreaks, rfl⟩⟩
  · rw [mem_close_then_iff, and_comm, Except.ok.injEq]

/-- An attempt is followed by the next: it fails to connect, or its session
returns. -/
theorem ok_mem_attempt_iff {a : Attempt P} {r : Reconnect} :
    (∃ r', .ok r' ∈ r.attempt localAddr a) ↔
      ∀ c ∈ a.connection, (∃ app', Leaves localAddr c r.app app') ∧ Breaks c.flush := by
  unfold Reconnect.attempt
  rcases a.connection with _ | c
  · exact ⟨fun _ c hc => (Option.not_mem_none c hc).elim, fun _ => ⟨_, mem_return_iff.mpr rfl⟩⟩
  · simp only [Option.mem_some_iff, forall_eq', mem_bind_iff, mem_return_iff]
    constructor
    · rintro ⟨r', result, hResult, hEq⟩
      rcases result with p | app'
      · cases hEq
      · obtain ⟨hLeaves, hBreaks⟩ := ok_mem_runSession_iff.mp hResult
        exact ⟨⟨app', hLeaves⟩, hBreaks⟩
    · rintro ⟨⟨app', hLeaves⟩, hBreaks⟩
      exact ⟨_, .ok app', ok_mem_runSession_iff.mpr ⟨hLeaves, hBreaks⟩, rfl⟩

/-- The attempts go on from where the first one has ended. -/
theorem ok_mem_attempts_cons {a : Attempt P} {as : List (Attempt P)} {r r'' : Reconnect} :
    .ok r'' ∈ Reconnect.attempts localAddr (a :: as) r ↔
      ∃ r', .ok r' ∈ r.attempt localAddr a ∧ .ok r'' ∈ Reconnect.attempts localAddr as r' := by
  rw [Reconnect.attempts, mem_bind_iff]
  constructor
  · rintro ⟨p | r', hAttempt, hRest⟩
    · rw [mem_return_iff] at hRest
      cases hRest
    · exact ⟨r', hAttempt, hRest⟩
  · rintro ⟨r', hAttempt, hRest⟩
    exact ⟨.ok r', hAttempt, hRest⟩

/-- Every attempt that is made is followed by the next. -/
def EachFollowed (localAddr : ProtocolAddress) (as : List (Attempt P)) (r : Reconnect) : Prop :=
  ∀ before a after r', as = before ++ a :: after →
    .ok r' ∈ Reconnect.attempts localAddr before r →
      ∀ c ∈ a.connection, (∃ app', Leaves localAddr c r'.app app') ∧ Breaks c.flush

/-- **Reconnecting.** All the attempts are made if and only if each session that
is begun is left, and its `close` ends. -/
theorem ok_mem_attempts_iff {as : List (Attempt P)} {r : Reconnect} :
    (∃ r', .ok r' ∈ Reconnect.attempts localAddr as r) ↔ EachFollowed localAddr as r := by
  induction as generalizing r with
  | nil =>
    refine ⟨fun _ before a after _ h => ?_, fun _ => ⟨r, mem_return_iff.mpr rfl⟩⟩
    exact absurd h.symm (List.append_ne_nil_of_right_ne_nil before (List.cons_ne_nil a after))
  | cons a as ih =>
    simp only [ok_mem_attempts_cons]
    constructor
    -- the attempt in question is the first one, or one of the others
    · rintro ⟨r'', r₁, hFirst, hRest⟩ before a' after r' hSplit hBefore
      rcases before with _ | ⟨b, before⟩
      · obtain ⟨rfl, rfl⟩ := List.cons.inj hSplit
        obtain rfl := Except.ok.inj (mem_return_iff.mp hBefore)
        exact ok_mem_attempt_iff.mp ⟨r₁, hFirst⟩
      · obtain ⟨rfl, hTail⟩ := List.cons.inj hSplit
        obtain ⟨r₂, hFirst', hBefore'⟩ := ok_mem_attempts_cons.mp hBefore
        obtain rfl := Except.ok.inj (mem_unique hFirst hFirst')
        exact ih.mp ⟨r'', hRest⟩ before a' after r' hTail hBefore'
    · intro h
      obtain ⟨r₁, hFirst⟩ := ok_mem_attempt_iff.mpr (h [] a as r rfl (mem_return_iff.mpr rfl))
      have hRest : EachFollowed localAddr as r₁ := fun before a' after r' hSplit hBefore =>
        h (a :: before) a' after r' (congrArg (a :: ·) hSplit)
          (ok_mem_attempts_cons.mpr ⟨r₁, hFirst, hBefore⟩)
      obtain ⟨r'', hr''⟩ := ih.mpr hRest
      exact ⟨r'', r₁, hFirst, hr''⟩

end Sessions

-- ---------------------------------------------------------------------------
-- The provisioning worker
-- ---------------------------------------------------------------------------

section Provisioning

variable {B : IpcBuffer}

/-- The iteration receives Cancel. -/
def Cancels (e : Iteration B) : Prop :=
  ∃ msg, e.received = .ok (some msg) ∧ msg.op = some .cancel

/-- A cancelled worker gets out of its loop. -/
theorem exited_of_cancel {es : List (Iteration B)} {e : Iteration B} (hMem : e ∈ es)
    (hCancel : Cancels e) (w : Worker B) : ∃ w', Worker.loop es w = .exited w' := by
  induction es generalizing w with
  | nil => cases hMem
  | cons e' es ih =>
    rw [Worker.loop]
    rcases List.mem_cons.mp hMem with rfl | hLater
    · obtain ⟨msg, hReceived, hOp⟩ := hCancel
      simp only [Worker.iteration, Worker.serviceIpc, hReceived, hOp]
      exact ⟨_, rfl⟩
    · split
      · exact ih hLater _
      · exact ⟨_, rfl⟩

/-- The server is destroyed after a loop that has ended, if the close comes
back. -/
theorem destroyed_mem_finish_iff {flush : Flushes} {es : List (Iteration B)} {w w' : Worker B} :
    .destroyed w' ∈ finish flush (Worker.loop es w) ↔
      (∃ w₁, Worker.loop es w = .exited w₁ ∧ w' = w₁.leave) ∧ Breaks flush := by
  rcases Worker.loop es w with w₁ | w₁
  · rw [finish, mem_return_iff]
    constructor
    · intro h
      cases h
    · rintro ⟨⟨w₁, h, -⟩, -⟩
      cases h
  · rw [finish, mem_close_then_iff, Stage.destroyed.injEq, and_comm]
    simp only [WsServer.Flow.exited.injEq, exists_eq_left']

end Provisioning

-- ---------------------------------------------------------------------------
-- Linking
-- ---------------------------------------------------------------------------

/-- The websocket is connected, but nothing can be shown to the user. -/
def Abandons (o : App.Opening) : Prop := (∃ u, o.connect = .ok u) ∧ o.deviceLinkUri = none

/-- **The first part of `link`** closes the websocket only where the frame has
no URI. -/
theorem link_terminates_iff {o : App.Opening} :
    o.link.Terminates ↔ (Abandons o → Breaks o.flush) := by
  unfold App.Opening.link Abandons
  rcases o.connect with e | u
  · refine ⟨fun _ h => ?_, fun _ => terminates_of_mem (mem_return_iff.mpr rfl)⟩
    obtain ⟨⟨u, hConnect⟩, -⟩ := h
    cases hConnect
  · rcases o.deviceLinkUri with _ | uri
    -- no URI: the result comes after the close
    · rw [terminates_iff]
      constructor
      · rintro ⟨r, hr⟩ -
        exact (mem_close_then_iff.mp hr).1
      · intro h
        exact ⟨_, mem_close_then_iff.mpr ⟨h ⟨⟨u, rfl⟩, rfl⟩, rfl⟩⟩
    · refine ⟨fun _ h => ?_, fun _ => terminates_of_mem (mem_return_iff.mpr rfl)⟩
      cases h.2

-- ---------------------------------------------------------------------------
-- All callers
-- ---------------------------------------------------------------------------

/-- **`close` returns if and only if some flush fails**, and with it every
caller: `run_session` returns to the reconnect loop, the provisioning worker
reaches `destroy_server` after Cancel, and `Manager::link` returns from its
failures. -/
theorem close_returns_iff {L : Libsignal} {P : Protocol L} {B : IpcBuffer}
    (localAddr : ProtocolAddress) :
    (∀ flush, (close flush).Terminates ↔ Breaks flush) ∧
    (∀ (c : Connection P) (app app' : MainWs.App),
      .ok app' ∈ c.runSession localAddr app ↔ Leaves localAddr c app app' ∧ Breaks c.flush) ∧
    (∀ (as : List (Attempt P)) (r : Reconnect),
      (∃ r', .ok r' ∈ Reconnect.attempts localAddr as r) ↔ EachFollowed localAddr as r) ∧
    (∀ (flush : Flushes) (es : List (Iteration B)) (w : Worker B), (∃ e ∈ es, Cancels e) →
      ((∃ w', .destroyed w' ∈ finish flush (Worker.loop es w)) ↔ Breaks flush)) ∧
    (∀ o : App.Opening, o.link.Terminates ↔ (Abandons o → Breaks o.flush)) := by
  refine ⟨fun flush => close_terminates_iff, fun c app app' => ok_mem_runSession_iff,
    fun as r => ok_mem_attempts_iff, fun flush es w hCancel => ?_, fun o => link_terminates_iff⟩
  obtain ⟨e, hMem, hCancels⟩ := hCancel
  obtain ⟨w', hExited⟩ := exited_of_cancel hMem hCancels w
  simp only [destroyed_mem_finish_iff]
  exact ⟨fun ⟨_, _, hBreaks⟩ => hBreaks, fun hBreaks => ⟨_, ⟨w', hExited, rfl⟩, hBreaks⟩⟩

end Sigchat.Results

import Sigchat.Model.SigChat

/-!
# Starting the receive worker

The main loop has one flag, `first_focus`. It is cleared before the automatic
`connect` at startup, whatever that ends with, and after a `connect` on Focus
that has succeeded, whatever becomes of `start_receive`. So at most one worker
is started; but starting is tried again only as long as the flag is set.

* `workers_le_one`     — at most one worker, in every run;
* `started_iff`        — when a run keeps trying until there is a worker;
* `offline_until_boot` — a startup without WiFi, after which no Focus connects.
-/

namespace Sigchat.Results.ReceiveStart

open Sigchat.Lib
open Sigchat.Pddb
open Sigchat.App

-- ---------------------------------------------------------------------------
-- The law
-- ---------------------------------------------------------------------------

/-- Focus calls `connect`. -/
def Connects (s : Main) : Prop := ∀ v, (s.onFocus v).1.connects = s.connects + 1

/-- Focus does not. -/
def Idle (s : Main) : Prop := ∀ v, s.onFocus v = (s, true)

/-- The worker is started once, and until then Focus calls `connect`. -/
structure StartLaw (s : Main) : Prop where
  atMostOne : s.workers ≤ 1
  tried : s.workers = 0 → Connects s
  settled : 0 < s.workers → Idle s

/-- Starting a worker leaves the flag and the count of connects. -/
theorem connected_fst (v : Visit) (s : Main) :
    (s.connected v).1.firstFocus = s.firstFocus ∧ (s.connected v).1.connects = s.connects := by
  unfold Main.connected
  split
  · split <;> exact ⟨rfl, rfl⟩
  · exact ⟨rfl, rfl⟩

/-- The next focus connects exactly if the flag is set. -/
theorem connects_iff (s : Main) : Connects s ↔ s.firstFocus = true := by
  constructor
  · intro h
    by_contra hFlag
    have hCount := h ⟨.ok false, true, .ok false⟩
    rw [Main.onFocus, if_neg hFlag] at hCount
    exact absurd hCount (Nat.ne_of_lt (Nat.lt_succ_self _))
  · intro hFlag v
    rw [Main.onFocus, if_pos hFlag]
    rcases v.connect with e | _ | _
    · rfl
    · rfl
    · exact (connected_fst v _).2

theorem idle_iff (s : Main) : Idle s ↔ s.firstFocus = false := by
  constructor
  · intro h
    by_contra hFlag
    have hCount := (connects_iff s).mpr (Bool.eq_true_of_not_eq_false hFlag)
      ⟨.ok false, true, .ok false⟩
    rw [h ⟨.ok false, true, .ok false⟩] at hCount
    exact absurd hCount (Nat.ne_of_lt (Nat.lt_succ_self _))
  · intro hFlag v
    rw [Main.onFocus, hFlag]
    rfl

-- ---------------------------------------------------------------------------
-- The flag and the worker
-- ---------------------------------------------------------------------------

/-- A worker is there only if the flag has been cleared. -/
structure Counted (s : Main) : Prop where
  le_one : s.workers ≤ 1
  none_yet : s.firstFocus = true → s.workers = 0

/-- With the counts in order, what is left of the law is that a cleared flag
means a worker. -/
theorem startLaw_iff {s : Main} (h : Counted s) :
    StartLaw s ↔ (s.firstFocus = false → s.workers = 1) := by
  constructor
  · intro hLaw hFlag
    have hSome : s.workers ≠ 0 := fun hNone => by
      rw [(connects_iff s).mp (hLaw.tried hNone)] at hFlag
      exact absurd hFlag nofun
    have hOne := h.le_one
    omega
  · intro hStarted
    refine ⟨h.le_one, fun hNone => (connects_iff s).mpr ?_, fun hSome => (idle_iff s).mpr ?_⟩
    · by_contra hFlag
      have hOne := hStarted (Bool.eq_false_of_not_eq_true hFlag)
      omega
    · by_contra hFlag
      have hZero := h.none_yet (Bool.eq_true_of_not_eq_false hFlag)
      omega

/-- The message is a Focus event. -/
def IsFocus (m : Received) : Prop := SigchatOp.fromUsize m.id = some .event ∧ m.focus = true

/-- What a message can do to the state. -/
inductive Moved (m : Received) (s : Main) : Main → Prop
  | same (hOther : ¬(IsFocus m ∧ s.firstFocus = true)) : Moved m s s
  | failed (hFlag : s.firstFocus = true) (hConnect : m.visit.connect ≠ .ok true) :
      Moved m s { s with connects := s.connects + 1 }
  | started (hFlag : s.firstFocus = true) (hStart : m.visit.startReceive = .ok true) :
      Moved m s ⟨false, s.connects + 1, s.workers + 1⟩
  | lost (hFocus : IsFocus m) (hFlag : s.firstFocus = true) (hConnect : m.visit.connect = .ok true)
      (hDialogue : m.visit.dialogueSet = true) (hStart : m.visit.startReceive ≠ .ok true) :
      Moved m s ⟨false, s.connects + 1, s.workers⟩

theorem handle_focus {m : Received} (hFocus : IsFocus m) (s : Main) :
    s.handle m = s.onFocus m.visit := by
  rw [Main.handle, hFocus.1]
  exact if_pos hFocus.2

/-- Other messages leave the state. -/
theorem handle_other {m : Received} (h : ¬IsFocus m) (s : Main) : (s.handle m).1 = s := by
  unfold Main.handle
  rcases hOp : SigchatOp.fromUsize m.id with _ | op
  · rfl
  cases op with
  | event => exact congrArg Prod.fst (if_neg fun hFocus => h ⟨hOp, hFocus⟩)
  | _ => rfl

/-- A message is one of four kinds of steps. -/
theorem next_moved {m : Received} {s s' : Main} (h : s.next m = some s') : Moved m s s' := by
  unfold Main.next at h
  split at h
  case isFalse => exact absurd h nofun
  case isTrue hOn =>
  obtain rfl := Option.some.inj h
  -- Only a focus event with the flag set connects.
  by_cases hFocus : IsFocus m
  · by_cases hFlag : s.firstFocus = true
    · rw [handle_focus hFocus, Main.onFocus, if_pos hFlag] at hOn ⊢
      rcases hConnect : m.visit.connect with e | _ | _
      · exact .failed hFlag (by rw [hConnect]; exact nofun)
      · exact .failed hFlag (by rw [hConnect]; exact nofun)
      · rw [hConnect] at hOn
        dsimp only [Main.connected] at hOn ⊢
        by_cases hDialogue : m.visit.dialogueSet = true
        · rw [if_pos hDialogue]
          rcases hStart : m.visit.startReceive with e | _ | _
          · exact .lost hFocus hFlag hConnect hDialogue (by rw [hStart]; exact nofun)
          · exact .lost hFocus hFlag hConnect hDialogue (by rw [hStart]; exact nofun)
          · exact .started hFlag hStart
        · rw [if_neg hDialogue] at hOn
          exact absurd hOn nofun
    · rw [handle_focus hFocus, Main.onFocus, if_neg hFlag]
      exact .same fun hBoth => hFlag hBoth.2
  · rw [handle_other hFocus]
    exact .same fun hBoth => hFocus hBoth.1

/-- **One message** keeps the count. -/
theorem counted_next {m : Received} {s s' : Main} (hCounted : Counted s)
    (h : s.next m = some s') : Counted s' := by
  rcases next_moved h with _ | hFlag | hFlag | ⟨-, hFlag⟩
  · exact hCounted
  · exact ⟨hCounted.le_one, hCounted.none_yet⟩
  · have hOne : s.workers + 1 ≤ 1 := by rw [hCounted.none_yet hFlag]
    exact ⟨hOne, nofun⟩
  · exact ⟨hCounted.le_one, nofun⟩

/-- A Focus that connects starts the worker. -/
def Starts (m : Received) (s : Main) : Prop :=
  IsFocus m → s.firstFocus = true → m.visit.connect = .ok true → m.visit.dialogueSet = true →
    m.visit.startReceive = .ok true

/-- **When a message keeps the law.** -/
theorem next_law_iff {m : Received} {s s' : Main} (hCounted : Counted s)
    (hStarted : s.firstFocus = false → s.workers = 1) (h : s.next m = some s') :
    Starts m s ↔ (s'.firstFocus = false → s'.workers = 1) := by
  rcases next_moved h with hOther | ⟨hFlag, hConnect⟩ | ⟨hFlag, hStart⟩ |
    ⟨hFocus, hFlag, hConnect, hDialogue, hStart⟩
  · exact ⟨fun _ => hStarted, fun _ hFocus hFlag => absurd ⟨hFocus, hFlag⟩ hOther⟩
  · exact ⟨fun _ => hStarted, fun _ _ _ hOk => absurd hOk hConnect⟩
  · have hOne : s.workers + 1 = 1 := by rw [hCounted.none_yet hFlag]
    exact ⟨fun _ _ => hOne, fun _ _ _ _ _ => hStart⟩
  · have hNone := hCounted.none_yet hFlag
    constructor
    · intro hStarts
      exact absurd (hStarts hFocus hFlag hConnect hDialogue) hStart
    · intro hLaw
      exact absurd (hNone.symm.trans (hLaw rfl)) nofun

/-- A message on which the process ends has not connected and gone on. -/
theorem starts_of_ended {m : Received} {s : Main} (h : s.next m = none) : Starts m s := by
  intro hFocus hFlag hConnect hDialogue
  have hOn : (s.handle m).2 = true := by
    rw [handle_focus hFocus, Main.onFocus, if_pos hFlag, hConnect]
    dsimp only [Main.connected]
    rw [if_pos hDialogue]
    split <;> rfl
  rw [Main.next, if_pos hOn] at h
  exact absurd h nofun

-- ---------------------------------------------------------------------------
-- Whole runs
-- ---------------------------------------------------------------------------

/-- The counts are in order after the start. -/
theorem counted_autoConnect (isReady : Bool) (v : Visit) :
    Counted (Main.autoConnect isReady v).1 := by
  cases isReady with
  | false => exact ⟨Nat.zero_le _, fun _ => rfl⟩
  | true =>
    unfold Main.autoConnect Main.connected
    rcases v.connect with e | _ | _
    · exact ⟨Nat.zero_le _, nofun⟩
    · exact ⟨Nat.zero_le _, nofun⟩
    · rcases v.dialogueSet with _ | _
      · exact ⟨Nat.zero_le _, nofun⟩
      · rcases v.startReceive with e | _ | _
        · exact ⟨Nat.zero_le _, nofun⟩
        · exact ⟨Nat.zero_le _, nofun⟩
        · exact ⟨Nat.le_refl _, nofun⟩

/-- A registered account is connected at startup, and its worker started. -/
def BootStarts (isReady : Bool) (v : Visit) : Prop :=
  isReady = true → v.connect = .ok true ∧ (v.dialogueSet = true → v.startReceive = .ok true)

/-- The law holds after the start exactly if a connect that was made has started
a worker. -/
theorem autoConnect_law_iff {isReady : Bool} {v : Visit}
    (hOn : (Main.autoConnect isReady v).2 = true) :
    BootStarts isReady v ↔ ((Main.autoConnect isReady v).1.firstFocus = false →
      (Main.autoConnect isReady v).1.workers = 1) := by
  cases isReady with
  | false => exact ⟨fun _ => nofun, fun _ => nofun⟩
  | true =>
    -- By the outcomes of the connect, of the dialogue and of the worker.
    unfold BootStarts Main.autoConnect Main.connected at *
    rcases hConnect : v.connect with e | _ | _
    · exact ⟨fun h => absurd (h rfl).1 nofun, fun h => absurd (h rfl) nofun⟩
    · exact ⟨fun h => absurd (h rfl).1 nofun, fun h => absurd (h rfl) nofun⟩
    · rcases hDialogue : v.dialogueSet with _ | _
      · rw [hConnect, hDialogue] at hOn
        exact absurd hOn nofun
      · rcases hStart : v.startReceive with e | _ | _
        · exact ⟨fun h => absurd ((h rfl).2 rfl) nofun, fun h => absurd (h rfl) nofun⟩
        · exact ⟨fun h => absurd ((h rfl).2 rfl) nofun, fun h => absurd (h rfl) nofun⟩
        · exact ⟨fun _ _ => rfl, fun _ _ => ⟨rfl, fun _ => rfl⟩⟩

/-- The process ends at startup only on a dialogue that panics. -/
theorem autoConnect_ended {isReady : Bool} {v : Visit}
    (hEnded : (Main.autoConnect isReady v).2 ≠ true) :
    BootStarts isReady v ∧ (Main.autoConnect isReady v).1.firstFocus = false := by
  cases isReady with
  | false => exact absurd rfl hEnded
  | true =>
    -- The only start that ends the loop is one whose dialogue cannot be set.
    unfold BootStarts Main.autoConnect Main.connected at *
    rcases hConnect : v.connect with e | _ | _
    · rw [hConnect] at hEnded
      exact absurd rfl hEnded
    · rw [hConnect] at hEnded
      exact absurd rfl hEnded
    · rcases hDialogue : v.dialogueSet with _ | _
      · exact ⟨fun _ => ⟨rfl, nofun⟩, rfl⟩
      · rw [hConnect, hDialogue] at hEnded
        rcases hStart : v.startReceive with e | _ | _ <;> rw [hStart] at hEnded <;>
          exact absurd rfl hEnded

/-- With the flag cleared there is nothing left to start. -/
theorem starts_of_settled {s : Main} (hFlag : s.firstFocus = false) (ms : List Received) :
    Throughout Main.next Starts ms s := by
  have hIdle {s : Main} (hFlag : s.firstFocus = false) : s.firstFocus ≠ true :=
    fun hSet => absurd (hFlag.symm.trans hSet) nofun
  refine throughout_of_invariant (I := fun s => s.firstFocus = false)
    (fun m s hFlag _ hSet => absurd hSet (hIdle hFlag)) (fun m s s' hFlag hNext => ?_) ms hFlag
  rcases next_moved hNext with _ | hSet | hSet | ⟨-, hSet⟩
  · exact hFlag
  · exact absurd hSet (hIdle hFlag)
  · exact absurd hSet (hIdle hFlag)
  · exact absurd hSet (hIdle hFlag)

theorem after_eq {isReady : Bool} {v : Visit} (hOn : (Main.autoConnect isReady v).2 = true)
    (ms : List Received) :
    Main.after isReady v ms = reach Main.next ms (Main.autoConnect isReady v).1 := if_pos hOn

/-- The counts are in order after any run. -/
theorem counted_after {isReady : Bool} {v : Visit} {ms : List Received} {s : Main}
    (h : Main.after isReady v ms = some s) : Counted s := by
  by_cases hOn : (Main.autoConnect isReady v).2 = true
  · rw [after_eq hOn] at h
    exact reach_invariant (fun m s s' hCounted => counted_next hCounted)
      (counted_autoConnect isReady v) h
  · rw [Main.after, if_neg hOn] at h
    exact absurd h nofun

/-- **At most one worker**, in every run. -/
theorem workers_le_one {isReady : Bool} {v : Visit} {ms : List Received} {s : Main}
    (h : Main.after isReady v ms = some s) : s.workers ≤ 1 :=
  (counted_after h).le_one

/-- **Starting is retried until it happens**, in every state of a run, exactly if
a registered account is connected at startup and its worker started, and every
Focus that connects starts the worker. -/
theorem started_iff (isReady : Bool) (v : Visit) (ms : List Received) :
    (∀ js, js <+: ms → ∀ s, Main.after isReady v js = some s → StartLaw s) ↔
      BootStarts isReady v ∧
        Throughout Main.next Starts ms (Main.autoConnect isReady v).1 := by
  by_cases hOn : (Main.autoConnect isReady v).2 = true
  case neg =>
    obtain ⟨hBoot, hFlag⟩ := autoConnect_ended hOn
    refine iff_of_true (fun js _ s hAfter => ?_) ⟨hBoot, starts_of_settled hFlag ms⟩
    rw [Main.after, if_neg hOn] at hAfter
    exact absurd hAfter nofun
  case pos =>
  -- Within a run the law is kept exactly by the steps that start a worker when they clear
  -- the flag.
  have hRuns (hBoot : BootStarts isReady v) :
      Throughout Main.next Starts ms (Main.autoConnect isReady v).1 ↔
        ∀ js, js <+: ms → ∀ s, reach Main.next js (Main.autoConnect isReady v).1 = some s →
          Counted s ∧ (s.firstFocus = false → s.workers = 1) :=
    throughout_iff
      (fun m s s' hInv hNext => (next_law_iff hInv.1 hInv.2 hNext).trans
        (and_iff_right (counted_next hInv.1 hNext)).symm)
      (fun m s _ hEnded => starts_of_ended hEnded)
      ⟨counted_autoConnect isReady v, (autoConnect_law_iff hOn).mp hBoot⟩
  constructor
  · intro hLaw
    have hBoot : BootStarts isReady v := by
      refine (autoConnect_law_iff hOn).mpr ((startLaw_iff (counted_autoConnect isReady v)).mp ?_)
      exact hLaw [] List.nil_prefix _ (after_eq hOn [])
    refine ⟨hBoot, (hRuns hBoot).mpr fun js hPrefix s hReach => ?_⟩
    have hAfter := (after_eq hOn js).trans hReach
    have hCounted := counted_after hAfter
    exact ⟨hCounted, (startLaw_iff hCounted).mp (hLaw js hPrefix s hAfter)⟩
  · rintro ⟨hBoot, hThroughout⟩ js hPrefix s hAfter
    obtain ⟨hCounted, hStarted⟩ := (hRuns hBoot).mp hThroughout js hPrefix s
      ((after_eq hOn js).symm.trans hAfter)
    exact (startLaw_iff hCounted).mpr hStarted

/-- There is no WiFi yet. -/
def noWifi : Visit := ⟨.ok false, true, .ok false⟩

/-- A registered account starts without WiFi: no worker, and no Focus connects. -/
theorem offline_until_boot :
    ¬∀ js, js <+: ([] : List Received) → ∀ s, Main.after true noWifi js = some s → StartLaw s := by
  intro h
  have hIdle : Idle ⟨false, 1, 0⟩ := (idle_iff _).mpr rfl
  have hConnects := (h [] List.prefix_rfl ⟨false, 1, 0⟩ rfl).tried rfl
  have hCount := hConnects noWifi
  rw [hIdle noWifi] at hCount
  exact absurd hCount (by decide)

end Sigchat.Results.ReceiveStart

import Sigchat.Model.SigChat
import Sigchat.Results.LinkRegistered

/-!
# The account of a loaded manager

`new` and `connect` check the account they read before they load a manager for
it. Two reads of the account dictionary go unchecked: the one that ends
`Account::new`, after which `account_register` installs a manager although it
reports a failure, and the one after a link that has succeeded, which `connect`
installs.

* `UncheckedRead`      — where an operation reads without a check;
* `step_installs`      — what an operation can do to the manager;
* `loaded_iff`         — a loaded manager is registered in every state of a run
  exactly if a registered account is there wherever one is read unchecked;
* `registers_unloaded` — registering breaks it, and the app goes online.
-/

namespace Sigchat.Results.LoadedManager

open Sigchat.Lib
open Sigchat.Pddb
open Sigchat.Signal
open Sigchat.Stores
open Sigchat.Accounts
open Sigchat.App

variable {U : UrlCrate} {L : Libsignal}

-- ---------------------------------------------------------------------------
-- What is said of a state
-- ---------------------------------------------------------------------------

/-- A loaded manager has a registered account, and `connect` has reported
success with a loaded manager only. -/
structure Loaded (s : State U) : Prop where
  registered : ∀ m, s.app.manager = some m → m.account.isRegistered = true
  connected : s.answer = some (.connected (.ok true)) → s.app.isReady = true

/-- The texts are those of a registered account. -/
def RegisteredTexts (text : Key → Option String) : Prop :=
  (text .registered).bind parseBool = some true ∨
    ((text .deviceId).bind parseDeviceId ≠ some 0 ∧ (text .aciServiceId).isSome = true ∧
      (text .password).isSome = true)

/-- An account is registered exactly if its texts are those of a registered one.
-/
theorem isRegistered_iff {a : Account U} {dict : String} {text : Key → Option String}
    (h : ofTexts dict text = .ok (.ok a)) : a.isRegistered = true ↔ RegisteredTexts text := by
  obtain ⟨-, hHolds⟩ := ofTexts_eq_iff.mp h
  have hFlag : (text .registered).bind parseBool = some a.registered := hHolds .registered
  have hDevice : (text .deviceId).bind parseDeviceId = some a.deviceId := hHolds .deviceId
  have hAci : text .aciServiceId = a.aciServiceId := hHolds .aciServiceId
  have hPassword : text .password = a.password := hHolds .password
  rw [RegisteredTexts, hFlag, hDevice, hAci, hPassword]
  simp [Account.isRegistered, and_assoc]

-- ---------------------------------------------------------------------------
-- Unchecked reads
-- ---------------------------------------------------------------------------

/-- `account_register` comes to read the account it has made. -/
structure RegisterReads (t : Turn U L) (config : Config U) (env : Env Req Outcome) (s : Disk)
    (env' : Env Req Outcome) (s' : Disk) : Prop where
  notification : t.notification = true
  number : t.numberModal.isSome = true
  stored : (setAll accountDict (defaults config.host config.serviceEnvironment)).Ends serve env s
    (.ok ()) env' s'

/-- `account_link` comes to read the account back. -/
structure LinkReads (t : Turn U L) (config : Config U) (env : Env Req Outcome) (s : Disk)
    (env' : Env Req Outcome) (s' : Disk) : Prop where
  linked : ∃ account env₁ s₁ manager manager',
    (Accounts.new accountDict config.host config.serviceEnvironment).Ends serve env s
      (.ok (.ok account)) env₁ s₁ ∧
    Manager.new account = .ok manager ∧
    (manager.link t (t.nameModal.getD "xous")).Ends serve env₁ s₁ (.ok (.ok true, manager')) env' s'

/-- `connect` comes to set up an account, and the user has chosen how. -/
structure SetsUp (i : Input U L) (s : State U) (choice : Nat) (config : Config U)
    (env' : Env Req Outcome) (s' : Disk) : Prop where
  op : i.op = .connect
  wifi : i.turn.wifi = true
  notReady : s.app.isReady = false
  read : ∃ r : Except IoError (Account U),
    (read accountDict).Ends serve i.env s.disk (.ok r) env' s' ∧ registeredOnly r = none
  listItems : i.turn.listItems = true
  radioButton : i.turn.radioButton = true
  radioIndex : i.turn.radioIndex = .ok choice
  config : signalConfig = .ok config
  accessible : i.turn.accessible = true

/-- Where an operation reads an account that it installs unchecked. -/
inductive UncheckedRead (i : Input U L) (s : State U) (env' : Env Req Outcome) (s' : Disk) : Prop
  | register (config : Config U) (hOp : i.op = .accountRegister config)
      (h : RegisterReads i.turn config i.env s.disk env' s')
  | connectRegister (config : Config U) (env₁ : Env Req Outcome) (s₁ : Disk)
      (hSetup : SetsUp i s 1 config env₁ s₁) (h : RegisterReads i.turn config env₁ s₁ env' s')
  | connectLink (config : Config U) (env₁ : Env Req Outcome) (s₁ : Disk)
      (hSetup : SetsUp i s 0 config env₁ s₁) (h : LinkReads i.turn config env₁ s₁ env' s')

/-- The texts of the account dictionary, as they are read. -/
def found (env : Env Req Outcome) (s : Disk) : Key → Option String :=
  ((getAll accountDict loadedKeys).run serve env s).1

/-- Wherever an account is read unchecked and can be installed, its texts are
those of a registered one. -/
def Safe (i : Input U L) (s : State U) : Prop :=
  ∀ env' s', UncheckedRead i s env' s' →
    ∀ (a : Account U) m, ofTexts accountDict (found env' s') = .ok (.ok a) →
      Manager.new a = .ok m → RegisteredTexts (found env' s')

-- ---------------------------------------------------------------------------
-- The calls of an operation
-- ---------------------------------------------------------------------------

section Calls

variable {env env' : Env Req Outcome} {s s' : Disk}

/-- A panic is no result. -/
theorem not_ends_panic {ε α : Type} {p : ε} {a : α} :
    ¬(Prog.done (.error p) : Prog Resp (Except ε α)).Ends serve env s (.ok a) env' s' :=
  fun h => absurd (Prog.ends_done.mp h).1 nofun

/-- A program that is done ends with the pair it returns. -/
theorem ends_pair {ε α β : Type} {x y : α} {c c' : β}
    (h : (Prog.done (.ok (x, c)) : Prog Resp (Except ε (α × β))).Ends serve env s (.ok (y, c'))
      env' s') : x = y ∧ c = c' := by
  obtain ⟨hEq, -, -⟩ := Prog.ends_done.mp h
  exact Prod.mk.inj (Except.ok.inj hEq)

/-- Work on the account ends first, and then what is done with its result. -/
theorem ends_onAccount {α β : Type} {p : Prog Resp (Except Accounts.Panic α)}
    {f : α → Prog Resp (Except App.Panic β)} {b : β} :
    (onAccount p f).Ends serve env s (.ok b) env' s' ↔
      ∃ a env₁ s₁, p.Ends serve env s (.ok a) env₁ s₁ ∧
        (f a).Ends serve env₁ s₁ (.ok b) env' s' := by
  rw [onAccount, Prog.ends_bind]
  constructor
  · rintro ⟨r, env₁, s₁, hFirst, hRest⟩
    rcases r with e | a
    · exact absurd hRest not_ends_panic
    · exact ⟨a, env₁, s₁, hFirst, hRest⟩
  · rintro ⟨a, env₁, s₁, hFirst, hRest⟩
    exact ⟨.ok a, env₁, s₁, hFirst, hRest⟩

/-- Renaming a result changes nothing of the run. -/
theorem ends_mapped {α β : Type} {p : Prog Resp (Except App.Panic α)} {f : α → β} {b : β} :
    (p >>= fun r => pure (r.map f)).Ends serve env s (.ok b) env' s' ↔
      ∃ a, p.Ends serve env s (.ok a) env' s' ∧ f a = b := by
  rw [Prog.ends_bind]
  constructor
  · rintro ⟨r, env₁, s₁, hFirst, hEnd⟩
    obtain ⟨hEq, rfl, rfl⟩ := Prog.ends_done.mp hEnd
    rcases r with e | a
    · exact absurd hEq nofun
    · exact ⟨a, hFirst, Except.ok.inj hEq⟩
  · rintro ⟨a, hFirst, rfl⟩
    exact ⟨.ok a, env', s', hFirst, Prog.ends_done.mpr ⟨rfl, rfl, rfl⟩⟩

/-- Reading the account is reading its texts and parsing them. -/
theorem ends_read {r : Except Accounts.Panic (Except IoError (Account U))} :
    (read accountDict).Ends serve env s r env' s' ↔
      r = ofTexts accountDict (found env s) ∧
        (getAll accountDict loadedKeys).Ends serve env s (found env s) env' s' := by
  rw [Accounts.read, Prog.ends_bind]
  constructor
  · rintro ⟨texts, env₁, s₁, hTexts, hRest⟩
    obtain ⟨rfl, rfl, rfl⟩ := Prog.ends_done.mp hRest
    have hFound : found env s = texts := congrArg Prod.fst hTexts.1
    rw [hFound]
    exact ⟨rfl, hTexts⟩
  · rintro ⟨rfl, hTexts⟩
    exact ⟨_, env', s', hTexts, Prog.ends_done.mpr ⟨rfl, rfl, rfl⟩⟩

/-- A new account is read once the defaults have been set. -/
theorem ends_new {host : U.Host} {se : ServiceEnvironment} {a : Account U} :
    (Accounts.new accountDict host se).Ends serve env s (.ok (.ok a)) env' s' ↔
      ∃ env₁ s₁, (setAll accountDict (defaults host se)).Ends serve env s (.ok ()) env₁ s₁ ∧
        (read accountDict).Ends serve env₁ s₁ (.ok (.ok a)) env' s' := by
  rw [Accounts.new, Prog.ends_bind]
  constructor
  · rintro ⟨r, env₁, s₁, hFirst, hRest⟩
    rcases r with e | u
    · obtain ⟨hError, -⟩ := Prog.ends_done.mp hRest
      cases hError
    · exact ⟨env₁, s₁, hFirst, hRest⟩
  · rintro ⟨env₁, s₁, hFirst, hRest⟩
    exact ⟨.ok (), env₁, s₁, hFirst, hRest⟩

/-- Setting the number ends well, whatever becomes of the value. -/
theorem exists_ends_setNumber (a : Account U) (value : String) (env : Env Req Outcome) (s : Disk) :
    ∃ env' s', (a.setNumber value).Ends serve env s
      (.ok (.ok (), { a with number := some value })) env' s' := by
  have hOk : ((Accounts.set a.pddbDict .number (some value)).run serve env s).1 = .ok () :=
    Prog.wp_run_any (Prog.wp_of_yields yields_set) env
  obtain ⟨env₁, s₁, hFirst⟩ : ∃ env₁ s₁,
      (Accounts.set a.pddbDict .number (some value)).Ends serve env s (.ok ()) env₁ s₁ :=
    ⟨_, _, hOk ▸ Prog.ends_run serve _ env s⟩
  have hSet : (a.set .number (some value)).Ends serve env s
      (.ok (.ok (), { a with number := some value })) env₁ s₁ := by
    rw [Account.set, Prog.ends_bind]
    exact ⟨.ok (), env₁, s₁, hFirst, Prog.ends_done.mpr ⟨rfl, rfl, rfl⟩⟩
  refine ⟨env₁, s₁, ?_⟩
  rw [Account.setNumber, Prog.ends_bind]
  exact ⟨_, env₁, s₁, hSet, Prog.ends_done.mpr ⟨rfl, rfl, rfl⟩⟩

/-- A new manager has the account it was given, and a configuration for it. -/
theorem manager_new_eq {a : Account U} {m : Manager U} (h : Manager.new a = .ok m) :
    ∃ config, Config.new a.host a.serviceEnvironment = .ok config ∧ m = ⟨a, config⟩ := by
  unfold Manager.new at h
  rcases hConfig : Config.new a.host a.serviceEnvironment with p | config
  · rw [hConfig] at h
    exact absurd h nofun
  · rw [hConfig] at h
    exact ⟨config, rfl, (Except.ok.inj h).symm⟩

/-- A new manager has the account it was given. -/
theorem account_of_new {a : Account U} {m : Manager U} (h : Manager.new a = .ok m) :
    m.account = a := by
  obtain ⟨config, -, rfl⟩ := manager_new_eq h
  rfl

/-- What is read back after a link is the account of `account_link`. -/
theorem ends_accountLink {t : Turn U L} {config : Config U} {b : Account U} :
    (SigChat.accountLink t config).Ends serve env s (.ok (.ok b)) env' s' ↔
      ∃ env₁ s₁, LinkReads t config env s env₁ s₁ ∧
        (read accountDict).Ends serve env₁ s₁ (.ok (.ok b)) env' s' := by
  rw [SigChat.accountLink, ends_onAccount]
  -- The steps of `account_link` in their order; everything but a link that succeeds ends in
  -- an error.
  constructor
  · rintro ⟨r, env₁, s₁, hNew, hRest⟩
    rcases r with e | account
    · rw [Prog.pure_eq, Prog.ends_done, Turn.notify] at hRest
      split at hRest <;> exact absurd hRest.1 nofun
    dsimp only at hRest
    rcases hManager : Manager.new account with p | manager
    · rw [hManager] at hRest
      exact absurd hRest not_ends_panic
    rw [hManager] at hRest
    obtain ⟨⟨r, manager'⟩, env₂, s₂, hLink, hRest⟩ := ends_onAccount.mp hRest
    rcases r with e | linked
    · obtain ⟨-, env₃, s₃, -, hRest⟩ := Prog.ends_bind.mp hRest
      rw [Prog.pure_eq, Prog.ends_done, Turn.notify] at hRest
      split at hRest <;> exact absurd hRest.1 nofun
    cases linked with
    | false =>
      exact absurd (Prog.ends_done.mp hRest).1 nofun
    | true =>
      obtain ⟨r, env₃, s₃, hRead, hRest⟩ := ends_onAccount.mp hRest
      obtain ⟨hEq, rfl, rfl⟩ := Prog.ends_done.mp hRest
      obtain rfl := Except.ok.inj hEq
      exact ⟨env₂, s₂, ⟨account, env₁, s₁, manager, manager', hNew, hManager, hLink⟩, hRead⟩
  · rintro ⟨env₂, s₂, ⟨account, env₁, s₁, manager, manager', hNew, hManager, hLink⟩, hRead⟩
    refine ⟨.ok account, env₁, s₁, hNew, ?_⟩
    dsimp only
    rw [hManager]
    refine ends_onAccount.mpr ⟨(.ok true, manager'), env₂, s₂, hLink, ?_⟩
    exact ends_onAccount.mpr ⟨.ok b, env', s', hRead, Prog.ends_done.mpr ⟨rfl, rfl, rfl⟩⟩

/-- The manager is for the account that is read there, up to its number. -/
def InstalledFrom (env : Env Req Outcome) (s : Disk) (m : Manager U) : Prop :=
  ∃ (a : Account U) (m₀ : Manager U), ofTexts accountDict (found env s) = .ok (.ok a) ∧
    Manager.new a = .ok m₀ ∧ m.account.isRegistered = a.isRegistered

/-- Registering fails, and may leave a manager all the same. -/
theorem accountRegister_installs {t : Turn U L} {c c' : SigChat U} {config : Config U}
    {r : Except IoError (Account U)}
    (h : (c.accountRegister t config).Ends serve env s (.ok (r, c')) env' s') :
    (∃ e, r = .error e) ∧ (c' = c ∨ ∃ env₁ s₁ m, RegisterReads t config env s env₁ s₁ ∧
      InstalledFrom env₁ s₁ m ∧ c'.manager = some m) := by
  unfold SigChat.accountRegister at h
  rcases hNotification : t.notification with _ | _
  · rw [hNotification] at h
    exact absurd h not_ends_panic
  rcases hNumber : t.numberModal with _ | number
  · rw [hNotification, hNumber] at h
    obtain ⟨rfl, rfl⟩ := ends_pair h
    exact ⟨⟨_, rfl⟩, .inl rfl⟩
  rw [hNotification, hNumber] at h
  obtain ⟨created, env₂, s₂, hNew, h⟩ := ends_onAccount.mp h
  rcases created with e | a
  · obtain ⟨rfl, rfl⟩ := ends_pair h
    exact ⟨⟨_, rfl⟩, .inl rfl⟩
  obtain ⟨⟨r', a'⟩, env₃, s₃, hSet, h⟩ := ends_onAccount.mp h
  obtain ⟨env₄, s₄, hNumberSet⟩ := exists_ends_setNumber a number env₂ s₂
  obtain ⟨hEq, rfl, rfl⟩ := hSet.unique hNumberSet
  obtain ⟨rfl, rfl⟩ := Prod.mk.inj (Except.ok.inj hEq)
  obtain ⟨hEq, -, -⟩ := Prog.ends_done.mp h
  rcases hManager : Manager.new { a with number := some number } with p | m
  · rw [hManager] at hEq
    exact absurd hEq nofun
  rw [hManager] at hEq
  obtain ⟨rfl, rfl⟩ := Prod.mk.inj (Except.ok.inj hEq)
  -- The manager is left behind, though the call itself fails.
  refine ⟨⟨_, rfl⟩, .inr ?_⟩
  obtain ⟨env₁, s₁, hStored, hRead⟩ := ends_new.mp hNew
  obtain ⟨hTexts, -⟩ := ends_read.mp hRead
  -- the number is not in the URL
  obtain ⟨config', hConfig, rfl⟩ := manager_new_eq hManager
  refine ⟨env₁, s₁, _, ⟨hNotification, by rw [hNumber]; rfl, hStored⟩,
    ⟨a, ⟨a, config'⟩, hTexts.symm, ?_, rfl⟩, rfl⟩
  rw [Manager.new, show Config.new a.host a.serviceEnvironment = _ from hConfig]
  rfl

/-- Registering leaves a manager whenever it comes to read an account. -/
theorem exists_ends_accountRegister {t : Turn U L} (c : SigChat U) {config : Config U}
    {env₁ : Env Req Outcome} {s₁ : Disk} (h : RegisterReads t config env s env₁ s₁) {a : Account U}
    {m₀ : Manager U} (hTexts : ofTexts accountDict (found env₁ s₁) = .ok (.ok a))
    (hManager : Manager.new a = .ok m₀) :
    ∃ e env' s' m,
      (c.accountRegister t config).Ends serve env s (.ok (.error e, ⟨some m⟩)) env' s' ∧
      m.account.isRegistered = a.isRegistered := by
  obtain ⟨hNotification, hNumber, hStored⟩ := h
  obtain ⟨number, hNumber⟩ := Option.isSome_iff_exists.mp hNumber
  obtain ⟨config', hConfig, rfl⟩ := manager_new_eq hManager
  obtain ⟨env₂, s₂, hRead⟩ : ∃ env₂ s₂, (read accountDict).Ends serve env₁ s₁
      (.ok (.ok a)) env₂ s₂ := ⟨_, _, ends_read.mpr ⟨hTexts.symm, Prog.ends_run serve _ env₁ s₁⟩⟩
  obtain ⟨env₃, s₃, hSet⟩ := exists_ends_setNumber a number env₂ s₂
  refine ⟨other "not implmented", env₃, s₃, ⟨{ a with number := some number }, config'⟩, ?_, rfl⟩
  unfold SigChat.accountRegister
  rw [hNotification, hNumber]
  refine ends_onAccount.mpr ⟨.ok a, env₂, s₂, ends_new.mpr ⟨env₁, s₁, hStored, hRead⟩, ?_⟩
  refine ends_onAccount.mpr ⟨_, env₃, s₃, hSet, Prog.ends_done.mpr ⟨?_, rfl, rfl⟩⟩
  rw [Manager.new, show Config.new a.host a.serviceEnvironment = _ from hConfig]
  rfl

/-- The host is trusted, or setting up fails. -/
theorem ends_onHost {t : Turn U L} {c c' : SigChat U} {r : Except IoError (Account U)}
    {f : Config U → Prog Resp (Except App.Panic (Except IoError (Account U) × SigChat U))}
    (h : (SigChat.onHost t c f).Ends serve env s (.ok (r, c')) env' s') :
    (∃ config, signalConfig = .ok config ∧ t.accessible = true ∧
      (f config).Ends serve env s (.ok (r, c')) env' s') ∨ (c' = c ∧ ∃ e, r = .error e) := by
  unfold SigChat.onHost SigChat.probeHost at h
  rcases hConfig : (signalConfig : Except App.Panic (Config U)) with p | config
  · rw [hConfig] at h
    exact absurd h not_ends_panic
  rw [hConfig] at h
  -- An unreachable host is told to the user, if that is possible.
  rcases hAccessible : t.accessible with _ | _
  · rw [hAccessible] at h
    rcases hNotification : t.notification with _ | _
    · rw [Turn.notify, hNotification] at h
      exact absurd h not_ends_panic
    · rw [Turn.notify, hNotification] at h
      obtain ⟨rfl, rfl⟩ := ends_pair h
      exact .inr ⟨rfl, _, rfl⟩
  · rw [hAccessible] at h
    exact .inl ⟨config, rfl, rfl, h⟩

/-- The ways to set up an account. -/
theorem accountSetup_cases {t : Turn U L} {c c' : SigChat U} {r : Except IoError (Account U)}
    (h : (c.accountSetup t).Ends serve env s (.ok (r, c')) env' s') :
    (c' = c ∧ ∃ e, r = .error e) ∨
      ∃ config, t.listItems = true ∧ t.radioButton = true ∧ signalConfig = .ok config ∧
        t.accessible = true ∧
        (t.radioIndex = .ok 0 ∧ c' = c ∧
            (SigChat.accountLink t config).Ends serve env s (.ok r) env' s' ∨
          t.radioIndex = .ok 1 ∧
            (c.accountRegister t config).Ends serve env s (.ok (r, c')) env' s') := by
  unfold SigChat.accountSetup at h
  rcases hItems : t.listItems with _ | _
  · rw [hItems] at h
    exact absurd h not_ends_panic
  rcases hButton : t.radioButton with _ | _
  · rw [hItems, hButton] at h
    exact absurd h not_ends_panic
  rw [hItems, hButton] at h
  have hFailed {e : IoError} (hEnd : (Prog.done (.ok (.error e, c)) : Prog Resp (Except App.Panic
      (Except IoError (Account U) × SigChat U))).Ends serve env s (.ok (r, c')) env' s') :
      c' = c ∧ ∃ e, r = .error e := by
    obtain ⟨rfl, rfl⟩ := ends_pair hEnd
    exact ⟨rfl, _, rfl⟩
  -- Link, register, stay offline, and an index that no button has.
  match hIndex : t.radioIndex with
  | .error _ =>
    rw [hIndex] at h
    exact .inl (hFailed h)
  | .ok 0 =>
    rw [hIndex] at h
    refine (ends_onHost h).symm.imp id ?_
    rintro ⟨config, hConfig, hAccessible, hLink⟩
    refine ⟨config, rfl, rfl, hConfig, hAccessible, .inl ⟨rfl, ?_⟩⟩
    rw [ends_mapped] at hLink
    obtain ⟨r', hLink, hEq⟩ := hLink
    obtain ⟨rfl, rfl⟩ := Prod.mk.inj hEq
    exact ⟨rfl, hLink⟩
  | .ok 1 =>
    rw [hIndex] at h
    refine (ends_onHost h).symm.imp id ?_
    rintro ⟨config, hConfig, hAccessible, hRegister⟩
    exact ⟨config, rfl, rfl, hConfig, hAccessible, .inr ⟨rfl, hRegister⟩⟩
  | .ok 2 =>
    rw [hIndex] at h
    exact .inl (hFailed h)
  | .ok (n + 3) =>
    rw [hIndex] at h
    exact .inl (hFailed h)

theorem isRegistered_of_registeredOnly {r : Except IoError (Account U)} {a : Account U}
    (h : registeredOnly r = some a) : a.isRegistered = true :=
  (Option.filter_eq_some_iff.mp h).2

/-- `new` loads a manager for a registered account only. -/
theorem registered_of_new {c : SigChat U} (h : SigChat.new.Ends serve env s (.ok c) env' s')
    {m : Manager U} (hm : c.manager = some m) : m.account.isRegistered = true := by
  obtain ⟨stored, env₁, s₁, -, hEnd⟩ := ends_onAccount.mp h
  -- No manager without an account that passes the check.
  rcases hChecked : registeredOnly stored with _ | account
  · rw [hChecked] at hEnd
    obtain ⟨hEq, -, -⟩ := Prog.ends_done.mp hEnd
    obtain rfl := Except.ok.inj hEq
    exact absurd hm nofun
  · rw [hChecked] at hEnd
    obtain ⟨hEq, -, -⟩ := Prog.ends_done.mp hEnd
    rcases hManager : Manager.new account with p | m'
    · rw [hManager] at hEq
      exact absurd hEq nofun
    · rw [hManager] at hEq
      obtain rfl := Except.ok.inj hEq
      obtain rfl := Option.some.inj hm
      rw [account_of_new hManager]
      exact isRegistered_of_registeredOnly hChecked

end Calls

-- ---------------------------------------------------------------------------
-- One operation
-- ---------------------------------------------------------------------------

/-- A manager for the account that an operation reads unchecked. -/
def Unchecked (i : Input U L) (s : State U) (m : Manager U) : Prop :=
  ∃ env' s', UncheckedRead i s env' s' ∧ InstalledFrom env' s' m

/-- What an operation may leave for a manager. -/
def Installs (i : Input U L) (s : State U) (c : SigChat U) : Prop :=
  ∀ m, c.manager = some m →
    s.app.manager = some m ∨ m.account.isRegistered = true ∨ Unchecked i s m

section Steps

variable {i : Input U L} {s : State U}

/-- The account of `connect` is registered, or has been set up and is installed
unchecked. -/
theorem connectAccount_cases (hOp : i.op = .connect) (hWifi : i.turn.wifi = true)
    (hReady : s.app.isReady = false) {r : Except IoError (Account U)} {c : SigChat U}
    {env' : Env Req Outcome} {s' : Disk}
    (h : (s.app.connectAccount i.turn).Ends serve i.env s.disk (.ok (r, c)) env' s') :
    Installs i s c ∧ ∀ b m, r = .ok b → Manager.new b = .ok m →
      m.account.isRegistered = true ∨ Unchecked i s m := by
  unfold SigChat.connectAccount at h
  obtain ⟨stored, env₁, s₁, hRead, h⟩ := ends_onAccount.mp h
  have hSame : Installs i s s.app := fun m hm => .inl hm
  rcases hChecked : registeredOnly stored with _ | account
  · rw [hChecked] at h
    -- Given up, linked, or registered.
    rcases accountSetup_cases h with ⟨rfl, e, rfl⟩ | ⟨config, hItems, hButton, hConfig, hAccessible,
      ⟨hIndex, rfl, hLink⟩ | ⟨hIndex, hRegister⟩⟩
    · exact ⟨hSame, fun b m hb => absurd hb nofun⟩
    · refine ⟨hSame, fun b m hb hManager => .inr ?_⟩
      subst hb
      obtain ⟨env₂, s₂, hReads, hBack⟩ := ends_accountLink.mp hLink
      refine ⟨env₂, s₂, .connectLink config env₁ s₁ ⟨hOp, hWifi, hReady, ⟨stored, hRead, hChecked⟩,
        hItems, hButton, hIndex, hConfig, hAccessible⟩ hReads, b, m, (ends_read.mp hBack).1.symm,
        hManager, ?_⟩
      rw [account_of_new hManager]
    · obtain ⟨⟨e, rfl⟩, hLeft⟩ := accountRegister_installs hRegister
      refine ⟨?_, fun b m hb => absurd hb nofun⟩
      rcases hLeft with rfl | ⟨env₂, s₂, m, hReads, hFrom, hManager⟩
      · exact hSame
      · intro m' hm'
        obtain rfl := Option.some.inj (hManager.symm.trans hm')
        exact .inr (.inr ⟨env₂, s₂, .connectRegister config env₁ s₁ ⟨hOp, hWifi, hReady,
          ⟨stored, hRead, hChecked⟩, hItems, hButton, hIndex, hConfig, hAccessible⟩ hReads, hFrom⟩)
  · rw [hChecked] at h
    obtain ⟨rfl, rfl⟩ := ends_pair h
    refine ⟨hSame, fun b m hb hManager => .inl ?_⟩
    obtain rfl := Except.ok.inj hb
    rw [account_of_new hManager]
    exact isRegistered_of_registeredOnly hChecked

/-- `connect` installs the account it has found, or one that has been set up. -/
theorem connect_installs (hOp : i.op = .connect) {r : Except IoError Bool} {c : SigChat U}
    {env' : Env Req Outcome} {s' : Disk}
    (h : (s.app.connect i.turn).Ends serve i.env s.disk (.ok (r, c)) env' s') :
    (r = .ok true → c.isReady = true) ∧ Installs i s c := by
  unfold SigChat.connect at h
  rcases hWifi : i.turn.wifi with _ | _
  · rw [hWifi, Turn.notify] at h
    rcases hNotification : i.turn.notification with _ | _
    · rw [hNotification] at h
      exact absurd h not_ends_panic
    · rw [hNotification] at h
      obtain ⟨rfl, rfl⟩ := ends_pair h
      exact ⟨nofun, fun m hm => .inl hm⟩
  rw [hWifi] at h
  -- A manager that is loaded already is left alone.
  rcases hReady : s.app.isReady with _ | _
  · rw [hReady, if_pos rfl, if_neg Bool.false_ne_true, Prog.ends_bind] at h
    obtain ⟨found, env₁, s₁, hAccount, h⟩ := h
    rcases found with p | ⟨e | account, c'⟩
    · exact absurd h not_ends_panic
    · obtain ⟨rfl, rfl⟩ := ends_pair h
      exact ⟨nofun, (connectAccount_cases hOp hWifi hReady hAccount).1⟩
    · dsimp only at h
      rcases hManager : Manager.new account with p | m
      · rw [hManager] at h
        exact absurd h not_ends_panic
      rw [hManager] at h
      obtain ⟨rfl, rfl⟩ := ends_pair h
      refine ⟨fun _ => rfl, fun m' hm' => .inr ?_⟩
      obtain rfl := Option.some.inj hm'
      exact (connectAccount_cases hOp hWifi hReady hAccount).2 account m rfl hManager
  · rw [hReady] at h
    obtain ⟨rfl, rfl⟩ := ends_pair h
    exact ⟨fun _ => hReady, fun m hm => .inl hm⟩

/-- A step is a run of its operation to the end, without a panic. -/
theorem step_eq_some {s' : State U} (h : step i s = some s') :
    ∃ answer app env' disk, (i.op.prog i.turn s.app).Ends serve i.env s.disk
      (.ok (answer, app)) env' disk ∧ s' = ⟨app, disk, some answer⟩ := by
  unfold step at h
  split at h
  · exact absurd h nofun
  · rename_i answer app disk hRun
    exact ⟨answer, app, _, disk, ⟨hRun, rfl⟩, (Option.some.inj h).symm⟩

/-- **One operation** leaves the manager, or installs one for an account that is
registered or read unchecked. -/
theorem step_installs {s' : State U} (h : step i s = some s') :
    (s'.answer = some (.connected (.ok true)) → s'.app.isReady = true) ∧ Installs i s s'.app := by
  obtain ⟨answer, app, env', disk, hEnds, rfl⟩ := step_eq_some h
  -- The operations are `new`, `connect`, `account_link` and `account_register`.
  rcases hOp : i.op with _ | _ | config | config
  · rw [hOp] at hEnds
    obtain ⟨app', hNew, hEq⟩ := ends_mapped.mp hEnds
    obtain ⟨rfl, rfl⟩ := Prod.mk.inj hEq
    exact ⟨nofun, fun m hm => .inr (.inl (registered_of_new hNew hm))⟩
  · rw [hOp] at hEnds
    obtain ⟨⟨r, app'⟩, hConnect, hEq⟩ := ends_mapped.mp hEnds
    obtain ⟨rfl, rfl⟩ := Prod.mk.inj hEq
    obtain ⟨hReady, hInstalls⟩ := connect_installs hOp hConnect
    refine ⟨fun hAnswer => hReady ?_, hInstalls⟩
    exact Answer.connected.inj (Option.some.inj hAnswer)
  · rw [hOp] at hEnds
    obtain ⟨r, -, hEq⟩ := ends_mapped.mp hEnds
    obtain ⟨rfl, rfl⟩ := Prod.mk.inj hEq
    exact ⟨nofun, fun m hm => .inl hm⟩
  · rw [hOp] at hEnds
    obtain ⟨⟨r, app'⟩, hRegister, hEq⟩ := ends_mapped.mp hEnds
    obtain ⟨rfl, rfl⟩ := Prod.mk.inj hEq
    refine ⟨nofun, fun m hm => ?_⟩
    rcases (accountRegister_installs hRegister).2 with
      hSame | ⟨env₂, s₂, m', hReads, hFrom, hManager⟩
    · exact .inl (hSame ▸ hm)
    · obtain rfl := Option.some.inj (hManager.symm.trans hm)
      exact .inr (.inr ⟨env₂, s₂, .register config hOp hReads, hFrom⟩)

/-- The user has chosen to register. -/
theorem SetsUp.register {config : Config U} {env₁ : Env Req Outcome} {s₁ : Disk}
    (h : SetsUp i s 1 config env₁ s₁) :
    s.app.accountSetup i.turn = s.app.accountRegister i.turn config := by
  unfold SigChat.accountSetup SigChat.onHost SigChat.probeHost
  rw [h.listItems, h.radioButton, h.radioIndex, h.config, h.accessible]
  rfl

/-- The user has chosen to link. -/
theorem SetsUp.link {config : Config U} {env₁ : Env Req Outcome} {s₁ : Disk}
    (h : SetsUp i s 0 config env₁ s₁) :
    s.app.accountSetup i.turn =
      SigChat.accountLink i.turn config >>= fun r => pure (r.map (·, s.app)) := by
  unfold SigChat.accountSetup SigChat.onHost SigChat.probeHost
  rw [h.listItems, h.radioButton, h.radioIndex, h.config, h.accessible]
  rfl

/-- The setup is reached when no registered account is found. -/
theorem SetsUp.ends_connectAccount {choice : Nat} {config : Config U}
    {env₁ env' : Env Req Outcome} {s₁ s' : Disk} (h : SetsUp i s choice config env₁ s₁)
    {r : Except IoError (Account U) × SigChat U}
    (hSetup : (s.app.accountSetup i.turn).Ends serve env₁ s₁ (.ok r) env' s') :
    (s.app.connectAccount i.turn).Ends serve i.env s.disk (.ok r) env' s' := by
  obtain ⟨stored, hRead, hChecked⟩ := h.read
  refine ends_onAccount.mpr ⟨stored, env₁, s₁, hRead, ?_⟩
  rw [hChecked]
  exact hSetup

/-- What is read unchecked and can be installed is installed. -/
theorem exists_step_unchecked {env' : Env Req Outcome} {s₁ : Disk} (h : UncheckedRead i s env' s₁)
    {a : Account U} {m₀ : Manager U} (hTexts : ofTexts accountDict (found env' s₁) = .ok (.ok a))
    (hManager : Manager.new a = .ok m₀) :
    ∃ s' m, step i s = some s' ∧ s'.app.manager = some m ∧
      m.account.isRegistered = a.isRegistered := by
  have hStep {answer : Answer U} {app : SigChat U} {env₂ : Env Req Outcome} {disk : Disk}
      (hEnds : (i.op.prog i.turn s.app).Ends serve i.env s.disk (.ok (answer, app)) env₂ disk) :
      step i s = some ⟨app, disk, some answer⟩ := by
    rw [step, hEnds.1]
  -- The three places at which an account is read and not checked.
  rcases h with ⟨config, hOp, hReads⟩ | ⟨config, env₂, s₂, hSetup, hReads⟩ |
    ⟨config, env₂, s₂, hSetup, hReads⟩
  · obtain ⟨e, env₃, s₃, m, hEnds, hEq⟩ := exists_ends_accountRegister s.app hReads hTexts hManager
    have hProg : (i.op.prog i.turn s.app).Ends serve i.env s.disk
        (.ok (.account (.error e), ⟨some m⟩)) env₃ s₃ := by
      rw [hOp]
      exact ends_mapped.mpr ⟨(.error e, ⟨some m⟩), hEnds, rfl⟩
    exact ⟨_, m, hStep hProg, rfl, hEq⟩
  · obtain ⟨e, env₃, s₃, m, hEnds, hEq⟩ := exists_ends_accountRegister s.app hReads hTexts hManager
    have hProg : (i.op.prog i.turn s.app).Ends serve i.env s.disk
        (.ok (.connected (.error e), ⟨some m⟩)) env₃ s₃ := by
      rw [hSetup.op]
      refine ends_mapped.mpr ⟨(.error e, ⟨some m⟩), ?_, rfl⟩
      unfold SigChat.connect
      rw [hSetup.wifi, hSetup.notReady, if_pos rfl, if_neg Bool.false_ne_true, Prog.ends_bind]
      refine ⟨_, env₃, s₃, hSetup.ends_connectAccount (r := (.error e, ⟨some m⟩)) ?_,
        Prog.ends_done.mpr ⟨rfl, rfl, rfl⟩⟩
      rw [hSetup.register]
      exact hEnds
    exact ⟨_, m, hStep hProg, rfl, hEq⟩
  · obtain ⟨env₃, s₃, hRead⟩ : ∃ env₃ s₃, (read accountDict).Ends serve env' s₁
        (.ok (.ok a)) env₃ s₃ := ⟨_, _, ends_read.mpr ⟨hTexts.symm, Prog.ends_run serve _ env' s₁⟩⟩
    have hProg : (i.op.prog i.turn s.app).Ends serve i.env s.disk
        (.ok (.connected (.ok true), ⟨some m₀⟩)) env₃ s₃ := by
      rw [hSetup.op]
      refine ends_mapped.mpr ⟨(.ok true, ⟨some m₀⟩), ?_, rfl⟩
      unfold SigChat.connect
      rw [hSetup.wifi, hSetup.notReady, if_pos rfl, if_neg Bool.false_ne_true, Prog.ends_bind]
      refine ⟨_, env₃, s₃, hSetup.ends_connectAccount (r := (.ok a, s.app)) ?_, ?_⟩
      · rw [hSetup.link]
        exact ends_mapped.mpr ⟨.ok a, ends_accountLink.mpr ⟨env', s₁, hReads, hRead⟩, rfl⟩
      · dsimp only
        rw [hManager]
        exact Prog.ends_done.mpr ⟨rfl, rfl, rfl⟩
    exact ⟨_, m₀, hStep hProg, rfl, by rw [account_of_new hManager]⟩

/-- **When an operation keeps it.** -/
theorem step_loaded_iff {s' : State U} (hLoaded : Loaded s) (h : step i s = some s') :
    Safe i s ↔ Loaded s' := by
  obtain ⟨hConnected, hInstalls⟩ := step_installs h
  constructor
  · intro hSafe
    refine ⟨fun m hm => ?_, hConnected⟩
    rcases hInstalls m hm with hSame | hRegistered | ⟨env', s₁, hRead, a, m₀, hTexts, hNew, hEq⟩
    · exact hLoaded.registered m hSame
    · exact hRegistered
    · rw [hEq, isRegistered_iff hTexts]
      exact hSafe env' s₁ hRead a m₀ hTexts hNew
  -- Each unchecked read is one that the step really makes, and what it installs is what the
  -- read gives.
  · intro hLoaded' env' s₁ hRead a m₀ hTexts hNew
    obtain ⟨s'', m, hStep, hManager, hEq⟩ := exists_step_unchecked hRead hTexts hNew
    obtain rfl := Option.some.inj (h.symm.trans hStep)
    rw [← isRegistered_iff hTexts, ← hEq]
    exact hLoaded'.registered m hManager

end Steps

-- ---------------------------------------------------------------------------
-- Whole runs
-- ---------------------------------------------------------------------------

theorem loaded_booted (disk : Disk) : Loaded (booted disk : State U) :=
  ⟨fun _ h => absurd h.symm (Option.some_ne_none _), fun h => absurd h.symm (Option.some_ne_none _)⟩

/-- **A loaded manager is registered** in every state that a run reaches exactly
if every operation of the run finds a registered account where it reads one
unchecked. -/
theorem loaded_iff (is : List (Input U L)) (disk : Disk) :
    (∀ js, js <+: is → ∀ s, reach step js (booted disk) = some s → Loaded s) ↔
      Throughout step Safe is (booted disk) := by
  refine (throughout_iff (fun i s s' hLoaded h => step_loaded_iff hLoaded h) ?_
    (loaded_booted disk)).symm
  intro i s hLoaded hStop env' s₁ hRead a m₀ hTexts hNew
  obtain ⟨s', m, hStep, -⟩ := exists_step_unchecked hRead hTexts hNew
  exact absurd (hStop.symm.trans hStep) nofun

-- ---------------------------------------------------------------------------
-- Registering
-- ---------------------------------------------------------------------------

/-- The user chooses to register, and enters a number. -/
def registering : Turn .plain .plain where
  wifi := true
  listItems := true
  radioButton := true
  radioIndex := .ok 1
  accessible := true
  notification := true
  nameModal := none
  numberModal := some "+1"
  provisioned := .error (other "failed to link device")
  services := plainServices

/-- Without an account `connect` fails, and is tried again. -/
def registeringRun : List (Input .plain .plain) :=
  [⟨.new, registering, fun _ _ => .served⟩, ⟨.connect, registering, fun _ _ => .served⟩,
    ⟨.connect, registering, fun _ _ => .served⟩]

def isOnline : Option (Answer U) → Bool
  | some (.connected (.ok true)) => true
  | _ => false

/-- The second `connect` reports success with a manager that is not registered. -/
theorem registers_unloaded :
    ¬∀ js, js <+: registeringRun → ∀ s, reach step js (booted fun _ _ => none) = some s →
      Loaded s := by
  intro h
  have hRun : (reach step registeringRun (booted fun _ _ => none)).map (fun s =>
      (s.app.manager.map fun m => m.account.isRegistered, isOnline s.answer)) =
      some (some false, true) := by decide +kernel
  obtain ⟨s, hReach, hEq⟩ := Option.map_eq_some_iff.mp hRun
  obtain ⟨hManager, -⟩ := Prod.mk.inj hEq
  obtain ⟨m, hm, hNot⟩ := Option.map_eq_some_iff.mp hManager
  rw [(h registeringRun List.prefix_rfl s hReach).registered m hm] at hNot
  exact absurd hNot nofun

end Sigchat.Results.LoadedManager

import Sigchat.Model.Account

/-!
# The account struct as a cache of its dictionary

An account is coherent when reading its dictionary gives its fields. `set`
writes the dictionary first and updates the field whatever became of the write;
it deletes what it has written for `host`, and updates no field for the three
keys of the storage service.

* `coherent_iff` — coherence key by key;
* `set_run` — what is in the key after `set`, request by request;
* `set_keeps_iff` — exactly when `set` keeps an account coherent;
* `set_loses_password` — a failed request that it does not report.
-/

namespace Sigchat.Results

open Sigchat.Lib
open Sigchat.Pddb
open Sigchat.Stores
open Sigchat.Accounts

variable {U : UrlCrate}

-- ---------------------------------------------------------------------------
-- Reading
-- ---------------------------------------------------------------------------

/-- What a key's content is read as. -/
def textOf (content : Option Bytes) : Option String := content.bind fun bs => fromUtf8 (bs.take 256)

def keyText (s : Disk) (dict : String) (k : Key) : Option String := textOf (s dict k.name)

/-- When nothing fails a text is read as it is stored. -/
theorem runAll_readAccountString (dict key : String) (s : Disk) :
    (readAccountString dict key).runAll serve .served s = (textOf (s dict key), s) := by
  unfold readAccountString textOf
  cases h : s dict key with
  | none => simp [serve, perform, h]
  | some bs => simp [serve, perform, h, Outcome.limit]

theorem runAll_get (dict : String) (k : Key) (s : Disk) :
    (Accounts.get dict k).runAll serve .served s = (keyText s dict k, s) :=
  runAll_readAccountString dict k.name s

/-- When nothing fails all the values are read as they are stored. -/
theorem runAll_getAll (dict : String) (ks : List Key) (s : Disk) :
    ((getAll dict ks).runAll serve .served s).2 = s ∧
      ∀ k ∈ ks, ((getAll dict ks).runAll serve .served s).1 k = keyText s dict k := by
  induction ks with
  | nil => exact ⟨rfl, nofun⟩
  | cons k ks ih =>
    rw [getAll, Prog.runAll_bind, runAll_get, Prog.runAll_bind]
    refine ⟨ih.1, fun k' hk' => ?_⟩
    simp only [Prog.pure_eq, Prog.runAll_done]
    split
    · rename_i hEq
      rw [hEq]
    · rename_i hNe
      exact ih.2 k' ((List.mem_cons.mp hk').resolve_left hNe)

/-- Only the loaded keys matter. -/
theorem ofTexts_congr (dict : String) {f g : Key → Option String}
    (h : ∀ k ∈ loadedKeys, f k = g k) :
    (ofTexts dict f : Except Panic (Except IoError (Account U))) = ofTexts dict g := by
  simp only [loadedKeys, List.forall_mem_cons] at h
  obtain ⟨h1, h2, h3, h4, h5, h6, h7, h8, h9, h10, h11, h12, h13, h14, h15, h16, h17, h18, h19, h20,
    -⟩ := h
  simp only [ofTexts, h1, h2, h3, h4, h5, h6, h7, h8, h9, h10, h11, h12, h13, h14, h15, h16, h17,
    h18, h19, h20]

/-- Where every request is served the account that is read is the one of the
stored texts. -/
theorem runAll_read (dict : String) (s : Disk) :
    (Accounts.read dict : Prog Resp (Except Panic (Except IoError (Account U)))).runAll serve
      .served s = (ofTexts dict (keyText s dict), s) := by
  obtain ⟨hState, hTexts⟩ := runAll_getAll dict loadedKeys s
  rw [Accounts.read, Prog.runAll_bind, hState]
  simp only [Prog.pure_eq, Prog.runAll_done, ofTexts_congr dict hTexts]

/-- The fields are what `Account::read` would load. -/
def Coherent (a : Account U) (s : Disk) : Prop :=
  ((Accounts.read a.pddbDict).runAll serve .served s).1 = .ok (.ok a)

/-- The field of a key is what its text is loaded as. -/
def Holds (a : Account U) (text : Option String) : Key → Prop
  | .aciIdentityPrivate => text = a.aciIdentityPrivate
  | .aciIdentityPublic => text = a.aciIdentityPublic
  | .aciServiceId => text = a.aciServiceId
  | .deviceId => text.bind parseDeviceId = some a.deviceId
  | .encryptedDeviceName => text = a.encryptedDeviceName
  | .host => text.bind U.parseHost = some a.host
  | .isMultiDevice => text.bind parseBool = some a.isMultiDevice
  | .number => text = a.number
  | .password => text = a.password
  | .pinMasterKey => text = a.pinMasterKey
  | .pniIdentityPrivate => text = a.pniIdentityPrivate
  | .pniIdentityPublic => text = a.pniIdentityPublic
  | .pniServiceId => text = a.pniServiceId
  | .profileKey => text = a.profileKey
  | .registered => text.bind parseBool = some a.registered
  | .serviceEnvironment => text.bind ServiceEnvironment.fromStr = some a.serviceEnvironment
  | .storageKey => text = a.storageKey
  | .storeLastReceiveTimestamp => (text.bind parseI64).getD 0 = a.storeLastReceiveTimestamp
  | .storeManifestVersion => text.bind parseI64 = some a.storeManifestVersion
  | .storeManifest => text = a.storeManifest
  | .accountEntropyPool | .registrationId | .pniRegistrationId => True

theorem unwrap_bind_ok {α β : Type} {k : Key} {x : Option α} {f : α → Except Panic β} {b : β} :
    (unwrap k x >>= f) = .ok b ↔ ∃ y, x = some y ∧ f y = .ok b := by
  cases x with
  | none => simp [unwrap, bind, Except.bind]
  | some y => simp [unwrap, bind, Except.bind]

/-- **Loading.** The account has the dictionary it was read from, and each of
its fields holds the text of its key. -/
theorem ofTexts_eq_iff {a : Account U} {dict : String} {f : Key → Option String} :
    ofTexts dict f = .ok (.ok a) ↔ a.pddbDict = dict ∧ ∀ k, Holds a (f k) k := by
  constructor
  · intro h
    unfold ofTexts at h
    split at h
    -- the six keys that have to be there are there
    · rename_i d ho m r e v hd hh hm hr he hv
      simp only [unwrap_bind_ok] at h
      obtain ⟨d', hd', ho', hh', m', hm', r', hr', e', he', v', hv', h⟩ := h
      obtain rfl := Except.ok.inj (Except.ok.inj h)
      refine ⟨rfl, fun k => ?_⟩
      cases k <;> simp [Holds, *]
    · simp at h
  -- a field that is not optional says that its text is there and parses
  · rintro ⟨rfl, h⟩
    have hd := h .deviceId
    have hh := h .host
    have hm := h .isMultiDevice
    have hr := h .registered
    have he := h .serviceEnvironment
    have hv := h .storeManifestVersion
    simp only [Holds, Option.bind_eq_some_iff] at hd hh hm hr he hv
    obtain ⟨d, hd, hd'⟩ := hd
    obtain ⟨ho, hh, hh'⟩ := hh
    obtain ⟨m, hm, hm'⟩ := hm
    obtain ⟨r, hr, hr'⟩ := hr
    obtain ⟨e, he, he'⟩ := he
    obtain ⟨v, hv, hv'⟩ := hv
    simp only [ofTexts, hd, hh, hm, hr, he, hv, unwrap_bind_ok]
    refine ⟨_, hd', _, hh', _, hm', _, hr', _, he', _, hv', congrArg (Except.ok ∘ Except.ok) ?_⟩
    cases a
    rw [Account.mk.injEq]
    exact ⟨rfl, h .aciIdentityPrivate, h .aciIdentityPublic, h .aciServiceId, rfl,
      h .encryptedDeviceName, rfl, rfl, h .number, h .password, h .pinMasterKey,
      h .pniIdentityPrivate, h .pniIdentityPublic, h .pniServiceId, h .profileKey, rfl, rfl,
      h .storageKey, h .storeLastReceiveTimestamp, rfl, h .storeManifest⟩

/-- **Coherence, key by key.** -/
theorem coherent_iff {a : Account U} {s : Disk} :
    Coherent a s ↔ ∀ k, Holds a (keyText s a.pddbDict k) k := by
  rw [Coherent, runAll_read, ofTexts_eq_iff]
  exact and_iff_right rfl

-- ---------------------------------------------------------------------------
-- Writing
-- ---------------------------------------------------------------------------

/-- What the delete request of a `set` leaves of a key holding `old`. -/
def contentLeft (env : Env Req Outcome) (d k : String) (old : Option Bytes) : Option Bytes :=
  match env 0 (.deleteKey d k) with
  | .failed _ => old
  | _ => none

/-- What the write request makes of a key holding `old`. -/
def contentWritten (o : Outcome) (value old : Bytes) : Bytes :=
  match o with
  | .failed _ => old
  | o => torn value old (o.limit value.length)

/-- What a key holding `old` holds after a `set`: the first bytes of the value
over what the delete request has left, if the key can be opened. -/
def contentSet (env : Env Req Outcome) (d k : String) (value : Option String)
    (old : Option Bytes) : Option Bytes :=
  match value with
  | none => contentLeft env d k old
  | some v =>
    match env 1 (.get d k true) with
    | .failed _ => contentLeft env d k old
    | _ => some (contentWritten (env 2 (.write d k 0 (utf8 v))) (utf8 v)
        ((contentLeft env d k old).getD []))

/-- How many requests a `set` issues. -/
def setRequests (env : Env Req Outcome) (d k : String) (value : Option String) : Nat :=
  match value with
  | none => 1
  | some v =>
    match env 1 (.get d k true), env 2 (.write d k 0 (utf8 v)) with
    | .failed _, _ => 2
    | _, .failed _ => 3
    | _, _ => 4

/-- What the delete request leaves in the key. -/
theorem serve_deleteKey_left (env : Env Req Outcome) (s : Disk) (d k : String) :
    (serve (env 0 (.deleteKey d k)) (.deleteKey d k) s).2 =
      s.set d k (contentLeft env d k (s d k)) := by
  unfold contentLeft
  cases env 0 (.deleteKey d k) with
  | failed f => exact (Disk.set_self s d k).symm
  | served | short n =>
    cases h : s d k with
    | none =>
      have hSelf := Disk.set_self s d k
      rw [h] at hSelf
      simp only [serve, perform, h, hSelf]
    | some v => simp only [serve, perform, h]

/-- The write request of a `set`, and the sync. -/
theorem writeValue_run (env : Env Req Outcome) (dict : String) (k : Key) (value : String) (s : Disk)
    (old : Bytes) :
    (writeValue dict k value).run serve env (s.set dict k.name (some old)) =
      (.ok (), s.set dict k.name (some
        (contentWritten (env 0 (.write dict k.name 0 (utf8 value))) (utf8 value) old))) := by
  rw [writeValue, Prog.run_call]
  cases env 0 (.write dict k.name 0 (utf8 value)) with
  | failed f => rfl
  | served =>
    simp only [serve, perform, Disk.set_same, Outcome.limit, Prog.run_call]
    rw [overlay_zero _ _ _ (Nat.le_refl _), Disk.set_set]
    exact Prod.ext rfl (serve_sync _ _)
  | short n =>
    simp only [serve, perform, Disk.set_same, Prog.run_call]
    rw [overlay_zero _ _ _ (Outcome.limit_le _ _), Disk.set_set]
    exact Prod.ext rfl (serve_sync _ _)

theorem serve_create_of_not_failed {o : Outcome} (h : ∀ f, o ≠ .failed f) (s : Disk)
    (d k : String) : serve o (.get d k true) s = (.ok (), s.set d k (some ((s d k).getD []))) :=
  (serve_create o s d k).resolve_left fun ⟨f, hf, _⟩ => h f hf

/-- **What `set` does**: it answers `Ok`, changes its own key only, and leaves
there what its requests have come to. -/
theorem set_run (env : Env Req Outcome) (dict : String) (k : Key) (value : Option String)
    (s : Disk) : (Accounts.set dict k value).run serve env s =
      (.ok (), s.set dict k.name (contentSet env dict k.name value (s dict k.name))) := by
  unfold Accounts.set
  rw [Prog.run_call, serve_deleteKey_left]
  cases value with
  | none => rfl
  | some v =>
    -- the outcome of the second request decides how far `set` gets
    have hGet : env.tail 0 (.get dict k.name true) = env 1 (.get dict k.name true) := rfl
    simp only [Prog.run_call, contentSet, hGet]
    have hWrite := writeValue_run env.tail.tail dict k v s
    cases env 1 (.get dict k.name true) with
    | failed f => rfl
    | served =>
      rw [serve_create_of_not_failed (fun _ => Outcome.noConfusion), Disk.set_same, Disk.set_set]
      exact hWrite _
    | short n =>
      rw [serve_create_of_not_failed (fun _ => Outcome.noConfusion), Disk.set_same, Disk.set_set]
      exact hWrite _

/-- How many outcomes the write request and the sync use up. -/
theorem writeValue_left (env : Env Req Outcome) (dict : String) (k : Key) (value : String)
    (s : Disk) (old : Bytes) :
    (writeValue dict k value).left serve env (s.set dict k.name (some old)) = fun i =>
      env (i + match env 0 (.write dict k.name 0 (utf8 value)) with
        | .failed _ => 1
        | _ => 2) := by
  rw [writeValue, Prog.left]
  cases env 0 (.write dict k.name 0 (utf8 value)) with
  | failed f => rfl
  | served | short n =>
    simp only [serve, perform, Disk.set_same]
    rfl

/-- The requests of a `set` are the first ones of its environment. -/
theorem set_left (env : Env Req Outcome) (dict : String) (k : Key) (value : Option String)
    (s : Disk) : (Accounts.set dict k value).left serve env s =
      fun i => env (i + setRequests env dict k.name value) := by
  unfold Accounts.set
  rw [Prog.left, serve_deleteKey_left]
  cases value with
  | none => rfl
  | some v =>
    -- the requests after the first, as the outcomes have it
    have hGet : env.tail 0 (.get dict k.name true) = env 1 (.get dict k.name true) := rfl
    have hWrite := writeValue_left env.tail.tail dict k v s
    have hEnv : env.tail.tail 0 (.write dict k.name 0 (utf8 v)) =
      env 2 (.write dict k.name 0 (utf8 v)) := rfl
    simp only [Prog.left, setRequests, hGet]
    cases env 1 (.get dict k.name true) with
    | failed f => rfl
    | served | short n =>
      rw [serve_create_of_not_failed (fun _ => Outcome.noConfusion), Disk.set_same, Disk.set_set]
      refine (hWrite _).trans ?_
      rw [hEnv]
      cases env 2 (.write dict k.name 0 (utf8 v)) <;> rfl

-- ---------------------------------------------------------------------------
-- Fields
-- ---------------------------------------------------------------------------

/-- Two texts of a key are loaded as the same field. -/
def SameField (U : UrlCrate) (k : Key) (t t' : Option String) : Prop :=
  match k with
  | .deviceId => t.bind parseDeviceId = t'.bind parseDeviceId
  | .host => t.bind U.parseHost = t'.bind U.parseHost
  | .isMultiDevice | .registered => t.bind parseBool = t'.bind parseBool
  | .serviceEnvironment => t.bind ServiceEnvironment.fromStr = t'.bind ServiceEnvironment.fromStr
  | .storeLastReceiveTimestamp => (t.bind parseI64).getD 0 = (t'.bind parseI64).getD 0
  | .storeManifestVersion => t.bind parseI64 = t'.bind parseI64
  | .accountEntropyPool | .registrationId | .pniRegistrationId => True
  | _ => t = t'

theorem SameField.refl (U : UrlCrate) (k : Key) (t : Option String) : SameField U k t t := by
  cases k <;> first | exact rfl | exact trivial

/-- Once one text gives the field, another does if it is loaded as the same. -/
theorem holds_iff_sameField {a : Account U} {k : Key} {t t' : Option String} (h : Holds a t' k) :
    Holds a t k ↔ SameField U k t t' := by
  cases k <;> simp only [Holds, SameField] at h ⊢ <;> rw [h]

/-- The value can be loaded for this key: one of the six that must be there is
there and parses. -/
def Parses (U : UrlCrate) (k : Key) (value : Option String) : Prop :=
  match k with
  | .deviceId => (value.bind parseDeviceId).isSome
  | .host => (value.bind U.parseHost).isSome
  | .isMultiDevice | .registered => (value.bind parseBool).isSome
  | .serviceEnvironment => (value.bind ServiceEnvironment.fromStr).isSome
  | .storeManifestVersion => (value.bind parseI64).isSome
  | _ => True

/-- The keys whose field `set` does not keep up to date. -/
def Stale (k : Key) : Prop :=
  k = .host ∨ k = .storeLastReceiveTimestamp ∨ k = .storeManifestVersion ∨ k = .storeManifest

instance (k : Key) : Decidable (Stale k) := inferInstanceAs (Decidable (_ ∨ _))

/-- **The arms.** A key with a field of its own gets the value, no other field
changes. -/
theorem arm_spec (a : Account U) {k : Key} {value : Option String} (hLoaded : k ∈ loadedKeys)
    (hStale : ¬Stale k) (hParses : Parses U k value) :
    ∃ a', a.arm k value = some (.ok a') ∧ a'.pddbDict = a.pddbDict ∧ Holds a' value k ∧
      ∀ k', k' ≠ k → ∀ t, Holds a' t k' ↔ Holds a t k' := by
  cases k with
  | host | storeLastReceiveTimestamp | storeManifestVersion | storeManifest =>
    exact absurd (by decide) hStale
  | accountEntropyPool | registrationId | pniRegistrationId =>
    exact absurd hLoaded (by decide)
  | deviceId | isMultiDevice | registered | serviceEnvironment =>
    obtain ⟨x, hx⟩ := Option.isSome_iff_exists.mp hParses
    simp only [Account.arm, hx, unwrap, Except.map]
    refine ⟨_, rfl, rfl, hx, fun k' hk' t => ?_⟩
    cases k' <;> first | exact Iff.rfl | exact absurd rfl hk'
  | _ =>
    refine ⟨_, rfl, rfl, rfl, fun k' hk' t => ?_⟩
    cases k' <;> first | exact Iff.rfl | exact absurd rfl hk'

theorem arm_stale (a : Account U) {k : Key} {value : Option String} (hStale : Stale k) :
    a.arm k value = if k = .host then none else some (.ok a) := by
  rcases hStale with rfl | rfl | rfl | rfl <;> rfl

-- ---------------------------------------------------------------------------
-- Coherence after a `set`
-- ---------------------------------------------------------------------------

theorem keyText_set_same (s : Disk) (dict : String) (k : Key) (c : Option Bytes) :
    keyText (s.set dict k.name c) dict k = textOf c := by
  rw [keyText, Disk.set_same]

theorem keyText_set_other (s : Disk) (dict : String) {k k' : Key} (h : k' ≠ k) (c : Option Bytes) :
    keyText (s.set dict k.name c) dict k' = keyText s dict k' := by
  rw [keyText, Disk.set_other _ _ fun hk => h (Key.name_injective hk.2), keyText]

/-- Whatever `set` answers, the account is coherent again, and after `Err`
neither the struct nor the dictionary has changed. -/
def SetKeeps (a : Account U) (k : Key) (value : Option String) (env : Env Req Outcome) (s : Disk) :
    Prop :=
  ∃ r a', ((a.set k value).run serve env s).1 = .ok (r, a') ∧
    Coherent a' ((a.set k value).run serve env s).2 ∧
    ∀ e, r = .error e → a' = a ∧ ((a.set k value).run serve env s).2 = s

/-- What the requests leave in the key fits the field: it is loaded as the
value, or, for a field that is not kept up to date, as what was there before.
`host` is refused and deleted, so there the key has to be as it was and that
request to fail. -/
def SetTakes (a : Account U) (k : Key) (value : Option String) (env : Env Req Outcome) (s : Disk) :
    Prop :=
  let old := s a.pddbDict k.name
  let new := contentSet env a.pddbDict k.name value old
  if k = .host then
    new = old ∧ ∃ f, env (setRequests env a.pddbDict k.name value)
      (.deleteKey a.pddbDict k.name) = .failed f
  else if Stale k then SameField U k (textOf new) (textOf old)
  else SameField U k (textOf new) value

section SetKeeps

variable {a : Account U} {k : Key} {value : Option String} {env : Env Req Outcome} {s : Disk}

/-- After a change of one key, coherence is about that key's field. -/
theorem coherent_set_iff {a' : Account U} (hDict : a'.pddbDict = a.pddbDict)
    (hOther : ∀ k', k' ≠ k → ∀ t, Holds a' t k' ↔ Holds a t k') (hCoherent : Coherent a s)
    (c : Option Bytes) :
    Coherent a' (s.set a.pddbDict k.name c) ↔ Holds a' (textOf c) k := by
  rw [coherent_iff, hDict]
  constructor
  · intro h
    rw [← keyText_set_same s a.pddbDict k c]
    exact h k
  · intro h k'
    by_cases hk : k' = k
    · subst hk
      rw [keyText_set_same]
      exact h
    · rw [keyText_set_other s a.pddbDict hk, hOther k' hk]
      exact coherent_iff.mp hCoherent k'

/-- A run of `Account::set` for a key with an arm. -/
theorem set_run_arm {a' : Account U} (hArm : a.arm k value = some (.ok a')) :
    (a.set k value).run serve env s = (.ok (.ok (), a'),
      s.set a.pddbDict k.name (contentSet env a.pddbDict k.name value (s a.pddbDict k.name))) := by
  rw [Account.set, Prog.run_bind, set_run]
  simp only [hArm]
  rfl

/-- Where the arm accepts, the question is whether the new field is the text
that is there. -/
theorem setKeeps_iff_of_arm {a' : Account U} (hArm : a.arm k value = some (.ok a')) :
    SetKeeps a k value env s ↔ Coherent a' (s.set a.pddbDict k.name
      (contentSet env a.pddbDict k.name value (s a.pddbDict k.name))) := by
  rw [SetKeeps, set_run_arm hArm]
  constructor
  · rintro ⟨r, b, hRun, hCoherent, -⟩
    obtain ⟨-, rfl⟩ := Prod.ext_iff.mp (Except.ok.inj hRun)
    exact hCoherent
  · exact fun hCoherent => ⟨.ok (), a', rfl, hCoherent, nofun⟩

/-- A run of `Account::set` for `host`. -/
theorem set_run_host : (a.set .host value).run serve env s =
    (.ok (.error (IoError.ofKind .notFound), a), s.set a.pddbDict Key.host.name
      (contentLeft (fun i => env (i + setRequests env a.pddbDict Key.host.name value))
        a.pddbDict Key.host.name
        (contentSet env a.pddbDict Key.host.name value (s a.pddbDict Key.host.name)))) := by
  rw [Account.set, Prog.run_bind, set_run, set_left]
  have hDelete := serve_deleteKey_left
    (fun i => env (i + setRequests env a.pddbDict Key.host.name value))
    (s.set a.pddbDict Key.host.name
      (contentSet env a.pddbDict Key.host.name value (s a.pddbDict Key.host.name)))
    a.pddbDict Key.host.name
  rw [Disk.set_same, Disk.set_set] at hDelete
  exact Prod.ext rfl hDelete

theorem set_keeps_host (hCoherent : Coherent a s) :
    SetKeeps a .host value env s ↔ SetTakes a .host value env s := by
  -- a coherent account has a `host`
  have hHost : s a.pddbDict Key.host.name ≠ none := fun hNone => by
    have h := coherent_iff.mp hCoherent .host
    simp [Holds, keyText, textOf, hNone] at h
  rw [SetKeeps, set_run_host, SetTakes, if_pos rfl]
  -- an error that leaves the disk as it was, or none
  constructor
  · rintro ⟨r, b, hRun, -, hErr⟩
    obtain ⟨rfl, rfl⟩ := Prod.ext_iff.mp (Except.ok.inj hRun)
    have hSame := congrFun (congrFun (hErr _ rfl).2 a.pddbDict) Key.host.name
    dsimp only at hSame
    rw [Disk.set_same, contentLeft] at hSame
    split at hSame
    · rename_i f hf
      rw [Nat.zero_add] at hf
      exact ⟨hSame, f, hf⟩
    · exact absurd hSame.symm hHost
  · rintro ⟨hContent, f, hf⟩
    have hSame : contentLeft (fun i => env (i + setRequests env a.pddbDict Key.host.name value))
        a.pddbDict Key.host.name (s a.pddbDict Key.host.name) = s a.pddbDict Key.host.name := by
      simp only [contentLeft, Nat.zero_add, hf]
    rw [hContent, hSame, Disk.set_self]
    exact ⟨_, a, rfl, hCoherent, fun _ _ => ⟨rfl, rfl⟩⟩

/-- Where the field is the value. -/
theorem set_keeps_arm (hLoaded : k ∈ loadedKeys) (hStale : ¬Stale k) (hParses : Parses U k value)
    (hCoherent : Coherent a s) : SetKeeps a k value env s ↔
      SameField U k
        (textOf (contentSet env a.pddbDict k.name value (s a.pddbDict k.name))) value := by
  obtain ⟨a', hArm, hDict, hHolds, hOther⟩ := arm_spec a hLoaded hStale hParses
  rw [setKeeps_iff_of_arm hArm, coherent_set_iff hDict hOther hCoherent, holds_iff_sameField hHolds]

/-- Where the field stays as it was. -/
theorem set_keeps_stale (hStale : Stale k) (hHost : k ≠ .host) (hCoherent : Coherent a s) :
    SetKeeps a k value env s ↔ SameField U k
      (textOf (contentSet env a.pddbDict k.name value (s a.pddbDict k.name)))
      (textOf (s a.pddbDict k.name)) := by
  have hArm : a.arm k value = some (.ok a) := by rw [arm_stale a hStale, if_neg hHost]
  rw [setKeeps_iff_of_arm hArm, coherent_set_iff rfl (fun _ _ _ => Iff.rfl) hCoherent,
    holds_iff_sameField (coherent_iff.mp hCoherent k)]
  exact Iff.rfl

/-- **When `set` keeps an account coherent**: exactly when what its requests
leave in the key fits the field. -/
theorem set_keeps_iff (hLoaded : k ∈ loadedKeys) (hParses : Parses U k value)
    (hCoherent : Coherent a s) : SetKeeps a k value env s ↔ SetTakes a k value env s := by
  by_cases hHost : k = .host
  · subst hHost
    exact set_keeps_host hCoherent
  · by_cases hStale : Stale k
    · rw [set_keeps_stale hStale hHost hCoherent, SetTakes, if_neg hHost, if_pos hStale]
    · rw [set_keeps_arm hLoaded hStale hParses hCoherent, SetTakes, if_neg hHost, if_neg hStale]

/-- A served `set` leaves the value. -/
theorem contentSet_served (d k : String) (old : Option Bytes) :
    contentSet (fun _ _ => .served) d k value old = value.map utf8 := by
  cases value with
  | none => rfl
  | some v =>
    have hWritten : contentWritten .served (utf8 v) [] = utf8 v := by
      show torn (utf8 v) [] (utf8 v).length = utf8 v
      rw [torn_nil, List.take_length]
    simp only [contentSet, contentLeft, Option.getD_none, hWritten, Option.map_some]

theorem runAll_set (dict : String) (k : Key) (value : Option String) (s : Disk) :
    (Accounts.set dict k value).runAll serve .served s =
      (.ok (), s.set dict k.name (value.map utf8)) := by
  rw [← contentSet_served dict k.name (s dict k.name)]
  exact set_run (fun _ _ => .served) dict k value s

/-- A text that fits the buffer is read as it is. -/
theorem textOf_utf8 {v : String} (hLen : v.utf8ByteSize ≤ 256) :
    textOf (some (utf8 v)) = some v := by
  have hTake : (utf8 v).take 256 = utf8 v := List.take_of_length_le hLen
  rw [textOf, Option.bind_some, hTake, fromUtf8_utf8]

/-- A text of at most 256 bytes is read back. -/
theorem textOf_map_utf8 (hLen : ∀ v, value = some v → v.utf8ByteSize ≤ 256) :
    textOf (value.map utf8) = value := by
  cases value with
  | none => rfl
  | some v => exact textOf_utf8 (hLen v rfl)

end SetKeeps

-- ---------------------------------------------------------------------------
-- A new account
-- ---------------------------------------------------------------------------

/-- The dictionary of a new account. -/
def freshDisk : Disk :=
  ((Accounts.new (U := .plain) accountDict "signal.org" .live).runAll serve .served
    (fun _ _ => none)).2

/-- The account it is read as. -/
def fresh : Account .plain where
  pddbDict := accountDict
  aciIdentityPrivate := none
  aciIdentityPublic := none
  aciServiceId := none
  deviceId := 0
  encryptedDeviceName := none
  host := "signal.org"
  isMultiDevice := false
  number := none
  password := none
  pinMasterKey := none
  pniIdentityPrivate := none
  pniIdentityPublic := none
  pniServiceId := none
  profileKey := none
  registered := false
  serviceEnvironment := .live
  storageKey := none
  storeLastReceiveTimestamp := 0
  storeManifestVersion := -1
  storeManifest := none

theorem fresh_coherent : Coherent fresh freshDisk := by
  rw [coherent_iff]
  intro k
  cases k <;> simp only [Holds] <;> decide +kernel

/-- Opening the key of the password fails. -/
def passwordNotCreated : Env Req Outcome := fun _ r =>
  match r with
  | .get _ key true =>
    if key = Key.password.name then .failed ⟨IoError.ofKind .other, by decide⟩ else .served
  | _ => .served

theorem parses_password : Parses .plain .password (some "secret") := trivial

/-- The password is not in the dictionary, `set` answers `Ok` and the field
holds it. -/
theorem set_loses_password :
    ¬∀ (a : Account .plain) (k : Key) (value : Option String) (env : Env Req Outcome) (s : Disk),
      k ∈ loadedKeys → Parses .plain k value → Coherent a s → SetKeeps a k value env s := by
  intro h
  have hKeeps := h fresh .password (some "secret") passwordNotCreated freshDisk (by decide)
    parses_password fresh_coherent
  have hSame := (set_keeps_arm (by decide) (by decide) parses_password fresh_coherent).mp hKeeps
  revert hSame
  show ¬_ = _
  decide +kernel

/-- The theorem for a password that is stored. -/
theorem set_keeps_iff_password :
    SetKeeps fresh .password (some "secret") (fun _ _ => .served) freshDisk := by
  refine (set_keeps_iff (by decide) parses_password fresh_coherent).mpr ?_
  show textOf _ = _
  decide +kernel

end Sigchat.Results

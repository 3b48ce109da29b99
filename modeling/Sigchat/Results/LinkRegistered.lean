import Sigchat.Results.AccountCache

/-!
# Linking, and when the account reports itself registered

Linking writes the account dictionary value by value and then the prekey
records. `is_registered` does not wait for the end: a device id, an ACI service
id and a password are enough. What the dictionary holds at a point at which
linking is stopped is found by what its requests touch.

* `HoldsOff` — why an account is not registered yet;
* `link_registered_usable` — where a stop is harmless: before the value that
  makes the account registered is created, or at the end;
* `link_stopped_midway` — a stop in between.
-/

namespace Sigchat.Results

open Sigchat.Lib
open Sigchat.Pddb
open Sigchat.Signal
open Sigchat.Stores
open Sigchat.Accounts

variable {U : UrlCrate} {L : Libsignal}

-- ---------------------------------------------------------------------------
-- Requests and results of the setters
-- ---------------------------------------------------------------------------

/-- The requests by which a key is set all satisfy `P`. -/
def SetRequests (P : Req → Prop) (dict : String) (k : Key) (value : Option String) : Prop :=
  P (.deleteKey dict k.name) ∧ P (.get dict k.name true) ∧
    ∀ v, value = some v → P (.write dict k.name 0 (utf8 v))

section Setters

variable {P : Req → Prop} {dict : String} {k : Key} {value : Option String} {a : Account U}
  {kvs : List (Key × Option String)}

/-- Setting a key makes the requests that are listed for it, and a sync. -/
theorem all_set (h : SetRequests P dict k value) (hSync : P .sync) :
    (Accounts.set dict k value).All P := by
  obtain ⟨hDelete, hGet, hWrite⟩ := h
  refine ⟨hDelete, fun _ => ?_⟩
  cases value with
  | none => trivial
  | some v =>
    refine ⟨hGet, fun x => ?_⟩
    cases x with
    | error e => trivial
    | ok _ =>
      refine ⟨hWrite v rfl, fun x => ?_⟩
      cases x with
      | error e => trivial
      | ok n => exact ⟨hSync, fun _ => trivial⟩

/-- Setting a key reports success whatever the PDDB answers. -/
theorem yields_set : (Accounts.set dict k value).Yields (· = .ok ()) := by
  intro _
  cases value with
  | none => rfl
  | some v =>
    intro x
    cases x with
    | error e => rfl
    | ok _ =>
      intro x
      cases x with
      | error e => rfl
      | ok n => exact fun _ => rfl

/-- The arms keep the name of the dictionary. -/
theorem arm_ok (a : Account U) (hHost : k ≠ .host) (hParses : Parses U k value) :
    ∃ a', a.arm k value = some (.ok a') ∧ a'.pddbDict = a.pddbDict := by
  cases k with
  | host => exact absurd rfl hHost
  | deviceId | isMultiDevice | registered | serviceEnvironment =>
    obtain ⟨x, hx⟩ := Option.isSome_iff_exists.mp hParses
    simp only [Account.arm, hx, unwrap, Except.map]
    exact ⟨_, rfl, rfl⟩
  | _ => exact ⟨_, rfl, rfl⟩

/-- Setting has ended well, with an account over the dictionary. -/
def SetDone (dict : String) (r : Except Panic (Except IoError Unit × Account U)) : Prop :=
  ∃ a', r = .ok (.ok (), a') ∧ a'.pddbDict = dict

theorem yields_accountSet (hDict : a.pddbDict = dict) (hHost : k ≠ .host)
    (hParses : Parses U k value) : (a.set k value).Yields (SetDone dict) := by
  refine yields_set.bind fun r hr => ?_
  subst hr
  obtain ⟨a', hArm, hDict'⟩ := arm_ok a hHost hParses
  simp only [hArm]
  exact ⟨a', rfl, hDict'.trans hDict⟩

theorem all_accountSet (hDict : a.pddbDict = dict) (h : SetRequests P dict k value)
    (hSync : P .sync) : (a.set k value).All P := by
  subst hDict
  refine (all_set h hSync).bind fun r => ?_
  cases r with
  | error e => trivial
  | ok _ =>
    dsimp only
    split
    · trivial
    · exact ⟨h.1, fun _ => trivial⟩

/-- Values that can be set. -/
def Settable (U : UrlCrate) (kvs : List (Key × Option String)) : Prop :=
  ∀ kv ∈ kvs, kv.1 ≠ .host ∧ Parses U kv.1 kv.2

/-- Set the values that follow, if the first ones have been set. -/
def thenSet (kvs : List (Key × Option String)) :
    Except Panic (Except IoError Unit × Account U) →
      Prog Resp (Except Panic (Except IoError Unit × Account U))
  | .error p => .done (.error p)
  | .ok (.error e, a') => .done (.ok (.error e, a'))
  | .ok (.ok (), a') => a'.setValues kvs

/-- Setting several values is setting the first and then the others. -/
theorem setValues_cons (a : Account U) (k : Key) (v : Option String)
    (kvs : List (Key × Option String)) :
    a.setValues ((k, v) :: kvs) = a.set k v >>= thenSet kvs := by
  rw [Account.setValues]
  rfl

/-- Setting values one after the other can be cut anywhere. -/
theorem setValues_append (a : Account U) (kvs kvs' : List (Key × Option String)) :
    a.setValues (kvs ++ kvs') = a.setValues kvs >>= thenSet kvs' := by
  induction kvs generalizing a with
  | nil => rfl
  | cons kv kvs ih =>
    obtain ⟨k, v⟩ := kv
    rw [List.cons_append, setValues_cons, setValues_cons, bind_assoc]
    congr 1
    funext r
    match r with
    | .error p => rfl
    | .ok (.error e, a') => rfl
    | .ok (.ok (), a') => exact ih a'

/-- Setting them all reports success, whatever the PDDB answers. -/
theorem yields_setValues (hDict : a.pddbDict = dict) (hSettable : Settable U kvs) :
    (a.setValues kvs).Yields (SetDone dict) := by
  induction kvs generalizing a with
  | nil => exact ⟨a, rfl, hDict⟩
  | cons kv kvs ih =>
    obtain ⟨k, v⟩ := kv
    obtain ⟨hHost, hParses⟩ := hSettable _ List.mem_cons_self
    rw [setValues_cons]
    refine (yields_accountSet hDict hHost hParses).bind fun r hr => ?_
    obtain ⟨a', rfl, hDict'⟩ := hr
    exact ih hDict' fun kv hkv => hSettable kv (List.mem_cons_of_mem _ hkv)

theorem all_setValues (hDict : a.pddbDict = dict) (hSettable : Settable U kvs)
    (h : ∀ kv ∈ kvs, SetRequests P dict kv.1 kv.2) (hSync : P .sync) : (a.setValues kvs).All P := by
  induction kvs generalizing a with
  | nil => trivial
  | cons kv kvs ih =>
    obtain ⟨k, v⟩ := kv
    obtain ⟨hHost, hParses⟩ := hSettable _ List.mem_cons_self
    rw [setValues_cons]
    refine (all_accountSet hDict (h _ List.mem_cons_self) hSync).bind_of_yields
      (yields_accountSet hDict hHost hParses) fun r hr => ?_
    obtain ⟨a', rfl, hDict'⟩ := hr
    exact ih hDict' (fun kv hkv => hSettable kv (List.mem_cons_of_mem _ hkv))
      fun kv hkv => h kv (List.mem_cons_of_mem _ hkv)

/-- Setting one key does not touch another. -/
theorem setRequests_other {k' : Key} (h : k' ≠ k) :
    SetRequests (fun r => ¬r.Touches dict k'.name) dict k value :=
  ⟨fun hr => h (Key.name_injective hr.2.symm), fun hr => h (Key.name_injective hr.2.symm),
    fun _ _ hr => h (Key.name_injective hr.2.symm)⟩

/-- If the requests for one key are served, the key holds the value afterwards.
-/
theorem wp_set_stores {adm : Req → Outcome → Prop} {v : String}
    (hAdm : ∀ r o, r.Touches dict k.name → adm r o → o = .served) (s : Disk) :
    (Accounts.set dict k (some v)).wp serve adm
      (fun _ s' => s' dict k.name = some (utf8 v)) s := by
  intro o ho
  obtain rfl := hAdm (.deleteKey dict k.name) o ⟨rfl, rfl⟩ ho
  -- Delete, create and write the whole value; the sync changes nothing.
  have hDelete : (serve .served (.deleteKey dict k.name) s).2 = s.set dict k.name none :=
    serve_deleteKey_left (fun _ _ => .served) s dict k.name
  rw [hDelete]
  intro o ho
  obtain rfl := hAdm (.get dict k.name true) o ⟨rfl, rfl⟩ ho
  rw [serve_create_of_not_failed (fun _ => Outcome.noConfusion), Disk.set_same, Disk.set_set]
  intro o ho
  obtain rfl := hAdm (.write dict k.name 0 (utf8 v)) o ⟨rfl, rfl⟩ ho
  have hWrite : serve .served (.write dict k.name 0 (utf8 v)) (s.set dict k.name (some [])) =
      (.ok (utf8 v).length, s.set dict k.name (some (utf8 v))) := by
    simp only [serve, perform, Disk.set_same, Disk.set_set, Outcome.limit]
    rw [overlay_zero _ _ _ (Nat.le_refl _), torn_nil, List.take_length]
  rw [Option.getD_none, hWrite]
  intro o _
  rw [serve_sync]
  exact Disk.set_same _ _ _ _

theorem SetRequests.and {P' : Req → Prop} (h : SetRequests P dict k value)
    (h' : SetRequests P' dict k value) : SetRequests (fun r => P r ∧ P' r) dict k value :=
  ⟨⟨h.1, h'.1⟩, ⟨h.2.1, h'.2.1⟩, fun v hv => ⟨h.2.2 v hv, h'.2.2 v hv⟩⟩

/-- **What is set stays.** A value whose requests are served is in the
dictionary once all values have been set. -/
theorem wp_setValues_stores {adm : Req → Outcome → Prop} {v : String}
    (hDict : a.pddbDict = dict) (hSettable : Settable U kvs) (hNodup : (kvs.map Prod.fst).Nodup)
    (hMem : (k, some v) ∈ kvs) (hAdm : ∀ r o, r.Touches dict k.name → adm r o → o = .served)
    (s : Disk) :
    (a.setValues kvs).wp serve adm (fun _ s' => s' dict k.name = some (utf8 v)) s := by
  -- The keys are set one after the other; each key occurs once, so the one in question is
  -- set by one of them.
  induction kvs generalizing a s with
  | nil => exact absurd hMem List.not_mem_nil
  | cons kv kvs ih =>
    obtain ⟨k', v'⟩ := kv
    obtain ⟨hHost, hParses⟩ := hSettable _ List.mem_cons_self
    have hRest : Settable U kvs := fun kv hkv => hSettable kv (List.mem_cons_of_mem _ hkv)
    rw [List.map_cons, List.nodup_cons] at hNodup
    rw [setValues_cons, Prog.wp_bind]
    have hDone : (a.set k' v').wp serve adm (fun r _ => SetDone dict r) s :=
      Prog.wp_of_yields (yields_accountSet hDict hHost hParses)
    rcases List.mem_cons.mp hMem with hHead | hTail
    · -- the others do not touch it
      obtain ⟨rfl, rfl⟩ := Prod.ext_iff.mp hHead
      have hStores : (a.set k (some v)).wp serve adm
          (fun _ s' => s' dict k.name = some (utf8 v)) s := by
        subst hDict
        refine Prog.wp_bind.mpr (Prog.wp_mono (fun r s' hr => ?_)
          (Prog.wp_and (wp_set_stores hAdm s) (Prog.wp_of_yields yields_set)))
        obtain ⟨hr, rfl⟩ := hr
        obtain ⟨a', hArm, -⟩ := arm_ok a hHost hParses
        simp only [hArm]
        exact hr
      refine Prog.wp_mono (fun r s' hr => ?_) (Prog.wp_and hStores hDone)
      obtain ⟨hContent, a', rfl, hDict'⟩ := hr
      refine Prog.wp_of_all (I := fun s'' => s'' dict k.name = some (utf8 v))
        (P := fun r : Req => ¬r.Touches dict k.name)
        (fun r hr o s'' hs'' => (serve_frame hr o s'').trans hs'') ?_ hContent
      refine all_setValues hDict' hRest (fun kv hkv => setRequests_other fun hk => ?_) id
      have hKey : kv.1 ∈ kvs.map Prod.fst := List.mem_map_of_mem hkv
      rw [← hk] at hKey
      exact hNodup.1 hKey
    · refine Prog.wp_mono (fun r s' hr => ?_) hDone
      obtain ⟨a', rfl, hDict'⟩ := hr
      exact ih hDict' hRest hNodup.2 hTail s'

end Setters

-- ---------------------------------------------------------------------------
-- Registered and usable
-- ---------------------------------------------------------------------------

/-- The account read back from the dictionary reports itself registered. -/
def reportsRegistered (U : UrlCrate) (s : Disk) : Bool :=
  match ((Accounts.read accountDict :
    Prog Resp (Except Panic (Except IoError (Account U)))).runAll serve .served s).1 with
  | .ok (.ok a) => a.isRegistered
  | _ => false

/-- The values the receive and send paths read from the account dictionary. -/
def neededValues (msg : ProvisionMessage) (l : Linked L) : List (Key × String) :=
  [(.password, l.password), (.deviceId, decimal l.deviceId.toNat),
    (.aciServiceId, msg.aci.serviceId), (.aciIdentityPrivate, msg.aci.djbPrivateKey),
    (.aciIdentityPublic, msg.aci.djbIdentityKey),
    (.registrationId, decimal l.registrationId.toNat),
    (.pniRegistrationId, decimal l.pniRegistrationId.toNat)]

/-- A record is stored under its id. -/
def SavedSigned (s : Disk) (record : L.signedPreKey.Record) : Prop :=
  ∃ id bs, L.signedPreKeyId record = .ok id ∧ L.signedPreKey.serialize record = .ok bs ∧
    s signedPreKeyDict (idKey id) = some bs

def SavedKyber (s : Disk) (record : L.kyberPreKey.Record) : Prop :=
  ∃ id bs, L.kyberPreKeyId record = .ok id ∧ L.kyberPreKey.serialize record = .ok bs ∧
    s kyberPreKeyDict (idKey id) = some bs

/-- Everything a registered account needs is there. -/
structure Usable (s : Disk) (msg : ProvisionMessage) (l : Linked L) : Prop where
  values : ∀ kv ∈ neededValues msg l, keyText s accountDict kv.1 = some kv.2
  aciSigned : SavedSigned s l.generated.aciSignedRecord
  pniSigned : SavedSigned s l.generated.pniSignedRecord
  aciKyber : SavedKyber s l.generated.aciKyberRecord
  pniKyber : SavedKyber s l.generated.pniKyberRecord

/-- Registered implies usable, where linking has been stopped after `n`
requests. -/
def RegisteredUsable (S : LinkServices U L) (a : Account U) (deviceName : String)
    (msg : ProvisionMessage) (env : Env Req Outcome) (n : Nat) (s : Disk) : Prop :=
  reportsRegistered U ((a.link S deviceName msg).after serve n env s) = true →
    ∃ l, upload S a deviceName msg = .ok l ∧
      Usable ((a.link S deviceName msg).after serve n env s) msg l

-- ---------------------------------------------------------------------------
-- Before the account is registered
-- ---------------------------------------------------------------------------

/-- The registered flag is not set. -/
def FlagOff (s : Disk) : Prop :=
  s accountDict Key.registered.name = none ∨
    s accountDict Key.registered.name = some (utf8 "false")

/-- The device id is not there or zero. -/
def DeviceZero (s : Disk) : Prop :=
  s accountDict Key.deviceId.name = none ∨ s accountDict Key.deviceId.name = some [] ∨
    s accountDict Key.deviceId.name = some (utf8 "0")

/-- Why the account is not registered: the flag is off, and there is no ACI
service id or no device id. -/
def HoldsOff (s : Disk) : Prop :=
  FlagOff s ∧ (s accountDict Key.aciServiceId.name = none ∨ DeviceZero s)

/-- An account whose flag is off and that lacks the service id or the device id
is not reported as registered. -/
theorem not_reportsRegistered {s : Disk} (h : HoldsOff s) : reportsRegistered U s = false := by
  unfold reportsRegistered
  split
  · rename_i a hRead
    rw [runAll_read, ofTexts_eq_iff] at hRead
    obtain ⟨-, hHolds⟩ := hRead
    obtain ⟨hFlag, hOff⟩ := h
    have hRegistered : a.registered = false := by
      have hText := hHolds .registered
      -- A missing flag does not parse at all, so the account is not read.
      rcases hFlag with hNone | hFalse
      · simp [Holds, keyText, textOf, hNone] at hText
      · have hParse : (textOf (some (utf8 "false"))).bind parseBool = some false := by
          decide +kernel
        rw [Holds, keyText, hFalse, hParse] at hText
        exact (Option.some.inj hText).symm
    rcases hOff with hNone | hZero
    · have hText : a.aciServiceId = none := by
        have hText := hHolds .aciServiceId
        rw [Holds, keyText, hNone] at hText
        exact hText.symm
      simp [Account.isRegistered, hRegistered, hText]
    · have hDevice : a.deviceId = 0 := by
        have hText := hHolds .deviceId
        rw [Holds, keyText] at hText
        rcases hZero with hNone | hEmpty | hZero
        · simp [hNone, textOf] at hText
        · have hParse : (textOf (some [])).bind parseDeviceId = none := by decide +kernel
          rw [hEmpty, hParse] at hText
          exact absurd hText (Option.some_ne_none _).symm
        · have hParse : (textOf (some (utf8 "0"))).bind parseDeviceId = some 0 := by decide +kernel
          rw [hZero, hParse] at hText
          exact (Option.some.inj hText).symm
      simp [Account.isRegistered, hRegistered, hDevice]
  · rfl

-- ---------------------------------------------------------------------------
-- The dictionary of a new account
-- ---------------------------------------------------------------------------

/-- The dictionary once the values have been stored. -/
def stored (dict : String) (kvs : List (Key × Option String)) (s : Disk) : Disk :=
  kvs.foldl (fun s kv => s.set dict kv.1.name (kv.2.map utf8)) s

/-- Where every request is served the values are on disk. -/
theorem runAll_setAll (dict : String) (kvs : List (Key × Option String)) (s : Disk) :
    (setAll dict kvs).runAll serve .served s = (.ok (), stored dict kvs s) := by
  induction kvs generalizing s with
  | nil => rfl
  | cons kv kvs ih =>
    obtain ⟨k, v⟩ := kv
    rw [setAll, Prog.runAll_bind, runAll_set]
    exact ih _

/-- A key that is not among them is as it was. -/
theorem stored_other {dict : String} {kvs : List (Key × Option String)} {k : Key}
    (h : k ∉ kvs.map Prod.fst) (s : Disk) : stored dict kvs s dict k.name = s dict k.name := by
  induction kvs generalizing s with
  | nil => rfl
  | cons kv kvs ih =>
    rw [List.map_cons, List.mem_cons, not_or] at h
    rw [stored, List.foldl_cons]
    exact (ih h.2 _).trans
      (Disk.set_other _ _ fun hk => h.1 (Key.name_injective hk.2))

/-- One that is among them holds its value. -/
theorem stored_of_mem {dict : String} {kvs : List (Key × Option String)} {k : Key}
    {v : Option String} (hNodup : (kvs.map Prod.fst).Nodup) (hMem : (k, v) ∈ kvs) (s : Disk) :
    stored dict kvs s dict k.name = v.map utf8 := by
  induction kvs generalizing s with
  | nil => exact absurd hMem List.not_mem_nil
  | cons kv kvs ih =>
    rw [List.map_cons, List.nodup_cons] at hNodup
    rw [stored, List.foldl_cons]
    rcases List.mem_cons.mp hMem with rfl | hTail
    · exact (stored_other hNodup.1 _).trans (Disk.set_same _ _ _ _)
    · exact ih hNodup.2 hTail _

/-- `Account::new` without failures: the defaults are stored and read back. -/
theorem runAll_new (dict : String) (host : U.Host) (se : ServiceEnvironment) (s : Disk) :
    (Accounts.new dict host se).runAll serve .served s =
      (ofTexts dict (keyText (stored dict (defaults host se) s) dict),
        stored dict (defaults host se) s) := by
  rw [Accounts.new, Prog.runAll_bind, runAll_setAll]
  exact runAll_read dict _

/-- The account and the dictionary `Account::new` leaves. -/
structure NewAccount (a : Account U) (s : Disk) : Prop where
  dict : a.pddbDict = accountDict
  notPrimary : a.isPrimaryDevice = false
  flag : s accountDict Key.registered.name = some (utf8 "false")
  aci : s accountDict Key.aciServiceId.name = none
  device : s accountDict Key.deviceId.name = some (utf8 "0")

/-- What `Account::new` returns and leaves on disk when it succeeds. -/
theorem newAccount {host : U.Host} {se : ServiceEnvironment} {s₀ s : Disk} {a : Account U}
    (hNew : (Accounts.new accountDict host se).runAll serve .served s₀ = (.ok (.ok a), s)) :
    NewAccount a s := by
  rw [runAll_new] at hNew
  obtain ⟨hTexts, hStored⟩ := Prod.ext_iff.mp hNew
  dsimp only at hTexts hStored
  have hNodup : ((defaults host se).map Prod.fst).Nodup := by
    show loadedKeys.Nodup
    decide
  have hAt {k : Key} {v : Option String} (hMem : (k, v) ∈ defaults host se) :
      s accountDict k.name = v.map utf8 := by
    rw [← hStored]
    exact stored_of_mem hNodup hMem s₀
  have hFlag : s accountDict Key.registered.name = some (utf8 "false") :=
    hAt (v := some "false") (by simp [defaults])
  have hAci : s accountDict Key.aciServiceId.name = none := hAt (v := none) (by simp [defaults])
  have hDevice : s accountDict Key.deviceId.name = some (utf8 "0") :=
    hAt (v := some "0") (by simp [defaults])
  rw [hStored] at hTexts
  have hDict := (ofTexts_eq_iff.mp hTexts).1
  -- What the disk says of the account is what the account says of itself.
  have hReports : reportsRegistered U s = a.isRegistered := by
    rw [reportsRegistered, runAll_read, hTexts]
  have hOff : reportsRegistered U s = false := not_reportsRegistered ⟨.inr hFlag, .inl hAci⟩
  refine ⟨hDict, ?_, hFlag, hAci, hDevice⟩
  rw [Account.isPrimaryDevice, ← hReports, hOff, Bool.false_and]

-- ---------------------------------------------------------------------------
-- The values of a linked account
-- ---------------------------------------------------------------------------

theorem parseDeviceId_decimal (id : UInt32) : parseDeviceId (decimal id.toNat) = some id := by
  rw [parseDeviceId, parseU32_decimal id.toNat_lt, Option.map_some, UInt32.ofNat_toNat]

/-- All the values a link writes are accepted by the fields they are for. -/
theorem settable_linkValues (msg : ProvisionMessage) (l : Linked L) :
    Settable U (linkValues msg l) := by
  have hTrue : (parseBool "true").isSome := by decide +kernel
  have hVersion : (parseI64 "-1").isSome := by decide +kernel
  unfold Settable linkValues identityValues profileValues
  cases msg.accountEntropyPool <;>
    simp [Parses, parseDeviceId_decimal, hTrue, hVersion]

theorem nodup_linkValues (msg : ProvisionMessage) (l : Linked L) :
    ((linkValues msg l).map Prod.fst).Nodup := by
  unfold linkValues identityValues profileValues
  cases msg.accountEntropyPool <;>
    simp only [List.cons_append, List.nil_append, List.map_cons, List.map_nil] <;> decide

/-- A needed value is one of the values that are set. -/
theorem mem_linkValues_of_needed {msg : ProvisionMessage} {l : Linked L} {kv : Key × String}
    (h : kv ∈ neededValues msg l) : (kv.1, some kv.2) ∈ linkValues msg l := by
  simp only [neededValues, List.mem_cons, List.not_mem_nil, or_false] at h
  rcases h with rfl | rfl | rfl | rfl | rfl | rfl | rfl <;>
    simp [linkValues, identityValues, profileValues]

-- ---------------------------------------------------------------------------
-- Stopped early
-- ---------------------------------------------------------------------------

/-- The end of linking, once the values have been set. -/
def thenSave (l : Linked L) : Except Panic (Except IoError Unit × Account U) →
    Prog Resp (Except Panic (Except IoError Bool × Account U))
  | .error p => .done (.error p)
  | .ok (.error e, a') => .done (.ok (.error e, a'))
  | .ok (.ok (), a') => do
    match ← saveToPddb l.generated with
    | .error e => return .ok (.error e, a')
    | .ok () => return .ok (.ok true, a')

theorem saveLinked_eq (a : Account U) (msg : ProvisionMessage) (l : Linked L) :
    a.saveLinked msg l = a.setValues (linkValues msg l) >>= thenSave l := by
  rw [Account.saveLinked]
  rfl

section Early

variable {a : Account U} {msg : ProvisionMessage} {l : Linked L} {env : Env Req Outcome} {n : Nat}
  {s : Disk} {first rest : List (Key × Option String)} {k : Key} {v : Option String}

/-- **Points before a value is created.** An invariant of the requests that set
the values in front of it, and of the request that deletes its key, holds at
every point up to that request. -/
theorem saveLinked_early (I : Disk → Prop) (P : Req → Prop)
    (hValues : linkValues msg l = first ++ (k, v) :: rest)
    (hDict : a.pddbDict = accountDict) (hKeep : ∀ r, P r → ∀ o s, I s → I (serve o r s).2)
    (hAll : ∀ kv ∈ first, SetRequests P accountDict kv.1 kv.2) (hSync : P .sync)
    (hLast : ∀ o s, I s → I (serve o (.deleteKey accountDict k.name) s).2) (hs : I s)
    (hn : n ≤ (a.setValues first).steps serve env s + 1) :
    I ((a.saveLinked msg l).after serve n env s) := by
  have hSettable : Settable U first := fun kv hkv => by
    refine settable_linkValues msg l kv ?_
    rw [hValues]
    exact List.mem_append_left _ hkv
  have hAllFirst : (a.setValues first).All P := all_setValues hDict hSettable hAll hSync
  rw [saveLinked_eq, hValues, setValues_append, bind_assoc]
  -- The stop is within the first values, or right after them.
  by_cases hFirst : n ≤ (a.setValues first).steps serve env s
  · rw [Prog.after_bind_of_le _ _ _ hFirst]
    exact Prog.always_after_any (Prog.always_of_all hKeep hAllFirst hs) env n
  · -- one request later
    have hOne : n - (a.setValues first).steps serve env s = 1 := by omega
    have hEnd : I ((a.setValues first).run serve env s).2 :=
      Prog.wp_run_any (Prog.wp_of_all hKeep hAllFirst hs) env
    have hYields : (a.setValues first).wp serve (fun _ _ => True)
        (fun r _ => SetDone accountDict r) s := Prog.wp_of_yields (yields_setValues hDict hSettable)
    obtain ⟨a', hDone, hDict'⟩ := Prog.wp_run_any hYields env
    rw [Prog.after_bind_of_ge _ _ _ (by omega), hOne, hDone]
    rw [← hDict'] at hLast
    exact hLast _ _ hEnd

theorem flagOff_of_frame {r : Req} (hr : ¬r.Touches accountDict Key.registered.name) (o : Outcome)
    {s : Disk} (hs : FlagOff s) : FlagOff (serve o r s).2 := by
  rw [FlagOff, serve_frame hr]
  exact hs

/-- Deleting a key other than the flag's leaves the flag off. -/
theorem flagOff_deleteKey (hk : k ≠ .registered) (o : Outcome) {s : Disk} (hs : FlagOff s) :
    FlagOff (serve o (.deleteKey accountDict k.name) s).2 := by
  have hOther : ¬Req.Touches accountDict Key.registered.name (.deleteKey accountDict k.name) :=
    fun hr => hk (Key.name_injective hr.2)
  exact flagOff_of_frame hOther o hs

/-- A deleted key is absent, unless the request failed. -/
theorem deleteKey_same (o : Outcome) (s : Disk) (d k : String) :
    (serve o (.deleteKey d k) s).2 d k = s d k ∨ (serve o (.deleteKey d k) s).2 d k = none := by
  rcases serve_deleteKey o s d k with ⟨f, -, h⟩ | h
  · exact .inl (by rw [h])
  · exact .inr (by rw [h, Disk.set_same])

/-- Before the ACI service id is created. -/
theorem holdsOff_of_no_aci (hNew : NewAccount a s)
    (hn : n ≤ (a.setValues (identityValues msg l)).steps serve env s + 1) :
    HoldsOff ((a.saveLinked msg l).after serve n env s) := by
  suffices hPoint : FlagOff ((a.saveLinked msg l).after serve n env s) ∧
      (a.saveLinked msg l).after serve n env s accountDict Key.aciServiceId.name = none from
    ⟨hPoint.1, .inl hPoint.2⟩
  -- The service id is the fifth key, so up to its deletion the first four are all that is
  -- touched.
  refine saveLinked_early (fun s => FlagOff s ∧ s accountDict Key.aciServiceId.name = none)
    (fun r => ¬r.Touches accountDict Key.registered.name ∧
      ¬r.Touches accountDict Key.aciServiceId.name)
    (List.append_assoc ..) hNew.dict ?_ ?_ ⟨id, id⟩ ?_ ⟨.inr hNew.flag, hNew.aci⟩ hn
  · intro r hr o s hs
    exact ⟨flagOff_of_frame hr.1 o hs.1, (serve_frame hr.2 o s).trans hs.2⟩
  · intro kv hkv
    have hKeys : ∀ k ∈ [Key.password, .deviceId, .aciIdentityPrivate, .aciIdentityPublic],
        Key.registered ≠ k ∧ Key.aciServiceId ≠ k := by decide
    obtain ⟨hFlag, hAci⟩ := hKeys kv.1 (List.mem_map_of_mem hkv)
    exact (setRequests_other hFlag).and (setRequests_other hAci)
  · intro o s hs
    refine ⟨flagOff_deleteKey (by decide) o hs.1, ?_⟩
    rcases deleteKey_same o s accountDict Key.aciServiceId.name with h | h
    · exact h.trans hs.2
    · exact h

/-- A request that keeps the device id absent or zero. -/
def KeepsZero (r : Req) : Prop :=
  ¬r.Touches accountDict Key.deviceId.name ∨ r = .deleteKey accountDict Key.deviceId.name ∨
    r = .get accountDict Key.deviceId.name true ∨
    r = .write accountDict Key.deviceId.name 0 (utf8 "0")

/-- Creating the key of the device id leaves it at zero, empty or absent. -/
theorem deviceZero_create (o : Outcome) {s : Disk} (hs : DeviceZero s) :
    DeviceZero (serve o (.get accountDict Key.deviceId.name true) s).2 := by
  rcases serve_create o s accountDict Key.deviceId.name with ⟨f, -, h⟩ | h
  · rw [h]
    exact hs
  · have hContent : (serve o (.get accountDict Key.deviceId.name true) s).2 accountDict
        Key.deviceId.name = some ((s accountDict Key.deviceId.name).getD []) := by
      simp only [h, Disk.set_same]
    rw [DeviceZero, hContent]
    rcases hs with hOld | hOld | hOld <;> simp [hOld]

/-- Writing a zero writes nothing, or all of it. -/
theorem deviceZero_write (o : Outcome) {s : Disk} (hs : DeviceZero s) :
    DeviceZero (serve o (.write accountDict Key.deviceId.name 0 (utf8 "0")) s).2 := by
  rcases Option.eq_none_or_eq_some (s accountDict Key.deviceId.name) with hOld | ⟨old, hOld⟩
  · have hSame : (serve o (.write accountDict Key.deviceId.name 0 (utf8 "0")) s).2 = s := by
      cases o <;> simp [serve, perform, hOld]
    rw [hSame]
    exact hs
  · rcases serve_write (o := o) hOld 0 (utf8 "0") with ⟨f, -, h⟩ | h
    · rw [h]
      exact hs
    · have hLimit := o.limit_le (utf8 "0").length
      have hContent : (serve o (.write accountDict Key.deviceId.name 0 (utf8 "0")) s).2
          accountDict Key.deviceId.name =
            some (torn (utf8 "0") old (o.limit (utf8 "0").length)) := by
        simp only [h, overlay_zero _ _ _ hLimit, Disk.set_same]
      have hLength : (utf8 "0").length = 1 := by decide
      rw [DeviceZero, hContent]
      rw [hLength] at hLimit ⊢
      -- The text "0" has one byte, so it is written whole or not at all.
      obtain hNone | hAll : o.limit 1 = 0 ∨ o.limit 1 = 1 := by omega
      · rw [hNone, torn_zero, ← hOld]
        exact hs
      · have hDrop : old.drop 1 = [] := by
          rcases hs with hAbsent | hEmpty | hZero
          · rw [hAbsent] at hOld
            exact absurd hOld (Option.some_ne_none _).symm
          · rw [hEmpty] at hOld
            rw [← Option.some.inj hOld, List.drop_nil]
          · rw [hZero] at hOld
            rw [← Option.some.inj hOld]
            decide
        rw [hAll, torn, hDrop]
        exact .inr (.inr (by decide))

theorem deviceZero_of_keepsZero {r : Req} (hr : KeepsZero r) (o : Outcome) {s : Disk}
    (hs : DeviceZero s) : DeviceZero (serve o r s).2 := by
  rcases hr with hr | rfl | rfl | rfl
  · rw [DeviceZero, serve_frame hr]
    exact hs
  · rw [DeviceZero]
    rcases deleteKey_same o s accountDict Key.deviceId.name with h | h
    · rw [h]
      exact hs
    · exact .inl h
  · exact deviceZero_create o hs
  · exact deviceZero_write o hs

/-- With device id zero, before the registered flag is created. -/
theorem holdsOff_of_zero (hNew : NewAccount a s) (hZero : l.deviceId = 0)
    (hn : n ≤ (a.setValues (identityValues msg l ++ profileValues msg l)).steps serve env s + 1) :
    HoldsOff ((a.saveLinked msg l).after serve n env s) := by
  suffices hPoint : FlagOff ((a.saveLinked msg l).after serve n env s) ∧
      DeviceZero ((a.saveLinked msg l).after serve n env s) from ⟨hPoint.1, .inr hPoint.2⟩
  refine saveLinked_early (fun s => FlagOff s ∧ DeviceZero s)
    (fun r => ¬r.Touches accountDict Key.registered.name ∧ KeepsZero r)
    rfl hNew.dict ?_ ?_ ⟨id, .inl id⟩ ?_ ⟨.inr hNew.flag, .inr (.inr hNew.device)⟩ hn
  · intro r hr o s hs
    exact ⟨flagOff_of_frame hr.1 o hs.1, deviceZero_of_keepsZero hr.2 o hs.2⟩
  -- No value before the last is the flag's, and the one for the device id is "0".
  · intro kv hkv
    have hNodup := nodup_linkValues msg l
    rw [linkValues, List.map_append, List.nodup_append'] at hNodup
    obtain ⟨hNodup, -, hDisjoint⟩ := hNodup
    refine (setRequests_other fun hk => ?_).and ?_
    · exact hDisjoint (List.mem_map_of_mem hkv) (hk ▸ List.mem_singleton_self _)
    · by_cases hk : Key.deviceId = kv.1
      · -- the value is zero
        have hMem : (Key.deviceId, some (decimal l.deviceId.toNat)) ∈
            identityValues msg l ++ profileValues msg l := by simp [identityValues]
        have hEq := List.inj_on_of_nodup_map hNodup hMem hkv hk
        rw [← hEq, hZero]
        exact ⟨.inr (.inl rfl), .inr (.inr (.inl rfl)), fun v hv => by
          obtain rfl := Option.some.inj hv
          exact .inr (.inr (.inr rfl))⟩
      · have hOther : SetRequests (fun r => ¬r.Touches accountDict Key.deviceId.name) accountDict
            kv.1 kv.2 := setRequests_other hk
        exact ⟨.inl hOther.1, .inl hOther.2.1, fun v hv => .inl (hOther.2.2 v hv)⟩
  · intro o s hs
    refine ⟨?_, ?_⟩
    · rw [FlagOff]
      rcases deleteKey_same o s accountDict Key.registered.name with h | h
      · rw [h]
        exact hs.1
      · exact .inl h
    · refine deviceZero_of_keepsZero (.inl fun hr => ?_) o hs.2
      exact absurd (Key.name_injective hr.2) (by decide)

end Early

-- ---------------------------------------------------------------------------
-- Linked to the end
-- ---------------------------------------------------------------------------

section Late

variable {adm : Req → Outcome → Prop} {s : Disk}

/-- A record is stored if the requests for its id succeed. -/
theorem wp_saveUnder {dict : String} {id : UInt32} {bs : Bytes}
    (hAdm : ∀ r o, r.Touches dict (idKey id) → adm r o → o.Succeeds) :
    (saveUnder L dict (.ok id) (.ok bs)).wp serve adm
      (fun res s' => res = .ok () ∧ s' = s.set dict (idKey id) (some bs)) s := by
  refine Prog.wp_bind.mpr (Prog.wp_mono (fun r s' hr => ?_) (Stores.wp_writeRecord_ok hAdm))
  obtain ⟨rfl, rfl⟩ := hr
  exact ⟨rfl, rfl⟩

theorem wp_saveSigned {record : L.signedPreKey.Record} {id : UInt32} {bs : Bytes}
    (hId : L.signedPreKeyId record = .ok id) (hBytes : L.signedPreKey.serialize record = .ok bs)
    (hAdm : ∀ r o, r.Touches signedPreKeyDict (idKey id) → adm r o → o.Succeeds) :
    (saveSigned record).wp serve adm
      (fun res s' => res = .ok () ∧ s' = s.set signedPreKeyDict (idKey id) (some bs)) s := by
  rw [saveSigned_under, hId, hBytes]
  exact wp_saveUnder hAdm

theorem wp_saveKyber {record : L.kyberPreKey.Record} {id : UInt32} {bs : Bytes}
    (hId : L.kyberPreKeyId record = .ok id) (hBytes : L.kyberPreKey.serialize record = .ok bs)
    (hAdm : ∀ r o, r.Touches kyberPreKeyDict (idKey id) → adm r o → o.Succeeds) :
    (saveKyber record).wp serve adm
      (fun res s' => res = .ok () ∧ s' = s.set kyberPreKeyDict (idKey id) (some bs)) s := by
  rw [saveKyber_under, hId, hBytes]
  exact wp_saveUnder hAdm

/-- The generated prekeys can be stored: they have ids and serialise, and the
two ids of each kind differ. -/
structure Storable (g : Prekeys L) : Prop where
  signed : ∃ i j bs bs', L.signedPreKeyId g.aciSignedRecord = .ok i ∧
    L.signedPreKeyId g.pniSignedRecord = .ok j ∧ i ≠ j ∧
    L.signedPreKey.serialize g.aciSignedRecord = .ok bs ∧
    L.signedPreKey.serialize g.pniSignedRecord = .ok bs'
  kyber : ∃ i j bs bs', L.kyberPreKeyId g.aciKyberRecord = .ok i ∧
    L.kyberPreKeyId g.pniKyberRecord = .ok j ∧ i ≠ j ∧
    L.kyberPreKey.serialize g.aciKyberRecord = .ok bs ∧
    L.kyberPreKey.serialize g.pniKyberRecord = .ok bs'

/-- All four records are stored, and the account is as before. -/
theorem wp_saveToPddb {g : Prekeys L} (hStorable : Storable g)
    (hSigned : ∀ id r o, r.Touches signedPreKeyDict (idKey id) → adm r o → o.Succeeds)
    (hKyber : ∀ id r o, r.Touches kyberPreKeyDict (idKey id) → adm r o → o.Succeeds) :
    (saveToPddb g).wp serve adm
      (fun _ s' => (SavedSigned s' g.aciSignedRecord ∧ SavedSigned s' g.pniSignedRecord ∧
        SavedKyber s' g.aciKyberRecord ∧ SavedKyber s' g.pniKyberRecord) ∧
        ∀ k, s' accountDict k = s accountDict k) s := by
  -- The ids of a kind differ, so a later record does not replace an earlier one.
  obtain ⟨i, j, bs, bs', hi, hj, hij, hbs, hbs'⟩ := hStorable.signed
  obtain ⟨p, q, cs, cs', hp, hq, hpq, hcs, hcs'⟩ := hStorable.kyber
  refine Prog.wp_bind.mpr (Prog.wp_mono (fun r s₁ h₁ => ?_) (wp_saveSigned hi hbs (hSigned i)))
  obtain ⟨rfl, h₁⟩ := h₁
  refine Prog.wp_bind.mpr (Prog.wp_mono (fun r s₂ h₂ => ?_) (wp_saveSigned hj hbs' (hSigned j)))
  obtain ⟨rfl, h₂⟩ := h₂
  refine Prog.wp_bind.mpr (Prog.wp_mono (fun r s₃ h₃ => ?_) (wp_saveKyber hp hcs (hKyber p)))
  obtain ⟨rfl, h₃⟩ := h₃
  refine Prog.wp_mono (fun r s₄ h₄ => ?_) (wp_saveKyber hq hcs' (hKyber q))
  obtain ⟨-, h₄⟩ := h₄
  -- Signed prekeys, Kyber prekeys and the account are in three dictionaries.
  have hDicts : signedPreKeyDict ≠ kyberPreKeyDict ∧ accountDict ≠ signedPreKeyDict ∧
      accountDict ≠ kyberPreKeyDict := by decide +kernel
  obtain ⟨hSK, hAS, hAK⟩ := hDicts
  refine ⟨⟨⟨i, bs, hi, hbs, ?_⟩, ⟨j, bs', hj, hbs', ?_⟩, ⟨p, cs, hp, hcs, ?_⟩,
    ⟨q, cs', hq, hcs', ?_⟩⟩, fun k => ?_⟩
  · rw [h₄, Disk.set_other _ _ fun h => hSK h.1, h₃, Disk.set_other _ _ fun h => hSK h.1, h₂,
      Disk.set_other _ _ fun h => hij (idKey_injective h.2), h₁, Disk.set_same]
  · rw [h₄, Disk.set_other _ _ fun h => hSK h.1, h₃, Disk.set_other _ _ fun h => hSK h.1, h₂,
      Disk.set_same]
  · rw [h₄, Disk.set_other _ _ fun h => hpq (idKey_injective h.2), h₃, Disk.set_same]
  · rw [h₄, Disk.set_same]
  · rw [h₄, Disk.set_other _ _ fun h => hAK h.1, h₃, Disk.set_other _ _ fun h => hAK h.1, h₂,
      Disk.set_other _ _ fun h => hAS h.1, h₁, Disk.set_other _ _ fun h => hAS h.1]

/-- The requests about what a registered account needs are served, those about
its values in one piece. -/
def NeedsServed (msg : ProvisionMessage) (l : Linked L) (r : Req) (o : Outcome) : Prop :=
  (∀ kv ∈ neededValues msg l, r.Touches accountDict kv.1.name → o = .served) ∧
    (∀ id, r.Touches signedPreKeyDict (idKey id) → o.Succeeds) ∧
    ∀ id, r.Touches kyberPreKeyDict (idKey id) → o.Succeeds

/-- **The end of linking.** -/
theorem wp_saveLinked_usable {a : Account U} {msg : ProvisionMessage} {l : Linked L}
    (hDict : a.pddbDict = accountDict) (hStorable : Storable l.generated)
    (hFits : ∀ kv ∈ neededValues msg l, kv.2.utf8ByteSize ≤ 256) :
    (a.saveLinked msg l).wp serve (NeedsServed msg l) (fun _ s' => Usable s' msg l) s := by
  -- Each needed value is stored, because the keys of a link are all different.
  have hStored : (a.setValues (linkValues msg l)).wp serve (NeedsServed msg l)
      (fun _ s' => ∀ kv : {kv // kv ∈ neededValues msg l},
        s' accountDict kv.1.1.name = some (utf8 kv.1.2)) s :=
    Prog.wp_forall fun kv => wp_setValues_stores hDict (settable_linkValues msg l)
      (nodup_linkValues msg l) (mem_linkValues_of_needed kv.2)
      (fun r o hr ho => ho.1 kv.1 kv.2 hr) s
  have hDone : (a.setValues (linkValues msg l)).wp serve (NeedsServed msg l)
      (fun r _ => SetDone accountDict r) s :=
    Prog.wp_of_yields (yields_setValues hDict (settable_linkValues msg l))
  rw [saveLinked_eq, Prog.wp_bind]
  refine Prog.wp_mono (fun r s₁ hr => ?_) (Prog.wp_and hStored hDone)
  obtain ⟨hValues, a', rfl, -⟩ := hr
  refine Prog.wp_bind.mpr (Prog.wp_mono (fun r s₂ hr => ?_) (wp_saveToPddb hStorable
    (fun id r o hr ho => ho.2.1 id hr) (fun id r o hr ho => ho.2.2 id hr)))
  obtain ⟨⟨hAci, hPni, hAciKyber, hPniKyber⟩, hSame⟩ := hr
  -- The prekeys leave the account's dictionary as it is.
  have hUsable : Usable s₂ msg l := by
    refine ⟨fun kv hkv => ?_, hAci, hPni, hAciKyber, hPniKyber⟩
    rw [keyText, hSame, hValues ⟨kv, hkv⟩, ← Option.map_some]
    exact textOf_map_utf8 fun v hv => Option.some.inj hv ▸ hFits kv hkv
  cases r <;> exact hUsable

end Late

-- ---------------------------------------------------------------------------
-- Registered implies usable
-- ---------------------------------------------------------------------------

/-- Linking has been stopped no later than the request that deletes the key of
the ACI service id (of the registered flag, if the device id is zero), or it
has run to its end with what the account needs stored. -/
def HarmlessStop (a : Account U) (msg : ProvisionMessage) (l : Linked L) (env : Env Req Outcome)
    (n : Nat) (s : Disk) : Prop :=
  n ≤ (a.setValues (identityValues msg l)).steps serve env s + 1 ∨
  (l.deviceId = 0 ∧
    n ≤ (a.setValues (identityValues msg l ++ profileValues msg l)).steps serve env s + 1) ∨
  ((a.saveLinked msg l).steps serve env s ≤ n ∧ (∀ i r, NeedsServed msg l r (env i r)) ∧
    Storable l.generated ∧ ∀ kv ∈ neededValues msg l, kv.2.utf8ByteSize ≤ 256)

/-- **Registered implies usable** where linking is stopped harmlessly, whatever
the message and the server's answer. -/
theorem link_registered_usable {S : LinkServices U L} {a : Account U} {deviceName : String}
    {msg : ProvisionMessage} {env : Env Req Outcome} {n : Nat} {s₀ s : Disk} {host : U.Host}
    {se : ServiceEnvironment}
    (hNew : (Accounts.new accountDict host se).runAll serve .served s₀ = (.ok (.ok a), s))
    (hStop : ∀ l, upload S a deviceName msg = .ok l → HarmlessStop a msg l env n s) :
    RegisteredUsable S a deviceName msg env n s := by
  have hAccount := newAccount hNew
  have hHoldsOff : HoldsOff s := ⟨.inr hAccount.flag, .inl hAccount.aci⟩
  rw [RegisteredUsable, Account.link, hAccount.notPrimary]
  simp only [Bool.false_eq_true, if_false]
  intro hReports
  cases hUpload : upload S a deviceName msg with
  | error e =>
    -- nothing has been written
    have hSame : ((Prog.done (.ok (.error e, a)) :
        Prog Resp (Except Panic (Except IoError Bool × Account U))).after serve n env s) = s := by
      cases n <;> rfl
    simp only [hUpload, hSame] at hReports
    rw [not_reportsRegistered hHoldsOff] at hReports
    exact absurd hReports nofun
  | ok l =>
    simp only [hUpload] at hReports ⊢
    -- Stopped before the service id, stopped with device id zero, or run to the end.
    rcases hStop l hUpload with hEarly | ⟨hZero, hEarly⟩ | ⟨hEnd, hServed, hStorable, hFits⟩
    · rw [not_reportsRegistered (holdsOff_of_no_aci hAccount hEarly)] at hReports
      exact absurd hReports nofun
    · rw [not_reportsRegistered (holdsOff_of_zero hAccount hZero hEarly)] at hReports
      exact absurd hReports nofun
    · refine ⟨l, rfl, ?_⟩
      rw [Prog.after_of_steps_le _ _ hEnd]
      exact Prog.wp_run (wp_saveLinked_usable hAccount.dict hStorable hFits) hServed

-- ---------------------------------------------------------------------------
-- Stopped midway
-- ---------------------------------------------------------------------------

def plainKey : PreKeyJson := ⟨0, "", ""⟩

def plainServices : LinkServices .plain .plain where
  generateLinkPassword := .ok "secret"
  registrationId := .ok 1
  pniRegistrationId := .ok 2
  encryptDeviceName name _ := .ok name
  Attributes := Unit
  buildAccountAttributes _ _ _ _ := .ok ()
  generatePrekeys _ _ := .ok ⟨plainKey, plainKey, plainKey, plainKey, [1], [2], [3], [4]⟩
  putDevicesLink _ _ _ _ := .ok ⟨"aci", "pni", 2⟩

def plainMessage : ProvisionMessage where
  number := "+1"
  aci := ⟨"aci", "AA", "AA"⟩
  pni := ⟨"pni", "AA", "AA"⟩
  profileKey := some "AA"
  provisioningCode := some "code"
  accountEntropyPool := none

/-- Stopped once the first five values are stored, a new account reports itself
registered, and there is no registration id, let alone a prekey. -/
theorem link_stopped_midway :
    ¬RegisteredUsable plainServices fresh "xous" plainMessage (fun _ _ => .served) 20
      freshDisk := by
  intro h
  obtain ⟨l, -, hUsable⟩ := h (by decide +kernel)
  have hText := hUsable.values (.registrationId, decimal l.registrationId.toNat)
    (by simp [neededValues])
  have hAbsent : keyText ((fresh.link plainServices "xous" plainMessage).after serve 20
      (fun _ _ => .served) freshDisk) accountDict .registrationId = none := by decide +kernel
  rw [hAbsent] at hText
  exact absurd hText nofun

/-- What the upload leaves to be saved. -/
def plainLinked : Linked .plain :=
  ⟨"secret", 1, 2, "xous", "AA", 2, ⟨plainKey, plainKey, plainKey, plainKey, [1], [2], [3], [4]⟩⟩

theorem upload_plain : upload plainServices fresh "xous" plainMessage = .ok plainLinked := rfl

/-- The plain library takes the first byte of a record for its id. -/
theorem storable_plainLinked : Storable plainLinked.generated :=
  ⟨⟨1, 2, [1], [2], rfl, rfl, by decide, rfl, rfl⟩, ⟨3, 4, [3], [4], rfl, rfl, by decide, rfl, rfl⟩⟩

/-- A new account on an empty PDDB is the one of the example. -/
theorem runAll_new_fresh :
    (Accounts.new (U := .plain) accountDict "signal.org" .live).runAll serve .served
      (fun _ _ => none) = (.ok (.ok fresh), freshDisk) := by
  have hRun := runAll_new (U := .plain) accountDict "signal.org" .live (fun _ _ => none)
  have hDisk : freshDisk = stored accountDict (defaults (U := .plain) "signal.org" .live)
      (fun _ _ => none) := congrArg Prod.snd hRun
  have hRead := fresh_coherent
  rw [Coherent, runAll_read, hDisk] at hRead
  rw [hDisk]
  exact hRun.trans (Prod.ext hRead rfl)

/-- The theorem for a link that has run to its end. -/
theorem link_registered_usable_served :
    RegisteredUsable plainServices fresh "xous" plainMessage (fun _ _ => .served) 200
      freshDisk := by
  refine link_registered_usable runAll_new_fresh fun l hUpload => .inr (.inr ?_)
  obtain rfl := Except.ok.inj (upload_plain.symm.trans hUpload)
  refine ⟨by decide +kernel, fun _ _ => ⟨fun _ _ _ => rfl, fun _ _ => trivial, fun _ _ => trivial⟩,
    storable_plainLinked, by decide⟩

end Sigchat.Results

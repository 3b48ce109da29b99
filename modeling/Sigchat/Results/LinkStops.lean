import Sigchat.Results.AccountRead

/-!
# The runs of linking that are safe to stop

The prekeys are saved last, so a run of linking can be stopped anywhere only if
it never makes the account registered. Whether it does is decided by what its
requests leave in the account dictionary: the password, the device id and the
ACI service id make the account registered as soon as the key of the last one is
created, the registered flag once it is written.

* `storedBy`              — what the requests of the values leave;
* `Passes`                — what a key holds while it is being set;
* `content_at`            — and so at every point of linking;
* `registered_usable_iff` — the runs that can be stopped anywhere are those that
  do not register the account.
-/

namespace Sigchat.Results

open Sigchat.Lib
open Sigchat.Pddb
open Sigchat.Signal
open Sigchat.Stores
open Sigchat.Accounts

variable {U : UrlCrate} {L : Libsignal}

-- ---------------------------------------------------------------------------
-- What setting values leaves
-- ---------------------------------------------------------------------------

/-- The outcomes that are left once a value has been set. -/
def envAfterSet (env : Env Req Outcome) (dict : String) (kv : Key × Option String) :
    Env Req Outcome := fun i => env (i + setRequests env dict kv.1.name kv.2)

/-- The outcomes that are left once the values have been set. -/
def envAfterValues (dict : String) : List (Key × Option String) → Env Req Outcome → Env Req Outcome
  | [], env => env
  | kv :: kvs, env => envAfterValues dict kvs (envAfterSet env dict kv)

/-- What the requests that set the values leave, one after the other: of each
value what has been written of it, over what the delete request has left. -/
def storedBy (dict : String) : List (Key × Option String) → Env Req Outcome → Disk → Disk
  | [], _, s => s
  | kv :: kvs, env, s =>
    storedBy dict kvs (envAfterSet env dict kv)
      (s.set dict kv.1.name (contentSet env dict kv.1.name kv.2 (s dict kv.1.name)))

/-- The first values are stored, and then the others over what they leave. -/
theorem storedBy_append (dict : String) (kvs kvs' : List (Key × Option String))
    (env : Env Req Outcome) (s : Disk) :
    storedBy dict (kvs ++ kvs') env s =
      storedBy dict kvs' (envAfterValues dict kvs env) (storedBy dict kvs env s) := by
  induction kvs generalizing env s with
  | nil => rfl
  | cons kv kvs ih => exact ih _ _

/-- Another dictionary does not change. -/
theorem storedBy_other_dict {dict d : String} (hDict : d ≠ dict) (kvs : List (Key × Option String))
    (env : Env Req Outcome) (s : Disk) (k : String) : storedBy dict kvs env s d k = s d k := by
  induction kvs generalizing env s with
  | nil => rfl
  | cons kv kvs ih => exact (ih _ _).trans (Disk.set_other _ _ fun h => hDict h.1)

/-- Only the keys of the values change. -/
theorem storedBy_other {dict : String} {k : Key} {kvs : List (Key × Option String)}
    (h : k ∉ kvs.map Prod.fst) (env : Env Req Outcome) (s : Disk) :
    storedBy dict kvs env s dict k.name = s dict k.name := by
  induction kvs generalizing env s with
  | nil => rfl
  | cons kv kvs ih =>
    rw [List.map_cons, List.mem_cons, not_or] at h
    exact (ih h.2 _ _).trans (Disk.set_other _ _ fun hk => h.1 (Key.name_injective hk.2))

section Runs

variable {dict : String} {a : Account U} {kvs : List (Key × Option String)}

/-- Setting one value: the result, the dictionary and the outcomes left. -/
theorem ends_set {k : Key} {value : Option String} (hDict : a.pddbDict = dict) (hHost : k ≠ .host)
    (hParses : Parses U k value) (env : Env Req Outcome) (s : Disk) :
    ∃ a', a'.pddbDict = dict ∧ (a.set k value).Ends serve env s (.ok (.ok (), a'))
      (envAfterSet env dict (k, value))
      (s.set dict k.name (contentSet env dict k.name value (s dict k.name))) := by
  subst hDict
  obtain ⟨a', hArm, hDict'⟩ := arm_ok a hHost hParses
  refine ⟨a', hDict', set_run_arm hArm, ?_⟩
  rw [Account.set, Prog.left_bind, set_left, set_run]
  simp only [hArm]
  rfl

/-- **Setting values**, one after the other. -/
theorem ends_setValues (hDict : a.pddbDict = dict) (hSettable : Settable U kvs)
    (env : Env Req Outcome) (s : Disk) :
    ∃ a', a'.pddbDict = dict ∧ (a.setValues kvs).Ends serve env s (.ok (.ok (), a'))
      (envAfterValues dict kvs env) (storedBy dict kvs env s) := by
  induction kvs generalizing a env s with
  | nil => exact ⟨a, hDict, rfl, rfl⟩
  | cons kv kvs ih =>
    obtain ⟨k, v⟩ := kv
    obtain ⟨⟨hHost, hParses⟩, hRest⟩ := List.forall_mem_cons.mp hSettable
    obtain ⟨a₁, hDict₁, hFirst⟩ := ends_set hDict hHost hParses env s
    obtain ⟨a', hDict', hEnd⟩ := ih hDict₁ hRest (envAfterSet env dict (k, v))
      (s.set dict k.name (contentSet env dict k.name v (s dict k.name)))
    refine ⟨a', hDict', ?_⟩
    rw [setValues_cons]
    exact Prog.ends_bind.mpr ⟨_, _, _, hFirst, hEnd⟩

end Runs

-- ---------------------------------------------------------------------------
-- While a value is being set
-- ---------------------------------------------------------------------------

/-- What a key holding `old` holds while it is being set: what it held, what the
delete request has left, the same as an opened key, and what has been written. -/
def Passes (env : Env Req Outcome) (d k : String) (value : Option String)
    (old content : Option Bytes) : Prop :=
  content = old ∨ content = contentLeft env d k old ∨
    ((value.isSome ∧ ∀ f, env 1 (.get d k true) ≠ .failed f) ∧
      content = some ((contentLeft env d k old).getD [])) ∨
    content = contentSet env d k value old

/-- A value whose key can be opened is written over what was left of the old one. -/
theorem contentSet_of_opened {env : Env Req Outcome} {d k v : String} {old : Option Bytes}
    (h : ∀ f, env 1 (.get d k true) ≠ .failed f) :
    contentSet env d k (some v) old = some (contentWritten (env 2 (.write d k 0 (utf8 v))) (utf8 v)
      ((contentLeft env d k old).getD [])) := by
  rw [contentSet]
  split
  · rename_i f hFailed
    exact absurd hFailed (h f)
  · rfl

/-- Once the write request has been served, the sync changes nothing. -/
theorem writeValue_after (env : Env Req Outcome) (dict : String) (k : Key) (value : String)
    (s : Disk) (n : Nat) : (writeValue dict k value).after serve (n + 1) env s =
      ((writeValue dict k value).run serve env s).2 := by
  rw [writeValue, Prog.after, Prog.run_call]
  cases (serve (env 0 (.write dict k.name 0 (utf8 value))) (.write dict k.name 0 (utf8 value)) s).1
    with
  | error e => cases n <;> rfl
  | ok written =>
    rw [Prog.run_call, Prog.run_done, serve_sync]
    cases n with
    | zero => rfl
    | succ n =>
      rw [Prog.after, serve_sync]
      cases n <;> rfl

/-- The points of a `set`, one per request. -/
theorem after_set (env : Env Req Outcome) (dict : String) (k : Key) (value : Option String)
    (s : Disk) (n : Nat) :
    ∃ content, Passes env dict k.name value (s dict k.name) content ∧
      (Accounts.set dict k value).after serve n env s = s.set dict k.name content := by
  have hLeft : Passes env dict k.name value (s dict k.name)
      (contentLeft env dict k.name (s dict k.name)) := .inr (.inl rfl)
  -- The stop is after no request, after the delete, or later.
  match n with
  | 0 => exact ⟨_, .inl rfl, (Disk.set_self ..).symm⟩
  | 1 =>
    refine ⟨_, hLeft, ?_⟩
    unfold Accounts.set
    rw [Prog.after, serve_deleteKey_left]
    cases value <;> rfl
  | n + 2 =>
    unfold Accounts.set
    rw [Prog.after, serve_deleteKey_left]
    cases value with
    | none => exact ⟨_, hLeft, rfl⟩
    | some v =>
      have hTail : env.tail 0 (.get dict k.name true) = env 1 (.get dict k.name true) := rfl
      dsimp only
      rw [Prog.after, hTail]
      -- If the key cannot be opened, what the delete has left stays.
      by_cases hFails : ∃ f, env 1 (.get dict k.name true) = .failed f
      · obtain ⟨f, hf⟩ := hFails
        refine ⟨_, hLeft, ?_⟩
        rw [hf]
        cases n <;> rfl
      · -- the key is there from here on
        have hOpened : ∀ f, env 1 (.get dict k.name true) ≠ .failed f := fun f hf => hFails ⟨f, hf⟩
        rw [serve_create_of_not_failed hOpened, Disk.set_same, Disk.set_set]
        cases n with
        | zero => exact ⟨_, .inr (.inr (.inl ⟨⟨rfl, hOpened⟩, rfl⟩)), rfl⟩
        | succ n =>
          refine ⟨_, .inr (.inr (.inr rfl)), ?_⟩
          dsimp only
          rw [writeValue_after, writeValue_run, contentSet_of_opened hOpened]
          rfl

/-- Setting a field stops in the same states as setting its key. -/
theorem after_accountSet {a : Account U} {dict : String} {k : Key} {value : Option String}
    (hDict : a.pddbDict = dict) (hHost : k ≠ .host) (hParses : Parses U k value)
    (env : Env Req Outcome) (s : Disk) (n : Nat) :
    ∃ content, Passes env dict k.name value (s dict k.name) content ∧
      (a.set k value).after serve n env s = s.set dict k.name content := by
  subst hDict
  obtain ⟨a', hArm, -⟩ := arm_ok a hHost hParses
  rw [Account.set]
  rcases Nat.le_total n ((Accounts.set a.pddbDict k value).steps serve env s) with hn | hn
  · rw [Prog.after_bind_of_le _ _ _ hn]
    exact after_set env a.pddbDict k value s n
  · refine ⟨_, .inr (.inr (.inr rfl)), ?_⟩
    rw [Prog.after_bind_of_ge _ _ _ hn, set_run]
    simp only [hArm]
    cases n - (Accounts.set a.pddbDict k value).steps serve env s <;> rfl

-- ---------------------------------------------------------------------------
-- The points of linking
-- ---------------------------------------------------------------------------

/-- A key no request touches is the same at every point. -/
theorem after_frame {α : Type} {p : Prog Resp α} {d k : String}
    (hp : p.All fun r => ¬r.Touches d k) (n : Nat) (env : Env Req Outcome) (s : Disk) :
    p.after serve n env s d k = s d k :=
  Prog.always_after_any (Prog.always_of_all (I := fun s' => s' d k = s d k)
    (fun _ hr o s' hs' => (serve_frame hr o s').trans hs') hp rfl) env n

/-- Saving the prekeys touches no key of the account. -/
theorem all_thenSave (l : Linked L) {r : Except Panic (Except IoError Unit × Account U)} :
    (thenSave l r).All fun r => ∀ name, ¬r.Touches accountDict name := by
  match r with
  | .error p => trivial
  | .ok (.error e, a') => trivial
  | .ok (.ok (), a') =>
    refine (all_saveToPddb l.generated).bind fun r => ?_
    cases r <;> trivial

section Points

variable {a : Account U} {msg : ProvisionMessage} {l : Linked L} {env : Env Req Outcome} {n : Nat}
  {s : Disk} {first rest : List (Key × Option String)} {k : Key} {v : Option String}

theorem settable_first (U : UrlCrate) (hValues : linkValues msg l = first ++ rest) :
    Settable U first := fun kv hkv =>
  settable_linkValues msg l kv (hValues ▸ List.mem_append_left _ hkv)

theorem settable_rest (U : UrlCrate) (hValues : linkValues msg l = first ++ rest) :
    Settable U rest := fun kv hkv =>
  settable_linkValues msg l kv (hValues ▸ List.mem_append_right _ hkv)

/-- What follows the first values touches the account only by the others. -/
theorem all_rest (hDict : a.pddbDict = accountDict) (hSettable : Settable U rest)
    (hk : k ∉ rest.map Prod.fst) :
    (a.setValues rest >>= thenSave l).All fun r => ¬r.Touches accountDict k.name := by
  have hValues : (a.setValues rest).All fun r => ¬r.Touches accountDict k.name :=
    all_setValues hDict hSettable (fun kv hkv => setRequests_other fun h =>
      hk (h ▸ List.mem_map_of_mem hkv)) id
  exact hValues.bind fun _ => (all_thenSave l).mono fun r hr => hr k.name

/-- **The later points.** Once the first values have been set, linking goes on
from what they have left. -/
theorem saveLinked_after (hDict : a.pddbDict = accountDict)
    (hValues : linkValues msg l = first ++ rest) (env : Env Req Outcome) (s : Disk) :
    ∃ a' : Account U, a'.pddbDict = accountDict ∧ ∀ n, (a.setValues first).steps serve env s ≤ n →
      (a.saveLinked msg l).after serve n env s =
        (a'.setValues rest >>= thenSave l).after serve (n - (a.setValues first).steps serve env s)
          (envAfterValues accountDict first env) (storedBy accountDict first env s) := by
  obtain ⟨a', hDict', hRun, hLeft⟩ := ends_setValues hDict (settable_first U hValues) env s
  refine ⟨a', hDict', fun n hn => ?_⟩
  rw [saveLinked_eq, hValues, setValues_append, bind_assoc, Prog.after_bind_of_ge _ _ _ hn, hRun,
    hLeft]
  rfl

/-- A key is untouched up to the end of the values in front of it. -/
theorem content_before (hDict : a.pddbDict = accountDict)
    (hValues : linkValues msg l = first ++ rest) (hk : k ∉ first.map Prod.fst)
    (hn : n ≤ (a.setValues first).steps serve env s) :
    (a.saveLinked msg l).after serve n env s accountDict k.name = s accountDict k.name := by
  rw [saveLinked_eq, hValues, setValues_append, bind_assoc, Prog.after_bind_of_le _ _ _ hn]
  refine after_frame (all_setValues hDict (settable_first U hValues) (fun kv hkv => ?_) id) n env s
  exact setRequests_other fun h => hk (h ▸ List.mem_map_of_mem hkv)

/-- Once its value has been set, it keeps what has been left in it. -/
theorem content_done (hDict : a.pddbDict = accountDict)
    (hValues : linkValues msg l = first ++ rest) (hk : k ∉ rest.map Prod.fst)
    (hn : (a.setValues first).steps serve env s ≤ n) :
    (a.saveLinked msg l).after serve n env s accountDict k.name =
      storedBy accountDict (linkValues msg l) env s accountDict k.name := by
  obtain ⟨a', hDict', hAfter⟩ := saveLinked_after hDict hValues env s
  rw [hAfter n hn, after_frame (all_rest hDict' (settable_rest U hValues) hk), hValues,
    storedBy_append, storedBy_other hk]

/-- A key of the link is neither set before nor after its turn. -/
theorem not_mem_of_linkValues (hValues : linkValues msg l = first ++ (k, v) :: rest) :
    k ∉ first.map Prod.fst ∧ k ∉ rest.map Prod.fst := by
  have hNodup := nodup_linkValues msg l
  rw [hValues, List.map_append, List.map_cons, List.nodup_append', List.nodup_cons] at hNodup
  obtain ⟨-, ⟨hRest, -⟩, hDisjoint⟩ := hNodup
  exact ⟨fun h => hDisjoint h List.mem_cons_self, hRest⟩

/-- What is left in a key of the values. -/
theorem storedBy_linkValues (hValues : linkValues msg l = first ++ (k, v) :: rest)
    (env : Env Req Outcome) (s : Disk) :
    storedBy accountDict (linkValues msg l) env s accountDict k.name =
      contentSet (envAfterValues accountDict first env) accountDict k.name v
        (s accountDict k.name) := by
  obtain ⟨hFirst, hRest⟩ := not_mem_of_linkValues hValues
  rw [hValues, storedBy_append, storedBy, storedBy_other hRest, Disk.set_same,
    storedBy_other hFirst]

/-- **What a key holds at every point of linking.** -/
theorem content_at (hDict : a.pddbDict = accountDict)
    (hValues : linkValues msg l = first ++ (k, v) :: rest) (n : Nat) (env : Env Req Outcome)
    (s : Disk) :
    Passes (envAfterValues accountDict first env) accountDict k.name v (s accountDict k.name)
      ((a.saveLinked msg l).after serve n env s accountDict k.name) := by
  obtain ⟨hFirst, hRest⟩ := not_mem_of_linkValues hValues
  -- Before its turn, during it, and after it.
  rcases Nat.le_total n ((a.setValues first).steps serve env s) with hn | hn
  · exact .inl (content_before hDict hValues hFirst hn)
  obtain ⟨a₁, hDict₁, hAfter⟩ := saveLinked_after hDict hValues env s
  obtain ⟨⟨hHost, hParses⟩, hSettable⟩ := List.forall_mem_cons.mp (settable_rest U hValues)
  rw [hAfter n hn, setValues_cons, bind_assoc, ← storedBy_other hFirst env s]
  rcases Nat.le_total (n - (a.setValues first).steps serve env s) ((a₁.set k v).steps serve
      (envAfterValues accountDict first env) (storedBy accountDict first env s)) with hn' | hn'
  · -- while it is being set
    rw [Prog.after_bind_of_le _ _ _ hn']
    obtain ⟨content, hPasses, hContent⟩ := after_accountSet hDict₁ hHost hParses
      (envAfterValues accountDict first env) (storedBy accountDict first env s)
      (n - (a.setValues first).steps serve env s)
    rw [hContent, Disk.set_same]
    exact hPasses
  · -- afterwards
    obtain ⟨a₂, hDict₂, hRun, -⟩ := ends_set hDict₁ hHost hParses
      (envAfterValues accountDict first env) (storedBy accountDict first env s)
    rw [Prog.after_bind_of_ge _ _ _ hn', hRun]
    refine .inr (.inr (.inr ((after_frame (all_rest hDict₂ hSettable hRest) _ _ _).trans ?_)))
    exact Disk.set_same ..

/-- The key of the next value has been opened two requests later. -/
theorem after_two {α : Type} {text : String} {kvs : List (Key × Option String)}
    (hDict : a.pddbDict = accountDict)
    (hOpened : ∀ f, env 1 (.get accountDict k.name true) ≠ .failed f)
    (f : Except Panic (Except IoError Unit × Account U) → Prog Resp α) :
    (a.setValues ((k, some text) :: kvs) >>= f).after serve 2 env s =
      s.set accountDict k.name
        (some ((contentLeft env accountDict k.name (s accountDict k.name)).getD [])) := by
  have hTail : env.tail 0 (.get accountDict k.name true) = env 1 (.get accountDict k.name true) :=
    rfl
  rw [setValues_cons, Account.set, hDict]
  unfold Accounts.set
  simp only [Prog.call_bind, Prog.after]
  rw [serve_deleteKey_left, hTail, serve_create_of_not_failed hOpened, Disk.set_same,
    Disk.set_set]

/-- Once the last value has been set. -/
theorem after_values (hDict : a.pddbDict = accountDict) (env : Env Req Outcome) (s : Disk) :
    (a.saveLinked msg l).after serve ((a.setValues (linkValues msg l)).steps serve env s) env s =
      storedBy accountDict (linkValues msg l) env s := by
  obtain ⟨a', -, hAfter⟩ := saveLinked_after hDict (List.append_nil _).symm env s
  rw [hAfter _ (Nat.le_refl _), Nat.sub_self]
  rfl

end Points

-- ---------------------------------------------------------------------------
-- What makes an account registered
-- ---------------------------------------------------------------------------

/-- **Registered**: the account is read, and its flag is set or the three values
are there. -/
theorem reportsRegistered_iff {s : Disk} : reportsRegistered U s = true ↔
    (∀ k, Parses U k (keyText s accountDict k)) ∧
      ((keyText s accountDict .registered).bind parseBool = some true ∨
        (keyText s accountDict .password).isSome ∧ (keyText s accountDict .aciServiceId).isSome ∧
          ∃ id ≠ 0, (keyText s accountDict .deviceId).bind parseDeviceId = some id) := by
  unfold reportsRegistered
  rw [runAll_read]
  split
  -- Each field of the account is what its text says, so `is_registered` is about the texts.
  · rename_i a hRead
    have hHolds := (ofTexts_eq_iff.mp hRead).2
    have hFlag : (keyText s accountDict .registered).bind parseBool = some a.registered :=
      hHolds .registered
    have hDevice : (keyText s accountDict .deviceId).bind parseDeviceId = some a.deviceId :=
      hHolds .deviceId
    have hAci : keyText s accountDict .aciServiceId = a.aciServiceId := hHolds .aciServiceId
    have hPassword : keyText s accountDict .password = a.password := hHolds .password
    rw [and_iff_right (exists_account_iff.mp ⟨a, hRead⟩), hFlag, hDevice, hAci, hPassword]
    simp only [Account.isRegistered, Bool.or_eq_true, Bool.and_eq_true, bne_iff_ne,
      Option.some.injEq, ne_eq, exists_eq_right']
    tauto
  · rename_i hNone
    refine iff_of_false Bool.false_ne_true fun h => ?_
    obtain ⟨a, hRead⟩ := exists_account_iff.mpr h.1
    exact hNone a hRead

/-- The password and a device id other than zero are left as texts, and the key
of the ACI service id has been created. -/
def RegistersByParts (left : Disk) : Prop :=
  (keyText left accountDict .password).isSome ∧
    (left accountDict Key.aciServiceId.name).isSome ∧
    ∃ id ≠ 0, (keyText left accountDict .deviceId).bind parseDeviceId = some id

/-- The flag is left set, and the values that must be there are left so that
they parse. -/
def RegistersByFlag (left : Disk) : Prop :=
  (keyText left accountDict .registered).bind parseBool = some true ∧
    ((keyText left accountDict .deviceId).bind parseDeviceId).isSome ∧
    ((keyText left accountDict .isMultiDevice).bind parseBool).isSome ∧
    ((keyText left accountDict .storeManifestVersion).bind parseI64).isSome

/-- What the requests leave makes the account registered on the way. -/
def Registers (left : Disk) : Prop := RegistersByParts left ∨ RegistersByFlag left

/-- The delete request leaves the key as it was, or absent. -/
theorem contentLeft_cases (env : Env Req Outcome) (d k : String) (old : Option Bytes) :
    contentLeft env d k old = old ∨ contentLeft env d k old = none := by
  unfold contentLeft
  split
  · exact .inl rfl
  · exact .inr rfl

/-- Of an absent key the delete request leaves nothing. -/
theorem contentLeft_none (env : Env Req Outcome) (d k : String) :
    contentLeft env d k none = none := (contentLeft_cases env d k none).elim id id

section Registering

variable {a : Account U} {msg : ProvisionMessage} {l : Linked L} {env : Env Req Outcome} {n : Nat}
  {s : Disk}

/-- The ACI service id comes after the password, the device id and the two
identity keys. -/
theorem linkValues_aci (msg : ProvisionMessage) (l : Linked L) :
    linkValues msg l = identityValues msg l ++ (.aciServiceId, some msg.aci.serviceId) ::
      ((profileValues msg l).tail ++ [(.registered, some "true")]) := rfl

/-- A new account has a text that parses under every key. -/
theorem keyText_parses_newAccount {host : U.Host} {se : ServiceEnvironment} {s₀ : Disk}
    (hNew : (Accounts.new accountDict host se).runAll serve .served s₀ = (.ok (.ok a), s))
    (k : Key) : Parses U k (keyText s accountDict k) := by
  rw [runAll_new] at hNew
  obtain ⟨hTexts, rfl⟩ := Prod.ext_iff.mp hNew
  exact exists_account_iff.mp ⟨a, hTexts⟩ k

theorem textOf_false : (textOf (some (utf8 "false"))).bind parseBool = some false := by
  decide +kernel

/-- A flag that is set has been written. -/
theorem written_of_flag {content : Option Bytes} {value : Option String} {env : Env Req Outcome}
    {d k : String}
    (h : Passes env d k value (some (utf8 "false")) content)
    (hFlag : (textOf content).bind parseBool = some true) :
    content = contentSet env d k value (some (utf8 "false")) := by
  have hEmpty : (textOf (some [])).bind parseBool = none := by decide +kernel
  have hFalse : (textOf (some (utf8 "false"))).bind parseBool ≠ some true := by
    rw [textOf_false]
    decide
  have hLeft := contentLeft_cases env d k (some (utf8 "false"))
  -- What the key holds before it is written is the old text, nothing, or an empty text.
  rcases h with rfl | rfl | ⟨-, rfl⟩ | h
  · exact absurd hFlag hFalse
  · rcases hLeft with hLeft | hLeft <;> rw [hLeft] at hFlag
    · exact absurd hFlag hFalse
    · exact absurd hFlag (Option.some_ne_none _).symm
  · rcases hLeft with hLeft | hLeft <;> rw [hLeft] at hFlag
    · exact absurd hFlag hFalse
    · exact absurd (hEmpty.symm.trans hFlag) (Option.some_ne_none _).symm
  · exact h

/-- A key of the link that does not hold what it held has had its turn. -/
theorem steps_le_of_changed {k : Key} {v : Option String} {first rest : List (Key × Option String)}
    (hDict : a.pddbDict = accountDict) (hValues : linkValues msg l = first ++ (k, v) :: rest)
    (hChanged : (a.saveLinked msg l).after serve n env s accountDict k.name ≠
      s accountDict k.name) : (a.setValues first).steps serve env s ≤ n := by
  by_contra hEarly
  obtain ⟨hFirst, -⟩ := not_mem_of_linkValues hValues
  exact hChanged (content_before hDict hValues hFirst (Nat.le_of_not_le hEarly))

/-- Where the flag is found set, all other values have been stored. -/
theorem registersByFlag_of_reports (hNew : NewAccount a s)
    (hParses : ∀ k, Parses U k
      (keyText ((a.saveLinked msg l).after serve n env s) accountDict k))
    (hFlag : (keyText ((a.saveLinked msg l).after serve n env s) accountDict .registered).bind
      parseBool = some true) :
    RegistersByFlag (storedBy accountDict (linkValues msg l) env s) := by
  have hValues : linkValues msg l =
      (identityValues msg l ++ profileValues msg l) ++ [(.registered, some "true")] := rfl
  have hLate : (a.setValues (identityValues msg l ++ profileValues msg l)).steps serve env s ≤
      n := by
    refine steps_le_of_changed hNew.dict hValues fun hSame => ?_
    rw [keyText, hSame, hNew.flag, textOf_false] at hFlag
    exact absurd hFlag (by decide)
  have hDone {k : Key} (hk : k ≠ .registered) :
      keyText ((a.saveLinked msg l).after serve n env s) accountDict k =
        keyText (storedBy accountDict (linkValues msg l) env s) accountDict k :=
    congrArg textOf (content_done hNew.dict hValues (by simpa using hk) hLate)
  refine ⟨?_, hDone (k := .deviceId) (by decide) ▸ hParses .deviceId,
    hDone (k := .isMultiDevice) (by decide) ▸ hParses .isMultiDevice,
    hDone (k := .storeManifestVersion) (by decide) ▸ hParses .storeManifestVersion⟩
  have hContent := content_at hNew.dict hValues n env s
  rw [hNew.flag] at hContent
  rw [keyText, storedBy_linkValues hValues, hNew.flag, ← written_of_flag hContent hFlag]
  exact hFlag

/-- Where the ACI service id is found, the password and the device id have been
stored, and its key has been created. -/
theorem registersByParts_of_reports (hNew : NewAccount a s)
    (hPassword : (keyText ((a.saveLinked msg l).after serve n env s) accountDict
      .password).isSome)
    (hAci : (keyText ((a.saveLinked msg l).after serve n env s) accountDict .aciServiceId).isSome)
    (hDevice : ∃ id ≠ 0, (keyText ((a.saveLinked msg l).after serve n env s) accountDict
      .deviceId).bind parseDeviceId = some id) :
    RegistersByParts (storedBy accountDict (linkValues msg l) env s) := by
  have hValues := linkValues_aci msg l
  obtain ⟨text, hText⟩ := Option.isSome_iff_exists.mp hAci
  obtain ⟨content, hContent, -⟩ := Option.bind_eq_some_iff.mp hText
  have hLate : (a.setValues (identityValues msg l)).steps serve env s ≤ n := by
    refine steps_le_of_changed hNew.dict hValues fun hSame => ?_
    rw [hSame, hNew.aci] at hContent
    exact absurd hContent (Option.some_ne_none _).symm
  have hDone {k : Key} (hk : k ∈ [Key.password, .deviceId]) :
      keyText ((a.saveLinked msg l).after serve n env s) accountDict k =
        keyText (storedBy accountDict (linkValues msg l) env s) accountDict k := by
    refine congrArg textOf (content_done hNew.dict hValues (fun hRest => ?_) hLate)
    have hNodup := nodup_linkValues msg l
    rw [hValues, List.map_append, List.nodup_append'] at hNodup
    refine hNodup.2.2 ?_ hRest
    rcases List.mem_cons.mp hk with rfl | hk
    · exact List.mem_cons_self
    · rw [List.mem_singleton.mp hk]
      exact List.mem_cons_of_mem _ List.mem_cons_self
  refine ⟨hDone (k := .password) (by decide) ▸ hPassword, ?_,
    hDone (k := .deviceId) (by decide) ▸ hDevice⟩
  have hPasses := content_at hNew.dict hValues n env s
  rw [storedBy_linkValues hValues, hNew.aci]
  rw [hNew.aci, hContent] at hPasses
  rcases hPasses with h | h | ⟨⟨-, hOpened⟩, -⟩ | h
  · exact absurd h (Option.some_ne_none _)
  · exact absurd (h.trans (contentLeft_none ..)) (Option.some_ne_none _)
  -- The key has been created, so the run that goes on leaves it there.
  · rw [contentSet_of_opened hOpened]
    rfl
  · rw [← h]
    rfl

/-- **A run that registers the account**: wherever it is registered, what the
requests leave registers it. -/
theorem registers_of_reports (hNew : NewAccount a s)
    (hReports : reportsRegistered U ((a.saveLinked msg l).after serve n env s) = true) :
    Registers (storedBy accountDict (linkValues msg l) env s) := by
  obtain ⟨hParses, hFlag | ⟨hPassword, hAci, hDevice⟩⟩ := reportsRegistered_iff.mp hReports
  · exact .inr (registersByFlag_of_reports hNew hParses hFlag)
  · exact .inl (registersByParts_of_reports hNew hPassword hAci hDevice)

/-- Two requests after the ACI identity keys have been set, the key of the ACI
service id has been deleted and created, and nothing has been written to it. -/
theorem after_aci_created (hNew : NewAccount a s)
    (hAci : (storedBy accountDict (linkValues msg l) env s accountDict
      Key.aciServiceId.name).isSome) :
    (a.saveLinked msg l).after serve
      ((a.setValues (identityValues msg l)).steps serve env s + 2) env s =
        (storedBy accountDict (identityValues msg l) env s).set accountDict
          Key.aciServiceId.name (some []) := by
  have hValues := linkValues_aci msg l
  obtain ⟨hFirst, -⟩ := not_mem_of_linkValues hValues
  -- the request that creates the key does not fail
  have hOpened : ∀ f, envAfterValues accountDict (identityValues msg l) env 1
      (.get accountDict Key.aciServiceId.name true) ≠ .failed f := by
    intro f hFailed
    rw [storedBy_linkValues hValues, hNew.aci] at hAci
    simp only [contentSet, hFailed, contentLeft_none] at hAci
    cases hAci
  obtain ⟨a', hDict', hAfter⟩ := saveLinked_after hNew.dict hValues env s
  rw [hAfter _ (Nat.le_add_right _ _), Nat.add_sub_cancel_left, after_two hDict' hOpened,
    storedBy_other hFirst, hNew.aci, contentLeft_none, Option.getD_none]

/-- At that point the account is registered, if the password and the device id
are left as they have to be. -/
theorem reports_aci_created (hLoaded : ∀ k, Parses U k (keyText s accountDict k))
    (hParts : RegistersByParts (storedBy accountDict (linkValues msg l) env s)) :
    reportsRegistered U ((storedBy accountDict (identityValues msg l) env s).set accountDict
      Key.aciServiceId.name (some [])) = true := by
  have hValues := linkValues_aci msg l
  obtain ⟨hPassword, -, id, hId, hDevice⟩ := hParts
  -- the first values are those of the whole run, the others are as they were
  have hLeft {k : Key} (hk : k = .password ∨ k = .deviceId) :
      keyText ((storedBy accountDict (identityValues msg l) env s).set accountDict
        Key.aciServiceId.name (some [])) accountDict k =
        keyText (storedBy accountDict (linkValues msg l) env s) accountDict k := by
    have hRest : k ∉ ((.aciServiceId, some msg.aci.serviceId) ::
        ((profileValues msg l).tail ++ [(.registered, some "true")])).map Prod.fst := by
      unfold profileValues
      rcases hk with rfl | rfl <;> cases msg.accountEntropyPool <;> simp
    have hAci : k ≠ .aciServiceId := fun h => hRest (h ▸ List.mem_cons_self)
    rw [keyText_set_other _ _ hAci, hValues, storedBy_append]
    exact congrArg textOf (storedBy_other hRest _ _).symm
  have hOther {k : Key} (hAci : k ≠ .aciServiceId)
      (hk : k ∉ (identityValues msg l).map Prod.fst) :
      keyText ((storedBy accountDict (identityValues msg l) env s).set accountDict
        Key.aciServiceId.name (some [])) accountDict k = keyText s accountDict k := by
    rw [keyText_set_other _ _ hAci]
    exact congrArg textOf (storedBy_other hk env s)
  refine reportsRegistered_iff.mpr ⟨fun k => ?_, .inr ⟨?_, ?_, id, hId, ?_⟩⟩
  · have hText := hLoaded k
    cases k with
    | deviceId =>
      rw [hLeft (.inr rfl)]
      exact Option.isSome_iff_exists.mpr ⟨id, hDevice⟩
    | isMultiDevice | storeManifestVersion | registered | host | serviceEnvironment =>
      rw [hOther (by decide) (by simp [identityValues])]
      exact hText
    | _ => trivial
  · rw [hLeft (.inl rfl)]
    exact hPassword
  · rw [keyText_set_same]
    decide +kernel
  · rw [hLeft (.inr rfl)]
    exact hDevice

/-- **Registered by parts**, before any prekey is saved. -/
theorem reports_of_parts (hNew : NewAccount a s)
    (hLoaded : ∀ k, Parses U k (keyText s accountDict k))
    (hParts : RegistersByParts (storedBy accountDict (linkValues msg l) env s)) :
    ∃ n, reportsRegistered U ((a.saveLinked msg l).after serve n env s) = true ∧
      ∀ d, d ≠ accountDict → ∀ k, (a.saveLinked msg l).after serve n env s d k = s d k := by
  have hPoint := after_aci_created hNew hParts.2.1
  refine ⟨(a.setValues (identityValues msg l)).steps serve env s + 2, ?_, fun d hd k => ?_⟩
  · rw [hPoint]
    exact reports_aci_created hLoaded hParts
  · rw [hPoint, Disk.set_other _ _ fun h => hd h.1, storedBy_other_dict hd]

/-- **Registered by the flag**, once it has been set, before any prekey is
saved. -/
theorem reports_of_flag (hNew : NewAccount a s)
    (hLoaded : ∀ k, Parses U k (keyText s accountDict k))
    (hFlag : RegistersByFlag (storedBy accountDict (linkValues msg l) env s)) :
    ∃ n, reportsRegistered U ((a.saveLinked msg l).after serve n env s) = true ∧
      ∀ d, d ≠ accountDict → ∀ k, (a.saveLinked msg l).after serve n env s d k = s d k := by
  obtain ⟨hSet, hDevice, hMulti, hVersion⟩ := hFlag
  -- The stop is after the last value, before the first prekey.
  refine ⟨(a.setValues (linkValues msg l)).steps serve env s, ?_, ?_⟩
  all_goals rw [after_values hNew.dict]
  · -- what linking does not set is as it was
    have hOther {k : Key} (hk : k = .host ∨ k = .serviceEnvironment) :
        keyText (storedBy accountDict (linkValues msg l) env s) accountDict k =
          keyText s accountDict k := by
      refine congrArg textOf (storedBy_other ?_ env s)
      unfold linkValues identityValues profileValues
      rcases hk with rfl | rfl <;> cases msg.accountEntropyPool <;> simp
    refine reportsRegistered_iff.mpr ⟨fun k => ?_, .inl hSet⟩
    cases k with
    | deviceId => exact hDevice
    | isMultiDevice => exact hMulti
    | storeManifestVersion => exact hVersion
    | registered => exact Option.isSome_iff_exists.mpr ⟨true, hSet⟩
    | host => exact hOther (.inl rfl) ▸ hLoaded .host
    | serviceEnvironment => exact hOther (.inr rfl) ▸ hLoaded .serviceEnvironment
    | _ => trivial
  · intro d hd k
    exact storedBy_other_dict hd _ _ _ _

end Registering

-- ---------------------------------------------------------------------------
-- Stopped anywhere
-- ---------------------------------------------------------------------------

/-- The four generated records have been stored before. -/
def GeneratedBefore (s : Disk) (l : Linked L) : Prop :=
  SavedSigned s l.generated.aciSignedRecord ∧ SavedSigned s l.generated.pniSignedRecord ∧
    SavedKyber s l.generated.aciKyberRecord ∧ SavedKyber s l.generated.pniKyberRecord

/-- If the account is usable where no prekey has been written, its records were
there before. -/
theorem generatedBefore_of_usable {s s' : Disk} {msg : ProvisionMessage} {l : Linked L}
    (hSame : ∀ d, d ≠ accountDict → ∀ k, s' d k = s d k) (h : Usable s' msg l) :
    GeneratedBefore s l := by
  have hDicts : signedPreKeyDict ≠ accountDict ∧ kyberPreKeyDict ≠ accountDict := by
    decide +kernel
  have hSigned {record : L.signedPreKey.Record} (h : SavedSigned s' record) :
      SavedSigned s record := by
    obtain ⟨id, bs, hId, hBytes, hContent⟩ := h
    exact ⟨id, bs, hId, hBytes, hSame _ hDicts.1 _ ▸ hContent⟩
  have hKyber {record : L.kyberPreKey.Record} (h : SavedKyber s' record) :
      SavedKyber s record := by
    obtain ⟨id, bs, hId, hBytes, hContent⟩ := h
    exact ⟨id, bs, hId, hBytes, hSame _ hDicts.2 _ ▸ hContent⟩
  exact ⟨hSigned h.aciSigned, hSigned h.pniSigned, hKyber h.aciKyber, hKyber h.pniKyber⟩

/-- **The runs that are safe to stop.** Registered implies usable at every point
of a link that leaves nothing that registers the account; and, unless the very
records it has generated were stored before, only of such a link. -/
theorem registered_usable_iff {S : LinkServices U L} {a : Account U} {deviceName : String}
    {msg : ProvisionMessage} {env : Env Req Outcome} {s₀ s : Disk} {host : U.Host}
    {se : ServiceEnvironment}
    (hNew : (Accounts.new accountDict host se).runAll serve .served s₀ = (.ok (.ok a), s)) :
    ((∀ l, upload S a deviceName msg = .ok l →
        ¬Registers (storedBy accountDict (linkValues msg l) env s)) →
      ∀ n, RegisteredUsable S a deviceName msg env n s) ∧
    ((∀ n, RegisteredUsable S a deviceName msg env n s) →
      ∀ l, upload S a deviceName msg = .ok l → ¬GeneratedBefore s l →
        ¬Registers (storedBy accountDict (linkValues msg l) env s)) := by
  have hAccount := newAccount hNew
  have hLoaded := keyText_parses_newAccount hNew
  have hLink {l : Linked L} (hUpload : upload S a deviceName msg = .ok l) :
      a.link S deviceName msg = a.saveLinked msg l := by
    rw [Account.link, hAccount.notPrimary]
    simp only [Bool.false_eq_true, if_false, hUpload]
  -- Where it never registers, there is nothing to show; where it does, it registers before
  -- its prekeys are there.
  constructor
  · intro hSafe n hReports
    cases hUpload : upload S a deviceName msg with
    | error e =>
      -- nothing has been written
      have hSame : (a.link S deviceName msg).after serve n env s = s := by
        rw [Account.link, hAccount.notPrimary]
        simp only [Bool.false_eq_true, if_false, hUpload]
        cases n <;> rfl
      rw [hSame, not_reportsRegistered ⟨.inr hAccount.flag, .inl hAccount.aci⟩] at hReports
      exact absurd hReports Bool.false_ne_true
    | ok l =>
      rw [hLink hUpload] at hReports
      exact absurd (registers_of_reports hAccount hReports) (hSafe l hUpload)
  · intro hUsable l hUpload hFresh hRegisters
    -- Either way of registering gives a stop with the other dictionaries untouched.
    have hPoint : ∃ n, reportsRegistered U ((a.saveLinked msg l).after serve n env s) = true ∧
        ∀ d, d ≠ accountDict → ∀ k, (a.saveLinked msg l).after serve n env s d k = s d k :=
      hRegisters.elim (reports_of_parts hAccount hLoaded) (reports_of_flag hAccount hLoaded)
    obtain ⟨n, hReports, hSame⟩ := hPoint
    rw [← hLink hUpload] at hReports hSame
    obtain ⟨l', hUpload', hUsable'⟩ := hUsable n hReports
    obtain rfl := Except.ok.inj (hUpload.symm.trans hUpload')
    exact hFresh (generatedBefore_of_usable hSame hUsable')

/-- The theorem for a link that is uploaded and whose requests all fail: no point
of it is registered. -/
theorem registered_usable_failing :
    upload plainServices fresh "xous" plainMessage = .ok plainLinked ∧
      ∀ n, RegisteredUsable plainServices fresh "xous" plainMessage
        (fun _ _ => .failed ⟨IoError.ofKind .other, by decide⟩) n freshDisk := by
  refine ⟨upload_plain, (registered_usable_iff runAll_new_fresh).1 fun l hUpload => ?_⟩
  obtain rfl := Except.ok.inj (upload_plain.symm.trans hUpload)
  rintro (⟨-, hAci, -⟩ | ⟨hFlag, -⟩)
  · revert hAci
    decide +kernel
  · revert hFlag
    decide +kernel

end Sigchat.Results

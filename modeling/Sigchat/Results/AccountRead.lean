import Sigchat.Results.LinkAccepted

/-!
# Reading the account as a whole

`Account::read` is meant to be all or nothing: an error if a field cannot be
read, or else an account whose fields are the stored values. `get` answers
`None` for a failed request as for an absent key and reads at most 256 bytes,
and values are unwrapped, so this holds where what goes wrong is seen at a
mandatory key, or nothing goes wrong and every value arrives whole.

* `run_read`                 — the texts that arrive decide.
* `exists_error_iff`         — an error means that a mandatory text is missing.
* `read_all_or_nothing_iff`  — when the rule is kept.
* `empty_device_id_panics`   — a value left empty by an interrupted write.
-/

namespace Sigchat.Results

open Sigchat.Lib
open Sigchat.Pddb
open Sigchat.Stores
open Sigchat.Accounts

-- ---------------------------------------------------------------------------
-- What arrives
-- ---------------------------------------------------------------------------

/-- The bytes of a key that arrive: it is opened, and its first 256 bytes are
asked for. -/
def arrived (env : Env Req Outcome) (s : Disk) (dict : String) (k : Key) : Option Bytes :=
  match env 0 (.get dict k.name false), s dict k.name, env 1 (.read dict k.name 0 256) with
  | .failed _, _, _ => none
  | _, none, _ => none
  | _, some _, .failed _ => none
  | _, some bs, o => some (bs.take (o.limit 256))

/-- One of the requests for a key fails. -/
def Failing (env : Env Req Outcome) (s : Disk) (dict : String) (k : Key) : Prop :=
  (∃ f, env 0 (.get dict k.name false) = .failed f) ∨
    s dict k.name ≠ none ∧ ∃ f, env 1 (.read dict k.name 0 256) = .failed f

/-- The environment as it is when a key is read, after the keys before it. -/
def envAt (s : Disk) (dict : String) : List Key → Env Req Outcome → Key → Env Req Outcome
  | [], env, _ => env
  | k :: ks, env, k' =>
    if k' = k then env else envAt s dict ks ((Accounts.get dict k).left serve env s) k'

/-- The text of a key that `Account::read` gets. -/
def textAt (env : Env Req Outcome) (s : Disk) (dict : String) (k : Key) : Option String :=
  (arrived (envAt s dict loadedKeys env k) s dict k).bind fromUtf8

/-- The failures of requests; that a key is not found is none. -/
def failures : (r : Req) → Resp r → List IoError
  | _, .error e => if e.kind = .notFound then [] else [e]
  | _, .ok _ => []

/-- What `get` answers: the text of the bytes that have arrived. -/
theorem run_get (env : Env Req Outcome) (dict : String) (k : Key) (s : Disk) :
    (Accounts.get dict k).run serve env s = ((arrived env s dict k).bind fromUtf8, s) := by
  unfold Accounts.get readAccountString arrived
  rw [Prog.run_call]
  -- the outcome of the read request decides how many bytes arrive
  have hRead : env.tail 0 (.read dict k.name 0 256) = env 1 (.read dict k.name 0 256) := rfl
  cases hGet : env 0 (.get dict k.name false) with
  | failed f => rfl
  | served | short n =>
    cases hStored : s dict k.name with
    | none =>
      simp only [serve, perform, hStored]
      rfl
    | some bs =>
      simp only [serve, perform, hStored, Prog.run_call, hRead]
      cases env 1 (.read dict k.name 0 256) with
      | failed f => rfl
      | served | short n => simp only [hStored, List.drop_zero, Option.bind_some]; rfl

/-- A request fails, or the bytes are no text. -/
theorem trace_get (env : Env Req Outcome) (dict : String) (k : Key) (s : Disk) :
    (Accounts.get dict k).trace serve failures env s ≠ [] ↔ Failing env s dict k := by
  unfold Accounts.get readAccountString Failing
  rw [Prog.trace_call]
  have hRead : env.tail 0 (.read dict k.name 0 256) = env 1 (.read dict k.name 0 256) := rfl
  cases hGet : env 0 (.get dict k.name false) with
  | failed f => simp [serve, failures, f.kind_ne]
  | served | short n =>
    cases hStored : s dict k.name with
    | none => simp [serve, perform, hStored, failures, keyNotFound, IoError.ofKind]
    | some bs =>
      simp only [serve, perform, hStored, Prog.trace_call, hRead]
      cases env 1 (.read dict k.name 0 256) with
      | failed f => simp [failures, f.kind_ne]
      | served | short n => simp [hStored, failures]

/-- All the values are read as they arrive, each under the outcomes that are
left. -/
theorem run_getAll (env : Env Req Outcome) (dict : String) (ks : List Key) (s : Disk) :
    ((getAll dict ks).run serve env s).2 = s ∧
      ∀ k ∈ ks, ((getAll dict ks).run serve env s).1 k =
        (arrived (envAt s dict ks env k) s dict k).bind fromUtf8 := by
  induction ks generalizing env with
  | nil => exact ⟨rfl, nofun⟩
  | cons k ks ih =>
    rw [getAll, Prog.run_bind, run_get, Prog.run_bind]
    obtain ⟨hState, hTexts⟩ := ih ((Accounts.get dict k).left serve env s)
    refine ⟨hState, fun k' hk' => ?_⟩
    simp only [Prog.pure_eq, Prog.run_done, envAt]
    split
    · rename_i hEq
      rw [hEq]
    · rename_i hNe
      exact hTexts k' ((List.mem_cons.mp hk').resolve_left hNe)

/-- The requests of a list of keys fail exactly if those of one key do; no key
is read twice. -/
theorem trace_getAll (env : Env Req Outcome) (dict : String) {ks : List Key} (hNodup : ks.Nodup)
    (s : Disk) : (getAll dict ks).trace serve failures env s ≠ [] ↔
      ∃ k ∈ ks, Failing (envAt s dict ks env k) s dict k := by
  induction ks generalizing env with
  | nil => simp [getAll]
  | cons k ks ih =>
    obtain ⟨hNotMem, hRest⟩ := List.nodup_cons.mp hNodup
    have hTrace : (getAll dict (k :: ks)).trace serve failures env s =
        (Accounts.get dict k).trace serve failures env s ++
          (getAll dict ks).trace serve failures ((Accounts.get dict k).left serve env s) s := by
      rw [getAll, Prog.trace_bind, Prog.trace_bind, run_get]
      exact congrArg _ (List.append_nil _)
    rw [hTrace, ne_eq, List.append_eq_nil_iff, not_and_or, List.exists_mem_cons_iff]
    -- the first key fails, or one of the others does
    refine or_congr ?_ ((ih _ hRest).trans (exists_congr fun k' => and_congr_right fun hk' => ?_))
    · rw [envAt, if_pos rfl]
      exact trace_get env dict k s
    · have hNe : k' ≠ k := fun hEq => hNotMem (hEq ▸ hk')
      rw [envAt, if_neg hNe]

/-- **The texts that arrive** make the account. -/
theorem run_read {U : UrlCrate} (env : Env Req Outcome) (dict : String) (s : Disk) :
    ((Accounts.read dict : Prog Resp (Except Panic (Except IoError (Account U)))).run serve
      env s).1 = ofTexts dict (textAt env s dict) := by
  rw [Accounts.read, Prog.run_bind]
  exact ofTexts_congr dict (run_getAll env dict loadedKeys s).2

-- ---------------------------------------------------------------------------
-- The rule
-- ---------------------------------------------------------------------------

section Rule

variable (U : UrlCrate)

/-- The text that is stored for a key, whole. -/
def storedText (s : Disk) (dict : String) (k : Key) : Option String :=
  (s dict k.name).bind fromUtf8

/-- The dictionary does not hold an account: a value is not UTF-8, or one of the
six mandatory values is missing or does not parse. -/
def Unloadable (dict : String) (s : Disk) : Prop :=
  (∃ k ∈ loadedKeys, ∃ bs, s dict k.name = some bs ∧ fromUtf8 bs = none) ∨
    ∃ k, ¬Parses U k (storedText s dict k)

variable {U}

/-- The field of a key is the stored value. The timestamp, the only field with a
default, is 0 if none is stored, not if the stored one does not parse. -/
def Loaded (a : Account U) (text : Option String) (k : Key) : Prop :=
  Holds a text k ∧ (k = .storeLastReceiveTimestamp → ∀ t, text = some t → (parseI64 t).isSome)

variable (U)

/-- **All or nothing.** Nothing panics. If a request fails or the dictionary
does not hold an account the result is `Err`, otherwise it is `Ok` with the
stored values. -/
def AllOrNothing (dict : String) (env : Env Req Outcome) (s : Disk) : Prop :=
  let p : Prog Resp (Except Panic (Except IoError (Account U))) := Accounts.read dict
  (p.trace serve failures env s ≠ [] ∨ Unloadable U dict s →
    ∃ e, (p.run serve env s).1 = .ok (.error e)) ∧
  (¬(p.trace serve failures env s ≠ [] ∨ Unloadable U dict s) →
    ∃ a, (p.run serve env s).1 = .ok (.ok a) ∧ a.pddbDict = dict ∧
      ∀ k, Loaded a (storedText s dict k) k)

def mandatoryKeys : List Key :=
  [.deviceId, .host, .isMultiDevice, .registered, .serviceEnvironment, .storeManifestVersion]

/-- Something is wrong with a request or with the dictionary. -/
def Wrong (dict : String) (env : Env Req Outcome) (s : Disk) : Prop :=
  (∃ k ∈ loadedKeys, Failing (envAt s dict loadedKeys env k) s dict k) ∨ Unloadable U dict s

/-- When the rule is kept: if something is wrong, some mandatory text does not
arrive; if nothing is, each text that arrives is loaded as the stored one, and a
stored timestamp parses. -/
def Kept (dict : String) (env : Env Req Outcome) (s : Disk) : Prop :=
  (Wrong U dict env s → ∃ k ∈ mandatoryKeys, textAt env s dict k = none) ∧
  (¬Wrong U dict env s →
    (∀ k, SameField U k (textAt env s dict k) (storedText s dict k)) ∧
      ∀ t, storedText s dict .storeLastReceiveTimestamp = some t → (parseI64 t).isSome)

variable {U}

/-- **When an error is returned.** -/
theorem exists_error_iff {dict : String} {f : Key → Option String} :
    (∃ e, (ofTexts dict f : Except Panic (Except IoError (Account U))) = .ok (.error e)) ↔
      ∃ k ∈ mandatoryKeys, f k = none := by
  unfold ofTexts
  split
  · rename_i hDevice hHost hMulti hRegistered hEnvironment hVersion
    constructor
    · rintro ⟨e, h⟩
      simp only [unwrap_bind_ok] at h
      obtain ⟨_, -, _, -, _, -, _, -, _, -, _, -, h⟩ := h
      cases Except.ok.inj h
    · rintro ⟨k, hk, hNone⟩
      simp only [mandatoryKeys, List.mem_cons, List.not_mem_nil, or_false] at hk
      rcases hk with rfl | rfl | rfl | rfl | rfl | rfl <;> simp_all
  -- otherwise one of the six texts is missing
  · rename_i hMissing
    refine iff_of_true ⟨_, rfl⟩ ?_
    by_contra hAll
    have hText (k : Key) (hk : k ∈ mandatoryKeys) : ∃ text, f k = some text :=
      Option.ne_none_iff_exists'.mp fun hNone => hAll ⟨k, hk, hNone⟩
    obtain ⟨_, hDevice⟩ := hText .deviceId (by decide)
    obtain ⟨_, hHost⟩ := hText .host (by decide)
    obtain ⟨_, hMulti⟩ := hText .isMultiDevice (by decide)
    obtain ⟨_, hRegistered⟩ := hText .registered (by decide)
    obtain ⟨_, hEnvironment⟩ := hText .serviceEnvironment (by decide)
    obtain ⟨_, hVersion⟩ := hText .storeManifestVersion (by decide)
    exact hMissing _ _ _ _ _ _ hDevice hHost hMulti hRegistered hEnvironment hVersion

/-- **When an account is returned.** -/
theorem exists_account_iff {dict : String} {f : Key → Option String} :
    (∃ a : Account U, ofTexts dict f = .ok (.ok a)) ↔ ∀ k, Parses U k (f k) := by
  constructor
  · rintro ⟨a, h⟩ k
    have hHolds := (ofTexts_eq_iff.mp h).2 k
    cases k <;> first | trivial | exact Option.isSome_iff_exists.mpr ⟨_, hHolds⟩
  · intro h
    obtain ⟨deviceId, hDevice⟩ := Option.isSome_iff_exists.mp (h .deviceId)
    obtain ⟨host, hHost⟩ := Option.isSome_iff_exists.mp (h .host)
    obtain ⟨isMultiDevice, hMulti⟩ := Option.isSome_iff_exists.mp (h .isMultiDevice)
    obtain ⟨registered, hRegistered⟩ := Option.isSome_iff_exists.mp (h .registered)
    obtain ⟨environment, hEnvironment⟩ := Option.isSome_iff_exists.mp (h .serviceEnvironment)
    obtain ⟨version, hVersion⟩ := Option.isSome_iff_exists.mp (h .storeManifestVersion)
    exact LinkAccepted.exists_ofTexts hDevice hHost hMulti hRegistered hEnvironment hVersion

/-- Whether a request of `Account::read` fails is whether one of its keys does.
-/
theorem trace_read (dict : String) (env : Env Req Outcome) (s : Disk) :
    (Accounts.read dict : Prog Resp (Except Panic (Except IoError (Account U)))).trace serve
      failures env s ≠ [] ↔
        ∃ k ∈ loadedKeys, Failing (envAt s dict loadedKeys env k) s dict k := by
  rw [← trace_getAll env dict (by decide) s, Accounts.read, Prog.trace_bind]
  exact not_congr (by rw [List.append_eq_nil_iff]; exact and_iff_left rfl)

/-- **All or nothing** is kept exactly if, where something is wrong, a mandatory
text does not arrive, and otherwise what arrives is loaded as what is stored. -/
theorem read_all_or_nothing_iff (dict : String) (env : Env Req Outcome) (s : Disk) :
    AllOrNothing U dict env s ↔ Kept U dict env s := by
  simp only [AllOrNothing, Kept, run_read, trace_read]
  refine and_congr (imp_congr_right fun _ => exists_error_iff) (imp_congr_right fun hSound => ?_)
  constructor
  -- an account has been read, and it is the one that is stored
  · rintro ⟨a, hRead, -, hLoaded⟩
    obtain ⟨-, hHolds⟩ := ofTexts_eq_iff.mp hRead
    exact ⟨fun k => (holds_iff_sameField (hLoaded k).1).mp (hHolds k),
      (hLoaded .storeLastReceiveTimestamp).2 rfl⟩
  · rintro ⟨hSame, hTimestamp⟩
    -- nothing is unloadable, so what is stored makes an account
    have hParses : ∀ k, Parses U k (storedText s dict k) := by
      by_contra hSome
      exact hSound (.inr (.inr (not_forall.mp hSome)))
    obtain ⟨a, hStored⟩ := exists_account_iff.mpr hParses
    obtain ⟨hDict, hHolds⟩ := ofTexts_eq_iff.mp hStored
    refine ⟨a, ofTexts_eq_iff.mpr ⟨hDict, fun k => (holds_iff_sameField (hHolds k)).mpr (hSame k)⟩,
      hDict, fun k => ⟨hHolds k, ?_⟩⟩
    rintro rfl
    exact hTimestamp

end Rule

-- ---------------------------------------------------------------------------
-- An interrupted write
-- ---------------------------------------------------------------------------

/-- A `device_id` left empty makes `Account::read` panic. -/
theorem empty_device_id_panics :
    ¬∀ (U : UrlCrate) (dict : String) (env : Env Req Outcome) (s : Disk),
      AllOrNothing U dict env s := by
  intro h
  let s := freshDisk.set accountDict Key.deviceId.name (some [])
  -- the text is there, and it is no number
  have hThere : ¬∃ k ∈ mandatoryKeys, textAt (fun _ _ => .served) s accountDict k = none := by
    decide +kernel
  have hUnparsed : ¬Parses .plain .deviceId
      (textAt (fun _ _ => .served) s accountDict .deviceId) := by
    show ¬(Option.isSome _ = true)
    decide +kernel
  obtain ⟨hError, hAccount⟩ := h .plain accountDict (fun _ _ => .served) s
  simp only [run_read] at hError hAccount
  by_cases hWrong : (Accounts.read accountDict : Prog Resp (Except Panic (Except IoError
      (Account .plain)))).trace serve failures (fun _ _ => .served) s ≠ [] ∨
        Unloadable .plain accountDict s
  · exact hThere (exists_error_iff.mp (hError hWrong))
  · obtain ⟨a, hOk, -⟩ := hAccount hWrong
    exact hUnparsed (exists_account_iff.mp ⟨a, hOk⟩ .deviceId)

end Sigchat.Results

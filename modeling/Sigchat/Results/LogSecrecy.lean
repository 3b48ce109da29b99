import Sigchat.Model.AccountLog
import Sigchat.Results.AccountRead

/-!
# What the log tells of stored secrets

`get` and `set` log the values they read and write, and the printed text of a
value determines it.

* `allLines_eq_iff`    — lists of values are logged alike exactly if they are the
  same;
* `readLog_eq_iff`     — reading an account logs the same of two disks exactly if
  the same bytes arrive of each secret;
* `newLog_eq_iff`      — creating one, exactly if the same arrives of what the
  deletions have left.
-/

namespace Sigchat.Results

open Sigchat.Lib
open Sigchat.Pddb
open Sigchat.Signal
open Sigchat.Stores
open Sigchat.Accounts
open Sigchat.AccountLog

variable (T : Texts)

-- ---------------------------------------------------------------------------
-- The lines of a `set`
-- ---------------------------------------------------------------------------

/-- The line of a write request. -/
def writtenLine (o : Outcome) (dict : String) (k : Key) (v : String) : Line :=
  match o with
  | .failed f => ⟨.warn, "Error writing " ++ dict ++ ":" ++ k.name ++ " " ++ T.ioError f.err⟩
  | o =>
    ⟨.trace, "Wrote " ++ decimal (o.limit (utf8 v).length) ++ " bytes to " ++ dict ++ ":" ++ k.name⟩

/-- The line after that of the value, for a value that is to be written. -/
def writeLine (env : Env Req Outcome) (dict : String) (k : Key) (v : String) : Line :=
  match env 1 (.get dict k.name true) with
  | .failed f => ⟨.warn, "failed to set pddb " ++ dict ++ ":" ++ k.name ++ "  " ++ T.ioError f.err⟩
  | _ => writtenLine T (env 2 (.write dict k.name 0 (utf8 v))) dict k v

def setLines (env : Env Req Outcome) (dict : String) (k : Key) (value : Option String) :
    List Line :=
  setLine T k value :: (value.map (writeLine T env dict k)).toList

/-- Writing a value logs one line, by its outcome. -/
theorem lines_writeValue (env : Env Req Outcome) (dict : String) (k : Key) (v : String) {s : Disk}
    {old : Bytes} (hOld : s dict k.name = some old) :
    (AccountLog.writeValue T dict k v).lines serve env s =
      [writtenLine T (env 0 (.write dict k.name 0 (utf8 v))) dict k v] := by
  unfold AccountLog.writeValue
  rw [Logged.lines_request_bind]
  cases hOutcome : env 0 (.write dict k.name 0 (utf8 v)) with
  | failed f => rfl
  | served | short n =>
    simp only [serve, perform, hOld]
    rfl

/-- **The lines of a `set`** do not depend on what is stored. -/
theorem lines_set (env : Env Req Outcome) (dict : String) (k : Key) (value : Option String)
    (s : Disk) :
    (AccountLog.set T dict k value).lines serve env s = setLines T env dict k value := by
  unfold AccountLog.set setLines
  rw [Logged.lines_log_bind, Logged.lines_request_bind]
  refine congrArg (_ :: ·) ?_
  -- Nothing is opened when a value is removed.
  cases value with
  | none => rfl
  | some v =>
    rw [Logged.lines_request_bind, Option.map_some, Option.toList_some, writeLine]
    have hGet : env.tail 0 (.get dict k.name true) = env 1 (.get dict k.name true) := rfl
    rw [hGet]
    cases env 1 (.get dict k.name true) with
    | failed f => rfl
    | served | short n =>
      rw [serve_create_of_not_failed (fun _ => Outcome.noConfusion)]
      exact lines_writeValue T env.tail.tail dict k v (Disk.set_same ..)

/-- The lines of a list of `set`s. -/
def allLines (dict : String) : List (Key × Option String) → Env Req Outcome → List Line
  | [], _ => []
  | (k, v) :: kvs, env =>
    setLines T env dict k v ++
      allLines dict kvs fun i => env (i + setRequests env dict k.name v)

/-- Setting all values logs the lines of each. -/
theorem lines_setAll (dict : String) (kvs : List (Key × Option String)) (env : Env Req Outcome)
    (s : Disk) :
    (AccountLog.setAll T dict kvs).lines serve env s = allLines T dict kvs env := by
  induction kvs generalizing env s with
  | nil => rfl
  | cons kv kvs ih =>
    obtain ⟨k, v⟩ := kv
    rw [AccountLog.setAll, Logged.lines_bind, lines_set, erase_set, set_run, set_left]
    exact congrArg (_ ++ ·) (ih _ _)

variable {U : UrlCrate} {L : Libsignal}

/-- Setting a field logs what setting its key does. -/
theorem lines_accountSet {a a' : Account U} {k : Key} {v : Option String}
    (hArm : a.arm k v = some (.ok a')) (env : Env Req Outcome) (s : Disk) :
    (accountSet T a k v).lines serve env s = setLines T env a.pddbDict k v := by
  rw [accountSet, Logged.lines_bind, lines_set, erase_set, set_run]
  simp only [hArm]
  exact List.append_nil _

theorem left_set_arm {a a' : Account U} {k : Key} {v : Option String}
    (hArm : a.arm k v = some (.ok a')) (env : Env Req Outcome) (s : Disk) :
    (a.set k v).left serve env s = fun i => env (i + setRequests env a.pddbDict k.name v) := by
  rw [Account.set, Prog.left_bind, set_run, set_left]
  simp only [hArm]
  rfl

/-- Setting several fields logs what setting their keys does. -/
theorem lines_setValues {kvs : List (Key × Option String)} (hSettable : Settable U kvs)
    (a : Account U) (env : Env Req Outcome) (s : Disk) :
    (setValues T a kvs).lines serve env s = allLines T a.pddbDict kvs env := by
  induction kvs generalizing a env s with
  | nil => rfl
  | cons kv kvs ih =>
    obtain ⟨k, v⟩ := kv
    obtain ⟨hHost, hParses⟩ := hSettable _ List.mem_cons_self
    obtain ⟨a₁, hArm, hDict⟩ := arm_ok a hHost hParses
    rw [setValues, Logged.lines_bind, lines_accountSet T hArm, erase_accountSet, set_run_arm hArm,
      left_set_arm hArm, allLines, ← hDict]
    exact congrArg (_ ++ ·) (ih (fun kv hkv => hSettable kv (List.mem_cons_of_mem _ hkv)) a₁ _ _)

/-- Saving a link logs the lines of its values; the prekeys log none. -/
theorem lines_saveLinked (a : Account U) (msg : ProvisionMessage) (l : Linked L)
    (env : Env Req Outcome) (s : Disk) :
    (saveLinked T a msg l).lines serve env s =
      allLines T a.pddbDict (linkValues msg l) env := by
  rw [saveLinked, Logged.lines_bind, lines_setValues T (settable_linkValues msg l)]
  rw [List.append_right_eq_self]
  -- saving the prekeys logs nothing here, whatever has become of the values
  rcases ((setValues T a (linkValues msg l)).erase.run serve env s).1 with p | ⟨e | _, a'⟩
  · rfl
  · rfl
  · refine (Logged.lines_bind ..).trans ?_
    rw [Logged.lines_silent]
    rcases ((Logged.silent (saveToPddb l.generated) : Logged Line Resp _).erase.run serve _ _).1
      with e | _ <;> rfl

-- ---------------------------------------------------------------------------
-- Values from lines
-- ---------------------------------------------------------------------------

theorem toList_append_inj {pre x y post post' : String}
    (h : pre ++ x ++ post = pre ++ y ++ post') :
    x.toList ++ post.toList = y.toList ++ post'.toList := by
  have hList := congrArg String.toList h
  simpa only [String.toList_append, List.append_assoc, List.append_cancel_left_eq] using hList

theorem around_injective {pre post x y : String} (h : pre ++ x ++ post = pre ++ y ++ post) :
    x = y :=
  String.toList_inj.mp (List.append_cancel_right (toList_append_inj h))

theorem setLine_injective {k : Key} {v w : Option String} (h : setLine T k v = setLine T k w) :
    v = w :=
  Debug.option_injective _ (around_injective (congrArg Line.text h))

/-- The line that is logged for getting a value shows the value. -/
theorem getLine_injective {k : Key} {v w : Option String} (h : getLine T k v = getLine T k w) :
    v = w :=
  Debug.option_injective _ (around_injective (congrArg Line.text h))

/-- The lines of a `set` tell its value from what follows. -/
theorem setLines_append_inj {env env' : Env Req Outcome} {dict dict' : String} {k : Key}
    {v w : Option String} {r r' : List Line} (hPresence : v.isSome = w.isSome)
    (h : setLines T env dict k v ++ r = setLines T env' dict' k w ++ r') : v = w ∧ r = r' := by
  obtain ⟨hValue, hRest⟩ := List.cons.inj h
  refine ⟨setLine_injective T hValue, ?_⟩
  cases v with
  | none =>
    obtain rfl : w = none := Option.isNone_iff_eq_none.mp (by simpa using hPresence.symm)
    exact hRest
  | some v =>
    obtain ⟨w, rfl⟩ := Option.isSome_iff_exists.mp hPresence.symm
    exact (List.cons.inj hRest).2

/-- The same keys, with values or without. -/
def SameShape (kvs kvs' : List (Key × Option String)) : Prop :=
  List.Forall₂ (fun kv kv' => kv.1 = kv'.1 ∧ kv.2.isSome = kv'.2.isSome) kvs kvs'

/-- **Lists of values are logged alike exactly if they are the same.** -/
theorem allLines_eq_iff {dict : String} {kvs kvs' : List (Key × Option String)}
    (hShape : SameShape kvs kvs') (env : Env Req Outcome) :
    allLines T dict kvs env = allLines T dict kvs' env ↔ kvs = kvs' := by
  refine ⟨fun h => ?_, fun h => h ▸ rfl⟩
  induction hShape generalizing env with
  | nil => rfl
  | @cons kv kv' _ _ hHead _ ih =>
    obtain ⟨k, v⟩ := kv
    obtain ⟨k', v'⟩ := kv'
    obtain ⟨rfl, hPresence⟩ := hHead
    obtain ⟨rfl, hRest⟩ := setLines_append_inj T hPresence h
    rw [ih _ hRest]

-- ---------------------------------------------------------------------------
-- The lines of a `get`
-- ---------------------------------------------------------------------------

/-- How reading a key ends. -/
inductive Got where
  | absent
  | failed (f : Fault)
  | buffer (bs : Bytes)

def got (env : Env Req Outcome) (s : Disk) (dict : String) (k : Key) : Got :=
  match env 0 (.get dict k.name false), s dict k.name, env 1 (.read dict k.name 0 256) with
  | .failed _, _, _ => .absent
  | _, none, _ => .absent
  | _, some _, .failed f => .failed f
  | _, some bs, o => .buffer (bs.take (o.limit 256))

def bufferLines (k : Key) (bs : Bytes) : List Line :=
  match fromUtf8 bs with
  | some v => [getLine T k (some v)]
  | none => [⟨.warn, "failed to String: " ++ fromUtf8Error T bs⟩, getLine T k none]

def gotLines (k : Key) : Got → List Line
  | .absent => [getLine T k none]
  | .failed f => [⟨.warn, "failed pddb_key read: " ++ T.ioError f.err⟩, getLine T k none]
  | .buffer bs => bufferLines T k bs

/-- A buffer logs its text, after a warning if it is none. -/
theorem lines_textOfBuffer (k : Key) (bs : Bytes) (env : Env Req Outcome) (s : Disk) :
    (textOfBuffer T bs).lines serve env s ++ [getLine T k (fromUtf8 bs)] =
      bufferLines T k bs := by
  unfold textOfBuffer bufferLines
  cases fromUtf8 bs <;> rfl

/-- Getting a value logs what has arrived. -/
theorem lines_get (env : Env Req Outcome) (dict : String) (k : Key) (s : Disk) :
    (AccountLog.get T dict k).lines serve env s = gotLines T k (got env s dict k) := by
  rw [AccountLog.get, Logged.lines_bind, erase_readValue, run_get, Logged.lines_log_bind,
    Logged.lines_pure]
  unfold readValue arrived got
  rw [Logged.lines_request_bind]
  have hRead : env.tail 0 (.read dict k.name 0 256) = env 1 (.read dict k.name 0 256) := rfl
  -- The key is opened and then read; each request may fail.
  cases env 0 (.get dict k.name false) with
  | failed f => rfl
  | served | short n =>
    cases hStored : s dict k.name with
    | none =>
      simp only [serve, perform, hStored]
      rfl
    | some bs =>
      simp only [serve, perform, hStored]
      rw [Logged.lines_request_bind, hRead]
      cases env 1 (.read dict k.name 0 256) with
      | failed f => rfl
      | served | short n =>
        simp only [serve, perform, hStored]
        exact lines_textOfBuffer T k _ _ _

/-- Keys that are both there, or both absent, are read under the same outcomes
in the same way. -/
theorem got_cases {env : Env Req Outcome} {s s' : Disk} {dict : String} {k : Key}
    (hPresence : (s dict k.name).isSome = (s' dict k.name).isSome) :
    (got env s dict k = got env s' dict k ∧ arrived env s dict k = none ∧
      arrived env s' dict k = none) ∨
    ∃ bs bs', got env s dict k = .buffer bs ∧ got env s' dict k = .buffer bs' ∧
      arrived env s dict k = some bs ∧ arrived env s' dict k = some bs' := by
  unfold got arrived
  -- With a key present in both or absent in both the same requests are made, with the same
  -- outcomes.
  cases env 0 (.get dict k.name false) with
  | failed f => exact .inl ⟨rfl, rfl, rfl⟩
  | served | short n =>
    cases hStored : s dict k.name with
    | none =>
      have hAbsent : s' dict k.name = none :=
        Option.isNone_iff_eq_none.mp (by simpa [hStored] using hPresence)
      rw [hAbsent]
      exact .inl ⟨rfl, rfl, rfl⟩
    | some bs =>
      rw [hStored] at hPresence
      obtain ⟨bs', hStored'⟩ := Option.isSome_iff_exists.mp hPresence.symm
      rw [hStored']
      cases env 1 (.read dict k.name 0 256) with
      | failed f => exact .inl ⟨rfl, rfl, rfl⟩
      | served | short n => exact .inr ⟨_, _, rfl, rfl, rfl, rfl⟩

/-- The warning about a text that is none shows all its bytes. -/
theorem fromUtf8Error_injective {bs bs' : Bytes} (h : fromUtf8Error T bs = fromUtf8Error T bs') :
    bs = bs' := by
  have hList := toList_append_inj h
  rw [String.toList_ofList, String.toList_ofList] at hList
  exact (Debug.bytes_append_inj hList).1

theorem getLine_ne_warning {k : Key} {v : Option String} {text : String} :
    getLine T k v ≠ ⟨.warn, text⟩ := fun h => nomatch congrArg Line.level h

/-- What is logged of a buffer tells its bytes from what follows. -/
theorem bufferLines_append_inj {k : Key} {bs bs' : Bytes} {r r' : List Line}
    (h : bufferLines T k bs ++ r = bufferLines T k bs' ++ r') : bs = bs' ∧ r = r' := by
  unfold bufferLines at h
  rcases hText : fromUtf8 bs with _ | v <;> rcases hText' : fromUtf8 bs' with _ | v' <;>
    simp only [hText, hText', List.cons_append, List.nil_append, List.cons.injEq] at h
  · obtain ⟨hWarning, -, hRest⟩ := h
    have hError := congrArg (fun line => line.text ++ "") hWarning
    exact ⟨fromUtf8Error_injective T (around_injective hError), hRest⟩
  · exact absurd h.1.symm (getLine_ne_warning T)
  · exact absurd h.1 (getLine_ne_warning T)
  · obtain ⟨hValue, hRest⟩ := h
    obtain rfl := Option.some.inj (getLine_injective T hValue)
    exact ⟨(utf8_of_fromUtf8 hText).symm.trans (utf8_of_fromUtf8 hText'), hRest⟩

/-- What is logged of a key tells what has arrived from what follows. -/
theorem gotLines_append_inj {env : Env Req Outcome} {s s' : Disk} {dict : String} {k : Key}
    {r r' : List Line} (hPresence : (s dict k.name).isSome = (s' dict k.name).isSome) :
    gotLines T k (got env s dict k) ++ r = gotLines T k (got env s' dict k) ++ r' ↔
      arrived env s dict k = arrived env s' dict k ∧ r = r' := by
  rcases got_cases hPresence with ⟨hSame, hNone, hNone'⟩ | ⟨bs, bs', hGot, hGot', hSome, hSome'⟩
  · rw [hSame, hNone, hNone', List.append_cancel_left_eq]
    exact (and_iff_right rfl).symm
  · rw [hGot, hGot', hSome, hSome', Option.some.injEq]
    refine ⟨bufferLines_append_inj T, ?_⟩
    rintro ⟨rfl, rfl⟩
    rfl

/-- Reading a key takes as many requests in both. -/
theorem left_get_congr {env : Env Req Outcome} {s s' : Disk} {dict : String} {k : Key}
    (hPresence : (s dict k.name).isSome = (s' dict k.name).isSome) :
    (Accounts.get dict k).left serve env s = (Accounts.get dict k).left serve env s' := by
  unfold Accounts.get readAccountString
  rw [Prog.left, Prog.left]
  cases env 0 (.get dict k.name false) with
  | failed f => rfl
  | served | short n =>
    cases hStored : s dict k.name <;> cases hStored' : s' dict k.name <;>
      rw [hStored, hStored'] at hPresence
    · simp only [serve, perform, hStored, hStored']
      rfl
    · cases hPresence
    · cases hPresence
    · simp only [serve, perform, hStored, hStored', Prog.left]
      cases env.tail 0 (.read dict k.name 0 256) <;> simp only [hStored, hStored'] <;> rfl

-- ---------------------------------------------------------------------------
-- Reading and creating the account
-- ---------------------------------------------------------------------------

/-- The values that are not to be seen in the log. -/
def secretKeys : List Key :=
  [.password, .aciIdentityPrivate, .pniIdentityPrivate, .profileKey, .accountEntropyPool]

/-- Two disks that differ in the secrets only, and hold the same of them. -/
structure AlikeDisks (dict : String) (s s' : Disk) : Prop where
  presence : ∀ k : Key, (s dict k.name).isSome = (s' dict k.name).isSome
  publicKeys : ∀ k ∉ secretKeys, s dict k.name = s' dict k.name

theorem AlikeDisks.symm {dict : String} {s s' : Disk} (hAlike : AlikeDisks dict s s') :
    AlikeDisks dict s' s :=
  ⟨fun k => (hAlike.presence k).symm, fun k hk => (hAlike.publicKeys k hk).symm⟩

/-- Of each secret that is read, the same bytes arrive. -/
def SameArrived (dict : String) (env : Env Req Outcome) (s s' : Disk) : Prop :=
  ∀ k ∈ secretKeys, k ∈ loadedKeys → arrived (envAt s dict loadedKeys env k) s dict k =
    arrived (envAt s' dict loadedKeys env k) s' dict k

/-- Two alike disks use the outcomes alike, key after key. -/
theorem envAt_congr {s s' : Disk} {dict : String}
    (hPresence : ∀ k : Key, (s dict k.name).isSome = (s' dict k.name).isSome) (ks : List Key)
    (env : Env Req Outcome) (k : Key) : envAt s dict ks env k = envAt s' dict ks env k := by
  induction ks generalizing env with
  | nil => rfl
  | cons k' ks ih => rw [envAt, envAt, left_get_congr (hPresence k'), ih]

/-- The logs of the two reads are equal exactly if the same bytes arrive under
each key. -/
theorem lines_getAll_eq_iff {s s' : Disk} {dict : String}
    (hPresence : ∀ k : Key, (s dict k.name).isSome = (s' dict k.name).isSome) {ks : List Key}
    (hNodup : ks.Nodup) (env : Env Req Outcome) :
    (AccountLog.getAll T dict ks).lines serve env s =
        (AccountLog.getAll T dict ks).lines serve env s' ↔
      ∀ k ∈ ks, arrived (envAt s dict ks env k) s dict k =
        arrived (envAt s' dict ks env k) s' dict k := by
  -- Key after key; the lines of one are told from those of the next.
  induction ks generalizing env with
  | nil => exact iff_of_true rfl nofun
  | cons k ks ih =>
    obtain ⟨hNotMem, hRest⟩ := List.nodup_cons.mp hNodup
    have hLines (t : Disk) : (AccountLog.getAll T dict (k :: ks)).lines serve env t =
        gotLines T k (got env t dict k) ++ (AccountLog.getAll T dict ks).lines serve
          ((Accounts.get dict k).left serve env t) t := by
      rw [AccountLog.getAll, Logged.lines_bind, Logged.lines_bind, lines_get, erase_get, run_get]
      exact congrArg (_ ++ ·) (List.append_nil _)
    rw [hLines, hLines, gotLines_append_inj T (hPresence k), left_get_congr (hPresence k),
      ih hRest, List.forall_mem_cons]
    refine and_congr ?_ (forall₂_congr fun k' hk' => ?_)
    · rw [envAt, envAt, if_pos rfl, if_pos rfl]
    · have hNe : k' ≠ k := fun hEq => hNotMem (hEq ▸ hk')
      rw [envAt, envAt, if_neg hNe, if_neg hNe, left_get_congr (hPresence k)]

/-- What `Account::read` logs. -/
def readLog (U : UrlCrate) (dict : String) (env : Env Req Outcome) (s : Disk) : List Line :=
  (AccountLog.read T dict : Logged Line Resp (Except Panic (Except IoError (Account U)))).lines
    serve env s

theorem readLog_eq (dict : String) (env : Env Req Outcome) (s : Disk) :
    readLog T U dict env s = (AccountLog.getAll T dict loadedKeys).lines serve env s := by
  rw [readLog, AccountLog.read, Logged.lines_bind]
  exact List.append_nil _

/-- **Reading**: the same is logged exactly if the same arrives of each secret. -/
theorem readLog_eq_iff {s s' : Disk} {dict : String} (hAlike : AlikeDisks dict s s')
    (env : Env Req Outcome) :
    readLog T U dict env s = readLog T U dict env s' ↔ SameArrived dict env s s' := by
  rw [readLog_eq, readLog_eq, lines_getAll_eq_iff T hAlike.presence (by decide)]
  refine ⟨fun h k _ hk => h k hk, fun h k hk => ?_⟩
  by_cases hSecret : k ∈ secretKeys
  · exact h k hSecret hk
  · rw [envAt_congr hAlike.presence, arrived, arrived, hAlike.publicKeys k hSecret]

/-- Whether a key is there after it has been set does not depend on what it
held. -/
theorem isSome_contentSet {env : Env Req Outcome} {dict key : String} {v : Option String}
    {old old' : Option Bytes} (h : old.isSome = old'.isSome) :
    (contentSet env dict key v old).isSome = (contentSet env dict key v old').isSome := by
  have hLeft : (contentLeft env dict key old).isSome = (contentLeft env dict key old').isSome := by
    unfold contentLeft
    split
    · exact h
    · rfl
  unfold contentSet
  split
  · exact hLeft
  · split
    · exact hLeft
    · rfl

/-- Setting one key of a dictionary leaves the others. -/
theorem set_name (s : Disk) (dict : String) (k : Key) (c : Option Bytes) (k' : Key) :
    s.set dict k.name c dict k'.name = if k' = k then c else s dict k'.name := by
  split
  · rename_i hk
    rw [hk, Disk.set_same]
  · rename_i hk
    exact Disk.set_other _ _ fun h => hk (Key.name_injective h.2)

/-- Setting the same value keeps the disks alike. -/
theorem AlikeDisks.set {s s' : Disk} {dict : String} (hAlike : AlikeDisks dict s s')
    (env : Env Req Outcome) (k : Key) (v : Option String) :
    AlikeDisks dict (s.set dict k.name (contentSet env dict k.name v (s dict k.name)))
      (s'.set dict k.name (contentSet env dict k.name v (s' dict k.name))) := by
  refine ⟨fun k' => ?_, fun k' hPublic => ?_⟩ <;> rw [set_name, set_name] <;> split
  · exact isSome_contentSet (hAlike.presence k)
  · exact hAlike.presence k'
  · rename_i hk
    rw [hAlike.publicKeys k (hk ▸ hPublic)]
  · exact hAlike.publicKeys k' hPublic

/-- A list of `set`s succeeds, with as many requests on any disk, and keeps disks
alike. -/
theorem run_setAll {s s' : Disk} {dict : String} (hAlike : AlikeDisks dict s s')
    (env : Env Req Outcome) (kvs : List (Key × Option String)) :
    ((Accounts.setAll dict kvs).run serve env s).1 = .ok () ∧
      (Accounts.setAll dict kvs).left serve env s = (Accounts.setAll dict kvs).left serve env s' ∧
      AlikeDisks dict ((Accounts.setAll dict kvs).run serve env s).2
        ((Accounts.setAll dict kvs).run serve env s').2 := by
  induction kvs generalizing env s s' with
  | nil => exact ⟨rfl, rfl, hAlike⟩
  | cons kv kvs ih =>
    obtain ⟨k, v⟩ := kv
    obtain ⟨hOk, hLeft, hRest⟩ :=
      ih (hAlike.set env k v) fun i => env (i + setRequests env dict k.name v)
    rw [Accounts.setAll, Prog.run_bind, Prog.run_bind, Prog.left_bind, Prog.left_bind, set_run,
      set_run, set_left, set_left]
    exact ⟨hOk, hLeft, hRest⟩

/-- What `Account::new` logs. -/
def newLog (dict : String) (host : U.Host) (serviceEnvironment : ServiceEnvironment)
    (env : Env Req Outcome) (s : Disk) : List Line :=
  (AccountLog.new T dict host serviceEnvironment).lines serve env s

/-- The same arrives of each secret that is still there when the default values
have been set: one whose deletion has failed. -/
def SameLeft (dict : String) (host : U.Host) (serviceEnvironment : ServiceEnvironment)
    (env : Env Req Outcome) (s s' : Disk) : Prop :=
  let sets := Accounts.setAll dict (defaults host serviceEnvironment)
  SameArrived dict (sets.left serve env s) (sets.run serve env s).2 (sets.run serve env s').2

/-- **Creating**: the same is logged exactly if the same arrives of each secret
that the deletions have left. -/
theorem newLog_eq_iff {s s' : Disk} {dict : String} (hAlike : AlikeDisks dict s s')
    (host : U.Host) (serviceEnvironment : ServiceEnvironment) (env : Env Req Outcome) :
    newLog T dict host serviceEnvironment env s = newLog T dict host serviceEnvironment env s' ↔
      SameLeft dict host serviceEnvironment env s s' := by
  obtain ⟨hOk, hLeft, hLater⟩ := run_setAll hAlike env (defaults host serviceEnvironment)
  have hOk' := (run_setAll hAlike.symm env (defaults host serviceEnvironment)).1
  rw [newLog, newLog, AccountLog.new, Logged.lines_bind, Logged.lines_bind, lines_setAll,
    lines_setAll, List.append_cancel_left_eq, erase_setAll, hOk, hOk', ← hLeft]
  exact readLog_eq_iff T hLater _

end Sigchat.Results

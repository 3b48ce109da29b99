import Sigchat.Results.LinkRegistered

/-!
# Linking again

`Account::new` followed by `Account::link`, over a dictionary that may hold the
values of an account that was linked before. Between them the two functions
write every declared key, except one: the account entropy pool has no default
and is written only if the provisioning message brings one.

* `relink_same_iff`      — two dictionaries end up the same exactly if they
  agree on what is not written;
* `relink_keeps_old_aep` — the pool of the previous account survives.
-/

namespace Sigchat.Results

open Sigchat.Lib
open Sigchat.Pddb
open Sigchat.Signal
open Sigchat.Stores
open Sigchat.Accounts

variable {U : UrlCrate} {L : Libsignal}

-- ---------------------------------------------------------------------------
-- What the values leave of the old content
-- ---------------------------------------------------------------------------

theorem stored_append (dict : String) (kvs kvs' : List (Key × Option String)) (s : Disk) :
    stored dict (kvs ++ kvs') s = stored dict kvs' (stored dict kvs s) :=
  List.foldl_append

/-- A key that is written does not depend on the old content, and another one
keeps it. -/
theorem stored_cases (dict : String) (kvs : List (Key × Option String)) (name : String) :
    (∃ v, ∀ s, stored dict kvs s dict name = v) ∧ (∃ k ∈ kvs.map Prod.fst, name = k.name) ∨
      (∀ s, stored dict kvs s dict name = s dict name) ∧ ∀ k ∈ kvs.map Prod.fst, name ≠ k.name := by
  induction kvs with
  | nil => exact .inr ⟨fun _ => rfl, fun _ h => absurd h List.not_mem_nil⟩
  | cons kv kvs ih =>
    rcases ih with ⟨⟨v, hv⟩, k, hk, hName⟩ | ⟨hSame, hOther⟩
    · exact .inl ⟨⟨v, fun s => hv _⟩, k, List.mem_cons_of_mem _ hk, hName⟩
    · by_cases hName : name = kv.1.name
      · refine .inl ⟨⟨kv.2.map utf8, fun s => ?_⟩, kv.1, List.mem_cons_self, hName⟩
        rw [hName] at hSame ⊢
        exact (hSame _).trans (Disk.set_same _ _ _ _)
      · refine .inr ⟨fun s => ?_, ?_⟩
        · exact (hSame _).trans (Disk.set_other _ _ fun h => hName h.2)
        · rw [List.map_cons, List.forall_mem_cons]
          exact ⟨hName, hOther⟩

/-- Two contents end up the same exactly if they agree on the keys that are not
written. -/
theorem stored_same_iff (dict : String) (kvs : List (Key × Option String)) (s s' : Disk) :
    (∀ name, stored dict kvs s dict name = stored dict kvs s' dict name) ↔
      ∀ name, (∀ k ∈ kvs.map Prod.fst, name ≠ k.name) → s dict name = s' dict name := by
  refine forall_congr' fun name => ?_
  rcases stored_cases dict kvs name with ⟨⟨v, hv⟩, k, hk, hName⟩ | ⟨hSame, hOther⟩
  · rw [hv, hv]
    exact ⟨fun _ h => absurd hName (h k hk), fun _ => rfl⟩
  · rw [hSame, hSame]
    exact ⟨fun h _ => h, fun h => h hOther⟩

-- ---------------------------------------------------------------------------
-- A link without failures
-- ---------------------------------------------------------------------------

/-- Where every request is served all values are stored. -/
theorem runAll_setValues {kvs : List (Key × Option String)} (hSettable : Settable U kvs)
    (a : Account U) (s : Disk) :
    ∃ a', (a.setValues kvs).runAll serve .served s =
      (.ok (.ok (), a'), stored a.pddbDict kvs s) := by
  -- Value after value.
  induction kvs generalizing a s with
  | nil => exact ⟨a, rfl⟩
  | cons kv kvs ih =>
    obtain ⟨k, v⟩ := kv
    obtain ⟨hHost, hParses⟩ := hSettable _ List.mem_cons_self
    obtain ⟨a₁, hArm, hDict⟩ := arm_ok a hHost hParses
    have hSet : (a.set k v).runAll serve .served s =
        (.ok (.ok (), a₁), s.set a.pddbDict k.name (v.map utf8)) := by
      rw [← contentSet_served a.pddbDict k.name (s a.pddbDict k.name)]
      exact set_run_arm hArm
    obtain ⟨a', hRest⟩ := ih (fun kv hkv => hSettable kv (List.mem_cons_of_mem _ hkv)) a₁
      (s.set a.pddbDict k.name (v.map utf8))
    refine ⟨a', ?_⟩
    rw [setValues_cons, Prog.runAll_bind, hSet]
    show (a₁.setValues kvs).runAll serve .served _ = _
    rw [hRest, hDict]
    rfl

/-- A record of another dictionary does not touch the account. -/
theorem all_saveUnder {dict : String} (hDict : dict ≠ accountDict) (id : SignalResult UInt32)
    (bytes : SignalResult Bytes) :
    (saveUnder L dict id bytes).All fun r => ∀ name, ¬r.Touches accountDict name := by
  unfold saveUnder
  rcases id with e | id
  · trivial
  rcases bytes with e | bs
  · trivial
  have hWrite : (writeRecord dict (idKey id) bs).All fun r => ∀ name, ¬r.Touches accountDict name :=
    all_writeRecord (fun _ h => hDict h.1) (fun _ h => hDict h.1) (fun _ _ _ h => hDict h.1)
      (fun _ h => h) bs
  exact hWrite.bind fun _ => trivial

/-- Saving the prekeys does not touch the account. -/
theorem all_saveToPddb (g : Prekeys L) :
    (saveToPddb g).All fun r => ∀ name, ¬r.Touches accountDict name := by
  have hDicts : signedPreKeyDict ≠ accountDict ∧ kyberPreKeyDict ≠ accountDict := by
    decide +kernel
  simp only [saveToPddb, saveSigned_under, saveKyber_under]
  refine (all_saveUnder hDicts.1 _ _).bind fun r => ?_
  rcases r with e | _
  · trivial
  refine (all_saveUnder hDicts.1 _ _).bind fun r => ?_
  rcases r with e | _
  · trivial
  refine (all_saveUnder hDicts.2 _ _).bind fun r => ?_
  rcases r with e | _
  · trivial
  exact all_saveUnder hDicts.2 _ _

theorem runAll_saveToPddb (g : Prekeys L) (s : Disk) (name : String) :
    ((saveToPddb g).runAll serve .served s).2 accountDict name = s accountDict name :=
  Prog.wp_run_any (Prog.wp_of_all (I := fun s' => s' accountDict name = s accountDict name)
    (fun _ hr o s' hs' => (serve_frame (hr name) o s').trans hs') (all_saveToPddb g) rfl)
    fun _ _ => .served

/-- What linking leaves when it answers `Ok(true)`. -/
theorem runAll_link_true {S : LinkServices U L} {a a' : Account U} {deviceName : String}
    {msg : ProvisionMessage} {s : Disk} (hDict : a.pddbDict = accountDict)
    (hTrue : ((a.link S deviceName msg).runAll serve .served s).1 = .ok (.ok true, a')) :
    ∃ l, upload S a deviceName msg = .ok l ∧
      ∀ name, ((a.link S deviceName msg).runAll serve .served s).2 accountDict name =
        stored accountDict (linkValues msg l) s accountDict name := by
  rw [Account.link] at hTrue ⊢
  -- A primary device does not link.
  by_cases hPrimary : a.isPrimaryDevice = true
  · rw [if_pos hPrimary] at hTrue
    cases hTrue
  · rw [if_neg hPrimary] at hTrue ⊢
    rcases hUpload : upload S a deviceName msg with e | l
    · rw [hUpload] at hTrue
      cases hTrue
    · refine ⟨l, rfl, fun name => ?_⟩
      obtain ⟨a₁, hValues⟩ := runAll_setValues (settable_linkValues msg l) a s
      show ((a.saveLinked msg l).runAll serve .served s).2 accountDict name = _
      rw [saveLinked_eq, Prog.runAll_bind, hValues, hDict]
      refine Eq.trans ?_ (runAll_saveToPddb l.generated _ name)
      show ((saveToPddb l.generated >>= _).runAll serve .served _).2 accountDict name = _
      rw [Prog.runAll_bind]
      split <;> rfl

-- ---------------------------------------------------------------------------
-- Linking again
-- ---------------------------------------------------------------------------

/-- `Account::new`, and `Account::link` for the account it returns. -/
def newThenLink (S : LinkServices U L) (host : U.Host) (se : ServiceEnvironment)
    (deviceName : String) (msg : ProvisionMessage) :
    Prog Resp (Except Panic (Except IoError Bool)) := do
  match ← (Accounts.new accountDict host se :
      Prog Resp (Except Panic (Except IoError (Account U)))) with
  | .error p => return .error p
  | .ok (.error e) => return .ok (.error e)
  | .ok (.ok a) => return (← a.link S deviceName msg).map Prod.fst

/-- The account a new dictionary is read as does not depend on the old one. -/
theorem ofTexts_defaults (host : U.Host) (se : ServiceEnvironment) (s s' : Disk) :
    ofTexts (U := U) accountDict (keyText (stored accountDict (defaults host se) s) accountDict) =
      ofTexts accountDict (keyText (stored accountDict (defaults host se) s') accountDict) := by
  refine ofTexts_congr accountDict fun k hk => ?_
  rcases stored_cases accountDict (defaults host se) k.name with ⟨⟨v, hv⟩, -⟩ | ⟨-, hOther⟩
  · rw [keyText, keyText, hv, hv]
  · exact absurd rfl (hOther k hk)

/-- The keys that are written. -/
theorem mem_written_iff {host : U.Host} {se : ServiceEnvironment} {msg : ProvisionMessage}
    {l : Linked L} {k : Key} :
    k ∈ (defaults host se ++ linkValues msg l).map Prod.fst ↔
      (k = .accountEntropyPool → msg.accountEntropyPool.isSome) := by
  unfold linkValues identityValues profileValues defaults
  cases k <;> cases msg.accountEntropyPool <;> simp

/-- The two contents agree on what linking anew does not write: the keys that
are not declared, and the account entropy pool, if the message has none. -/
def AgreeOnUnwritten (msg : ProvisionMessage) (s s' : Disk) : Prop :=
  (∀ name, (∀ k : Key, name ≠ k.name) → s accountDict name = s' accountDict name) ∧
    (msg.accountEntropyPool = none →
      s accountDict Key.accountEntropyPool.name = s' accountDict Key.accountEntropyPool.name)

/-- The keys that a link does not write are the undeclared ones and, without a
pool, that of the pool. -/
theorem agreeOnUnwritten_iff {host : U.Host} {se : ServiceEnvironment} {msg : ProvisionMessage}
    {l : Linked L} {s s' : Disk} :
    (∀ name, (∀ k ∈ (defaults host se ++ linkValues msg l).map Prod.fst, name ≠ k.name) →
      s accountDict name = s' accountDict name) ↔ AgreeOnUnwritten msg s s' := by
  constructor
  · intro h
    refine ⟨fun name hName => h name fun k _ => hName k, fun hNone => h _ fun k hk hName => ?_⟩
    have hSome := mem_written_iff.mp hk (Key.name_injective hName).symm
    rw [hNone] at hSome
    exact Bool.noConfusion hSome
  · intro ⟨hUndeclared, hPool⟩ name hName
    by_cases hKey : ∃ k : Key, name = k.name
    · obtain ⟨k, rfl⟩ := hKey
      have hUnwritten : ¬(k = .accountEntropyPool → msg.accountEntropyPool.isSome) :=
        fun h => hName k (mem_written_iff.mpr h) rfl
      obtain ⟨rfl, hNone⟩ := Classical.not_imp.mp hUnwritten
      exact hPool (by simpa using hNone)
    · exact hUndeclared name fun k hk => hKey ⟨k, hk⟩

/-- Linking that answers `Ok(true)` has stored the defaults, and then the values
of the account it linked. -/
theorem newThenLink_true {S : LinkServices U L} {host : U.Host} {se : ServiceEnvironment}
    {deviceName : String} {msg : ProvisionMessage} {s : Disk}
    (hTrue : ((newThenLink S host se deviceName msg).runAll serve .served s).1 = .ok (.ok true)) :
    ∃ a l, ofTexts accountDict (keyText (stored accountDict (defaults host se) s) accountDict) =
        .ok (.ok a) ∧ upload S a deviceName msg = .ok l ∧
      ∀ name, ((newThenLink S host se deviceName msg).runAll serve .served s).2 accountDict name =
        stored accountDict (defaults host se ++ linkValues msg l) s accountDict name := by
  rw [newThenLink, Prog.runAll_bind, runAll_new] at hTrue ⊢
  -- The new account must be readable, or there is nothing to link.
  rcases hTexts : ofTexts accountDict
    (keyText (stored accountDict (defaults host se) s) accountDict) with p | (e | a)
  · rw [hTexts] at hTrue
    exact nomatch hTrue
  · rw [hTexts] at hTrue
    exact nomatch hTrue
  · rw [hTexts] at hTrue
    have hLink : ((a.link S deviceName msg).runAll serve .served
        (stored accountDict (defaults host se) s)).1.map Prod.fst = .ok (.ok true) := by
      refine Eq.trans ?_ hTrue
      show _ = ((a.link S deviceName msg >>= _).runAll serve .served _).1
      rw [Prog.runAll_bind]
      rfl
    rcases hResult : ((a.link S deviceName msg).runAll serve .served
        (stored accountDict (defaults host se) s)).1 with p | ⟨r, a'⟩
    · rw [hResult] at hLink
      exact nomatch hLink
    · rw [hResult] at hLink
      obtain rfl : r = .ok true := Except.ok.inj hLink
      obtain ⟨l, hUpload, hStored⟩ := runAll_link_true (ofTexts_eq_iff.mp hTexts).1 hResult
      refine ⟨a, l, rfl, hUpload, fun name => ?_⟩
      rw [stored_append, ← hStored name]
      show ((a.link S deviceName msg >>= _).runAll serve .served _).2 accountDict name = _
      rw [Prog.runAll_bind]
      rfl

/-- **Linking again.** Two contents over which linking answers `Ok(true)` end up
the same exactly if they agreed on what is not written. -/
theorem relink_same_iff {S : LinkServices U L} {host : U.Host} {se : ServiceEnvironment}
    {deviceName : String} {msg : ProvisionMessage} {s s' : Disk}
    (hTrue : ((newThenLink S host se deviceName msg).runAll serve .served s).1 = .ok (.ok true))
    (hTrue' : ((newThenLink S host se deviceName msg).runAll serve .served s').1 =
      .ok (.ok true)) :
    (∀ name, ((newThenLink S host se deviceName msg).runAll serve .served s).2 accountDict name =
        ((newThenLink S host se deviceName msg).runAll serve .served s').2 accountDict name) ↔
      AgreeOnUnwritten msg s s' := by
  obtain ⟨a, l, hTexts, hUpload, hStored⟩ := newThenLink_true hTrue
  obtain ⟨a', l', hTexts', hUpload', hStored'⟩ := newThenLink_true hTrue'
  -- both runs link the same account
  rw [ofTexts_defaults host se s' s, hTexts] at hTexts'
  obtain rfl : a = a' := Except.ok.inj (Except.ok.inj hTexts')
  obtain rfl : l = l' := Except.ok.inj (hUpload.symm.trans hUpload')
  simp only [hStored, hStored']
  exact (stored_same_iff accountDict _ s s').trans agreeOnUnwritten_iff

-- ---------------------------------------------------------------------------
-- The pool of the previous account
-- ---------------------------------------------------------------------------

/-- The device has been linked to an account with an entropy pool. -/
def linkedBefore : Disk :=
  ((newThenLink plainServices "signal.org" .live "xous"
    { plainMessage with accountEntropyPool := some "old pool" }).runAll serve .served
      fun _ _ => none).2

/-- Linked to an account without a pool, it keeps the old one. -/
theorem relink_keeps_old_aep :
    ¬∀ (U : UrlCrate) (L : Libsignal) (S : LinkServices U L) (host : U.Host)
      (se : ServiceEnvironment) (deviceName : String) (msg : ProvisionMessage) (s s' : Disk),
      ((newThenLink S host se deviceName msg).runAll serve .served s).1 = .ok (.ok true) →
      ((newThenLink S host se deviceName msg).runAll serve .served s').1 = .ok (.ok true) →
      ∀ name, ((newThenLink S host se deviceName msg).runAll serve .served s).2 accountDict name =
        ((newThenLink S host se deviceName msg).runAll serve .served s').2 accountDict name := by
  intro h
  have hSame := h .plain .plain plainServices "signal.org" .live "xous" plainMessage linkedBefore
    (fun _ _ => none) (by decide +kernel) (by decide +kernel) Key.accountEntropyPool.name
  revert hSame
  decide +kernel

/-- The theorem for a message that brings a pool of its own. -/
theorem relink_same_iff_pool :
    ((newThenLink plainServices "signal.org" .live "xous"
        { plainMessage with accountEntropyPool := some "new pool" }).runAll serve .served
          (Disk.set (fun _ _ => none) accountDict Key.accountEntropyPool.name
            (some (utf8 "old pool")))).2 accountDict =
      ((newThenLink plainServices "signal.org" .live "xous"
        { plainMessage with accountEntropyPool := some "new pool" }).runAll serve .served
          fun _ _ => none).2 accountDict := by
  refine funext ((relink_same_iff (by decide +kernel) (by decide +kernel)).mpr
    ⟨fun name hName => ?_, ?_⟩)
  · exact Disk.set_other _ _ fun h => hName .accountEntropyPool h.2
  · rintro ⟨⟩

end Sigchat.Results

import Mathlib.Logic.Function.Basic
import Mathlib.Data.Set.Insert
import Sigchat.Model.Stores

/-!
# The PDDB stores refine in-memory maps

What the stores are for, as one record of maps: identities and sessions by
address, prekeys by id, and the set of used Kyber triples (`Maps`, `spec`).
`Represents` ties a disk to it.

* `wp_handleRecord` — one operation answers as on the maps and keeps the tie;
* `stores_refine_maps` — so does every sequence of operations, whatever
  strings the names are made of.
-/

namespace Sigchat.Results

open Sigchat.Lib
open Sigchat.Pddb
open Sigchat.Signal
open Sigchat.Stores

variable {L : Libsignal}

-- ---------------------------------------------------------------------------
-- The abstract stores
-- ---------------------------------------------------------------------------

structure Maps (L : Libsignal) where
  identities : ProtocolAddress → Option L.IdentityKey
  preKeys : UInt32 → Option L.preKey.Record
  signedPreKeys : UInt32 → Option L.signedPreKey.Record
  kyberPreKeys : UInt32 → Option L.kyberPreKey.Record
  usedKyber : Set (UInt32 × UInt32 × L.PublicKey)
  sessions : ProtocolAddress → Option L.session.Record

def Maps.empty : Maps L where
  identities _ := none
  preKeys _ := none
  signedPreKeys _ := none
  kyberPreKeys _ := none
  usedKyber := ∅
  sessions _ := none

/-- A lookup: the value saved last, or the store's answer for a missing one. -/
def found {α : Type} (missing : SignalProtocolError) : Option α → SignalResult α
  | some r => .ok r
  | none => .error missing

open Classical in
/-- The store operations on the maps. Saving a record that does not serialise
is refused. -/
noncomputable def spec : Server (RecordOp.Resp (L := L)) (Maps L) Unit
  | (), .saveIdentity a i, m =>
    (.ok (if m.identities a = none ∨ m.identities a = some i then .newOrUnchanged
      else .replacedExisting),
      { m with identities := Function.update m.identities a (some i) })
  | (), .isTrustedIdentity a i _, m =>
    (.ok (decide (m.identities a = none ∨ m.identities a = some i)), m)
  | (), .getIdentity a, m => (.ok (m.identities a), m)
  | (), .getPreKey id, m => (found .invalidPreKeyId (m.preKeys id), m)
  | (), .savePreKey id r, m =>
    match L.preKey.serialize r with
    | .ok _ => (.ok (), { m with preKeys := Function.update m.preKeys id (some r) })
    | .error e => (.error (.invalidState "pddb" ("serialize failed: " ++ L.display e)), m)
  | (), .removePreKey id, m => (.ok (), { m with preKeys := Function.update m.preKeys id none })
  | (), .getSignedPreKey id, m => (found .invalidSignedPreKeyId (m.signedPreKeys id), m)
  | (), .saveSignedPreKey id r, m =>
    match L.signedPreKey.serialize r with
    | .ok _ => (.ok (), { m with signedPreKeys := Function.update m.signedPreKeys id (some r) })
    | .error e => (.error e, m)
  | (), .getKyberPreKey id, m => (found .invalidKyberPreKeyId (m.kyberPreKeys id), m)
  | (), .saveKyberPreKey id r, m =>
    match L.kyberPreKey.serialize r with
    | .ok _ => (.ok (), { m with kyberPreKeys := Function.update m.kyberPreKeys id (some r) })
    | .error e => (.error e, m)
  | (), .markKyberPreKeyUsed k e b, m =>
    if (k, e, b) ∈ m.usedKyber then (.error .invalidKyberPreKeyId, m)
    else (.ok (), { m with usedKyber := insert (k, e, b) m.usedKyber })
  | (), .loadSession a, m => (.ok (m.sessions a), m)
  | (), .storeSession a r, m =>
    match L.session.serialize r with
    | .ok _ => (.ok (), { m with sessions := Function.update m.sessions a (some r) })
    | .error e => (.error e, m)

-- ---------------------------------------------------------------------------
-- The tie between disk and maps
-- ---------------------------------------------------------------------------

/-- The content of the key of an optional record. -/
inductive Stored (c : Codec) : Option c.Record → Option Bytes → Prop where
  | absent : Stored c none none
  | present {r : c.Record} {bs : Bytes} : c.serialize r = .ok bs → Stored c (some r) (some bs)

structure Represents (s : Disk) (m : Maps L) : Prop where
  identities : ∀ a,
    s identityDict (addressKey a) = (m.identities a).map L.identityKeySerialize
  preKeys : ∀ id, Stored L.preKey (m.preKeys id) (s preKeyDict (idKey id))
  signedPreKeys : ∀ id,
    Stored L.signedPreKey (m.signedPreKeys id) (s signedPreKeyDict (idKey id))
  kyberPreKeys : ∀ id, Stored L.kyberPreKey (m.kyberPreKeys id) (s kyberPreKeyDict (idKey id))
  usedKyber : ∀ k e b,
    (k, e, b) ∈ m.usedKyber ↔ s kyberPreKeyDict (PddbKyberPreKeyStore.dedupKey k e b) ≠ none
  sessions : ∀ a, Stored L.session (m.sessions a) (s sessionDict (addressKey a))

/-- The empty disk represents the empty maps. -/
theorem represents_empty : Represents (fun _ _ => none) (Maps.empty (L := L)) where
  identities _ := rfl
  preKeys _ := .absent
  signedPreKeys _ := .absent
  kyberPreKeys _ := .absent
  usedKyber k e b := by simp [Maps.empty]
  sessions _ := .absent

/-- Saving under an injective key changes this record only. -/
theorem Stored.update {c : Codec} {κ : Type} [DecidableEq κ] {key : κ → String}
    (hKey : ∀ {i j}, key i = key j → i = j) {f : κ → Option c.Record} {s : Disk} {d : String}
    (h : ∀ i, Stored c (f i) (s d (key i))) {i : κ} {x : Option c.Record} {v : Option Bytes}
    (hx : Stored c x v) (j : κ) :
    Stored c (Function.update f i x j) (s.set d (key i) v d (key j)) := by
  by_cases hj : j = i
  · subst hj
    rw [Function.update_self, Disk.set_same]
    exact hx
  · rw [Function.update_of_ne hj, Disk.set_other _ _ fun hk => hj (hKey hk.2)]
    exact h j

/-- Each kind of record has a dictionary of its own: a change in one leaves the
others. -/
theorem set_other_dict (s : Disk) {d d' : String} (k : String) (v : Option Bytes)
    (h : d' ≠ d) : s.set d k v d' = s d' :=
  funext fun _ => Disk.set_other s v fun hk => h hk.1

section Represents

variable {s : Disk} {m : Maps L} (h : Represents s m)

include h

/-- Storing a key at its address updates the map of the identities. -/
theorem Represents.setIdentity (a : ProtocolAddress) (i : L.IdentityKey) :
    Represents (s.set identityDict (addressKey a) (some (L.identityKeySerialize i)))
      { m with identities := Function.update m.identities a (some i) } where
  identities b := by
    by_cases hb : b = a
    · subst hb
      simp
    · rw [Disk.set_other _ _ fun hk => hb (addressKey_injective hk.2)]
      simp only [Function.update_of_ne hb]
      exact h.identities b
  preKeys := by rw [set_other_dict _ _ _ (by decide)]; exact h.preKeys
  signedPreKeys := by rw [set_other_dict _ _ _ (by decide)]; exact h.signedPreKeys
  kyberPreKeys := by rw [set_other_dict _ _ _ (by decide)]; exact h.kyberPreKeys
  usedKyber := by rw [set_other_dict _ _ _ (by decide)]; exact h.usedKyber
  sessions := by rw [set_other_dict _ _ _ (by decide)]; exact h.sessions

/-- A prekey at its id updates that of the prekeys. -/
theorem Represents.setPreKey (id : UInt32) {x : Option L.preKey.Record} {v : Option Bytes}
    (hx : Stored L.preKey x v) :
    Represents (s.set preKeyDict (idKey id) v)
      { m with preKeys := Function.update m.preKeys id x } where
  identities := by rw [set_other_dict _ _ _ (by decide)]; exact h.identities
  preKeys := Stored.update idKey_injective h.preKeys hx
  signedPreKeys := by rw [set_other_dict _ _ _ (by decide)]; exact h.signedPreKeys
  kyberPreKeys := by rw [set_other_dict _ _ _ (by decide)]; exact h.kyberPreKeys
  usedKyber := by rw [set_other_dict _ _ _ (by decide)]; exact h.usedKyber
  sessions := by rw [set_other_dict _ _ _ (by decide)]; exact h.sessions

/-- Signed prekeys have a map of their own. -/
theorem Represents.setSignedPreKey (id : UInt32) {x : Option L.signedPreKey.Record}
    {v : Option Bytes} (hx : Stored L.signedPreKey x v) :
    Represents (s.set signedPreKeyDict (idKey id) v)
      { m with signedPreKeys := Function.update m.signedPreKeys id x } where
  identities := by rw [set_other_dict _ _ _ (by decide)]; exact h.identities
  preKeys := by rw [set_other_dict _ _ _ (by decide)]; exact h.preKeys
  signedPreKeys := Stored.update idKey_injective h.signedPreKeys hx
  kyberPreKeys := by rw [set_other_dict _ _ _ (by decide)]; exact h.kyberPreKeys
  usedKyber := by rw [set_other_dict _ _ _ (by decide)]; exact h.usedKyber
  sessions := by rw [set_other_dict _ _ _ (by decide)]; exact h.sessions

/-- Records and markers share the Kyber dictionary, but no key. -/
theorem Represents.setKyberPreKey (id : UInt32) {x : Option L.kyberPreKey.Record}
    {v : Option Bytes} (hx : Stored L.kyberPreKey x v) :
    Represents (s.set kyberPreKeyDict (idKey id) v)
      { m with kyberPreKeys := Function.update m.kyberPreKeys id x } where
  identities := by rw [set_other_dict _ _ _ (by decide)]; exact h.identities
  preKeys := by rw [set_other_dict _ _ _ (by decide)]; exact h.preKeys
  signedPreKeys := by rw [set_other_dict _ _ _ (by decide)]; exact h.signedPreKeys
  kyberPreKeys := Stored.update idKey_injective h.kyberPreKeys hx
  usedKyber k e b := by
    rw [Disk.set_other _ _ fun hk => dedupKey_ne_idKey k e id b hk.2]
    exact h.usedKyber k e b
  sessions := by rw [set_other_dict _ _ _ (by decide)]; exact h.sessions

/-- A marker adds to the set of the used keys, and is no record. -/
theorem Represents.setUsed (hL : L.Lawful) (k e : UInt32) (b : L.PublicKey) (v : Bytes) :
    Represents (s.set kyberPreKeyDict (PddbKyberPreKeyStore.dedupKey k e b) (some v))
      { m with usedKyber := insert (k, e, b) m.usedKyber } where
  identities := by rw [set_other_dict _ _ _ (by decide)]; exact h.identities
  preKeys := by rw [set_other_dict _ _ _ (by decide)]; exact h.preKeys
  signedPreKeys := by rw [set_other_dict _ _ _ (by decide)]; exact h.signedPreKeys
  kyberPreKeys id := by
    rw [Disk.set_other _ _ fun hk => dedupKey_ne_idKey k e id b hk.2.symm]
    exact h.kyberPreKeys id
  usedKyber k' e' b' := by
    rw [Set.mem_insert_iff]
    by_cases ht : (k', e', b') = (k, e, b)
    · obtain ⟨rfl, rfl, rfl⟩ : k' = k ∧ e' = e ∧ b' = b := by simpa using ht
      simp
    · rw [Disk.set_other _ _ fun hk => ht ?_]
      · rw [or_iff_right ht]
        exact h.usedKyber k' e' b'
      · obtain ⟨rfl, rfl, rfl⟩ := dedupKey_injective hL.publicKeySerialize_injective hk.2
        rfl
  sessions := by rw [set_other_dict _ _ _ (by decide)]; exact h.sessions

/-- A session at its address updates the map of the sessions. -/
theorem Represents.setSession (a : ProtocolAddress) {x : Option L.session.Record}
    {v : Option Bytes} (hx : Stored L.session x v) :
    Represents (s.set sessionDict (addressKey a) v)
      { m with sessions := Function.update m.sessions a x } where
  identities := by rw [set_other_dict _ _ _ (by decide)]; exact h.identities
  preKeys := by rw [set_other_dict _ _ _ (by decide)]; exact h.preKeys
  signedPreKeys := by rw [set_other_dict _ _ _ (by decide)]; exact h.signedPreKeys
  kyberPreKeys := by rw [set_other_dict _ _ _ (by decide)]; exact h.kyberPreKeys
  usedKyber := by rw [set_other_dict _ _ _ (by decide)]; exact h.usedKyber
  sessions := Stored.update addressKey_injective h.sessions hx

end Represents

-- ---------------------------------------------------------------------------
-- One operation
-- ---------------------------------------------------------------------------

section Operations

variable {adm : Req → Outcome → Prop} {s : Disk} {m : Maps L}

/-- What an operation on the disk has to do. -/
abbrev Simulates (adm : Req → Outcome → Prop) (op : RecordOp L) (s : Disk) (m : Maps L) : Prop :=
  (handleRecord op).wp serve adm
    (fun x s' => x = (spec () op m).1 ∧ Represents s' (spec () op m).2) s

/-- Looking a record up finds what the maps hold. -/
theorem wp_readRecord_stored (hAdm : ∀ r o, adm r o → o.Succeeds) {c : Codec} {α : Type}
    {x : Option c.Record} {d k : String} (hx : Stored c x (s d k))
    {decode : Bytes → SignalResult α} {missing : SignalResult α} {f : c.Record → α}
    (hDecode : ∀ r bs, c.serialize r = .ok bs → decode bs = .ok (f r)) :
    (readRecord d k decode missing).wp serve adm
      (fun r s' => r = x.elim missing (fun r => .ok (f r)) ∧ s' = s) s := by
  refine Prog.wp_mono (fun r s' h => ?_) (wp_readRecord_ok hAdm)
  obtain ⟨rfl, rfl⟩ := h
  refine ⟨?_, rfl⟩
  generalize s' d k = v at hx
  cases hx with
  | absent => rfl
  | present hr => exact hDecode _ _ hr

/-- A lookup by id. -/
theorem wp_get_stored (hAdm : ∀ r o, adm r o → o.Succeeds) {c : Codec} (hc : c.Lawful)
    {x : Option c.Record} {d k : String} (hx : Stored c x (s d k))
    (missing : SignalProtocolError) (h : Represents s m) :
    (readRecord d k c.deserialize (.error missing)).wp serve adm
      (fun r s' => r = found missing x ∧ Represents s' m) s := by
  refine Prog.wp_mono (fun r s' hr => ?_) (wp_readRecord_stored hAdm hx (f := id) hc)
  obtain ⟨rfl, rfl⟩ := hr
  cases x <;> exact ⟨rfl, h⟩

/-- Saving a record that serialises. -/
theorem wp_save_stored (hAdm : ∀ r o, adm r o → o.Succeeds) {d k : String} {bs : Bytes}
    {m' : Maps L} (h : Represents (s.set d k (some bs)) m') :
    (writeRecord d k bs).wp serve adm (fun r s' => r = .ok () ∧ Represents s' m') s := by
  refine Prog.wp_mono (fun r s' hr => ?_) (wp_writeRecord_ok fun r o _ ho => hAdm r o ho)
  obtain ⟨rfl, rfl⟩ := hr
  exact ⟨rfl, h⟩

/-- Saving an identity is saving it in the map, with the answer whether it was
new. -/
theorem simulates_saveIdentity (hL : L.Lawful) (hAdm : ∀ r o, adm r o → o.Succeeds)
    (h : Represents s m) (a : ProtocolAddress) (i : L.IdentityKey) :
    Simulates adm (.saveIdentity a i) s m := by
  refine Prog.wp_bind.mpr (Prog.wp_mono (fun r s' hr => ?_) (wp_pddbReadBinary_ok hAdm))
  obtain ⟨rfl, rfl⟩ := hr
  have hSave := wp_save_stored hAdm (h.setIdentity a i)
  simp only [identityStore, h.identities a]
  -- No key, the same key, or another one.
  cases hOld : m.identities a with
  | none =>
    simp only [Option.map_none, keyNotFound, IoError.ofKind, if_true]
    refine Prog.wp_bind.mpr (Prog.wp_mono (fun r s' hr => ?_) hSave)
    obtain ⟨rfl, hRep⟩ := hr
    exact ⟨by simp [spec, hOld, Except.map], hRep⟩
  | some j =>
    simp only [Option.map_some, hL.identityKey, Except.ok.injEq]
    by_cases hj : j = i
    · -- the same key: nothing is written
      subst hj
      rw [if_pos rfl]
      have hSame : Function.update m.identities a (some j) = m.identities := by
        rw [← hOld, Function.update_eq_self]
      refine ⟨by simp [spec, hOld], ?_⟩
      simpa only [spec, hSame] using h
    · rw [if_neg hj]
      refine Prog.wp_bind.mpr (Prog.wp_mono (fun r s' hr => ?_) hSave)
      obtain ⟨rfl, hRep⟩ := hr
      exact ⟨by simp [spec, hOld, Except.map, hj], hRep⟩

/-- Trusting is looking in the map. -/
theorem simulates_isTrustedIdentity (hL : L.Lawful) (hAdm : ∀ r o, adm r o → o.Succeeds)
    (h : Represents s m) (a : ProtocolAddress) (i : L.IdentityKey) (dir : Direction) :
    Simulates adm (.isTrustedIdentity a i dir) s m := by
  refine Prog.wp_mono (fun r s' hr => ?_) (wp_readRecord_ok hAdm)
  obtain ⟨rfl, rfl⟩ := hr
  refine ⟨?_, h⟩
  simp only [identityStore, h.identities a]
  cases hOld : m.identities a with
  | none => simp [spec, hOld]
  | some j => simp [spec, hOld, hL.identityKey, Except.map]

theorem simulates_getIdentity (hL : L.Lawful) (hAdm : ∀ r o, adm r o → o.Succeeds)
    (h : Represents s m) (a : ProtocolAddress) : Simulates adm (.getIdentity a) s m := by
  refine Prog.wp_mono (fun r s' hr => ?_) (wp_readRecord_ok hAdm)
  obtain ⟨rfl, rfl⟩ := hr
  refine ⟨?_, h⟩
  simp only [identityStore, h.identities a]
  cases hOld : m.identities a with
  | none => simp [spec, hOld]
  | some j => simp [spec, hOld, hL.identityKey, Except.map]

/-- Removing a prekey that is not there is no error. -/
theorem simulates_removePreKey (hAdm : ∀ r o, adm r o → o.Succeeds) (h : Represents s m)
    (id : UInt32) : Simulates adm (.removePreKey id) s m := by
  simp only [Simulates, handleRecord, PddbPreKeyStore.removePreKey, Prog.wp_call]
  intro o ho
  have hGone := h.setPreKey id .absent
  cases hs : s preKeyDict (idKey id) with
  | none =>
    have hSelf := Disk.set_self s preKeyDict (idKey id)
    rw [hs] at hSelf
    rw [hSelf] at hGone
    cases o with
    | failed f => exact (hAdm _ _ ho).elim
    | served | short n =>
      simp only [serve, perform, preKeyStore, hs, keyNotFound, IoError.ofKind, if_true]
      exact ⟨rfl, hGone⟩
  | some bs =>
    cases o with
    | failed f => exact (hAdm _ _ ho).elim
    | served | short n =>
      simp only [serve, perform, preKeyStore, hs]
      exact ⟨rfl, hGone⟩

/-- Marking is adding to the set, and is refused the second time. -/
theorem simulates_markKyberPreKeyUsed (hL : L.Lawful) (hAdm : ∀ r o, adm r o → o.Succeeds)
    (h : Represents s m) (k e : UInt32) (b : L.PublicKey) :
    Simulates adm (.markKyberPreKeyUsed k e b) s m := by
  refine Prog.wp_bind.mpr (Prog.wp_mono (fun r s' hr => ?_) (wp_pddbReadBinary_ok hAdm))
  obtain ⟨rfl, rfl⟩ := hr
  have hUsed := h.usedKyber k e b
  simp only [kyberPreKeyStore]
  cases hs : s' kyberPreKeyDict (PddbKyberPreKeyStore.dedupKey k e b) with
  | some v =>
    have hMem : (k, e, b) ∈ m.usedKyber := hUsed.mpr (by simp [hs])
    simp only [spec, if_pos hMem]
    exact ⟨rfl, h⟩
  | none =>
    have hNot : (k, e, b) ∉ m.usedKyber := fun hm => hUsed.mp hm hs
    simp only [keyNotFound, IoError.ofKind, if_true, spec, if_neg hNot]
    refine Prog.wp_bind.mpr (Prog.wp_mono (fun r s' hr => ?_)
      (wp_overwrite_ok fun r o _ ho => hAdm r o ho))
    obtain ⟨rfl, rfl⟩ := hr
    exact ⟨rfl, h.setUsed hL k e b [1]⟩

/-- **One operation.** It answers as on the maps and keeps the tie. -/
theorem wp_handleRecord (hL : L.Lawful) (hAdm : ∀ r o, adm r o → o.Succeeds)
    (h : Represents s m) (op : RecordOp L) : Simulates adm op s m := by
  -- One lemma per operation; getting and saving are the same for each kind of record.
  cases op with
  | saveIdentity a i => exact simulates_saveIdentity hL hAdm h a i
  | isTrustedIdentity a i dir => exact simulates_isTrustedIdentity hL hAdm h a i dir
  | getIdentity a => exact simulates_getIdentity hL hAdm h a
  | getPreKey id => exact wp_get_stored hAdm hL.preKey (h.preKeys id) _ h
  | savePreKey id r =>
    simp only [Simulates, handleRecord, PddbPreKeyStore.savePreKey, spec]
    cases hr : L.preKey.serialize r with
    | error e => exact ⟨rfl, h⟩
    | ok bs => exact wp_save_stored hAdm (h.setPreKey id (.present hr))
  | removePreKey id => exact simulates_removePreKey hAdm h id
  | getSignedPreKey id => exact wp_get_stored hAdm hL.signedPreKey (h.signedPreKeys id) _ h
  | saveSignedPreKey id r =>
    simp only [Simulates, handleRecord, PddbSignedPreKeyStore.saveSignedPreKey, spec]
    cases hr : L.signedPreKey.serialize r with
    | error e => exact ⟨rfl, h⟩
    | ok bs => exact wp_save_stored hAdm (h.setSignedPreKey id (.present hr))
  | getKyberPreKey id => exact wp_get_stored hAdm hL.kyberPreKey (h.kyberPreKeys id) _ h
  | saveKyberPreKey id r =>
    simp only [Simulates, handleRecord, PddbKyberPreKeyStore.saveKyberPreKey, spec]
    cases hr : L.kyberPreKey.serialize r with
    | error e => exact ⟨rfl, h⟩
    | ok bs => exact wp_save_stored hAdm (h.setKyberPreKey id (.present hr))
  | markKyberPreKeyUsed k e b => exact simulates_markKyberPreKeyUsed hL hAdm h k e b
  | loadSession a =>
    refine Prog.wp_mono (fun r s' hr => ?_) (wp_readRecord_stored hAdm (h.sessions a)
      (f := some) fun r bs hr => by rw [hL.session r bs hr]; rfl)
    obtain ⟨rfl, rfl⟩ := hr
    refine ⟨?_, h⟩
    simp only [spec]
    cases m.sessions a <;> rfl
  | storeSession a r =>
    simp only [Simulates, handleRecord, PddbSessionStore.storeSession, spec]
    cases hr : L.session.serialize r with
    | error e => exact ⟨rfl, h⟩
    | ok bs => exact wp_save_stored hAdm (h.setSession a (.present hr))

end Operations

-- ---------------------------------------------------------------------------
-- Sequences of operations
-- ---------------------------------------------------------------------------

/-- **The stores refine in-memory maps.** Every sequence of operations, from
any disk that represents maps, is answered as on the maps, and the disk it
leaves represents the maps it leaves. -/
theorem stores_refine_maps (hL : L.Lawful) (ops : List (RecordOp L)) (env : Env Req Outcome)
    (hEnv : ∀ i r, (env i r).Succeeds) {s : Disk} {m : Maps L} (h : Represents s m) :
    (((Prog.script ops).interp handleRecord).run serve env s).1 =
        ((Prog.script ops).runAll spec () m).1 ∧
      Represents (((Prog.script ops).interp handleRecord).run serve env s).2
        ((Prog.script ops).runAll spec () m).2 := by
  have hAdm : ∀ (r : Req) (o : Outcome), o.Succeeds → o.Succeeds := fun _ _ ho => ho
  have hRun := Prog.wp_interp (fun op _ _ h => wp_handleRecord hL hAdm h op) (Prog.script ops) h
  exact Prog.wp_run hRun hEnv

/-- Two addresses whose keys start alike, on empty stores. -/
theorem stores_refine_maps_plain :
    let ops : List (RecordOp .plain) :=
      [.saveIdentity ⟨"a.1", .first⟩ [7],
        .getIdentity ⟨"a", ⟨11, by decide, by decide⟩⟩]
    (((Prog.script ops).interp handleRecord).run serve (fun _ _ => .served) fun _ _ => none).1 =
      ((Prog.script ops).runAll spec () .empty).1 :=
  (stores_refine_maps Libsignal.plain_lawful _ (fun _ _ => .served) (fun _ _ => trivial)
    represents_empty).1

end Sigchat.Results

import Sigchat.Lib.Base64
import Sigchat.Model.Libsignal
import Sigchat.Model.Pddb

/-!
# The PDDB-backed stores

`stores.rs`: the five store traits of libsignal over PDDB dictionaries. Each
method is a program over PDDB requests; `Stores.handle` is the method an
operation of `StoreOp` calls, so a libsignal call runs over PDDB by
`Prog.interp`.

The second half says what the two helpers all methods share do
(`wp_pddbReadBinary`, `Pddb.wp_overwrite`), and that keys of different records
differ: addresses are written `name.device` and the device number has no dot,
ids are decimal, and the markers of used Kyber prekeys are
`used:kyber:ec:base64`, where only the part in front of the last colon can
hold one.
-/

namespace Sigchat.Stores

open Sigchat.Lib
open Sigchat.Pddb
open Sigchat.Signal

variable {L : Libsignal}

-- ---------------------------------------------------------------------------
-- Helpers
-- ---------------------------------------------------------------------------

def readAccountString (dict key : String) : Prog Resp (Option String) :=
  .call (.get dict key false) fun
    | .error _ => .done none
    | .ok () => .call (.read dict key 0 256) fun
      | .error _ => .done none
      | .ok buf => .done (fromUtf8 buf)

def pddbReadBinary (dict key : String) : Prog Resp (Except IoError Bytes) :=
  .call (.get dict key false) fun
    | .error e => .done (.error e)
    | .ok () => .call (.readToEnd dict key) fun
      | .error e => .done (.error e)
      | .ok buf => .done (.ok buf)

def pddbWriteBinary (dict key : String) (data : Bytes) : Prog Resp (Except IoError Unit) :=
  overwrite id id dict key data

def ioErrToSignal (e : IoError) (context : String) : SignalProtocolError :=
  .invalidState "pddb" (context ++ ": " ++ e.msg)

/-- `format!("{}.{}", address.name(), address.device_id())`. -/
def addressKey (address : ProtocolAddress) : String :=
  address.name ++ "." ++ decimal address.deviceId.val

/-- `format!("{}", u32::from(id))`. -/
def idKey (id : UInt32) : String := decimal id.toNat

/-- `write_binary` with the error text of most callers. -/
def writeRecord (dict key : String) (data : Bytes) : Prog Resp (SignalResult Unit) := do
  match ← pddbWriteBinary dict key data with
  | .error e => return .error (ioErrToSignal e "write failed")
  | .ok () => return .ok ()

/-- The lookup all record stores share: decode what is there, and answer
`missing` for an absent key. -/
def readRecord {α : Type} (dict key : String) (decode : Bytes → SignalResult α)
    (missing : SignalResult α) : Prog Resp (SignalResult α) := do
  match ← pddbReadBinary dict key with
  | .ok buf => return decode buf
  | .error e =>
    if e.kind = .notFound then return missing
    else return .error (ioErrToSignal e "read failed")

-- ---------------------------------------------------------------------------
-- PddbIdentityStore
-- ---------------------------------------------------------------------------

structure PddbIdentityStore where
  accountDict : String
  identityDict : String

namespace PddbIdentityStore

variable (st : PddbIdentityStore)

def getIdentityKeyPair : Prog Resp (SignalResult (IdentityKeyPair L)) := do
  let notFound := SignalProtocolError.invalidState "pddb" "aci identity key not found"
  match ← readAccountString st.accountDict "aci.identity.private" with
  | none => return .error notFound
  | some privB64 =>
  match ← readAccountString st.accountDict "aci.identity.public" with
  | none => return .error notFound
  | some pubB64 =>
  match Base64.decode Base64.urlSafe (trim privB64) with
  | none =>
    return .error (.invalidState "pddb" ("priv base64: " ++ L.base64Error (trim privB64)))
  | some privBytes =>
  match Base64.decode Base64.urlSafe (trim pubB64) with
  | none => return .error (.invalidState "pddb" ("pub base64: " ++ L.base64Error (trim pubB64)))
  | some pubBytes =>
  return do
    let privateKey ← L.privateKeyDeserialize privBytes
    let identityKey ← L.identityKeyDecode pubBytes
    .ok ⟨identityKey, privateKey⟩

def getLocalRegistrationId : Prog Resp (SignalResult Nat) := do
  match (← readAccountString st.accountDict "registration_id").bind (parseU32 ∘ trim) with
  | some id => return .ok id
  | none => return .error (.invalidState "pddb" "registration_id not found")

def saveIdentity (address : ProtocolAddress) (identity : L.IdentityKey) :
    Prog Resp (SignalResult IdentityChange) := do
  let key := addressKey address
  match ← pddbReadBinary st.identityDict key with
  | .ok existingBytes =>
    if L.identityKeyDecode existingBytes = .ok identity then
      return .ok .newOrUnchanged
    else
      -- a different key, or one that does not decode
      let r ← writeRecord st.identityDict key (L.identityKeySerialize identity)
      return r.map fun () => .replacedExisting
  | .error e =>
    if e.kind = .notFound then
      let r ← writeRecord st.identityDict key (L.identityKeySerialize identity)
      return r.map fun () => .newOrUnchanged
    else return .error (ioErrToSignal e "read failed")

/-- Trust on first use: a missing record is trusted. -/
def isTrustedIdentity (address : ProtocolAddress) (identity : L.IdentityKey)
    (_direction : Direction) : Prog Resp (SignalResult Bool) :=
  readRecord st.identityDict (addressKey address)
    (fun bs => (L.identityKeyDecode bs).map fun existing => decide (existing = identity))
    (.ok true)

def getIdentity (address : ProtocolAddress) : Prog Resp (SignalResult (Option L.IdentityKey)) :=
  readRecord st.identityDict (addressKey address) (fun bs => (L.identityKeyDecode bs).map some)
    (.ok none)

end PddbIdentityStore

-- ---------------------------------------------------------------------------
-- PddbPreKeyStore
-- ---------------------------------------------------------------------------

structure PddbPreKeyStore where
  dict : String

namespace PddbPreKeyStore

variable (st : PddbPreKeyStore)

def getPreKey (id : UInt32) : Prog Resp (SignalResult L.preKey.Record) :=
  readRecord st.dict (idKey id) L.preKey.deserialize (.error .invalidPreKeyId)

def savePreKey (id : UInt32) (record : L.preKey.Record) : Prog Resp (SignalResult Unit) :=
  match L.preKey.serialize record with
  | .error e => return .error (.invalidState "pddb" ("serialize failed: " ++ L.display e))
  | .ok buf => writeRecord st.dict (idKey id) buf

def removePreKey (id : UInt32) : Prog Resp (SignalResult Unit) :=
  .call (.deleteKey st.dict (idKey id)) fun
    | .ok () => .done (.ok ())
    | .error e =>
      if e.kind = .notFound then .done (.ok ())
      else .done (.error (ioErrToSignal e "delete failed"))

end PddbPreKeyStore

-- ---------------------------------------------------------------------------
-- PddbSignedPreKeyStore
-- ---------------------------------------------------------------------------

structure PddbSignedPreKeyStore where
  dict : String

namespace PddbSignedPreKeyStore

variable (st : PddbSignedPreKeyStore)

def getSignedPreKey (id : UInt32) : Prog Resp (SignalResult L.signedPreKey.Record) :=
  readRecord st.dict (idKey id) L.signedPreKey.deserialize (.error .invalidSignedPreKeyId)

def saveSignedPreKey (id : UInt32) (record : L.signedPreKey.Record) :
    Prog Resp (SignalResult Unit) :=
  match L.signedPreKey.serialize record with
  | .error e => return .error e
  | .ok buf => writeRecord st.dict (idKey id) buf

end PddbSignedPreKeyStore

-- ---------------------------------------------------------------------------
-- PddbKyberPreKeyStore
-- ---------------------------------------------------------------------------

structure PddbKyberPreKeyStore where
  dict : String

namespace PddbKyberPreKeyStore

variable (st : PddbKyberPreKeyStore)

def getKyberPreKey (id : UInt32) : Prog Resp (SignalResult L.kyberPreKey.Record) :=
  readRecord st.dict (idKey id) L.kyberPreKey.deserialize (.error .invalidKyberPreKeyId)

def saveKyberPreKey (id : UInt32) (record : L.kyberPreKey.Record) :
    Prog Resp (SignalResult Unit) :=
  match L.kyberPreKey.serialize record with
  | .error e => return .error e
  | .ok buf => writeRecord st.dict (idKey id) buf

/-- `format!("used:{}:{}:{}", kyber_id, ec_id, base_pk_b64)`. -/
def dedupKey (kyberId ecId : UInt32) (baseKey : L.PublicKey) : String :=
  "used:" ++ idKey kyberId ++ ":" ++ idKey ecId ++ ":" ++
    Base64.encode Base64.urlSafe (L.publicKeySerialize baseKey)

/-- Every uploaded Kyber prekey is a last-resort one: it is never deleted, and
reuse of the same ids with the same base key is refused. -/
def markKyberPreKeyUsed (kyberId ecId : UInt32) (baseKey : L.PublicKey) :
    Prog Resp (SignalResult Unit) := do
  let key := dedupKey kyberId ecId baseKey
  match ← pddbReadBinary st.dict key with
  | .ok _ => return .error .invalidKyberPreKeyId
  | .error e =>
    if e.kind = .notFound then
      match ← pddbWriteBinary st.dict key [1] with
      | .error e => return .error (ioErrToSignal e "mark used: write failed")
      | .ok () => return .ok ()
    else return .error (ioErrToSignal e "mark used: read failed")

end PddbKyberPreKeyStore

-- ---------------------------------------------------------------------------
-- PddbSessionStore
-- ---------------------------------------------------------------------------

structure PddbSessionStore where
  dict : String

namespace PddbSessionStore

variable (st : PddbSessionStore)

def loadSession (address : ProtocolAddress) :
    Prog Resp (SignalResult (Option L.session.Record)) :=
  readRecord st.dict (addressKey address) (fun bs => (L.session.deserialize bs).map some)
    (.ok none)

def storeSession (address : ProtocolAddress) (record : L.session.Record) :
    Prog Resp (SignalResult Unit) :=
  match L.session.serialize record with
  | .error e => return .error e
  | .ok buf => writeRecord st.dict (addressKey address) buf

end PddbSessionStore

-- ---------------------------------------------------------------------------
-- The stores of the receive and send paths
-- ---------------------------------------------------------------------------

def accountDict : String := "sigchat.account"
def identityDict : String := "sigchat.identity"
def preKeyDict : String := "sigchat.prekey"
def signedPreKeyDict : String := "sigchat.signed_prekey"
def kyberPreKeyDict : String := "sigchat.kyber_prekey"
def sessionDict : String := "sigchat.session"

def identityStore : PddbIdentityStore := ⟨accountDict, identityDict⟩
def preKeyStore : PddbPreKeyStore := ⟨preKeyDict⟩
def signedPreKeyStore : PddbSignedPreKeyStore := ⟨signedPreKeyDict⟩
def kyberPreKeyStore : PddbKyberPreKeyStore := ⟨kyberPreKeyDict⟩
def sessionStore : PddbSessionStore := ⟨sessionDict⟩

def handleRecord : (op : RecordOp L) → Prog Resp op.Resp
  | .saveIdentity a i => identityStore.saveIdentity a i
  | .isTrustedIdentity a i dir => identityStore.isTrustedIdentity a i dir
  | .getIdentity a => identityStore.getIdentity a
  | .getPreKey id => preKeyStore.getPreKey id
  | .savePreKey id r => preKeyStore.savePreKey id r
  | .removePreKey id => preKeyStore.removePreKey id
  | .getSignedPreKey id => signedPreKeyStore.getSignedPreKey id
  | .saveSignedPreKey id r => signedPreKeyStore.saveSignedPreKey id r
  | .getKyberPreKey id => kyberPreKeyStore.getKyberPreKey id
  | .saveKyberPreKey id r => kyberPreKeyStore.saveKyberPreKey id r
  | .markKyberPreKeyUsed k e b => kyberPreKeyStore.markKyberPreKeyUsed k e b
  | .loadSession a => sessionStore.loadSession a
  | .storeSession a r => sessionStore.storeSession a r

/-- The method an operation calls. -/
def handle : (op : StoreOp L) → Prog Resp op.Resp
  | .account .getIdentityKeyPair => identityStore.getIdentityKeyPair
  | .account .getLocalRegistrationId => identityStore.getLocalRegistrationId
  | .record op => handleRecord op

-- ---------------------------------------------------------------------------
-- Footprints
-- ---------------------------------------------------------------------------

/-- The one key an operation reads and writes. -/
def recordKey : RecordOp L → String × String
  | .saveIdentity a _ => (identityDict, addressKey a)
  | .isTrustedIdentity a _ _ => (identityDict, addressKey a)
  | .getIdentity a => (identityDict, addressKey a)
  | .getPreKey id => (preKeyDict, idKey id)
  | .savePreKey id _ => (preKeyDict, idKey id)
  | .removePreKey id => (preKeyDict, idKey id)
  | .getSignedPreKey id => (signedPreKeyDict, idKey id)
  | .saveSignedPreKey id _ => (signedPreKeyDict, idKey id)
  | .getKyberPreKey id => (kyberPreKeyDict, idKey id)
  | .saveKyberPreKey id _ => (kyberPreKeyDict, idKey id)
  | .markKyberPreKeyUsed k e b => (kyberPreKeyDict, PddbKyberPreKeyStore.dedupKey k e b)
  | .loadSession a => (sessionDict, addressKey a)
  | .storeSession a _ => (sessionDict, addressKey a)

section Footprints

variable {P : Req → Prop} {d k : String}

/-- The requests of reading a record. -/
theorem all_pddbReadBinary (hGet : P (.get d k false)) (hRead : P (.readToEnd d k)) :
    (pddbReadBinary d k).All P := by
  refine ⟨hGet, fun x => ?_⟩
  cases x with
  | error e => trivial
  | ok _ =>
    refine ⟨hRead, fun x => ?_⟩
    cases x <;> trivial

/-- Those of a lookup. -/
theorem all_readRecord {α : Type} {decode : Bytes → SignalResult α} {missing : SignalResult α}
    (hGet : P (.get d k false)) (hRead : P (.readToEnd d k)) :
    (readRecord d k decode missing).All P := by
  refine (all_pddbReadBinary hGet hRead).bind fun x => ?_
  cases x with
  | ok buf => trivial
  | error e =>
    by_cases hk : e.kind = .notFound
    · simp only [hk, if_true]
      trivial
    · simp only [hk, if_false]
      trivial

theorem all_writeRecord (hDelete : P (.deleteKey d k)) (hGet : P (.get d k true))
    (hWrite : ∀ pos data, P (.write d k pos data)) (hSync : P .sync) (data : Bytes) :
    (writeRecord d k data).All P := by
  refine (all_overwrite hDelete hGet hWrite hSync data).bind fun x => ?_
  cases x <;> trivial

/-- The requests on one key, and the sync that follows a write. -/
inductive About (d k : String) : Req → Prop where
  | deleteKey : About d k (.deleteKey d k)
  | get (createKey : Bool) : About d k (.get d k createKey)
  | readToEnd : About d k (.readToEnd d k)
  | write (pos : Nat) (data : Bytes) : About d k (.write d k pos data)
  | sync : About d k .sync

/-- **Footprint.** An operation issues requests about its own key only. -/
theorem all_handleRecord (op : RecordOp L) :
    (handleRecord op).All (About (recordKey op).1 (recordKey op).2) := by
  -- most operations read or replace one record
  have hRead {α : Type} {d k : String} {decode : Bytes → SignalResult α}
      {missing : SignalResult α} : (readRecord d k decode missing).All (About d k) :=
    all_readRecord (.get false) .readToEnd
  have hWrite {d k : String} (data : Bytes) : (writeRecord d k data).All (About d k) :=
    all_writeRecord .deleteKey (.get true) .write .sync data
  cases op with
  | saveIdentity a i =>
    refine (all_pddbReadBinary (.get false) .readToEnd).bind fun x => ?_
    cases x with
    | ok bs =>
      dsimp only
      split
      · trivial
      · exact (hWrite _).bind fun _ => trivial
    | error e =>
      dsimp only
      split
      · exact (hWrite _).bind fun _ => trivial
      · trivial
  | isTrustedIdentity a i dir => exact hRead
  | getIdentity a => exact hRead
  | getPreKey id => exact hRead
  | savePreKey id r =>
    simp only [handleRecord, PddbPreKeyStore.savePreKey]
    split
    · trivial
    · exact hWrite _
  | removePreKey id =>
    refine ⟨.deleteKey, fun x => ?_⟩
    cases x with
    | ok _ => trivial
    | error e =>
      dsimp only
      split <;> trivial
  | getSignedPreKey id => exact hRead
  | saveSignedPreKey id r =>
    simp only [handleRecord, PddbSignedPreKeyStore.saveSignedPreKey]
    split
    · trivial
    · exact hWrite _
  | getKyberPreKey id => exact hRead
  | saveKyberPreKey id r =>
    simp only [handleRecord, PddbKyberPreKeyStore.saveKyberPreKey]
    split
    · trivial
    · exact hWrite _
  -- the marker is looked for, and then written
  | markKyberPreKeyUsed k e b =>
    refine (all_pddbReadBinary (.get false) .readToEnd).bind fun x => ?_
    cases x with
    | ok bs => trivial
    | error err =>
      dsimp only
      split
      · refine (all_overwrite .deleteKey (.get true) .write .sync _).bind fun x => ?_
        cases x <;> trivial
      · trivial
  | loadSession a => exact hRead
  | storeSession a r =>
    simp only [handleRecord, PddbSessionStore.storeSession]
    split
    · trivial
    · exact hWrite _

/-- A request about one key touches no other. -/
theorem About.not_touches {d k d' k' : String} {r : Req} (h : About d k r)
    (hne : (d', k') ≠ (d, k)) : ¬r.Touches d' k' := by
  intro ht
  cases h with
  | sync => exact ht
  | _ => exact hne (by rw [ht.1, ht.2])

/-- An operation on another record does not touch this one. -/
theorem all_handleRecord_other (op : RecordOp L) (h : (d, k) ≠ recordKey op) :
    (handleRecord op).All fun r => ¬r.Touches d k :=
  (all_handleRecord op).mono fun _ hr => hr.not_touches h

end Footprints

-- ---------------------------------------------------------------------------
-- What the helpers do
-- ---------------------------------------------------------------------------

section Helpers

variable {adm : Req → Outcome → Prop} {d k : String} {s : Disk}

/-- The requests of a reading one by one. -/
theorem interp_pddbReadBinary (d k : String) :
    (pddbReadBinary d k).interp inPieces = .call (.get d k false) fun
      | .error e => .done (.error e)
      | .ok () => readToEndLoop d k (2 ^ 31) [] := by
  refine congrArg (Prog.call _) (funext fun x => ?_)
  rcases x with e | _
  · rfl
  · -- the answer of the loop is passed on as it is
    refine Eq.trans (congrArg ((readToEndLoop d k (2 ^ 31) []).bind) (funext fun x => ?_))
      (Prog.bind_done _)
    cases x <;> rfl

/-- **Reading a record.** Nothing changes; an answer is the content of the key,
and `NotFound` means that there is none. -/
theorem wp_pddbReadBinary :
    (pddbReadBinary d k).wp serve adm
      (fun r s' => s' = s ∧ (∀ bs, r = .ok bs → s d k = some bs) ∧
        (∀ e, r = .error e → e.kind = .notFound → s d k = none)) s := by
  simp only [pddbReadBinary, Prog.wp_call]
  intro o _
  cases o with
  | failed f => exact ⟨rfl, by simp, fun e he hk => absurd (Except.error.inj he ▸ hk) f.kind_ne⟩
  | served | short n =>
    cases h : s d k with
    | none => simp [serve, perform, h]
    | some bs =>
      simp only [serve, perform, h, Prog.wp_call]
      intro o' _
      cases o' with
      | failed f =>
        exact ⟨rfl, by simp, fun e he hk => absurd (Except.error.inj he ▸ hk) f.kind_ne⟩
      | served | short n => simp [h]

/-- Reading a record when no request fails. -/
theorem wp_pddbReadBinary_ok (hAdm : ∀ r o, adm r o → o.Succeeds) :
    (pddbReadBinary d k).wp serve adm
      (fun r s' => s' = s ∧ r = match s d k with
        | some bs => .ok bs
        | none => .error keyNotFound) s := by
  simp only [pddbReadBinary, Prog.wp_call]
  intro o ho
  cases o with
  | failed f => exact (hAdm _ _ ho).elim
  | served | short n =>
    cases h : s d k with
    | none => simp [serve, perform, h]
    | some bs =>
      simp only [serve, perform, h, Prog.wp_call]
      intro o' ho'
      cases o' with
      | failed f => exact (hAdm _ _ ho').elim
      | served | short n => simp [h]

variable {α : Type} {decode : Bytes → SignalResult α} {missing : SignalResult α}

/-- A lookup decodes the record, answers `missing` because there is none, or
reports a failed request. -/
theorem wp_readRecord :
    (readRecord d k decode missing).wp serve adm
      (fun r s' => s' = s ∧ ((∃ bs, s d k = some bs ∧ r = decode bs) ∨
        (s d k = none ∧ r = missing) ∨ ∃ e, r = .error (ioErrToSignal e "read failed"))) s := by
  refine Prog.wp_bind.mpr (Prog.wp_mono (fun r s' h => ?_) wp_pddbReadBinary)
  obtain ⟨rfl, hOk, hMissing⟩ := h
  cases r with
  | ok bs => exact ⟨rfl, .inl ⟨bs, hOk bs rfl, rfl⟩⟩
  | error e =>
    by_cases hk : e.kind = .notFound
    · simp only [hk, if_true]
      exact ⟨rfl, .inr (.inl ⟨hMissing e rfl hk, rfl⟩)⟩
    · simp only [hk, if_false]
      exact ⟨rfl, .inr (.inr ⟨e, rfl⟩)⟩

/-- A lookup when no request fails. -/
theorem wp_readRecord_ok (hAdm : ∀ r o, adm r o → o.Succeeds) :
    (readRecord d k decode missing).wp serve adm
      (fun r s' => s' = s ∧ r = match s d k with
        | some bs => decode bs
        | none => missing) s := by
  refine Prog.wp_bind.mpr (Prog.wp_mono (fun r s' h => ?_) (wp_pddbReadBinary_ok hAdm))
  obtain ⟨rfl, rfl⟩ := h
  cases s' d k with
  | some bs => exact ⟨rfl, rfl⟩
  | none => exact ⟨rfl, rfl⟩

/-- Replacing a record when no request fails. -/
theorem wp_writeRecord_ok {data : Bytes} (hAdm : ∀ r o, r.Touches d k → adm r o → o.Succeeds) :
    (writeRecord d k data).wp serve adm
      (fun r s' => r = .ok () ∧ s' = s.set d k (some data)) s := by
  refine Prog.wp_bind.mpr (Prog.wp_mono (fun r s' h => ?_) (wp_overwrite_ok hAdm))
  obtain ⟨rfl, rfl⟩ := h
  exact ⟨rfl, rfl⟩

end Helpers

-- ---------------------------------------------------------------------------
-- Keys
-- ---------------------------------------------------------------------------

/-- Addresses with the same key are the same, whatever their names contain:
the device number is what follows the last dot. -/
theorem addressKey_injective {a b : ProtocolAddress} (h : addressKey a = addressKey b) :
    a = b := by
  obtain ⟨hName, hDev⟩ := split_at_last (c := '.') (not_mem_decimal (by decide) _)
    (not_mem_decimal (by decide) _) h
  obtain ⟨nameA, ⟨valA, _, _⟩⟩ := a
  obtain ⟨nameB, ⟨valB, _, _⟩⟩ := b
  obtain rfl : valA = valB := decimal_injective hDev
  obtain rfl : nameA = nameB := hName
  rfl

theorem idKey_injective {i j : UInt32} (h : idKey i = idKey j) : i = j :=
  UInt32.toNat_inj.mp (decimal_injective h)

open PddbKyberPreKeyStore in
/-- Markers of different triples are different keys. -/
theorem dedupKey_injective (hSer : Function.Injective L.publicKeySerialize)
    {k k' e e' : UInt32} {b b' : L.PublicKey} (h : dedupKey k e b = dedupKey k' e' b') :
    k = k' ∧ e = e' ∧ b = b' := by
  have hl := congrArg String.toList h
  simp only [dedupKey, String.toList_append, List.append_assoc, List.append_cancel_left_eq] at hl
  have hColon : ":".toList = [':'] := rfl
  rw [hColon, List.singleton_append, List.singleton_append, List.singleton_append,
    List.singleton_append] at hl
  have hDigits (i : UInt32) : ':' ∉ (idKey i).toList := not_mem_decimal (by decide) _
  obtain ⟨hk, hl⟩ := append_cons_inj_first (hDigits k) (hDigits k') hl
  obtain ⟨he, hb⟩ := append_cons_inj_first (hDigits e) (hDigits e') hl
  refine ⟨idKey_injective (String.toList_inj.mp hk), idKey_injective (String.toList_inj.mp he), ?_⟩
  exact hSer (Base64.encode_injective _ (String.toList_inj.mp hb))

open PddbKyberPreKeyStore in
/-- No marker is the key of a record. -/
theorem dedupKey_ne_idKey (k e id : UInt32) (b : L.PublicKey) : dedupKey k e b ≠ idKey id := by
  intro h
  have hMem : 'u' ∈ (idKey id).toList := by
    rw [← h]
    simp [dedupKey]
  exact not_mem_decimal (by decide) _ hMem

end Sigchat.Stores

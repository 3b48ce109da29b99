import Sigchat.Model.Prekeys

/-!
# Finding the uploaded prekeys

The link request names four prekeys by id, and the receive path looks them up
by these ids. The records of the ACI and the PNI share a dictionary for each
kind, and the ids are drawn independently: if two of a kind coincide, the record
saved second replaces the first, whose public key is on the server.

* `generatePrekeys_spec`       — what is generated;
* `uploaded_prekeys_found_iff` — when all four are found again.
-/

namespace Sigchat.Results.PrekeyLookup

open Sigchat.Lib
open Sigchat.Pddb
open Sigchat.Signal
open Sigchat.Stores
open Sigchat.Accounts

variable {L : Libsignal} {C : Curve L} (K : KeyGen L C)

-- ---------------------------------------------------------------------------
-- The two kinds
-- ---------------------------------------------------------------------------

/-- A kind of prekey: its records, and the dictionary they are kept in. -/
structure Kind where
  codec : Codec
  dict : String
  missing : SignalProtocolError
  id : codec.Record → Except SignalProtocolError UInt32
  publicKey : codec.Record → Except SignalProtocolError Bytes
  signature : codec.Record → Except SignalProtocolError Bytes

def Kind.signed : Kind :=
  ⟨L.signedPreKey, signedPreKeyDict, .invalidSignedPreKeyId, L.signedPreKeyId,
    K.signedPreKeyPublic, K.signedPreKeySignature⟩

def Kind.kyber : Kind :=
  ⟨L.kyberPreKey, kyberPreKeyDict, .invalidKyberPreKeyId, L.kyberPreKeyId,
    K.kyberPreKeyPublic, K.kyberPreKeySignature⟩

/-- The record has this public key and signature. -/
def Kind.Matches (kind : Kind) (record : kind.codec.Record) (entity : PreKeyJson) : Prop :=
  ∃ pub sig, kind.publicKey record = .ok pub ∧ kind.signature record = .ok sig ∧
    entity.publicKey = Base64.encode Base64.standard pub ∧
    entity.signature = Base64.encode Base64.standard sig

/-- The signature of an uploaded key verifies under the key of an identity. -/
def Verified (entity : PreKeyJson) (identity : L.PrivateKey) : Prop :=
  ∃ pub sig, entity.publicKey = Base64.encode Base64.standard pub ∧
    entity.signature = Base64.encode Base64.standard sig ∧
    K.verifySignature (C.publicKey identity) pub sig = true

/-- The bytes a record is saved as. -/
def Kind.bytes (kind : Kind) (record : kind.codec.Record) : Bytes :=
  (kind.codec.serialize record).toOption.getD []

/-- A content is read as a record of the entity. -/
def Kind.ReadAs (kind : Kind) (content : Bytes) (entity : PreKeyJson) : Prop :=
  ∃ record, kind.codec.deserialize content = .ok record ∧ kind.Matches record entity

-- ---------------------------------------------------------------------------
-- Generation
-- ---------------------------------------------------------------------------

/-- A record is what its entity says. -/
structure Kind.Generated (kind : Kind) (record : kind.codec.Record) (entity : PreKeyJson) :
    Prop where
  id : kind.id record = .ok entity.keyId
  keys : kind.Matches record entity

variable {K}

/-- Renaming an error leaves a success as it is. -/
theorem eq_ok_of_orOther {ε α : Type} {msg : String} {x : Except ε α} {a : α}
    (h : orOther msg x = .ok a) : x = .ok a := by
  cases x with
  | error e => exact nomatch h
  | ok b => exact congrArg Except.ok (Except.ok.inj h)

/-- A generated record holds what is uploaded of it, and the signature is the
identity's. -/
theorem generateSignedPrekey_spec (hK : K.Lawful) {identity : L.PrivateKey} {draws : SignedDraws K}
    {entity : PreKeyJson} {record : L.signedPreKey.Record}
    (h : generateSignedPrekey identity draws = .ok (entity, record)) :
    (Kind.signed K).Generated record entity ∧ Verified K entity identity := by
  obtain ⟨signature, -, h⟩ := exists_of_bind_ok h
  obtain ⟨identityPublic, hPublic, h⟩ := exists_of_bind_ok h
  obtain rfl := hK.derivePublic _ _ (eq_ok_of_orOther hPublic)
  split at h
  · rename_i hVerify
    obtain ⟨rfl, rfl⟩ := Prod.mk.inj (Except.ok.inj h)
    exact ⟨⟨hK.signedId .., _, _, hK.signedPublic .., hK.signedSignature .., rfl, rfl⟩,
      _, _, rfl, rfl, hVerify⟩
  · exact nomatch h

/-- The same holds of a Kyber prekey. -/
theorem generateKyberLastResort_spec (hK : K.Lawful) {identity : L.PrivateKey}
    {draws : KyberDraws K} {entity : PreKeyJson} {record : L.kyberPreKey.Record}
    (h : generateKyberLastResort identity draws = .ok (entity, record)) :
    (Kind.kyber K).Generated record entity ∧ Verified K entity identity := by
  obtain ⟨record', hRecord, h⟩ := exists_of_bind_ok h
  obtain ⟨pub, hPub, h⟩ := exists_of_bind_ok h
  obtain ⟨sig, hSig, h⟩ := exists_of_bind_ok h
  obtain ⟨identityPublic, hPublic, h⟩ := exists_of_bind_ok h
  obtain rfl := hK.derivePublic _ _ (eq_ok_of_orOther hPublic)
  split at h
  · rename_i hVerify
    obtain ⟨rfl, rfl⟩ := Prod.mk.inj (Except.ok.inj h)
    exact ⟨⟨hK.kyberId _ _ _ _ (eq_ok_of_orOther hRecord), _, _, eq_ok_of_orOther hPub,
      eq_ok_of_orOther hSig, rfl, rfl⟩, _, _, rfl, rfl, hVerify⟩
  · exact nomatch h

/-- **What is generated.** Every record is what its entity says, signed by its
identity. -/
structure GeneratedFor (K : KeyGen L C) (g : Prekeys L) (aci pni : L.PrivateKey) : Prop where
  aciSigned : (Kind.signed K).Generated g.aciSignedRecord g.aciSigned
  pniSigned : (Kind.signed K).Generated g.pniSignedRecord g.pniSigned
  aciKyber : (Kind.kyber K).Generated g.aciKyberRecord g.aciKyberLastResort
  pniKyber : (Kind.kyber K).Generated g.pniKyberRecord g.pniKyberLastResort
  verified : Verified K g.aciSigned aci ∧ Verified K g.pniSigned pni ∧
    Verified K g.aciKyberLastResort aci ∧ Verified K g.pniKyberLastResort pni

/-- The four prekeys are generated two for each identity. -/
theorem generatePrekeys_spec (hK : K.Lawful) {aci pni : L.PrivateKey} {draws : Draws K}
    {g : Prekeys L} (h : generatePrekeys aci pni draws = .ok g) : GeneratedFor K g aci pni := by
  obtain ⟨⟨aciSigned, aciSignedRecord⟩, hAciSigned, h⟩ := exists_of_bind_ok h
  obtain ⟨⟨pniSigned, pniSignedRecord⟩, hPniSigned, h⟩ := exists_of_bind_ok h
  obtain ⟨⟨aciKyber, aciKyberRecord⟩, hAciKyber, h⟩ := exists_of_bind_ok h
  obtain ⟨⟨pniKyber, pniKyberRecord⟩, hPniKyber, h⟩ := exists_of_bind_ok h
  obtain rfl := Except.ok.inj h
  obtain ⟨hAciSigned, hVerify₁⟩ := generateSignedPrekey_spec hK hAciSigned
  obtain ⟨hPniSigned, hVerify₂⟩ := generateSignedPrekey_spec hK hPniSigned
  obtain ⟨hAciKyber, hVerify₃⟩ := generateKyberLastResort_spec hK hAciKyber
  obtain ⟨hPniKyber, hVerify₄⟩ := generateKyberLastResort_spec hK hPniKyber
  exact ⟨hAciSigned, hPniSigned, hAciKyber, hPniKyber, hVerify₁, hVerify₂, hVerify₃, hVerify₄⟩

-- ---------------------------------------------------------------------------
-- Saving
-- ---------------------------------------------------------------------------

/-- Saving a record of either kind. -/
def Kind.save (L : Libsignal) (kind : Kind) (record : kind.codec.Record) :
    Prog Resp (Except IoError Unit) :=
  match kind.id record with
  | .error e => .done (.error (mapSignalErr (L := L) e))
  | .ok id =>
    match kind.codec.serialize record with
    | .error e => .done (.error (mapSignalErr (L := L) e))
    | .ok bs => do
      return (← writeRecord kind.dict (idKey id) bs).mapError (mapSignalErr (L := L))

/-- A record is saved under its own id. -/
theorem Kind.save_under (kind : Kind) (record : kind.codec.Record) :
    kind.save L record =
      saveUnder L kind.dict (kind.id record) (kind.codec.serialize record) := by
  unfold Kind.save saveUnder
  rcases kind.id record with e | id
  · rfl
  · rcases kind.codec.serialize record with e | bs <;> rfl

variable (K) in
theorem saveSigned_eq (record : L.signedPreKey.Record) :
    saveSigned record = (Kind.signed K).save L record :=
  (saveSigned_under record).trans (Kind.save_under (Kind.signed K) record).symm

variable (K) in
theorem saveKyber_eq (record : L.kyberPreKey.Record) :
    saveKyber record = (Kind.kyber K).save L record :=
  (saveKyber_under record).trans (Kind.save_under (Kind.kyber K) record).symm

/-- What a key holds once a record has been saved over `old`. `o` is the outcome
of the delete request. -/
def Kind.content (kind : Kind) (record : kind.codec.Record) (o : Outcome) (old : Option Bytes) :
    Bytes :=
  kind.bytes record ++ leftBehind o old (kind.bytes record)

/-- A record saved over what its key held. -/
def Kind.savedOver (kind : Kind) (record : kind.codec.Record) (id : UInt32) (o : Outcome)
    (s : Disk) : Disk :=
  s.set kind.dict (idKey id) (some (kind.content record o (s kind.dict (idKey id))))

/-- A write that succeeds leaves the data and, where the delete failed, the end
of what was there. -/
theorem writeRecord_run_ok {d k : String} {data : Bytes} {env : Env Req Outcome} {s : Disk}
    (h : ((Stores.writeRecord d k data).run serve env s).1 = .ok ()) :
    ((Stores.writeRecord d k data).run serve env s).2 =
      s.set d k (some (data ++ leftBehind (env 0 (.deleteKey d k)) (s d k) data)) := by
  rw [Stores.writeRecord, Prog.run_bind] at h ⊢
  rcases hWrite : ((pddbWriteBinary d k data).run serve env s).1 with e | u
  · rw [hWrite] at h
    exact nomatch h
  · exact overwrite_run_ok hWrite

/-- A point of a run: what is left of the environment, and the disk. -/
abbrev Point : Type := Env Req Outcome × Disk

/-- The point once a record has been saved. -/
def Kind.next (L : Libsignal) (kind : Kind) (record : kind.codec.Record) (x : Point) : Point :=
  ((kind.save L record).left serve x.1 x.2, ((kind.save L record).run serve x.1 x.2).2)

/-- The outcome of the first request if it deletes the key of an id. -/
def Kind.deleteOutcome (kind : Kind) (id : UInt32) (x : Point) : Outcome :=
  x.1 0 (.deleteKey kind.dict (idKey id))

/-- Saving a record that succeeds leaves it, and what the delete has left behind
it. -/
theorem Kind.save_run_ok {kind : Kind} {record : kind.codec.Record} {id : UInt32}
    (hId : kind.id record = .ok id) {x : Point}
    (h : ((kind.save L record).run serve x.1 x.2).1 = .ok ()) :
    (kind.next L record x).2 = kind.savedOver record id (kind.deleteOutcome id x) x.2 := by
  rw [Kind.next, Kind.save, hId] at *
  rcases hBytes : kind.codec.serialize record with e | bs
  · rw [hBytes] at h
    exact nomatch h
  · have hEq : kind.bytes record = bs := by rw [Kind.bytes, hBytes]; rfl
    subst hEq
    simp only [hBytes] at h ⊢
    rw [Prog.run_bind] at h ⊢
    rcases hWrite :
      ((Stores.writeRecord kind.dict (idKey id) (kind.bytes record)).run serve x.1 x.2).1 with e | u
    · rw [hWrite] at h
      exact nomatch h
    · exact writeRecord_run_ok hWrite

/-- The outcomes of the four delete requests. -/
structure DeleteOutcomes where
  aciSigned : Outcome
  pniSigned : Outcome
  aciKyber : Outcome
  pniKyber : Outcome

variable (K) in
/-- The points at which the four records have been saved. -/
def savePoints (g : Prekeys L) (x : Point) : Point × Point × Point × Point :=
  let x₁ := (Kind.signed K).next L g.aciSignedRecord x
  let x₂ := (Kind.signed K).next L g.pniSignedRecord x₁
  let x₃ := (Kind.kyber K).next L g.aciKyberRecord x₂
  (x₁, x₂, x₃, (Kind.kyber K).next L g.pniKyberRecord x₃)

variable (K) in
def deleteOutcomes (g : Prekeys L) (x : Point) : DeleteOutcomes :=
  let (x₁, x₂, x₃, _) := savePoints K g x
  { aciSigned := (Kind.signed K).deleteOutcome g.aciSigned.keyId x
    pniSigned := (Kind.signed K).deleteOutcome g.pniSigned.keyId x₁
    aciKyber := (Kind.kyber K).deleteOutcome g.aciKyberLastResort.keyId x₂
    pniKyber := (Kind.kyber K).deleteOutcome g.pniKyberLastResort.keyId x₃ }

variable (K) in
/-- The disk with both records of each kind saved. -/
def savedAll (g : Prekeys L) (o : DeleteOutcomes) (s : Disk) : Disk :=
  let s₁ := (Kind.signed K).savedOver g.aciSignedRecord g.aciSigned.keyId o.aciSigned s
  let s₂ := (Kind.signed K).savedOver g.pniSignedRecord g.pniSigned.keyId o.pniSigned s₁
  let s₃ := (Kind.kyber K).savedOver g.aciKyberRecord g.aciKyberLastResort.keyId o.aciKyber s₂
  (Kind.kyber K).savedOver g.pniKyberRecord g.pniKyberLastResort.keyId o.pniKyber s₃

/-- **The end of a successful save.** Every record is there, over what its key
held. -/
theorem saveToPddb_run_ok {g : Prekeys L} {aci pni : L.PrivateKey} (hg : GeneratedFor K g aci pni)
    {env : Env Req Outcome} {s : Disk} (h : ((saveToPddb g).run serve env s).1 = .ok ()) :
    ((saveToPddb g).run serve env s).2 = savedAll K g (deleteOutcomes K g (env, s)) s := by
  simp only [saveToPddb, saveSigned_eq K, saveKyber_eq K] at h ⊢
  obtain ⟨h₁, hRun₁⟩ := Prog.run_then_ok serve h (fun _ => rfl) rfl
  rw [hRun₁] at h ⊢
  obtain ⟨h₂, hRun₂⟩ := Prog.run_then_ok serve h (fun _ => rfl) rfl
  rw [hRun₂] at h ⊢
  obtain ⟨h₃, hRun₃⟩ := Prog.run_then_ok serve h (fun _ => rfl) rfl
  rw [hRun₃] at h ⊢
  have hS₁ := Kind.save_run_ok hg.aciSigned.id (x := (env, s)) h₁
  have hS₂ := Kind.save_run_ok hg.pniSigned.id (x := (savePoints K g (env, s)).1) h₂
  have hS₃ := Kind.save_run_ok hg.aciKyber.id (x := (savePoints K g (env, s)).2.1) h₃
  have hS₄ := Kind.save_run_ok hg.pniKyber.id (x := (savePoints K g (env, s)).2.2.1) h
  exact hS₄.trans (congrArg _ (hS₃.trans (congrArg _ (hS₂.trans (congrArg _ hS₁)))))

-- ---------------------------------------------------------------------------
-- Looking up
-- ---------------------------------------------------------------------------

/-- The key of an id holds a record of the entity. -/
def Kind.Held (kind : Kind) (entity : PreKeyJson) (s : Disk) : Prop :=
  ∃ content, s kind.dict (idKey entity.keyId) = some content ∧ kind.ReadAs content entity

/-- The record saved last under the id of an entity is the one that is held. -/
theorem Kind.held_savedOver {kind : Kind} {record : kind.codec.Record} {entity : PreKeyJson}
    {o : Outcome} {s : Disk} :
    kind.Held entity (kind.savedOver record entity.keyId o s) ↔
      kind.ReadAs (kind.content record o (s kind.dict (idKey entity.keyId))) entity := by
  constructor
  · rintro ⟨content, hContent, hRead⟩
    rw [Kind.savedOver, Disk.set_same] at hContent
    exact Option.some.inj hContent ▸ hRead
  · exact fun hRead => ⟨_, Disk.set_same _ _ _ _, hRead⟩

/-- Saving under another key changes nothing. -/
theorem Kind.held_savedOver_of_ne {kind other : Kind} {record : other.codec.Record} {id : UInt32}
    {entity : PreKeyJson} {o : Outcome} {s : Disk}
    (hNe : ¬(kind.dict = other.dict ∧ entity.keyId = id)) :
    kind.Held entity (other.savedOver record id o s) ↔ kind.Held entity s := by
  have hKey : other.savedOver record id o s kind.dict (idKey entity.keyId) =
      s kind.dict (idKey entity.keyId) :=
    Disk.set_other _ _ fun h => hNe ⟨h.1, idKey_injective h.2⟩
  rw [Kind.Held, Kind.Held, hKey]

/-- One key holds the records of two entities only if they are the same key. -/
theorem Kind.Held.same {kind : Kind} {aci pni : PreKeyJson} {s : Disk} (hAci : kind.Held aci s)
    (hPni : kind.Held pni s) (hId : aci.keyId = pni.keyId) :
    aci.publicKey = pni.publicKey ∧ aci.signature = pni.signature := by
  obtain ⟨content, hContent, record, hRecord, pub, sig, hPub, hSig, hAciPub, hAciSig⟩ := hAci
  obtain ⟨content', hContent', record', hRecord', pub', sig', hPub', hSig', hPniPub, hPniSig⟩ :=
    hPni
  rw [hId] at hContent
  obtain rfl := Option.some.inj (hContent.symm.trans hContent')
  obtain rfl := Except.ok.inj (hRecord.symm.trans hRecord')
  obtain rfl := Except.ok.inj (hPub.symm.trans hPub')
  obtain rfl := Except.ok.inj (hSig.symm.trans hSig')
  exact ⟨hAciPub.trans hPniPub.symm, hAciSig.trans hPniSig.symm⟩

/-- Under one id the record of one identity serves for the other if they hold
the same. -/
theorem Kind.Held.of_same {kind : Kind} {aci pni : PreKeyJson} {s : Disk}
    (hPni : kind.Held pni s) (hId : aci.keyId = pni.keyId)
    (hSame : aci.publicKey = pni.publicKey ∧ aci.signature = pni.signature) :
    kind.Held aci s := by
  obtain ⟨content, hContent, record, hRecord, pub, sig, hPub, hSig, hPniPub, hPniSig⟩ := hPni
  exact ⟨content, hId ▸ hContent, record, hRecord, pub, sig, hPub, hSig, hSame.1.trans hPniPub,
    hSame.2.trans hPniSig⟩

/-- When the records of the ACI and the PNI are both held: entities with the
same id are the same key, and nothing left behind spoils a record. -/
structure Kind.Kept (kind : Kind) (aciRecord pniRecord : kind.codec.Record)
    (aci pni : PreKeyJson) (aciDelete pniDelete : Outcome) (s : Disk) : Prop where
  same : aci.keyId = pni.keyId → aci.publicKey = pni.publicKey ∧ aci.signature = pni.signature
  first : aci.keyId ≠ pni.keyId →
    kind.ReadAs (kind.content aciRecord aciDelete (s kind.dict (idKey aci.keyId))) aci
  second : kind.ReadAs (kind.content pniRecord pniDelete
    (kind.savedOver aciRecord aci.keyId aciDelete s kind.dict (idKey pni.keyId))) pni

/-- Only the dictionary of the kind matters. -/
theorem Kind.Kept.of_dict {kind : Kind} {aciRecord pniRecord : kind.codec.Record}
    {aci pni : PreKeyJson} {aciDelete pniDelete : Outcome} {s s' : Disk}
    (hDict : s kind.dict = s' kind.dict)
    (h : kind.Kept aciRecord pniRecord aci pni aciDelete pniDelete s) :
    kind.Kept aciRecord pniRecord aci pni aciDelete pniDelete s' := by
  have hSaved : kind.savedOver aciRecord aci.keyId aciDelete s kind.dict =
      kind.savedOver aciRecord aci.keyId aciDelete s' kind.dict := by
    funext key
    simp only [Kind.savedOver, Disk.set, hDict]
  exact ⟨h.same, hDict ▸ h.first, hSaved ▸ h.second⟩

/-- **Two records of a kind.** After both have been saved, both are held exactly
under `Kind.Kept`. -/
theorem Kind.held_iff {kind : Kind} {aciRecord pniRecord : kind.codec.Record}
    {aci pni : PreKeyJson} {aciDelete pniDelete : Outcome} {s : Disk} :
    (kind.Held aci (kind.savedOver pniRecord pni.keyId pniDelete
        (kind.savedOver aciRecord aci.keyId aciDelete s)) ∧
      kind.Held pni (kind.savedOver pniRecord pni.keyId pniDelete
        (kind.savedOver aciRecord aci.keyId aciDelete s))) ↔
    kind.Kept aciRecord pniRecord aci pni aciDelete pniDelete s := by
  -- With two ids both records stay; with one the second replaces the first.
  by_cases hId : aci.keyId = pni.keyId
  · -- the record of the PNI is found under both ids
    constructor
    · rintro ⟨hAci, hPni⟩
      exact ⟨fun _ => hAci.same hPni hId, fun h => absurd hId h, held_savedOver.mp hPni⟩
    · intro h
      have hPni := held_savedOver.mpr h.second
      exact ⟨hPni.of_same hId (h.same hId), hPni⟩
  · rw [held_savedOver_of_ne fun h => hId h.2, held_savedOver, held_savedOver]
    constructor
    · rintro ⟨hAci, hPni⟩
      exact ⟨fun h => absurd h hId, fun _ => hAci, hPni⟩
    · intro h
      exact ⟨h.first hId, h.second⟩

-- ---------------------------------------------------------------------------
-- The uploaded keys
-- ---------------------------------------------------------------------------

variable (K)

/-- A lookup returns a record with exactly the uploaded public key and
signature, and the signature verifies under the key of the identity. -/
def Kind.Found (kind : Kind) (lookup : UInt32 → Prog Resp (SignalResult kind.codec.Record))
    (entity : PreKeyJson) (identity : L.PrivateKey) (s : Disk) : Prop :=
  ∃ record pub sig, ((lookup entity.keyId).runAll serve .served s).1 = .ok record ∧
    kind.publicKey record = .ok pub ∧ kind.signature record = .ok sig ∧
    entity.publicKey = Base64.encode Base64.standard pub ∧
    entity.signature = Base64.encode Base64.standard sig ∧
    K.verifySignature (C.publicKey identity) pub sig = true

/-- Every entity of a link request is found in the store of the receive path. -/
structure UploadedFound {Attributes : Type} (body : LinkDeviceRequestBody Attributes)
    (aci pni : L.PrivateKey) (s : Disk) : Prop where
  aciSigned : (Kind.signed K).Found K signedPreKeyStore.getSignedPreKey body.aciSignedPreKey aci s
  pniSigned : (Kind.signed K).Found K signedPreKeyStore.getSignedPreKey body.pniSignedPreKey pni s
  aciKyber :
    (Kind.kyber K).Found K kyberPreKeyStore.getKyberPreKey body.aciPqLastResortPreKey aci s
  pniKyber :
    (Kind.kyber K).Found K kyberPreKeyStore.getKyberPreKey body.pniPqLastResortPreKey pni s

variable {K}

/-- Looking up a record of either kind. -/
def Kind.lookup (kind : Kind) (id : UInt32) : Prog Resp (SignalResult kind.codec.Record) :=
  readRecord kind.dict (idKey id) kind.codec.deserialize (.error kind.missing)

/-- A lookup finds what is held, and the signature was verified when it was
generated. -/
theorem Kind.found_iff {kind : Kind} {entity : PreKeyJson} {identity : L.PrivateKey}
    (hVerified : Verified K entity identity) {s : Disk} :
    kind.Found K kind.lookup entity identity s ↔ kind.Held entity s := by
  have hRead : (kind.lookup entity.keyId).wp serve (fun _ o => o = .served) _ s :=
    wp_readRecord_ok fun _ _ h => by rw [h]; trivial
  have hRun := (Prog.wp_run hRead fun _ _ => rfl).2
  obtain ⟨pub, sig, hPub, hSig, hVerify⟩ := hVerified
  constructor
  · rintro ⟨record, pub', sig', hRecord, hKey, hSignature, hEntityPub, hEntitySig, -⟩
    have hDecode := hRun.symm.trans hRecord
    rcases hContent : s kind.dict (idKey entity.keyId) with _ | content
    · rw [hContent] at hDecode
      cases hDecode
    · rw [hContent] at hDecode
      exact ⟨content, hContent, record, hDecode, pub', sig', hKey, hSignature, hEntityPub,
        hEntitySig⟩
  · rintro ⟨content, hContent, record, hRecord, pub', sig', hKey, hSignature, hEntityPub,
      hEntitySig⟩
    obtain rfl := Base64.encode_injective _ (hPub.symm.trans hEntityPub)
    obtain rfl := Base64.encode_injective _ (hSig.symm.trans hEntitySig)
    rw [hContent] at hRun
    exact ⟨record, pub, sig, hRun.trans hRecord, hKey, hSignature, hPub, hSig, hVerify⟩

variable (K) in
/-- The keys of both kinds are kept. -/
def KeysKept (g : Prekeys L) (o : DeleteOutcomes) (s : Disk) : Prop :=
  (Kind.signed K).Kept g.aciSignedRecord g.pniSignedRecord g.aciSigned g.pniSigned o.aciSigned
      o.pniSigned s ∧
    (Kind.kyber K).Kept g.aciKyberRecord g.pniKyberRecord g.aciKyberLastResort
      g.pniKyberLastResort o.aciKyber o.pniKyber s

/-- Saving a Kyber prekey leaves the signed ones. -/
theorem held_signed_savedOver_kyber {entity : PreKeyJson} {record : (Kind.kyber K).codec.Record}
    {id : UInt32} {o : Outcome} {s : Disk} :
    (Kind.signed K).Held entity ((Kind.kyber K).savedOver record id o s) ↔
      (Kind.signed K).Held entity s :=
  Kind.held_savedOver_of_ne fun h => absurd h.1 (by decide : signedPreKeyDict ≠ kyberPreKeyDict)

/-- Saving a signed prekey leaves the Kyber ones. -/
theorem savedOver_signed_kyberDict {record : (Kind.signed K).codec.Record} {id : UInt32}
    {o : Outcome} {s : Disk} :
    (Kind.signed K).savedOver record id o s kyberPreKeyDict = s kyberPreKeyDict := by
  funext key
  exact Disk.set_other s _ fun h => absurd h.1 (by decide : kyberPreKeyDict ≠ signedPreKeyDict)

/-- A record with nothing left behind it is read back. -/
theorem Kind.readAs_content {kind : Kind} (hCodec : kind.codec.Lawful)
    {record : kind.codec.Record} {entity : PreKeyJson} (hMatches : kind.Matches record entity)
    (hBytes : kind.codec.serialize record = .ok (kind.bytes record)) {o : Outcome}
    {old : Option Bytes} (hClean : leftBehind o old (kind.bytes record) = []) :
    kind.ReadAs (kind.content record o old) entity := by
  rw [Kind.content, hClean, List.append_nil]
  exact ⟨record, hCodec record _ hBytes, hMatches⟩

/-- **Finding the uploaded prekeys.** When generation and saving have succeeded,
whatever was drawn and however the requests went, all four are found exactly if
no two of a kind share an id, or they are the same key, and nothing that a
failed delete request has left behind spoils a record. -/
theorem uploaded_prekeys_found_iff (hK : K.Lawful) {aci pni : L.PrivateKey} {draws : Draws K}
    {g : Prekeys L} (hGenerate : generatePrekeys aci pni draws = .ok g) {env : Env Req Outcome}
    {s : Disk} (hSave : ((saveToPddb g).run serve env s).1 = .ok ()) (verificationCode : String)
    {Attributes : Type} (accountAttributes : Attributes) :
    UploadedFound K (.fromParts verificationCode accountAttributes g) aci pni
        ((saveToPddb g).run serve env s).2 ↔
      KeysKept K g (deleteOutcomes K g (env, s)) s := by
  have hg := generatePrekeys_spec hK hGenerate
  obtain ⟨hAciSigned, hPniSigned, hAciKyber, hPniKyber⟩ := hg.verified
  rw [saveToPddb_run_ok hg hSave]
  generalize deleteOutcomes K g (env, s) = o
  -- The two kinds are in two dictionaries, so each can be followed alone.
  have hDict : (Kind.signed K).savedOver g.pniSignedRecord g.pniSigned.keyId o.pniSigned
      ((Kind.signed K).savedOver g.aciSignedRecord g.aciSigned.keyId o.aciSigned s)
        kyberPreKeyDict = s kyberPreKeyDict :=
    savedOver_signed_kyberDict.trans savedOver_signed_kyberDict
  constructor
  · intro h
    refine ⟨Kind.held_iff.mp ⟨?_, ?_⟩, (Kind.held_iff.mp ⟨?_, ?_⟩).of_dict hDict⟩
    · exact held_signed_savedOver_kyber.mp (held_signed_savedOver_kyber.mp
        ((Kind.found_iff hAciSigned).mp h.aciSigned))
    · exact held_signed_savedOver_kyber.mp (held_signed_savedOver_kyber.mp
        ((Kind.found_iff hPniSigned).mp h.pniSigned))
    · exact (Kind.found_iff hAciKyber).mp h.aciKyber
    · exact (Kind.found_iff hPniKyber).mp h.pniKyber
  · rintro ⟨hSignedKept, hKyberKept⟩
    obtain ⟨hAci, hPni⟩ := Kind.held_iff.mpr hSignedKept
    obtain ⟨hAci', hPni'⟩ := Kind.held_iff.mpr (hKyberKept.of_dict hDict.symm)
    exact {
      aciSigned := (Kind.found_iff hAciSigned).mpr
        (held_signed_savedOver_kyber.mpr (held_signed_savedOver_kyber.mpr hAci))
      pniSigned := (Kind.found_iff hPniSigned).mpr
        (held_signed_savedOver_kyber.mpr (held_signed_savedOver_kyber.mpr hPni))
      aciKyber := (Kind.found_iff hAciKyber).mpr hAci'
      pniKyber := (Kind.found_iff hPniKyber).mpr hPni' }

-- ---------------------------------------------------------------------------
-- An instance
-- ---------------------------------------------------------------------------

/-- A prekey record that keeps its parts. -/
structure PlainPreKey where
  id : UInt32
  publicKey : Bytes
  signature : Bytes
  deriving DecidableEq

/-- Bytes up to a zero, each of them behind a one. -/
def delimited : Bytes → Bytes
  | [] => [0]
  | b :: bs => 1 :: b :: delimited bs

def undelimited : Bytes → Option (Bytes × Bytes)
  | 0 :: rest => some ([], rest)
  | 1 :: b :: rest => (undelimited rest).map fun (bs, rest) => (b :: bs, rest)
  | _ => none

theorem undelimited_delimited (bs rest : Bytes) :
    undelimited (delimited bs ++ rest) = some (bs, rest) := by
  induction bs with
  | nil => rfl
  | cons b bs ih => simp only [delimited, List.cons_append, undelimited, ih, Option.map_some]

def PlainPreKey.codec : Codec where
  Record := PlainPreKey
  serialize record :=
    .ok (delimited (utf8 (decimal record.id.toNat)) ++ (delimited record.publicKey ++
      delimited record.signature))
  deserialize bs :=
    match (do
      let (id, bs) ← undelimited bs
      let id ← (fromUtf8 id).bind parseU32
      let (publicKey, bs) ← undelimited bs
      let (signature, _) ← undelimited bs
      return PlainPreKey.mk (UInt32.ofNat id) publicKey signature) with
    | some record => .ok record
    | none => .error (.other "malformed record")

theorem PlainPreKey.codec_lawful : PlainPreKey.codec.Lawful := by
  rintro ⟨id, publicKey, signature⟩ bs h
  obtain rfl := Except.ok.inj h
  have hSignature := undelimited_delimited signature []
  rw [List.append_nil] at hSignature
  simp [PlainPreKey.codec, undelimited_delimited, hSignature, parseU32_decimal id.toNat_lt]

/-- The plain instance with such records. -/
def plainSignal : Libsignal :=
  { Libsignal.plain with
    signedPreKey := PlainPreKey.codec
    kyberPreKey := PlainPreKey.codec
    signedPreKeyId := fun record : PlainPreKey => .ok record.id
    kyberPreKeyId := fun record : PlainPreKey => .ok record.id }

instance : DecidableEq plainSignal.signedPreKey.Record := inferInstanceAs (DecidableEq PlainPreKey)

def plainCurve : Curve plainSignal where
  publicKey (key : Bytes) := key
  calculateAgreement (a b : Bytes) := .ok (List.zipWith (· ^^^ ·) a b)

/-- A key pair is its seed, and a signature is the key in front of the message. -/
def plainKeyGen : KeyGen plainSignal plainCurve where
  KeySeed := Bytes
  Nonce := Unit
  KemSeed := Bytes
  generate (seed : Bytes) := seed
  derivePublic (key : Bytes) := .ok key
  calculateSignature (key message : Bytes) _ := .ok (key ++ message)
  verifySignature (key message signature : Bytes) := signature == key ++ message
  signedPreKeyRecord id _ (key signature : Bytes) := ⟨id, key, signature⟩
  signedPreKeyPublic (record : PlainPreKey) := .ok record.publicKey
  signedPreKeySignature (record : PlainPreKey) := .ok record.signature
  kyberPreKeyRecord id (key seed : Bytes) := .ok ⟨id, seed, key ++ seed⟩
  kyberPreKeyPublic (record : PlainPreKey) := .ok record.publicKey
  kyberPreKeySignature (record : PlainPreKey) := .ok record.signature

theorem plainKeyGen_lawful : plainKeyGen.Lawful where
  derivePublic _ _ h := (Except.ok.inj h).symm
  signedId _ _ _ _ := rfl
  signedPublic _ _ _ _ := rfl
  signedSignature _ _ _ _ := rfl
  kyberId _ _ _ _ h := congrArg (Except.ok ∘ PlainPreKey.id) (Except.ok.inj h).symm

/-- Draws in which the id of the PNI's signed prekey is given. -/
def plainDraws (pniDraw : UInt32) : Draws plainKeyGen where
  aciSigned := ⟨0, [11], ()⟩
  pniSigned := ⟨pniDraw, [12], ()⟩
  aciKyber := ⟨0, [13]⟩
  pniKyber := ⟨1, [14]⟩

/-- What is generated from them for the identities `[1]` and `[2]`. -/
def plainPrekeys (pniDraw : UInt32) : Prekeys plainSignal :=
  let id := randomPrekeyId pniDraw
  { aciSigned := ⟨1, Base64.encode Base64.standard [11], Base64.encode Base64.standard [1, 11]⟩
    pniSigned := ⟨id, Base64.encode Base64.standard [12], Base64.encode Base64.standard [2, 12]⟩
    aciKyberLastResort :=
      ⟨1, Base64.encode Base64.standard [13], Base64.encode Base64.standard [1, 13]⟩
    pniKyberLastResort :=
      ⟨2, Base64.encode Base64.standard [14], Base64.encode Base64.standard [2, 14]⟩
    aciSignedRecord := PlainPreKey.mk 1 [11] [1, 11]
    pniSignedRecord := PlainPreKey.mk id [12] [2, 12]
    aciKyberRecord := PlainPreKey.mk 1 [13] [1, 13]
    pniKyberRecord := PlainPreKey.mk 2 [14] [2, 14] }

theorem generatePrekeys_plain (pniDraw : UInt32) :
    generatePrekeys ([1] : Bytes) ([2] : Bytes) (plainDraws pniDraw) = .ok (plainPrekeys pniDraw) :=
  rfl

/-- Both signed prekeys draw the same id: the public key of the ACI's is on the
server, and its private key is gone. -/
theorem uploaded_prekey_lost :
    ¬∀ (L : Libsignal) (C : Curve L) (K : KeyGen L C), K.Lawful →
      ∀ (aci pni : L.PrivateKey) (draws : Draws K) (g : Prekeys L),
      generatePrekeys aci pni draws = .ok g → ∀ (env : Env Req Outcome) (s : Disk),
      ((saveToPddb g).run serve env s).1 = .ok () →
      ∀ (verificationCode : String) (Attributes : Type) (accountAttributes : Attributes),
      UploadedFound K (.fromParts verificationCode accountAttributes g) aci pni
        ((saveToPddb g).run serve env s).2 := by
  intro h
  have hFound := (h plainSignal plainCurve plainKeyGen plainKeyGen_lawful ([1] : Bytes)
    ([2] : Bytes) (plainDraws 0) (plainPrekeys 0) (generatePrekeys_plain 0) (fun _ _ => .served)
    (fun _ _ => none) (by decide +kernel) "code" Unit ()).aciSigned
  obtain ⟨record, pub, sig, hRecord, hPub, -, hEntity, -⟩ := hFound
  have hLookup : ((signedPreKeyStore.getSignedPreKey (L := plainSignal) 1).runAll serve .served
      ((saveToPddb (plainPrekeys 0)).run serve (fun _ _ => .served) fun _ _ => none).2).1 =
        .ok (PlainPreKey.mk 1 [12] [2, 12]) := by
    decide +kernel
  obtain rfl := Except.ok.inj (hLookup.symm.trans hRecord)
  obtain rfl := Except.ok.inj hPub
  revert hEntity
  decide +kernel

/-- The theorem for ids that differ. -/
theorem uploaded_prekeys_found_plain :
    UploadedFound plainKeyGen (.fromParts "code" () (plainPrekeys 1)) ([1] : Bytes) ([2] : Bytes)
      ((saveToPddb (plainPrekeys 1)).run serve (fun _ _ => .served) fun _ _ => none).2 := by
  have hMatches {kind : Kind} {record : kind.codec.Record} {entity : PreKeyJson} {pub sig : Bytes}
      (hPub : kind.publicKey record = .ok pub) (hSig : kind.signature record = .ok sig)
      (hEntity : entity = ⟨entity.keyId, Base64.encode Base64.standard pub,
        Base64.encode Base64.standard sig⟩) : kind.Matches record entity :=
    ⟨pub, sig, hPub, hSig, by rw [hEntity], by rw [hEntity]⟩
  refine (uploaded_prekeys_found_iff plainKeyGen_lawful (generatePrekeys_plain 1)
    (by decide +kernel) "code" ()).mpr
      ⟨⟨(by decide), fun _ => ?_, ?_⟩, ⟨(by decide), fun _ => ?_, ?_⟩⟩
  all_goals
    exact Kind.readAs_content PlainPreKey.codec_lawful (hMatches rfl rfl rfl) rfl
      (by decide +kernel)

end Sigchat.Results.PrekeyLookup

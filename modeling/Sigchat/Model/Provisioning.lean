import Sigchat.Lib.Wire
import Sigchat.Model.Account

/-!
# Provisioning messages

`libsignal.rs`: the decoder of the message the primary device sends over the
provisioning WebSocket. The frame is a `WebSocketMessage`, its request body a
`ProvisionEnvelope`, and the envelope's body

    version (1) | IV (16) | ciphertext (≥ 16) | HMAC-SHA256 (32)

cut by hand. The message inside the ciphertext is a third protobuf.

An index or slice bound outside the bytes panics; it is told apart from the
errors the decoder returns (`Failure`). The primitives are parameters
(`Signal.Curve`, `Primitives`).
-/

namespace Sigchat.Provisioning

open Sigchat.Lib
open Sigchat.Lib.Wire
open Sigchat.Pddb
open Sigchat.Signal
open Sigchat.Accounts

-- ---------------------------------------------------------------------------
-- Messages
-- ---------------------------------------------------------------------------

structure WebSocketRequestMessageProto where
  verb : Option String
  path : Option String
  body : Option Bytes
  id : Option UInt64
  deriving DecidableEq

def WebSocketRequestMessageProto.default : WebSocketRequestMessageProto := ⟨none, none, none, none⟩

def WebSocketRequestMessageProto.merge (_limit : Nat) (m : WebSocketRequestMessageProto)
    (f : Field) : Option WebSocketRequestMessageProto :=
  match f.tag with
  | 1 => f.value.toText.map fun x => { m with verb := some x }
  | 2 => f.value.toText.map fun x => { m with path := some x }
  | 3 => f.value.toBytes.map fun x => { m with body := some x }
  | 4 => f.value.toUInt64.map fun x => { m with id := some x }
  | _ => some m

def WebSocketRequestMessageProto.fields (m : WebSocketRequestMessageProto) : List Field :=
  textField 1 m.verb ++ textField 2 m.path ++ bytesField 3 m.body ++ uint64Field 4 m.id

/-- **Round trip** of a request inside a message. -/
theorem WebSocketRequestMessageProto.decode_fields (limit : Nat) (m : WebSocketRequestMessageProto)
    (hLen : (encodeFields m.fields).length < 2 ^ 64) :
    decodeMessage (WebSocketRequestMessageProto.merge limit) limit .default
      (encodeFields m.fields) = some m := by
  have hEmitted : ∀ f ∈ m.fields, f.Emitted := by
    simp only [fields, List.forall_mem_append]
    exact ⟨⟨⟨emitted_bytesField (by decide) _, emitted_bytesField (by decide) _⟩,
      emitted_bytesField (by decide) _⟩, emitted_uint64Field (by decide) _⟩
  refine decodeMessage_encodeFields (encodable_of_emitted hEmitted hLen) ?_
  obtain ⟨verb, path, body, id⟩ := m
  simp only [fields, List.foldlM_append]
  cases verb <;> cases path <;> cases body <;> cases id <;>
    simp [textField, bytesField, uint64Field, merge, Value.toText, Value.toBytes, Value.toUInt64,
      default]

structure WebSocketMessageProto where
  type : Option Int
  request : Option WebSocketRequestMessageProto
  deriving DecidableEq

def WebSocketMessageProto.merge (limit : Nat) (m : WebSocketMessageProto) (f : Field) :
    Option WebSocketMessageProto :=
  match f.tag with
  | 1 => f.value.toInt32.map fun x => { m with type := some x }
  | 2 =>
    (f.value.toMessage WebSocketRequestMessageProto.merge limit (m.request.getD .default)).map
      fun x => { m with request := some x }
  | _ => some m

def WebSocketMessageProto.decode (bs : Bytes) : Option WebSocketMessageProto :=
  decodeMessage (WebSocketMessageProto.merge recursionLimit) recursionLimit ⟨none, none⟩ bs

def WebSocketMessageProto.fields (m : WebSocketMessageProto) : List Field :=
  int32Field 1 m.type ++ messageField 2 (m.request.map WebSocketRequestMessageProto.fields)

def WebSocketMessageProto.encode (m : WebSocketMessageProto) : Bytes := encodeFields m.fields

/-- **Round trip** of a websocket message. -/
theorem WebSocketMessageProto.decode_encode {m : WebSocketMessageProto}
    (hType : ∀ v, m.type = some v → IsInt32 v) (hLen : m.encode.length < 2 ^ 64) :
    WebSocketMessageProto.decode m.encode = some m := by
  have hEmitted : ∀ f ∈ m.fields, f.Emitted := by
    simp only [fields, List.forall_mem_append]
    exact ⟨emitted_int32Field (by decide) _, emitted_bytesField (by decide) _⟩
  refine decodeMessage_encodeFields (encodable_of_emitted hEmitted hLen) ?_
  obtain ⟨type, request⟩ := m
  have hRequest : ∀ r, request = some r → decodeMessage (WebSocketRequestMessageProto.merge 99) 99
      .default (encodeFields r.fields) = some r := by
    rintro r rfl
    exact WebSocketRequestMessageProto.decode_fields 99 r
      (Nat.lt_of_le_of_lt (length_messageField_le 2 (List.subset_append_right _ _)) hLen)
  rw [fields, List.foldlM_append, Option.bind_eq_bind,
    foldlM_int32Field (fun m x => { m with type := x }) (fun _ _ => rfl) rfl hType,
    Option.bind_some,
    foldlM_messageField (fun m x => { m with request := x }) (fun _ => rfl) rfl hRequest,
    Option.map_id']

structure ProvisioningAddressProto where
  address : Option String
  deriving DecidableEq

def ProvisioningAddressProto.merge (m : ProvisioningAddressProto) (f : Field) :
    Option ProvisioningAddressProto :=
  match f.tag with
  | 1 => f.value.toText.map fun x => { m with address := some x }
  | _ => some m

def ProvisioningAddressProto.decode (bs : Bytes) : Option ProvisioningAddressProto :=
  decodeMessage ProvisioningAddressProto.merge recursionLimit ⟨none⟩ bs

def ProvisioningAddressProto.fields (m : ProvisioningAddressProto) : List Field :=
  textField 1 m.address

def ProvisioningAddressProto.encode (m : ProvisioningAddressProto) : Bytes := encodeFields m.fields

/-- **Round trip** of the address of the server. -/
theorem ProvisioningAddressProto.decode_encode {m : ProvisioningAddressProto}
    (hLen : m.encode.length < 2 ^ 64) : ProvisioningAddressProto.decode m.encode = some m := by
  have hEmitted : ∀ f ∈ m.fields, f.Emitted := emitted_bytesField (by decide) _
  refine decodeMessage_encodeFields (encodable_of_emitted hEmitted hLen) ?_
  obtain ⟨address⟩ := m
  cases address <;> simp [fields, textField, bytesField, merge, Value.toText, Value.toBytes]

structure ProvisionEnvelopeProto where
  publicKey : Option Bytes
  body : Option Bytes
  deriving DecidableEq

def ProvisionEnvelopeProto.merge (m : ProvisionEnvelopeProto) (f : Field) :
    Option ProvisionEnvelopeProto :=
  match f.tag with
  | 1 => f.value.toBytes.map fun x => { m with publicKey := some x }
  | 2 => f.value.toBytes.map fun x => { m with body := some x }
  | _ => some m

def ProvisionEnvelopeProto.decode (bs : Bytes) : Option ProvisionEnvelopeProto :=
  decodeMessage ProvisionEnvelopeProto.merge recursionLimit ⟨none, none⟩ bs

def ProvisionEnvelopeProto.fields (m : ProvisionEnvelopeProto) : List Field :=
  bytesField 1 m.publicKey ++ bytesField 2 m.body

def ProvisionEnvelopeProto.encode (m : ProvisionEnvelopeProto) : Bytes := encodeFields m.fields

/-- **Round trip** of the envelope. -/
theorem ProvisionEnvelopeProto.decode_encode {m : ProvisionEnvelopeProto}
    (hLen : m.encode.length < 2 ^ 64) : ProvisionEnvelopeProto.decode m.encode = some m := by
  have hEmitted : ∀ f ∈ m.fields, f.Emitted := by
    simp only [fields, List.forall_mem_append]
    exact ⟨emitted_bytesField (by decide) _, emitted_bytesField (by decide) _⟩
  refine decodeMessage_encodeFields (encodable_of_emitted hEmitted hLen) ?_
  obtain ⟨publicKey, body⟩ := m
  cases publicKey <;> cases body <;> rfl

structure ProvisionMessageProto where
  aciIdentityKeyPublic : Option Bytes
  aciIdentityKeyPrivate : Option Bytes
  number : Option String
  provisioningCode : Option String
  profileKey : Option Bytes
  readReceipts : Option Bool
  aci : Option String
  pni : Option String
  pniIdentityKeyPublic : Option Bytes
  pniIdentityKeyPrivate : Option Bytes
  accountEntropyPool : Option String
  deriving DecidableEq

def ProvisionMessageProto.default : ProvisionMessageProto :=
  ⟨none, none, none, none, none, none, none, none, none, none, none⟩

def ProvisionMessageProto.merge (m : ProvisionMessageProto) (f : Field) :
    Option ProvisionMessageProto :=
  match f.tag with
  | 1 => f.value.toBytes.map fun x => { m with aciIdentityKeyPublic := some x }
  | 2 => f.value.toBytes.map fun x => { m with aciIdentityKeyPrivate := some x }
  | 3 => f.value.toText.map fun x => { m with number := some x }
  | 4 => f.value.toText.map fun x => { m with provisioningCode := some x }
  | 6 => f.value.toBytes.map fun x => { m with profileKey := some x }
  | 7 => f.value.toBool.map fun x => { m with readReceipts := some x }
  | 8 => f.value.toText.map fun x => { m with aci := some x }
  | 10 => f.value.toText.map fun x => { m with pni := some x }
  | 11 => f.value.toBytes.map fun x => { m with pniIdentityKeyPublic := some x }
  | 12 => f.value.toBytes.map fun x => { m with pniIdentityKeyPrivate := some x }
  | 15 => f.value.toText.map fun x => { m with accountEntropyPool := some x }
  | _ => some m

def ProvisionMessageProto.decode (bs : Bytes) : Option ProvisionMessageProto :=
  decodeMessage ProvisionMessageProto.merge recursionLimit .default bs

def ProvisionMessageProto.fields (m : ProvisionMessageProto) : List Field :=
  bytesField 1 m.aciIdentityKeyPublic ++ bytesField 2 m.aciIdentityKeyPrivate ++
    textField 3 m.number ++ textField 4 m.provisioningCode ++ bytesField 6 m.profileKey ++
    boolField 7 m.readReceipts ++ textField 8 m.aci ++ textField 10 m.pni ++
    bytesField 11 m.pniIdentityKeyPublic ++ bytesField 12 m.pniIdentityKeyPrivate ++
    textField 15 m.accountEntropyPool

def ProvisionMessageProto.encode (m : ProvisionMessageProto) : Bytes := encodeFields m.fields

/-- The fields of a provisioning message are of kinds the encoder writes. -/
theorem ProvisionMessageProto.emitted (m : ProvisionMessageProto) : ∀ f ∈ m.fields, f.Emitted := by
  simp only [fields, List.forall_mem_append]
  exact ⟨⟨⟨⟨⟨⟨⟨⟨⟨⟨emitted_bytesField (by decide) _, emitted_bytesField (by decide) _⟩,
    emitted_bytesField (by decide) _⟩, emitted_bytesField (by decide) _⟩,
    emitted_bytesField (by decide) _⟩, emitted_boolField (by decide) _⟩,
    emitted_bytesField (by decide) _⟩, emitted_bytesField (by decide) _⟩,
    emitted_bytesField (by decide) _⟩, emitted_bytesField (by decide) _⟩,
    emitted_bytesField (by decide) _⟩

/-- The fields fill the empty message one after the other. -/
theorem ProvisionMessageProto.foldlM_fields (m : ProvisionMessageProto) :
    m.fields.foldlM merge .default = some m := by
  obtain ⟨aciPub, aciPriv, number, code, profileKey, receipts, aci, pni, pniPub, pniPriv, aep⟩ := m
  have hReceipts : ∀ (m : ProvisionMessageProto) (b : Bool),
      merge m ⟨7, .varint b.toNat⟩ = some { m with readReceipts := some b } := by
    intro m b
    cases b <;> rfl
  -- field by field, each into a message that has the ones before it
  simp only [fields, List.foldlM_append, Option.bind_eq_bind, bytesField, boolField]
  rw [foldlM_optional (fun m x => { m with aciIdentityKeyPublic := x }) (fun _ _ => rfl) rfl,
    Option.bind_some,
    foldlM_optional (fun m x => { m with aciIdentityKeyPrivate := x }) (fun _ _ => rfl) rfl,
    Option.bind_some,
    foldlM_textField (fun m x => { m with number := x }) (fun _ _ => rfl) rfl,
    Option.bind_some,
    foldlM_textField (fun m x => { m with provisioningCode := x }) (fun _ _ => rfl) rfl,
    Option.bind_some,
    foldlM_optional (fun m x => { m with profileKey := x }) (fun _ _ => rfl) rfl,
    Option.bind_some,
    foldlM_optional (fun m x => { m with readReceipts := x }) hReceipts rfl,
    Option.bind_some,
    foldlM_textField (fun m x => { m with aci := x }) (fun _ _ => rfl) rfl,
    Option.bind_some,
    foldlM_textField (fun m x => { m with pni := x }) (fun _ _ => rfl) rfl,
    Option.bind_some,
    foldlM_optional (fun m x => { m with pniIdentityKeyPublic := x }) (fun _ _ => rfl) rfl,
    Option.bind_some,
    foldlM_optional (fun m x => { m with pniIdentityKeyPrivate := x }) (fun _ _ => rfl) rfl,
    Option.bind_some,
    foldlM_textField (fun m x => { m with accountEntropyPool := x }) (fun _ _ => rfl) rfl]

theorem ProvisionMessageProto.decode_encode {m : ProvisionMessageProto}
    (hLen : m.encode.length < 2 ^ 64) : ProvisionMessageProto.decode m.encode = some m :=
  decodeMessage_encodeFields (encodable_of_emitted m.emitted hLen) m.foldlM_fields

-- ---------------------------------------------------------------------------
-- Failures and slices
-- ---------------------------------------------------------------------------

/-- How decoding ends early. -/
inductive Failure where
  | error (e : IoError)
  /-- Bytes `lo` to `hi` of `len` were asked for. -/
  | panic (lo hi len : Nat)
  deriving DecidableEq

/-- `Error::new(ErrorKind::InvalidData, msg)`. -/
def invalidData {α : Type} (msg : String) : Except Failure α := .error (.error ⟨.invalidData, msg⟩)

/-- `ok_or_else` and `map_err` with this error. -/
def orInvalid {α : Type} (msg : String) : Option α → Except Failure α
  | some x => .ok x
  | none => invalidData msg

/-- `&bs[lo..hi]`. -/
def slice (bs : Bytes) (lo hi : Nat) : Except Failure Bytes :=
  if lo ≤ hi ∧ hi ≤ bs.length then .ok ((bs.take hi).drop lo) else .error (.panic lo hi bs.length)

/-- `bs.len() - n`, which must not underflow. -/
def lenSub (bs : Bytes) (n : Nat) : Except Failure Nat :=
  if n ≤ bs.length then .ok (bs.length - n) else .error (.panic n bs.length bs.length)

-- ---------------------------------------------------------------------------
-- Decryption
-- ---------------------------------------------------------------------------

/-- The symmetric primitives. HKDF fills a buffer of the given length, and a
SHA-256 code has 32 bytes. -/
structure Primitives where
  /-- HKDF-SHA256 without salt. Arguments: key material, info, length. -/
  hkdf : Bytes → Bytes → Nat → Bytes
  length_hkdf : ∀ secret info n, (hkdf secret info n).length = n
  /-- HMAC-SHA256. Arguments: key (of any length), message. -/
  hmac : Bytes → Bytes → Bytes
  length_hmac : ∀ key msg, (hmac key msg).length = 32
  /-- AES-256-CBC with PKCS7 padding. Arguments: key, IV, ciphertext. -/
  aesCbcDecrypt : Bytes → Bytes → Bytes → Option Bytes

variable {L : Libsignal} (C : Curve L) (P : Primitives)

def hkdfInfo : Bytes := utf8 "TextSecure Provisioning Message"

/-- Public key and body of the envelope. -/
def openEnvelope (bytes : Bytes) : Except Failure (Bytes × Bytes) := do
  let envelope ←
    orInvalid "failed to decode ProvisionEnvelope" (ProvisionEnvelopeProto.decode bytes)
  let ephemeralPub ← orInvalid "missing publicKey in ProvisionEnvelope" envelope.publicKey
  let body ← orInvalid "missing body in ProvisionEnvelope" envelope.body
  return (ephemeralPub, body)

/-- The checks on the body's length and version. -/
def checkBody (body : Bytes) : Except Failure Unit := do
  if body.length < 65 then invalidData "ProvisionEnvelope body too short"
  else
    let version ← slice body 0 1
    if version = [0x01] then .ok () else invalidData "unexpected ProvisionEnvelope version"

/-- The AES key and the MAC key. -/
def deriveKeys (tempIdentity : ProvisionedIdentity) (ephemeralPub : Bytes) :
    Except Failure (Bytes × Bytes) := do
  let privBytes ←
    orInvalid "failed to decode temp private key"
      (Base64.decode Base64.urlSafe tempIdentity.djbPrivateKey)
  let ourPrivateKey ←
    orInvalid "invalid temp private key" (L.privateKeyDeserialize privBytes).toOption
  let theirPubKey ←
    orInvalid "invalid ephemeral public key" (L.publicKeyDeserialize ephemeralPub).toOption
  let sharedSecret ←
    orInvalid "ECDH failed" (C.calculateAgreement ourPrivateKey theirPubKey).toOption
  let derived := P.hkdf sharedSecret hkdfInfo 64
  return (derived.take 32, derived.drop 32)

/-- The code covers version, IV and ciphertext. -/
def verifyMac (macKey body : Bytes) : Except Failure Unit := do
  let macInput ← slice body 0 (← lenSub body 32)
  let macExpected ← slice body (← lenSub body 32) body.length
  if P.hmac macKey macInput = macExpected then .ok () else invalidData "MAC verification failed"

def decryptBody (aesKey body : Bytes) : Except Failure Bytes := do
  let iv ← slice body 1 17
  let ciphertext ← slice body 17 (← lenSub body 32)
  if aesKey.length ≠ 32 ∨ iv.length ≠ 16 then invalidData "AES key/IV length error"
  else orInvalid "AES-CBC-PKCS7 decryption failed" (P.aesCbcDecrypt aesKey iv ciphertext)

/-- Only the ACI keys must be there. -/
def readMessage (plaintext : Bytes) : Except Failure ProvisionMessage := do
  let msg ← orInvalid "failed to decode ProvisionMessage" (ProvisionMessageProto.decode plaintext)
  let aciPub ← orInvalid "missing aciIdentityKeyPublic" msg.aciIdentityKeyPublic
  let aciPriv ← orInvalid "missing aciIdentityKeyPrivate" msg.aciIdentityKeyPrivate
  let pniPub := msg.pniIdentityKeyPublic.getD []
  let pniPriv := msg.pniIdentityKeyPrivate.getD []
  return {
    number := msg.number.getD ""
    aci := {
      serviceId := msg.aci.getD ""
      djbIdentityKey := Base64.encode Base64.urlSafe aciPub
      djbPrivateKey := Base64.encode Base64.urlSafe aciPriv }
    pni := {
      serviceId := msg.pni.getD ""
      djbIdentityKey := Base64.encode Base64.urlSafe pniPub
      djbPrivateKey := Base64.encode Base64.urlSafe pniPriv }
    profileKey := msg.profileKey.map (Base64.encode Base64.urlSafe)
    provisioningCode := msg.provisioningCode
    accountEntropyPool := msg.accountEntropyPool }

/-- `PrimaryProvisioningCipher::decrypt`. -/
def decrypt (tempIdentity : ProvisionedIdentity) (bytes : Bytes) :
    Except Failure ProvisionMessage := do
  let (ephemeralPub, body) ← openEnvelope bytes
  checkBody body
  let (aesKey, macKey) ← deriveKeys C P tempIdentity ephemeralPub
  verifyMac P macKey body
  let plaintext ← decryptBody P aesKey body
  readMessage plaintext

/-- `ProvisionMessage::decode`. -/
def decode (tempIdentity : ProvisionedIdentity) (bytes : Bytes) :
    Except Failure ProvisionMessage := do
  let ws ← orInvalid "failed to decode WebSocketMessage" (WebSocketMessageProto.decode bytes)
  let body ← orInvalid "missing request.body" (ws.request.bind fun r => r.body)
  decrypt C P tempIdentity body

/-- `ProvisioningUuid::decode`: the address that goes into the link URI. -/
def decodeUuid (bytes : Bytes) : Except Failure String := do
  let ws ← orInvalid "failed to decode WebSocketMessage" (WebSocketMessageProto.decode bytes)
  let body ← orInvalid "missing request.body" (ws.request.bind fun r => r.body)
  let proto ←
    orInvalid "failed to decode ProvisioningAddress" (ProvisioningAddressProto.decode body)
  orInvalid "missing address in ProvisioningAddress" proto.address

end Sigchat.Provisioning

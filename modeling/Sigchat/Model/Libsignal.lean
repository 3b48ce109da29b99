import Sigchat.Lib.Request
import Sigchat.Lib.Text

/-!
# The interface of libsignal

libsignal is not part of the repository. What the program uses of it is a
parameter of the model: the record types with their serialisations
(`Libsignal`) and the protocol functions (`Protocol`), which are programs over
the operations of the store traits (`StoreOp`) and otherwise arbitrary.

`Libsignal.Lawful` is what the stores rely on: deserialising undoes
serialising.
-/

namespace Sigchat.Signal

open Sigchat.Lib

-- ---------------------------------------------------------------------------
-- Addresses and errors
-- ---------------------------------------------------------------------------

/-- A device id; `DeviceId::new` accepts 1 to 127 only. -/
structure DeviceId where
  val : Nat
  pos : 0 < val
  le : val ≤ 127
  deriving DecidableEq

def DeviceId.new (id : Nat) : Option DeviceId :=
  if h : 0 < id ∧ id ≤ 127 then some ⟨id, h.1, h.2⟩ else none

/-- The first device. -/
def DeviceId.first : DeviceId := ⟨1, by decide, by decide⟩

structure ProtocolAddress where
  name : String
  deviceId : DeviceId
  deriving DecidableEq

/-- `SignalProtocolError`. The program constructs the first four variants; all
others come from libsignal and are told apart by their text. -/
inductive SignalProtocolError where
  | invalidState (func msg : String)
  | invalidPreKeyId
  | invalidSignedPreKeyId
  | invalidKyberPreKeyId
  | other (text : String)
  deriving DecidableEq

inductive Direction where
  | sending
  | receiving

inductive IdentityChange where
  | newOrUnchanged
  | replacedExisting
  deriving DecidableEq

-- ---------------------------------------------------------------------------
-- Record types
-- ---------------------------------------------------------------------------

/-- A record type with its serialisation. -/
structure Codec where
  Record : Type
  serialize : Record → Except SignalProtocolError Bytes
  deserialize : Bytes → Except SignalProtocolError Record

/-- Deserialising undoes serialising. -/
def Codec.Lawful (c : Codec) : Prop :=
  ∀ r bs, c.serialize r = .ok bs → c.deserialize bs = .ok r

structure Libsignal where
  IdentityKey : Type
  identityKeyEq : DecidableEq IdentityKey
  identityKeySerialize : IdentityKey → Bytes
  identityKeyDecode : Bytes → Except SignalProtocolError IdentityKey
  PublicKey : Type
  publicKeySerialize : PublicKey → Bytes
  publicKeyDeserialize : Bytes → Except SignalProtocolError PublicKey
  PrivateKey : Type
  privateKeyDeserialize : Bytes → Except SignalProtocolError PrivateKey
  preKey : Codec
  signedPreKey : Codec
  kyberPreKey : Codec
  signedPreKeyId : signedPreKey.Record → Except SignalProtocolError UInt32
  kyberPreKeyId : kyberPreKey.Record → Except SignalProtocolError UInt32
  session : Codec
  remoteRegistrationId : session.Record → Except SignalProtocolError Nat
  /-- The `Display` and `Debug` texts of an error. -/
  display : SignalProtocolError → String
  debug : SignalProtocolError → String
  /-- The `Display` text of the base64 crate's error for a rejected input. -/
  base64Error : String → String

instance (L : Libsignal) : DecidableEq L.IdentityKey := L.identityKeyEq

structure Libsignal.Lawful (L : Libsignal) : Prop where
  identityKey : ∀ k, L.identityKeyDecode (L.identityKeySerialize k) = .ok k
  publicKey : ∀ k, L.publicKeyDeserialize (L.publicKeySerialize k) = .ok k
  preKey : L.preKey.Lawful
  signedPreKey : L.signedPreKey.Lawful
  kyberPreKey : L.kyberPreKey.Lawful
  session : L.session.Lawful

/-- Public keys that are serialised alike are equal. -/
theorem Libsignal.Lawful.publicKeySerialize_injective {L : Libsignal} (hL : L.Lawful) :
    Function.Injective L.publicKeySerialize := fun b b' h => by
  have hKey := hL.publicKey b
  rw [h, hL.publicKey b'] at hKey
  exact (Except.ok.inj hKey).symm

/-- Curve25519 keys: the public half of a private key, and key agreement. -/
structure Curve (L : Libsignal) where
  publicKey : L.PrivateKey → L.PublicKey
  calculateAgreement : L.PrivateKey → L.PublicKey → Except SignalProtocolError Bytes

/-- A codec whose records are their own bytes. -/
def Codec.plain : Codec where
  Record := Bytes
  serialize := .ok
  deserialize := .ok

/-- The instance concrete runs use: every key and record is its own bytes, and
a prekey record starts with its id. -/
def Libsignal.plain : Libsignal where
  IdentityKey := Bytes
  identityKeyEq := inferInstanceAs (DecidableEq (List UInt8))
  identityKeySerialize := id
  identityKeyDecode := .ok
  PublicKey := Bytes
  publicKeySerialize := id
  publicKeyDeserialize := .ok
  PrivateKey := Bytes
  privateKeyDeserialize := .ok
  preKey := .plain
  signedPreKey := .plain
  kyberPreKey := .plain
  signedPreKeyId (record : Bytes) := .ok (record.headD 0).toUInt32
  kyberPreKeyId (record : Bytes) := .ok (record.headD 0).toUInt32
  session := .plain
  remoteRegistrationId _ := .ok 0
  display _ := ""
  debug _ := ""
  base64Error _ := ""

/-- Both halves of a key are the same bytes, and two keys agree on their sum. -/
def Curve.plain : Curve .plain where
  publicKey (key : Bytes) := key
  calculateAgreement (a b : Bytes) := .ok (List.zipWith (· ^^^ ·) a b)

/-- The assumptions about libsignal can be met. -/
theorem Libsignal.plain_lawful : Libsignal.plain.Lawful where
  identityKey _ := rfl
  publicKey _ := rfl
  preKey _ _ h := h.symm
  signedPreKey _ _ h := h.symm
  kyberPreKey _ _ h := h.symm
  session _ _ h := h.symm

variable (L : Libsignal)

/-- `IdentityKeyPair`. -/
structure IdentityKeyPair where
  identityKey : L.IdentityKey
  privateKey : L.PrivateKey

-- ---------------------------------------------------------------------------
-- Store operations
-- ---------------------------------------------------------------------------

/-- The store operations that read the local account. -/
inductive AccountOp where
  | getIdentityKeyPair
  | getLocalRegistrationId

/-- The store operations on the records of peers and prekeys. -/
inductive RecordOp where
  | saveIdentity (address : ProtocolAddress) (identity : L.IdentityKey)
  | isTrustedIdentity (address : ProtocolAddress) (identity : L.IdentityKey)
      (direction : Direction)
  | getIdentity (address : ProtocolAddress)
  | getPreKey (id : UInt32)
  | savePreKey (id : UInt32) (record : L.preKey.Record)
  | removePreKey (id : UInt32)
  | getSignedPreKey (id : UInt32)
  | saveSignedPreKey (id : UInt32) (record : L.signedPreKey.Record)
  | getKyberPreKey (id : UInt32)
  | saveKyberPreKey (id : UInt32) (record : L.kyberPreKey.Record)
  | markKyberPreKeyUsed (kyberId ecId : UInt32) (baseKey : L.PublicKey)
  | loadSession (address : ProtocolAddress)
  | storeSession (address : ProtocolAddress) (record : L.session.Record)

inductive StoreOp where
  | account (op : AccountOp)
  | record (op : RecordOp L)

abbrev AccountOp.Ans : AccountOp → Type
  | .getIdentityKeyPair => IdentityKeyPair L
  | .getLocalRegistrationId => Nat

variable {L}

abbrev RecordOp.Ans : RecordOp L → Type
  | .saveIdentity .. => IdentityChange
  | .isTrustedIdentity .. => Bool
  | .getIdentity _ => Option L.IdentityKey
  | .getPreKey _ => L.preKey.Record
  | .savePreKey .. => Unit
  | .removePreKey _ => Unit
  | .getSignedPreKey _ => L.signedPreKey.Record
  | .saveSignedPreKey .. => Unit
  | .getKyberPreKey _ => L.kyberPreKey.Record
  | .saveKyberPreKey .. => Unit
  | .markKyberPreKeyUsed .. => Unit
  | .loadSession _ => Option L.session.Record
  | .storeSession .. => Unit

/-- `SignalResult<T>`. -/
abbrev SignalResult (α : Type) : Type := Except SignalProtocolError α

abbrev RecordOp.Resp (op : RecordOp L) : Type := SignalResult op.Ans

abbrev StoreOp.Resp : StoreOp L → Type
  | .account op => SignalResult (op.Ans L)
  | .record op => op.Resp

-- ---------------------------------------------------------------------------
-- Protocol functions
-- ---------------------------------------------------------------------------

inductive CiphertextMessageType where
  | whisper
  | preKey
  | senderKey
  | plaintext
  deriving DecidableEq

/-- `CiphertextMessage` with its serialised bytes. -/
inductive CiphertextMessage where
  | signalMessage (serialized : Bytes)
  | preKeySignalMessage (serialized : Bytes)
  | senderKeyMessage (serialized : Bytes)
  | plaintextContent (serialized : Bytes)

variable (L)

/-- A libsignal call: it may use every operation of the stores it is given. -/
abbrev Call (α : Type) : Type := Prog (StoreOp.Resp (L := L)) (SignalResult α)

/-- The protocol functions. `Rng` is what one call draws from the random
number generator. -/
structure Protocol where
  Rng : Type
  SignalMessage : Type
  parseSignalMessage : Bytes → SignalResult SignalMessage
  PreKeySignalMessage : Type
  parsePreKeySignalMessage : Bytes → SignalResult PreKeySignalMessage
  messageDecryptSignal : SignalMessage → ProtocolAddress → Rng → Call L Bytes
  /-- Arguments: message, remote address, local address. -/
  messageDecryptPrekey : PreKeySignalMessage → ProtocolAddress → ProtocolAddress → Rng →
    Call L Bytes
  Usmc : Type
  sealedSenderDecryptToUsmc : Bytes → Call L Usmc
  SenderCertificate : Type
  usmcSender : Usmc → SignalResult SenderCertificate
  usmcMsgType : Usmc → SignalResult CiphertextMessageType
  usmcContents : Usmc → SignalResult Bytes
  validateWithTrustRoots : SenderCertificate → List L.PublicKey → Nat → SignalResult Bool
  senderUuid : SenderCertificate → SignalResult String
  senderDeviceId : SenderCertificate → SignalResult DeviceId
  /-- Arguments: plaintext, remote address, local address, time. -/
  messageEncrypt : Bytes → ProtocolAddress → ProtocolAddress → Nat → Rng →
    Call L CiphertextMessage

/-- Append a mark to a session. -/
def plainRatchet (record : Option Bytes) (mark : UInt8) : Bytes := record.getD [] ++ [mark]

/-- Load the session, append a mark to it and store it. -/
def plainCall {α : Type} (remote : ProtocolAddress) (mark : UInt8) (result : α) : Call .plain α :=
  .call (.record (.loadSession remote)) fun
    | .error e => .done (.error e)
    | .ok record =>
      .call (.record (.storeSession remote (plainRatchet record mark))) fun
        | .error e => .done (.error e)
        | .ok () => .done (.ok result)

/-- The instance concrete runs use: a ciphertext is its plaintext, sending marks
the session with 1 and receiving with 2. -/
def Protocol.plain : Protocol .plain where
  Rng := Unit
  SignalMessage := Bytes
  parseSignalMessage := .ok
  PreKeySignalMessage := Bytes
  parsePreKeySignalMessage := .ok
  messageDecryptSignal msg remote _ := plainCall remote 2 msg
  messageDecryptPrekey msg remote _ _ := plainCall remote 2 msg
  Usmc := Bytes
  sealedSenderDecryptToUsmc content := .done (.ok content)
  SenderCertificate := Unit
  usmcSender _ := .ok ()
  usmcMsgType _ := .ok .whisper
  usmcContents := .ok
  validateWithTrustRoots _ _ _ := .ok true
  senderUuid _ := .ok "sealed"
  senderDeviceId _ := .ok .first
  messageEncrypt msg remote _ _ _ := plainCall remote 1 (.signalMessage msg)

end Sigchat.Signal

import Sigchat.Lib.Base64
import Sigchat.Model.Account

/-!
# Prekeys

The generation of the prekeys a new device uploads (`prekeys.rs`), and the link
request they go into (`rest.rs`). What is drawn at random is a parameter
(`Draws`), and so are key generation and signatures (`KeyGen`).

Each of the four ids is drawn on its own.
-/

namespace Sigchat.Accounts

open Sigchat.Lib
open Sigchat.Pddb
open Sigchat.Signal

-- ---------------------------------------------------------------------------
-- Key generation and signatures
-- ---------------------------------------------------------------------------

/-- What generation uses of libsignal besides the records' codecs. Keys are
passed serialised, as they are signed. -/
structure KeyGen (L : Libsignal) (C : Curve L) where
  /-- The random values of a key pair, a signature and a Kyber record. -/
  KeySeed : Type
  Nonce : Type
  KemSeed : Type
  /-- The private key of `KeyPair::generate`. -/
  generate : KeySeed → L.PrivateKey
  /-- `PrivateKey::public_key`. -/
  derivePublic : L.PrivateKey → Except SignalProtocolError L.PublicKey
  calculateSignature : L.PrivateKey → Bytes → Nonce → Except SignalProtocolError Bytes
  verifySignature : L.PublicKey → Bytes → Bytes → Bool
  /-- `SignedPreKeyRecord::new`. Arguments: id, timestamp, private key, signature. -/
  signedPreKeyRecord : UInt32 → Nat → L.PrivateKey → Bytes → L.signedPreKey.Record
  signedPreKeyPublic : L.signedPreKey.Record → Except SignalProtocolError Bytes
  signedPreKeySignature : L.signedPreKey.Record → Except SignalProtocolError Bytes
  /-- `KyberPreKeyRecord::generate`. -/
  kyberPreKeyRecord : UInt32 → L.PrivateKey → KemSeed →
    Except SignalProtocolError L.kyberPreKey.Record
  kyberPreKeyPublic : L.kyberPreKey.Record → Except SignalProtocolError Bytes
  kyberPreKeySignature : L.kyberPreKey.Record → Except SignalProtocolError Bytes

/-- A derived key is the public half, and a record has the id, key and signature
it was made of. -/
structure KeyGen.Lawful {L : Libsignal} {C : Curve L} (K : KeyGen L C) : Prop where
  derivePublic : ∀ key pub, K.derivePublic key = .ok pub → pub = C.publicKey key
  signedId : ∀ id ts key signature,
    L.signedPreKeyId (K.signedPreKeyRecord id ts key signature) = .ok id
  signedPublic : ∀ id ts key signature,
    K.signedPreKeyPublic (K.signedPreKeyRecord id ts key signature) =
      .ok (L.publicKeySerialize (C.publicKey key))
  signedSignature : ∀ id ts key signature,
    K.signedPreKeySignature (K.signedPreKeyRecord id ts key signature) = .ok signature
  kyberId : ∀ id key seed record, K.kyberPreKeyRecord id key seed = .ok record →
    L.kyberPreKeyId record = .ok id

-- ---------------------------------------------------------------------------
-- Generation
-- ---------------------------------------------------------------------------

variable {L : Libsignal} {C : Curve L} (K : KeyGen L C)

/-- The largest prekey id, 2^24 - 1. -/
def mediumMax : UInt32 := 0x00FFFFFF

def randomPrekeyId (draw : UInt32) : UInt32 := draw % mediumMax + 1

structure SignedDraws where
  keyId : UInt32
  keyPair : K.KeySeed
  nonce : K.Nonce

structure KyberDraws where
  keyId : UInt32
  record : K.KemSeed

structure Draws where
  aciSigned : SignedDraws K
  pniSigned : SignedDraws K
  aciKyber : KyberDraws K
  pniKyber : KyberDraws K

/-- `map_err` to this error. -/
def orOther {ε α : Type} (msg : String) : Except ε α → Except IoError α
  | .ok x => .ok x
  | .error _ => .error ⟨.other, msg⟩

variable {K}

/-- The signature is checked before the key is used. -/
def generateSignedPrekey (identityPrivate : L.PrivateKey) (draws : SignedDraws K) :
    Except IoError (PreKeyJson × L.signedPreKey.Record) := do
  let keyId := randomPrekeyId draws.keyId
  let keypair := K.generate draws.keyPair
  let publicSerialized := L.publicKeySerialize (C.publicKey keypair)
  let signature ← orOther "signed prekey signing failed"
    (K.calculateSignature identityPrivate publicSerialized draws.nonce)
  let identityPublic ← orOther "identity public key derivation failed"
    (K.derivePublic identityPrivate)
  if K.verifySignature identityPublic publicSerialized signature then
    return (⟨keyId, Base64.encode Base64.standard publicSerialized,
      Base64.encode Base64.standard signature⟩, K.signedPreKeyRecord keyId 0 keypair signature)
  else .error ⟨.invalidData, "signed prekey self-verification failed"⟩

def generateKyberLastResort (identityPrivate : L.PrivateKey) (draws : KyberDraws K) :
    Except IoError (PreKeyJson × L.kyberPreKey.Record) := do
  let keyId := randomPrekeyId draws.keyId
  let record ← orOther "kyber last-resort generation failed"
    (K.kyberPreKeyRecord keyId identityPrivate draws.record)
  let publicSerialized ← orOther "kyber public_key() failed" (K.kyberPreKeyPublic record)
  let signature ← orOther "kyber signature() failed" (K.kyberPreKeySignature record)
  let identityPublic ← orOther "identity public key derivation failed"
    (K.derivePublic identityPrivate)
  if K.verifySignature identityPublic publicSerialized signature then
    return (⟨keyId, Base64.encode Base64.standard publicSerialized,
      Base64.encode Base64.standard signature⟩, record)
  else .error ⟨.invalidData, "kyber prekey self-verification failed"⟩

def generatePrekeys (aciIdentityPrivate pniIdentityPrivate : L.PrivateKey) (draws : Draws K) :
    Except IoError (Prekeys L) := do
  let (aciSigned, aciSignedRecord) ← generateSignedPrekey aciIdentityPrivate draws.aciSigned
  let (pniSigned, pniSignedRecord) ← generateSignedPrekey pniIdentityPrivate draws.pniSigned
  let (aciKyberLastResort, aciKyberRecord) ←
    generateKyberLastResort aciIdentityPrivate draws.aciKyber
  let (pniKyberLastResort, pniKyberRecord) ←
    generateKyberLastResort pniIdentityPrivate draws.pniKyber
  return {
    aciSigned, pniSigned, aciKyberLastResort, pniKyberLastResort
    aciSignedRecord, pniSignedRecord, aciKyberRecord, pniKyberRecord }

/-- `LinkDeviceRequestBody::from_parts`. -/
def LinkDeviceRequestBody.fromParts {Attributes : Type} (verificationCode : String)
    (accountAttributes : Attributes) (prekeys : Prekeys L) : LinkDeviceRequestBody Attributes where
  verificationCode
  accountAttributes
  aciSignedPreKey := prekeys.aciSigned
  pniSignedPreKey := prekeys.pniSigned
  aciPqLastResortPreKey := prekeys.aciKyberLastResort
  pniPqLastResortPreKey := prekeys.pniKyberLastResort

end Sigchat.Accounts

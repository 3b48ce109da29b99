import Sigchat.Lib.Ctr
import Sigchat.Model.Prekeys
import Sigchat.Model.Provisioning

/-!
# Device names

`libsignal.rs`: the name of a new device is encrypted for the primary device
under the account's own identity key, and travels as a protobuf in base64.
AES-256 in counter mode is written out over the block cipher; the block cipher
is a parameter, as are the primitives of `Provisioning` and `Accounts`.
-/

namespace Sigchat.DeviceName

open Sigchat.Lib
open Sigchat.Lib.Wire
open Sigchat.Pddb
open Sigchat.Signal
open Sigchat.Accounts
open Sigchat.Provisioning (Primitives)

-- ---------------------------------------------------------------------------
-- Counter mode
-- ---------------------------------------------------------------------------

abbrev Block := Vector UInt8 16

/-- Bytes `i - 1` down to 0 of the counter are incremented until one is not
zero. -/
def incrementLoop : (i : Nat) → i ≤ 16 → Block → Block
  | 0, _, counter => counter
  | i + 1, hi, counter =>
    let counter := counter.set i (counter[i] + 1)
    if counter[i] ≠ 0 then counter else incrementLoop i (Nat.le_of_succ_le hi) counter

/-- The loop over the chunks of 16 bytes: `out` is what it has pushed. -/
def ctrLoop (encryptBlock : Block → Block) (counter : Block) (plaintext out : Bytes) : Bytes :=
  if plaintext = [] then out
  else
    let chunk := plaintext.take 16
    let block := encryptBlock counter
    ctrLoop encryptBlock (incrementLoop 16 (Nat.le_refl 16) counter) (plaintext.drop 16)
      (out ++ List.zipWith (· ^^^ ·) chunk block.toList)
termination_by plaintext.length
decreasing_by
  rename_i hNil
  have hPos := List.length_pos_iff.mpr hNil
  rw [List.length_drop]
  omega

/-- `aes256_ctr_encrypt`. Arguments of the cipher: key, block. -/
def aes256CtrEncrypt (aes256 : Bytes → Block → Block) (key plaintext : Bytes) :
    Except IoError Bytes :=
  if key.length ≠ 32 then .error ⟨.invalidData, "AES-256 key must be 32 bytes"⟩
  else .ok (ctrLoop (aes256 key) (Vector.replicate 16 0) plaintext [])

-- ---------------------------------------------------------------------------
-- The container
-- ---------------------------------------------------------------------------

structure DeviceNameProto where
  ephemeralPublic : Option Bytes
  syntheticIv : Option Bytes
  ciphertext : Option Bytes
  deriving DecidableEq

def DeviceNameProto.fields (m : DeviceNameProto) : List Field :=
  bytesField 1 m.ephemeralPublic ++ bytesField 2 m.syntheticIv ++ bytesField 3 m.ciphertext

def DeviceNameProto.encode (m : DeviceNameProto) : Bytes := encodeFields m.fields

-- ---------------------------------------------------------------------------
-- Encryption
-- ---------------------------------------------------------------------------

variable {L : Libsignal} {C : Curve L} (K : KeyGen L C) (P : Primitives)
  (aes256 : Bytes → Block → Block)

/-- `DeviceNameUtil::encrypt_device_name`: `seed` is what generating the
ephemeral key pair draws. HMAC accepts keys of every length. -/
def encryptDeviceName (seed : K.KeySeed) (deviceName aciIdentityPriv : String) :
    Except IoError String := do
  let some privBytes := Base64.decode Base64.urlSafe aciIdentityPriv
    | .error ⟨.invalidData, "identity priv b64: " ++ L.base64Error aciIdentityPriv⟩
  let identityPrivate ← (L.privateKeyDeserialize privBytes).mapError fun e =>
    ⟨.invalidData, "identity priv deserialize: " ++ L.debug e⟩
  let identityPublic ← (K.derivePublic identityPrivate).mapError fun e =>
    ⟨.other, "identity pub derivation: " ++ L.debug e⟩
  let ephemeral := K.generate seed
  let masterSecret ← (C.calculateAgreement ephemeral identityPublic).mapError fun e =>
    ⟨.other, "ECDH: " ++ L.debug e⟩
  let syntheticIvKey := P.hmac masterSecret (utf8 "auth")
  let syntheticIvFull := P.hmac syntheticIvKey (utf8 deviceName)
  let syntheticIv := syntheticIvFull.take 16
  let cipherKeyKey := P.hmac masterSecret (utf8 "cipher")
  let cipherKey := P.hmac cipherKeyKey syntheticIv
  let ciphertext ← aes256CtrEncrypt aes256 cipherKey (utf8 deviceName)
  let proto : DeviceNameProto :=
    { ephemeralPublic := some (L.publicKeySerialize (C.publicKey ephemeral))
      syntheticIv := some syntheticIv
      ciphertext := some ciphertext }
  return Base64.encodePadded Base64.standard proto.encode

end Sigchat.DeviceName

import Sigchat.Lib.FormUrl
import Sigchat.Model.DeviceName
import Sigchat.Model.Rest

/-!
# What linking calls

`Account::link` with the other files it calls: the password, the registration
ids and the attributes of `account_attrs.rs`, the names of `libsignal.rs`, the
keys of `prekeys.rs`, and the client of `rest.rs`. What is drawn at random is a
parameter (`LinkDraws`). The temporary key and the link URI are what
`Manager::link` needs before.
-/

namespace Sigchat.Accounts

open Sigchat.Lib
open Sigchat.Pddb
open Sigchat.Signal
open Sigchat.Rest
open Sigchat.DeviceName (Block encryptDeviceName)
open Sigchat.Provisioning (Primitives)

/-- `generate_link_password`, of the bytes `OsRng` fills in. -/
def generateLinkPassword (bytes : Option (Vector UInt8 18)) : Except IoError String :=
  match bytes with
  | none => .error ⟨.other, "rng failure"⟩
  | some bytes => .ok (Base64.encodePadded Base64.standard bytes.toList)

/-- `generate_registration_id`. -/
def generateRegistrationId (draw : UInt32) : UInt16 := (draw % 16380 + 1).toUInt16

/-- A registration id is in 1..16380. -/
theorem toNat_generateRegistrationId (draw : UInt32) :
    (generateRegistrationId draw).toNat = draw.toNat % 16380 + 1 := by
  have hMod : draw.toNat % 16380 < 16380 := Nat.mod_lt _ (by decide)
  have hSum : (draw % 16380 + 1).toNat = draw.toNat % 16380 + 1 := by
    rw [UInt32.toNat_add, UInt32.toNat_mod]
    show (draw.toNat % 16380 + 1) % 2 ^ 32 = _
    omega
  rw [generateRegistrationId, UInt32.toNat_toUInt16, hSum]
  omega

variable {U : UrlCrate} {L : Libsignal} {C : Curve L}

structure LinkDraws (K : KeyGen L C) where
  password : Option (Vector UInt8 18)
  registrationId : UInt32
  pniRegistrationId : UInt32
  /-- The ephemeral key pair of the device name. -/
  ephemeral : K.KeySeed
  prekeys : Draws K

/-- Primitives of the crates, and the client. -/
structure LinkCrates (U : UrlCrate) where
  primitives : Primitives
  aes256 : Bytes → Block → Block
  aesGcm : Bytes → Except IoError (Vector UInt8 16)
  http : HttpClient U

def linkServices (K : KeyGen L C) (crates : LinkCrates U) (draws : LinkDraws K) :
    LinkServices U L where
  generateLinkPassword := generateLinkPassword draws.password
  registrationId := .ok (generateRegistrationId draws.registrationId)
  pniRegistrationId := .ok (generateRegistrationId draws.pniRegistrationId)
  encryptDeviceName := encryptDeviceName K crates.primitives crates.aes256 draws.ephemeral
  Attributes := AccountAttributes
  buildAccountAttributes := buildAccountAttributes crates.aesGcm
  generatePrekeys aci pni := generatePrekeys aci pni draws.prekeys
  putDevicesLink url number password body :=
    (putDevicesLink crates.http url number password body).result

-- ---------------------------------------------------------------------------
-- Before the QR code
-- ---------------------------------------------------------------------------

/-- `generate_identity_key_pair`, of the private key that is generated. The second
argument is `PrivateKey::serialize`. -/
def generateIdentityKeyPair (C : Curve L) (privateKeySerialize : L.PrivateKey → Bytes)
    (key : L.PrivateKey) : ProvisionedIdentity where
  serviceId := ""
  djbIdentityKey := Base64.encode Base64.urlSafe (L.publicKeySerialize (C.publicKey key))
  djbPrivateKey := Base64.encode Base64.urlSafe (privateKeySerialize key)

/-- The URI of `Url::parse_with_params`, for the scheme, the host and the
parameters of `Manager::link`. -/
def linkdeviceUri (uuid pubKey : String) : String :=
  "sgnl://linkdevice?" ++ String.ofList
    (FormUrl.serialize [("uuid", uuid), ("pub_key", pubKey), ("capabilities", "backup5")])

end Sigchat.Accounts

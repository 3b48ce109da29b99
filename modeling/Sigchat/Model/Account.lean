import Mathlib.Data.List.Nodup
import Sigchat.Model.Stores

/-!
# The account

`account.rs`, `service_environment.rs` and `prekeys::save_to_pddb`: a struct
that caches the account dictionary of PDDB, its fields keyed by the declared
constants (`Key`), and the linking of a new device, which fills the dictionary
and the prekey stores.

Neither `get` nor `set` reports a failed request: a key that cannot be read is
`None`, and a value that could not be written, or only in part, is `Ok`. A
value that does not parse is unwrapped and panics.

Random values, cryptography, the `url` crate and the REST call are parameters
(`UrlCrate`, `LinkServices`).
-/

namespace Sigchat.Accounts

open Sigchat.Lib
open Sigchat.Pddb
open Sigchat.Signal
open Sigchat.Stores

-- ---------------------------------------------------------------------------
-- Keys and values
-- ---------------------------------------------------------------------------

/-- The declared keys of the account dictionary. -/
inductive Key where
  | accountEntropyPool
  | aciIdentityPrivate
  | aciIdentityPublic
  | aciServiceId
  | deviceId
  | encryptedDeviceName
  | host
  | isMultiDevice
  | number
  | password
  | pinMasterKey
  | pniIdentityPrivate
  | pniIdentityPublic
  | pniRegistrationId
  | pniServiceId
  | profileKey
  | registered
  | registrationId
  | serviceEnvironment
  | storageKey
  | storeLastReceiveTimestamp
  | storeManifestVersion
  | storeManifest
  deriving DecidableEq

def Key.name : Key → String
  | .accountEntropyPool => "aep"
  | .aciIdentityPrivate => "aci.identity.private"
  | .aciIdentityPublic => "aci.identity.public"
  | .aciServiceId => "aci.service_id"
  | .deviceId => "device_id"
  | .encryptedDeviceName => "encrypted_device_name"
  | .host => "host"
  | .isMultiDevice => "is_multi_device"
  | .number => "number"
  | .password => "password"
  | .pinMasterKey => "pin_master_key"
  | .pniIdentityPrivate => "pni.identity.private"
  | .pniIdentityPublic => "pni.identity.public"
  | .pniRegistrationId => "pni.registration_id"
  | .pniServiceId => "pni.service_id"
  | .profileKey => "profile_key"
  | .registered => "registered"
  | .registrationId => "registration_id"
  | .serviceEnvironment => "service_environment"
  | .storageKey => "storage_key"
  | .storeLastReceiveTimestamp => "store_last_receive_timestamp"
  | .storeManifestVersion => "store_manifest_version"
  | .storeManifest => "store_manifest"

def Key.all : List Key :=
  [.accountEntropyPool, .aciIdentityPrivate, .aciIdentityPublic, .aciServiceId, .deviceId,
    .encryptedDeviceName, .host, .isMultiDevice, .number, .password, .pinMasterKey,
    .pniIdentityPrivate, .pniIdentityPublic, .pniRegistrationId, .pniServiceId, .profileKey,
    .registered, .registrationId, .serviceEnvironment, .storageKey, .storeLastReceiveTimestamp,
    .storeManifestVersion, .storeManifest]

theorem Key.mem_all (k : Key) : k ∈ Key.all := by cases k <;> decide

theorem Key.name_injective : Function.Injective Key.name := by
  have hNodup : (Key.all.map Key.name).Nodup := by decide +kernel
  exact fun k k' h => List.inj_on_of_nodup_map hNodup k.mem_all k'.mem_all h

inductive ServiceEnvironment where
  | live
  | staging
  deriving DecidableEq

def ServiceEnvironment.toText : ServiceEnvironment → String
  | .live => "Live"
  | .staging => "Staging"

def ServiceEnvironment.fromStr (input : String) : Option ServiceEnvironment :=
  if input = "Live" then some .live else if input = "Staging" then some .staging else none

/-- What is used of the `url` crate. -/
structure UrlCrate where
  Host : Type
  parseHost : String → Option Host
  hostText : Host → String
  Url : Type
  parseUrl : String → Option Url

/-- The instance concrete runs use: hosts and URLs are their texts. -/
def UrlCrate.plain : UrlCrate where
  Host := String
  parseHost := some
  hostText := id
  Url := String
  parseUrl := some

instance : DecidableEq UrlCrate.plain.Host := inferInstanceAs (DecidableEq String)

variable (U : UrlCrate)

structure Account where
  pddbDict : String
  aciIdentityPrivate : Option String
  aciIdentityPublic : Option String
  aciServiceId : Option String
  deviceId : UInt32
  encryptedDeviceName : Option String
  host : U.Host
  isMultiDevice : Bool
  number : Option String
  password : Option String
  pinMasterKey : Option String
  pniIdentityPrivate : Option String
  pniIdentityPublic : Option String
  pniServiceId : Option String
  profileKey : Option String
  registered : Bool
  serviceEnvironment : ServiceEnvironment
  storageKey : Option String
  /-- `i64`, as is the next one. -/
  storeLastReceiveTimestamp : Int
  storeManifestVersion : Int
  storeManifest : Option String

variable {U}

/-- A panic: the value of a key is missing or does not parse. -/
inductive Panic where
  | unwrapped (key : Key)
  deriving DecidableEq

def unwrap {α : Type} (key : Key) : Option α → Except Panic α
  | some x => .ok x
  | none => .error (.unwrapped key)

def parseDeviceId (s : String) : Option UInt32 := (parseU32 s).map UInt32.ofNat

-- ---------------------------------------------------------------------------
-- Reading and writing one key
-- ---------------------------------------------------------------------------

/-- At most 256 bytes are read, by one request. -/
def get (dict : String) (key : Key) : Prog Resp (Option String) := readAccountString dict key.name

/-- One write request and a sync. -/
def writeValue (dict : String) (key : Key) (value : String) : Prog Resp (Except IoError Unit) :=
  .call (.write dict key.name 0 (utf8 value)) fun
    | .error _ => .done (.ok ())
    | .ok _ => .call .sync fun _ => .done (.ok ())

/-- Delete the key, so that nothing of a longer old value remains, then create
and write it. No failure is reported. -/
def set (dict : String) (key : Key) (value : Option String) : Prog Resp (Except IoError Unit) :=
  .call (.deleteKey dict key.name) fun _ =>
    match value with
    | none => .done (.ok ())
    | some value =>
      .call (.get dict key.name true) fun
        | .error _ => .done (.ok ())
        | .ok () => writeValue dict key value

-- ---------------------------------------------------------------------------
-- The account as a whole
-- ---------------------------------------------------------------------------

/-- The keys `Account::read` loads, in its order. -/
def loadedKeys : List Key :=
  [.aciIdentityPrivate, .aciIdentityPublic, .aciServiceId, .deviceId, .encryptedDeviceName, .host,
    .isMultiDevice, .number, .password, .pinMasterKey, .pniIdentityPrivate, .pniIdentityPublic,
    .pniServiceId, .profileKey, .registered, .serviceEnvironment, .storageKey,
    .storeLastReceiveTimestamp, .storeManifestVersion, .storeManifest]

def getAll (dict : String) : List Key → Prog Resp (Key → Option String)
  | [] => .done fun _ => none
  | k :: ks => do
    let text ← get dict k
    let rest ← getAll dict ks
    return fun k' => if k' = k then text else rest k'

/-- The account made of the texts of its keys. Six keys must be there; the
fields are parsed in the order of the struct literal. -/
def ofTexts (dict : String) (text : Key → Option String) :
    Except Panic (Except IoError (Account U)) :=
  match text .deviceId, text .host, text .isMultiDevice, text .registered,
    text .serviceEnvironment, text .storeManifestVersion with
  | some deviceId, some host, some isMultiDevice, some registered, some serviceEnvironment,
    some storeManifestVersion => do
    let deviceId ← unwrap .deviceId (parseDeviceId deviceId)
    let host ← unwrap .host (U.parseHost host)
    let isMultiDevice ← unwrap .isMultiDevice (parseBool isMultiDevice)
    let registered ← unwrap .registered (parseBool registered)
    let serviceEnvironment ←
      unwrap .serviceEnvironment (ServiceEnvironment.fromStr serviceEnvironment)
    let storeManifestVersion ← unwrap .storeManifestVersion (parseI64 storeManifestVersion)
    return .ok {
      pddbDict := dict
      aciIdentityPrivate := text .aciIdentityPrivate
      aciIdentityPublic := text .aciIdentityPublic
      aciServiceId := text .aciServiceId
      deviceId
      encryptedDeviceName := text .encryptedDeviceName
      host
      isMultiDevice
      number := text .number
      password := text .password
      pinMasterKey := text .pinMasterKey
      pniIdentityPrivate := text .pniIdentityPrivate
      pniIdentityPublic := text .pniIdentityPublic
      pniServiceId := text .pniServiceId
      profileKey := text .profileKey
      registered
      serviceEnvironment
      storageKey := text .storageKey
      storeLastReceiveTimestamp := ((text .storeLastReceiveTimestamp).bind parseI64).getD 0
      storeManifestVersion
      storeManifest := text .storeManifest }
  | _, _, _, _, _, _ => .ok (.error (IoError.ofKind .invalidData))

/-- `Account::read`. Its arms that pass on an error of `get` are never taken. -/
def read (dict : String) : Prog Resp (Except Panic (Except IoError (Account U))) := do
  return ofTexts dict (← getAll dict loadedKeys)

def setAll (dict : String) : List (Key × Option String) → Prog Resp (Except IoError Unit)
  | [] => .done (.ok ())
  | (k, v) :: kvs => do
    match ← set dict k v with
    | .error e => return .error e
    | .ok () => setAll dict kvs

/-- The values of a new account, in the order they are written. -/
def defaults (host : U.Host) (serviceEnvironment : ServiceEnvironment) :
    List (Key × Option String) :=
  [(.aciIdentityPrivate, none), (.aciIdentityPublic, none), (.aciServiceId, none),
    (.deviceId, some "0"), (.encryptedDeviceName, none), (.host, some (U.hostText host)),
    (.isMultiDevice, some "false"), (.number, none), (.password, none), (.pinMasterKey, none),
    (.pniIdentityPrivate, none), (.pniIdentityPublic, none), (.pniServiceId, none),
    (.profileKey, none), (.registered, some "false"),
    (.serviceEnvironment, some serviceEnvironment.toText), (.storageKey, none),
    (.storeLastReceiveTimestamp, some "0"), (.storeManifestVersion, some "-1"),
    (.storeManifest, none)]

/-- `Account::new`. -/
def new (dict : String) (host : U.Host) (serviceEnvironment : ServiceEnvironment) :
    Prog Resp (Except Panic (Except IoError (Account U))) := do
  match ← setAll dict (defaults host serviceEnvironment) with
  | .error e => return .ok (.error e)
  | .ok () => read dict

/-- `Account::delete`. -/
def delete (dict : String) : Prog Resp (Except IoError Unit) := .call (.deleteDict dict) .done

namespace Account

variable (a : Account U)

/-- The match arm of a key in `Account::set`; there is none for `host`. The
keys in the last line have no field that is kept up to date. -/
def arm (key : Key) (value : Option String) : Option (Except Panic (Account U)) :=
  match key with
  | .aciIdentityPrivate => some (.ok { a with aciIdentityPrivate := value })
  | .aciIdentityPublic => some (.ok { a with aciIdentityPublic := value })
  | .aciServiceId => some (.ok { a with aciServiceId := value })
  | .deviceId =>
    some ((unwrap key (value.bind parseDeviceId)).map fun x => { a with deviceId := x })
  | .encryptedDeviceName => some (.ok { a with encryptedDeviceName := value })
  | .isMultiDevice =>
    some ((unwrap key (value.bind parseBool)).map fun x => { a with isMultiDevice := x })
  | .number => some (.ok { a with number := value })
  | .password => some (.ok { a with password := value })
  | .pinMasterKey => some (.ok { a with pinMasterKey := value })
  | .pniIdentityPrivate => some (.ok { a with pniIdentityPrivate := value })
  | .pniIdentityPublic => some (.ok { a with pniIdentityPublic := value })
  | .pniServiceId => some (.ok { a with pniServiceId := value })
  | .profileKey => some (.ok { a with profileKey := value })
  | .registered =>
    some ((unwrap key (value.bind parseBool)).map fun x => { a with registered := x })
  | .serviceEnvironment =>
    some ((unwrap key (value.bind ServiceEnvironment.fromStr)).map
      fun x => { a with serviceEnvironment := x })
  | .storageKey => some (.ok { a with storageKey := value })
  | .accountEntropyPool | .registrationId | .pniRegistrationId | .storeLastReceiveTimestamp
  | .storeManifestVersion | .storeManifest => some (.ok a)
  | .host => none

/-- `Account::set`: its result, and the account it leaves. A key without an arm
is deleted and refused. -/
def set (key : Key) (value : Option String) :
    Prog Resp (Except Panic (Except IoError Unit × Account U)) := do
  match ← Accounts.set a.pddbDict key value with
  | .error e => return .ok (.error e, a)
  | .ok () =>
    match a.arm key value with
    | some r => return r.map fun a' => (.ok (), a')
    | none =>
      .call (.deleteKey a.pddbDict key.name) fun _ =>
        .done (.ok (.error (IoError.ofKind .notFound), a))

/-- `Account::set_number`. A failure is not reported. -/
def setNumber (value : String) : Prog Resp (Except Panic (Except IoError Unit × Account U)) := do
  match ← a.set .number (some value) with
  | .error p => return .error p
  | .ok (.error _, a') => return .ok (.ok (), a')
  | .ok (.ok (), a') => return .ok (.ok (), { a' with number := some value })

/-- A device that is linked in part is taken for a registered one. -/
def isRegistered : Bool :=
  a.registered || (a.deviceId != 0 && a.aciServiceId.isSome && a.password.isSome)

def defaultDeviceId : UInt32 := 1

def isPrimaryDevice : Bool := a.isRegistered && a.deviceId == defaultDeviceId

def chatHost : String :=
  match a.serviceEnvironment with
  | .live => "chat." ++ U.hostText a.host
  | .staging => "chat.staging." ++ U.hostText a.host

def chatUrl : Except IoError U.Url :=
  match U.parseUrl ("https://" ++ a.chatHost) with
  | some url => .ok url
  | none => .error ⟨.invalidData, "invalid chat URL"⟩

end Account

-- ---------------------------------------------------------------------------
-- Prekeys
-- ---------------------------------------------------------------------------

/-- The public half of a signed prekey, as uploaded. -/
structure PreKeyJson where
  keyId : UInt32
  publicKey : String
  signature : String

structure Prekeys (L : Libsignal) where
  aciSigned : PreKeyJson
  pniSigned : PreKeyJson
  aciKyberLastResort : PreKeyJson
  pniKyberLastResort : PreKeyJson
  aciSignedRecord : L.signedPreKey.Record
  pniSignedRecord : L.signedPreKey.Record
  aciKyberRecord : L.kyberPreKey.Record
  pniKyberRecord : L.kyberPreKey.Record

variable {L : Libsignal}

def mapSignalErr (e : SignalProtocolError) : IoError := ⟨.other, "libsignal: " ++ L.debug e⟩

def saveSigned (record : L.signedPreKey.Record) : Prog Resp (Except IoError Unit) :=
  match L.signedPreKeyId record with
  | .error e => return .error (mapSignalErr (L := L) e)
  | .ok id =>
    return (← signedPreKeyStore.saveSignedPreKey id record).mapError (mapSignalErr (L := L))

def saveKyber (record : L.kyberPreKey.Record) : Prog Resp (Except IoError Unit) :=
  match L.kyberPreKeyId record with
  | .error e => return .error (mapSignalErr (L := L) e)
  | .ok id => return (← kyberPreKeyStore.saveKyberPreKey id record).mapError (mapSignalErr (L := L))

/-- `prekeys::save_to_pddb`. -/
def saveToPddb (prekeys : Prekeys L) : Prog Resp (Except IoError Unit) := do
  match ← saveSigned prekeys.aciSignedRecord with
  | .error e => return .error e
  | .ok () =>
  match ← saveSigned prekeys.pniSignedRecord with
  | .error e => return .error e
  | .ok () =>
  match ← saveKyber prekeys.aciKyberRecord with
  | .error e => return .error e
  | .ok () => saveKyber prekeys.pniKyberRecord

/-- What saving does for either kind: the record is written under its id. -/
def saveUnder (L : Libsignal) (dict : String) (id : SignalResult UInt32)
    (bytes : SignalResult Bytes) : Prog Resp (Except IoError Unit) :=
  match id with
  | .error e => return .error (mapSignalErr (L := L) e)
  | .ok id =>
    match bytes with
    | .error e => return .error (mapSignalErr (L := L) e)
    | .ok bs => return (← writeRecord dict (idKey id) bs).mapError (mapSignalErr (L := L))

/-- A signed prekey is saved under its id. -/
theorem saveSigned_under (record : L.signedPreKey.Record) :
    saveSigned record = saveUnder L signedPreKeyDict (L.signedPreKeyId record)
      (L.signedPreKey.serialize record) := by
  simp only [saveSigned, saveUnder, PddbSignedPreKeyStore.saveSignedPreKey]
  rcases L.signedPreKeyId record with e | id
  · rfl
  · rcases L.signedPreKey.serialize record with e | bs <;> rfl

theorem saveKyber_under (record : L.kyberPreKey.Record) :
    saveKyber record = saveUnder L kyberPreKeyDict (L.kyberPreKeyId record)
      (L.kyberPreKey.serialize record) := by
  simp only [saveKyber, saveUnder, PddbKyberPreKeyStore.saveKyberPreKey]
  rcases L.kyberPreKeyId record with e | id
  · rfl
  · rcases L.kyberPreKey.serialize record with e | bs <;> rfl

-- ---------------------------------------------------------------------------
-- Linking
-- ---------------------------------------------------------------------------

/-- `libsignal::IdentityKeyPair`: base64 keys and the service id they belong to. -/
structure ProvisionedIdentity where
  serviceId : String
  djbIdentityKey : String
  djbPrivateKey : String

structure ProvisionMessage where
  number : String
  aci : ProvisionedIdentity
  pni : ProvisionedIdentity
  profileKey : Option String
  provisioningCode : Option String
  accountEntropyPool : Option String

structure LinkDeviceRequestBody (Attributes : Type) where
  verificationCode : String
  accountAttributes : Attributes
  aciSignedPreKey : PreKeyJson
  pniSignedPreKey : PreKeyJson
  aciPqLastResortPreKey : PreKeyJson
  pniPqLastResortPreKey : PreKeyJson

structure LinkDeviceResponse where
  uuid : String
  pni : String
  deviceId : UInt32

/-- What linking obtains elsewhere: random values, encrypted and derived data,
and the server's answer. -/
structure LinkServices (U : UrlCrate) (L : Libsignal) where
  generateLinkPassword : Except IoError String
  registrationId : Except IoError UInt16
  pniRegistrationId : Except IoError UInt16
  /-- Arguments: device name, base64 of the ACI private key. -/
  encryptDeviceName : String → String → Except IoError String
  Attributes : Type
  /-- Arguments: encrypted name, profile key, both registration ids. -/
  buildAccountAttributes : String → Bytes → UInt16 → UInt16 → Except IoError Attributes
  generatePrekeys : L.PrivateKey → L.PrivateKey → Except IoError (Prekeys L)
  /-- Arguments: base URL, number, password, body. -/
  putDevicesLink : U.Url → String → String → LinkDeviceRequestBody Attributes →
    Except IoError LinkDeviceResponse

def decodePrivateKey (keyB64url : String) : Except IoError L.PrivateKey :=
  match Base64.decode Base64.urlSafe keyB64url with
  | none => .error ⟨.invalidData, "identity private key not valid base64"⟩
  | some bytes =>
    match L.privateKeyDeserialize bytes with
    | .error _ => .error ⟨.invalidData, "identity private key invalid"⟩
    | .ok key => .ok key

/-- What a successful upload leaves to be saved. -/
structure Linked (L : Libsignal) where
  password : String
  registrationId : UInt16
  pniRegistrationId : UInt16
  encryptedName : String
  profileKey : String
  deviceId : UInt32
  generated : Prekeys L

/-- `Account::link` up to the server's answer. -/
def upload (S : LinkServices U L) (a : Account U) (deviceName : String) (msg : ProvisionMessage) :
    Except IoError (Linked L) := do
  let some verificationCode := msg.provisioningCode
    | .error ⟨.invalidData, "missing provisioningCode"⟩
  let some profileKeyB64 := msg.profileKey | .error ⟨.invalidData, "missing profile_key"⟩
  let some profileKeyBytes := Base64.decode Base64.urlSafe profileKeyB64
    | .error ⟨.invalidData, "profile_key not valid base64"⟩
  let password ← S.generateLinkPassword
  let registrationId ← S.registrationId
  let pniRegistrationId ← S.pniRegistrationId
  let encryptedName ← S.encryptDeviceName deviceName msg.aci.djbPrivateKey
  let attrs ←
    S.buildAccountAttributes encryptedName profileKeyBytes registrationId pniRegistrationId
  let aciPriv ← decodePrivateKey msg.aci.djbPrivateKey
  let pniPriv ← decodePrivateKey msg.pni.djbPrivateKey
  let generated ← S.generatePrekeys aciPriv pniPriv
  let baseUrl ← a.chatUrl
  let response ← S.putDevicesLink baseUrl msg.number password
    { verificationCode
      accountAttributes := attrs
      aciSignedPreKey := generated.aciSigned
      pniSignedPreKey := generated.pniSigned
      aciPqLastResortPreKey := generated.aciKyberLastResort
      pniPqLastResortPreKey := generated.pniKyberLastResort }
  return ⟨password, registrationId, pniRegistrationId, encryptedName, profileKeyB64,
    response.deviceId, generated⟩

/-- The values of a linked account up to the ACI service id, in the order they
are written. -/
def identityValues (msg : ProvisionMessage) (l : Linked L) : List (Key × Option String) :=
  [(.password, some l.password), (.deviceId, some (decimal l.deviceId.toNat)),
    (.aciIdentityPrivate, some msg.aci.djbPrivateKey),
    (.aciIdentityPublic, some msg.aci.djbIdentityKey)]

/-- The values from the ACI service id up to the registered flag. -/
def profileValues (msg : ProvisionMessage) (l : Linked L) : List (Key × Option String) :=
  [(.aciServiceId, some msg.aci.serviceId),
    (.pniIdentityPrivate, some msg.pni.djbPrivateKey),
    (.pniIdentityPublic, some msg.pni.djbIdentityKey), (.pniServiceId, some msg.pni.serviceId),
    (.encryptedDeviceName, some l.encryptedName), (.isMultiDevice, some "true"),
    (.number, some msg.number), (.profileKey, some l.profileKey)] ++
  (match msg.accountEntropyPool with
    | some aep => [(.accountEntropyPool, some aep)]
    | none => []) ++
  [(.registrationId, some (decimal l.registrationId.toNat)),
    (.pniRegistrationId, some (decimal l.pniRegistrationId.toNat)), (.storageKey, none),
    (.storeLastReceiveTimestamp, some "0"), (.storeManifestVersion, some "-1"),
    (.storeManifest, none)]

/-- All values of a linked account, in the order they are written. -/
def linkValues (msg : ProvisionMessage) (l : Linked L) : List (Key × Option String) :=
  identityValues msg l ++ profileValues msg l ++ [(.registered, some "true")]

namespace Account

/-- Set the values one after the other. -/
def setValues (a : Account U) : List (Key × Option String) →
    Prog Resp (Except Panic (Except IoError Unit × Account U))
  | [] => .done (.ok (.ok (), a))
  | (k, v) :: kvs => do
    match ← a.set k v with
    | .error p => return .error p
    | .ok (.error e, a') => return .ok (.error e, a')
    | .ok (.ok (), a') => setValues a' kvs

/-- Save what linking has obtained. -/
def saveLinked (a : Account U) (msg : ProvisionMessage) (l : Linked L) :
    Prog Resp (Except Panic (Except IoError Bool × Account U)) := do
  match ← a.setValues (linkValues msg l) with
  | .error p => return .error p
  | .ok (.error e, a') => return .ok (.error e, a')
  | .ok (.ok (), a') =>
    match ← saveToPddb l.generated with
    | .error e => return .ok (.error e, a')
    | .ok () => return .ok (.ok true, a')

/-- `Account::link`. -/
def link (S : LinkServices U L) (a : Account U) (deviceName : String) (msg : ProvisionMessage) :
    Prog Resp (Except Panic (Except IoError Bool × Account U)) :=
  if a.isPrimaryDevice then .done (.ok (.ok false, a))
  else
    match upload S a deviceName msg with
    | .error e => .done (.ok (.error e, a))
    | .ok l => a.saveLinked msg l

end Account

end Sigchat.Accounts

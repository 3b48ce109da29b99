import Sigchat.Lib.BasicAuth
import Sigchat.Model.LinkServices
import Sigchat.Results.DeviceNames
import Sigchat.Results.LinkAccepted
import Sigchat.Results.LinkResponse
import Sigchat.Results.PrekeyLookup

/-!
# What the server reads of a link

The server splits the header and reads the body by the names of its fields.

* `readBody_toJsonString` — every body is read back;
* `link_request_read`     — the request of a link that succeeds says what the
  device keeps: its password, its registration ids, the prekeys whose records
  it saves, and a name that the primary device can decrypt.
-/

namespace Sigchat.Results.LinkRequest

open Sigchat.Lib
open Sigchat.Pddb
open Sigchat.Signal
open Sigchat.Accounts
open Sigchat.Rest
open Sigchat.DeviceName (encryptDeviceName)
open Sigchat.Results.LinkResponse (Answered putDevicesLink_ok_iff)

-- ---------------------------------------------------------------------------
-- Reading the body
-- ---------------------------------------------------------------------------

def asU32 : Json.Value → Option UInt32
  | .num text => parseDeviceId (String.ofList text)
  | _ => none

def asOptional : Json.Value → Option (Option String)
  | .str s => some (some s)
  | .null => some none
  | _ => none

section Readers

variable (v : Json.Value)

def flag (name : String) : Option Bool := (v.get name).bind Json.Value.asBool

def text (name : String) : Option String := (v.get name).bind Json.Value.asString

def optional (name : String) : Option (Option String) := (v.get name).bind asOptional

def number (name : String) : Option UInt32 := (v.get name).bind asU32

def readCapabilities : Option Capabilities := do
  return {
    storage := ← flag v "storage"
    versionedExpirationTimer := ← flag v "versionedExpirationTimer"
    attachmentBackfill := ← flag v "attachmentBackfill"
    ssre2 := ← flag v "ssre2"
    spqr := ← flag v "spqr" }

def readAttributes : Option AccountAttributes := do
  return {
    signalingKey := ← optional v "signalingKey"
    registrationId := ← number v "registrationId"
    voice := ← flag v "voice"
    video := ← flag v "video"
    fetchesMessages := ← flag v "fetchesMessages"
    registrationLock := ← optional v "registrationLock"
    unidentifiedAccessKey := ← text v "unidentifiedAccessKey"
    unrestrictedUnidentifiedAccess := ← flag v "unrestrictedUnidentifiedAccess"
    discoverableByPhoneNumber := ← flag v "discoverableByPhoneNumber"
    capabilities := ← (v.get "capabilities").bind readCapabilities
    name := ← text v "name"
    pniRegistrationId := ← number v "pniRegistrationId"
    recoveryPassword := ← optional v "recoveryPassword" }

def readPreKey : Option PreKeyJson := do
  return ⟨← number v "keyId", ← text v "publicKey", ← text v "signature"⟩

def readBody : Option Body := do
  return {
    verificationCode := ← text v "verificationCode"
    accountAttributes := ← (v.get "accountAttributes").bind readAttributes
    aciSignedPreKey := ← (v.get "aciSignedPreKey").bind readPreKey
    pniSignedPreKey := ← (v.get "pniSignedPreKey").bind readPreKey
    aciPqLastResortPreKey := ← (v.get "aciPqLastResortPreKey").bind readPreKey
    pniPqLastResortPreKey := ← (v.get "pniPqLastResortPreKey").bind readPreKey }

end Readers

-- ---------------------------------------------------------------------------
-- The values of a body
-- ---------------------------------------------------------------------------

def numberValue (n : UInt32) : Json.Value := .num (decimal n.toNat).toList

def capabilitiesValue (c : Capabilities) : Json.Value :=
  .obj [
    ("storage", .bool c.storage),
    ("versionedExpirationTimer", .bool c.versionedExpirationTimer),
    ("attachmentBackfill", .bool c.attachmentBackfill),
    ("ssre2", .bool c.ssre2),
    ("spqr", .bool c.spqr)]

def attributesValue (a : AccountAttributes) : Json.Value :=
  .obj [
    ("signalingKey", .optional a.signalingKey),
    ("registrationId", numberValue a.registrationId),
    ("voice", .bool a.voice),
    ("video", .bool a.video),
    ("fetchesMessages", .bool a.fetchesMessages),
    ("registrationLock", .optional a.registrationLock),
    ("unidentifiedAccessKey", .str a.unidentifiedAccessKey),
    ("unrestrictedUnidentifiedAccess", .bool a.unrestrictedUnidentifiedAccess),
    ("discoverableByPhoneNumber", .bool a.discoverableByPhoneNumber),
    ("capabilities", capabilitiesValue a.capabilities),
    ("name", .str a.name),
    ("pniRegistrationId", numberValue a.pniRegistrationId),
    ("recoveryPassword", .optional a.recoveryPassword)]

def preKeyValue (k : PreKeyJson) : Json.Value :=
  .obj [
    ("keyId", numberValue k.keyId),
    ("publicKey", .str k.publicKey),
    ("signature", .str k.signature)]

def bodyValue (body : Body) : Json.Value :=
  .obj [
    ("verificationCode", .str body.verificationCode),
    ("accountAttributes", attributesValue body.accountAttributes),
    ("aciSignedPreKey", preKeyValue body.aciSignedPreKey),
    ("pniSignedPreKey", preKeyValue body.pniSignedPreKey),
    ("aciPqLastResortPreKey", preKeyValue body.aciPqLastResortPreKey),
    ("pniPqLastResortPreKey", preKeyValue body.pniPqLastResortPreKey)]

theorem asU32_numberValue (n : UInt32) : asU32 (numberValue n) = some n := by
  show parseDeviceId (String.ofList (decimal n.toNat).toList) = some n
  rw [String.ofList_toList, parseDeviceId, parseU32_decimal n.toNat_lt, Option.map_some,
    UInt32.ofNat_toNat]

theorem asOptional_optional (s : Option String) : asOptional (Json.Value.optional s) = some s := by
  cases s <;> rfl

theorem readCapabilities_value (c : Capabilities) :
    readCapabilities (capabilitiesValue c) = some c := by
  simp [readCapabilities, capabilitiesValue, flag, Json.Value.get]

theorem readPreKey_value (k : PreKeyJson) : readPreKey (preKeyValue k) = some k := by
  simp [readPreKey, preKeyValue, number, text, Json.Value.get, asU32_numberValue]

theorem readAttributes_value (a : AccountAttributes) :
    readAttributes (attributesValue a) = some a := by
  simp [readAttributes, attributesValue, optional, number, flag, text, Json.Value.get,
    asU32_numberValue, asOptional_optional, readCapabilities_value]

/-- The body comes back with everything in it. -/
theorem readBody_value (body : Body) : readBody (bodyValue body) = some body := by
  simp [readBody, bodyValue, text, Json.Value.get, readAttributes_value, readPreKey_value]

-- ---------------------------------------------------------------------------
-- The text of a body
-- ---------------------------------------------------------------------------

/-- The text of the capabilities is read as their value. -/
theorem reads_capabilities (c : Capabilities) : Json.Reads c.toJson (capabilitiesValue c) :=
  Json.reads_object
    (.cons ⟨rfl, Json.reads_bool _⟩
    (.cons ⟨rfl, Json.reads_bool _⟩
    (.cons ⟨rfl, Json.reads_bool _⟩
    (.cons ⟨rfl, Json.reads_bool _⟩
    (.cons ⟨rfl, Json.reads_bool _⟩ .nil)))))

theorem reads_preKey (k : PreKeyJson) : Json.Reads (preKeyEntity k) (preKeyValue k) :=
  Json.reads_object
    (.cons ⟨rfl, Json.reads_number _⟩
    (.cons ⟨rfl, Json.reads_quote _⟩
    (.cons ⟨rfl, Json.reads_quote _⟩ .nil)))

/-- The text of the attributes is read as their value, each field under its
name. -/
theorem reads_attributes (a : AccountAttributes) : Json.Reads a.toJson (attributesValue a) :=
  Json.reads_object
    (.cons ⟨rfl, Json.reads_optional _⟩
    (.cons ⟨rfl, Json.reads_number _⟩
    (.cons ⟨rfl, Json.reads_bool _⟩
    (.cons ⟨rfl, Json.reads_bool _⟩
    (.cons ⟨rfl, Json.reads_bool _⟩
    (.cons ⟨rfl, Json.reads_optional _⟩
    (.cons ⟨rfl, Json.reads_quote _⟩
    (.cons ⟨rfl, Json.reads_bool _⟩
    (.cons ⟨rfl, Json.reads_bool _⟩
    (.cons ⟨rfl, reads_capabilities _⟩
    (.cons ⟨rfl, Json.reads_quote _⟩
    (.cons ⟨rfl, Json.reads_number _⟩
    (.cons ⟨rfl, Json.reads_optional _⟩ .nil)))))))))))))

/-- The text of the body is read as its value. -/
theorem reads_body (body : Body) : Json.Reads (bodyJson body) (bodyValue body) :=
  Json.reads_object
    (.cons ⟨rfl, Json.reads_quote _⟩
    (.cons ⟨rfl, reads_attributes _⟩
    (.cons ⟨rfl, reads_preKey _⟩
    (.cons ⟨rfl, reads_preKey _⟩
    (.cons ⟨rfl, reads_preKey _⟩
    (.cons ⟨rfl, reads_preKey _⟩ .nil))))))

/-- **Every body is read back.** -/
theorem readBody_toJsonString (body : Body) :
    (Json.parse (toJsonString body)).bind readBody = some body := by
  rw [toJsonString, Json.parse_of_reads (reads_body body), Option.bind_some, readBody_value]

-- ---------------------------------------------------------------------------
-- The request of a link
-- ---------------------------------------------------------------------------

variable {U : UrlCrate} {L : Libsignal} {C : Curve L} (K : KeyGen L C) (crates : LinkCrates U)

/-- What the server takes from the header and the text of a request. -/
structure Request where
  login : String
  password : String
  body : Body

def readRequest (header json : String) : Option Request := do
  let (login, password) ← BasicAuth.read header
  let body ← (Json.parse json).bind readBody
  return ⟨login, password, body⟩

/-- A request is read back from its header and its body, if the login has no
colon. -/
theorem readRequest_eq {login : String} (hFree : ':' ∉ login.toList) (password : String)
    (body : Body) :
    readRequest (BasicAuth.header login password) (toJsonString body) =
      some ⟨login, password, body⟩ := by
  have hHeader : BasicAuth.read (BasicAuth.header login password) = some (login, password) :=
    BasicAuth.read_header_iff.mpr ⟨hFree, rfl⟩
  rw [readRequest, hHeader, Option.bind_eq_bind, Option.bind_some]
  dsimp only
  rw [readBody_toJsonString]
  rfl

/-- The request says what the device keeps. -/
structure Tells (draws : LinkDraws K) (deviceName : String) (msg : ProvisionMessage) (l : Linked L)
    (request : Request) : Prop where
  login : request.login = msg.number ++ ".-1" ∨ request.login = msg.number
  password : request.password = l.password ∧ ∃ bytes, draws.password = some bytes ∧
    Base64.decodePadded Base64.standard request.password = some bytes.toList
  code : msg.provisioningCode = some request.body.verificationCode
  registrationId : request.body.accountAttributes.registrationId = l.registrationId.toUInt32 ∧
    1 ≤ l.registrationId.toNat ∧ l.registrationId.toNat ≤ 16380
  pniRegistrationId :
    request.body.accountAttributes.pniRegistrationId = l.pniRegistrationId.toUInt32 ∧
      1 ≤ l.pniRegistrationId.toNat ∧ l.pniRegistrationId.toNat ≤ 16380
  name : request.body.accountAttributes.name = l.encryptedName ∧
    encryptDeviceName K crates.primitives crates.aes256 draws.ephemeral deviceName
      msg.aci.djbPrivateKey = .ok l.encryptedName
  /-- The access key is that of the profile key. -/
  accessKey : ∃ profileKey uak, Base64.decode Base64.urlSafe l.profileKey = some profileKey ∧
    deriveUnidentifiedAccessKey crates.aesGcm profileKey = .ok uak ∧
    Base64.decodePadded Base64.standard request.body.accountAttributes.unidentifiedAccessKey =
      some uak.toList
  /-- The prekeys are those of the records, signed by the identities. -/
  prekeys : ∃ aci pni, decodePrivateKey msg.aci.djbPrivateKey = .ok aci ∧
    decodePrivateKey msg.pni.djbPrivateKey = .ok pni ∧
    PrekeyLookup.GeneratedFor K l.generated aci pni ∧
    request.body = .fromParts request.body.verificationCode request.body.accountAttributes
      l.generated

theorem registrationId_range (draw : UInt32) :
    1 ≤ (generateRegistrationId draw).toNat ∧ (generateRegistrationId draw).toNat ≤ 16380 := by
  rw [toNat_generateRegistrationId]
  have hMod : draw.toNat % 16380 < 16380 := Nat.mod_lt _ (by decide)
  omega

/-- What the attributes are made of. -/
theorem attributes_of_build {aesGcm : Bytes → Except IoError (Vector UInt8 16)} {name : String}
    {profileKey : Bytes} {registrationId pniRegistrationId : UInt16} {attrs : AccountAttributes}
    (h : buildAccountAttributes aesGcm name profileKey registrationId pniRegistrationId =
      .ok attrs) :
    attrs.registrationId = registrationId.toUInt32 ∧
      attrs.pniRegistrationId = pniRegistrationId.toUInt32 ∧ attrs.name = name ∧
      ∃ uak, deriveUnidentifiedAccessKey aesGcm profileKey = .ok uak ∧
        attrs.unidentifiedAccessKey = Base64.encodePadded Base64.standard uak.toList := by
  unfold buildAccountAttributes at h
  rcases hUak : deriveUnidentifiedAccessKey aesGcm profileKey with e | uak
  · rw [hUak] at h
    cases h
  · rw [hUak] at h
    obtain rfl := Except.ok.inj h
    exact ⟨rfl, rfl, rfl, uak, rfl, rfl⟩

/-- The password is the Base64 of the bytes that were drawn. -/
theorem bytes_of_linkPassword {drawn : Option (Vector UInt8 18)} {password : String}
    (h : generateLinkPassword drawn = .ok password) :
    ∃ bytes, drawn = some bytes ∧
      Base64.decodePadded Base64.standard password = some bytes.toList := by
  cases drawn with
  | none => cases h
  | some bytes =>
    obtain rfl := Except.ok.inj h
    exact ⟨bytes, rfl, Base64.decodePadded_encodePadded (fun _ => Base64.standard_chr_ne) _⟩

variable {K}

/-- What an exchange leaves is what its request says. -/
theorem tells_of_exchange (hK : K.Lawful) {draws : LinkDraws K} {a : Account U}
    {deviceName : String} {msg : ProvisionMessage}
    {x : LinkAccepted.Exchange (linkServices K crates draws)} (hx : x.Of a deviceName msg)
    {login : String} (hLogin : login = msg.number ++ ".-1" ∨ login = msg.number) :
    Tells K crates draws deviceName msg x.linked
      ⟨login, x.password, .fromParts x.verificationCode x.attributes x.prekeys⟩ := by
  have hId : generateRegistrationId draws.registrationId = x.registrationId :=
    Except.ok.inj hx.registrationId
  have hPniId : generateRegistrationId draws.pniRegistrationId = x.pniRegistrationId :=
    Except.ok.inj hx.pniRegistrationId
  -- The ids are drawn and then brought into range.
  have hRange := registrationId_range draws.registrationId
  have hPniRange := registrationId_range draws.pniRegistrationId
  rw [hId] at hRange
  rw [hPniId] at hPniRange
  obtain ⟨hSent, hPniSent, hName, uak, hUak, hKey⟩ := attributes_of_build hx.attributes
  -- The access key is sent in Base64 with padding.
  have hDecoded : Base64.decodePadded Base64.standard x.attributes.unidentifiedAccessKey =
      some uak.toList := by
    rw [hKey]
    exact Base64.decodePadded_encodePadded (fun _ => Base64.standard_chr_ne) _
  exact {
    login := hLogin
    password := ⟨rfl, bytes_of_linkPassword hx.password⟩
    code := hx.verificationCode
    registrationId := ⟨hSent, hRange⟩
    pniRegistrationId := ⟨hPniSent, hPniRange⟩
    name := ⟨hName, hx.encryptedName⟩
    accessKey := ⟨x.profileKey, uak, hx.profileKey, hUak, hDecoded⟩
    prekeys := ⟨x.aciPrivate, x.pniPrivate, hx.aciPrivate, hx.pniPrivate,
      PrekeyLookup.generatePrekeys_spec hK hx.prekeys, rfl⟩ }

/-- The suffix of the first attempt's login has no colon either. -/
theorem free_suffix {number : String} (hNumber : ':' ∉ number.toList) :
    ':' ∉ (number ++ ".-1").toList := by
  rw [String.toList_append, List.mem_append, not_or]
  exact ⟨hNumber, by decide⟩

/-- **What the server reads of a link** that succeeds: the request it has
answered names the account, and says what the device keeps. -/
theorem link_request_read (hK : K.Lawful) {draws : LinkDraws K} {a : Account U}
    {deviceName : String} {msg : ProvisionMessage} {l : Linked L}
    (hNumber : ':' ∉ msg.number.toList)
    (h : upload (linkServices K crates draws) a deviceName msg = .ok l) :
    ∃ baseUrl header json response request,
      a.chatUrl = .ok baseUrl ∧
      Answered crates.http (crates.http.linkUrl baseUrl) json header response ∧
      response.deviceId = l.deviceId ∧ readRequest header json = some request ∧
      Tells K crates draws deviceName msg l request := by
  obtain ⟨x, hx, rfl⟩ := LinkAccepted.exchange_of_upload h
  rcases putDevicesLink_ok_iff.mp hx.response with hFirst | ⟨-, hSecond⟩
  · exact ⟨x.baseUrl, _, _, x.response, _, hx.baseUrl, hFirst, rfl,
      readRequest_eq (free_suffix hNumber) _ _, tells_of_exchange crates hK hx (.inl rfl)⟩
  · exact ⟨x.baseUrl, _, _, x.response, _, hx.baseUrl, hSecond, rfl,
      readRequest_eq hNumber _ _, tells_of_exchange crates hK hx (.inr rfl)⟩

-- ---------------------------------------------------------------------------
-- A link
-- ---------------------------------------------------------------------------

/-- A server that accepts the plain number only. -/
def plainNumberServer : HttpClient .plain where
  linkUrl := id
  put _ header _ := {
    dump := .device
    answer := if header = BasicAuth.header "+1" (Base64.encodePadded Base64.standard
        (List.replicate 18 7)) then .ok 200 (.ok "") else .status 403 ""
    errorDumped := false }
  parseResponse _ := .ok ⟨"aci", "pni", 2⟩

def plainCrates : LinkCrates .plain where
  primitives := ProvisionFormat.Primitives.plain
  aes256 := nameCipher
  aesGcm _ := .ok (Vector.replicate 16 0)
  http := plainNumberServer

def plainLinkDraws : LinkDraws PrekeyLookup.plainKeyGen where
  password := some (Vector.replicate 18 7)
  registrationId := 16380
  pniRegistrationId := 5
  ephemeral := ([3] : Bytes)
  prekeys := PrekeyLookup.plainDraws 1

def linkMessage : ProvisionMessage :=
  ⟨"+1", ⟨"aci", "", "AQ"⟩, ⟨"pni", "", "Ag"⟩,
    some (Base64.encode Base64.urlSafe (List.replicate 32 9)), some "a\"b", none⟩

/-- With these services the upload of the message succeeds. -/
theorem linkMessage_uploaded :
    ∃ l, upload (linkServices PrekeyLookup.plainKeyGen plainCrates plainLinkDraws) fresh "pc"
      linkMessage = .ok l := by
  have h : (upload (linkServices PrekeyLookup.plainKeyGen plainCrates plainLinkDraws) fresh "pc"
      linkMessage).map Linked.deviceId = .ok 2 := by
    decide +kernel
  exact exists_map_ok.mp ⟨_, h⟩

/-- The theorem for it: the second request is the one that is read. -/
theorem link_request_read_plain :
    ∃ l baseUrl header json response request,
      upload (linkServices PrekeyLookup.plainKeyGen plainCrates plainLinkDraws) fresh "pc"
        linkMessage = .ok l ∧
      fresh.chatUrl = .ok baseUrl ∧
      Answered plainNumberServer (plainNumberServer.linkUrl baseUrl) json header response ∧
      response.deviceId = l.deviceId ∧ readRequest header json = some request ∧
      Tells PrekeyLookup.plainKeyGen plainCrates plainLinkDraws "pc" linkMessage l request := by
  obtain ⟨l, hUpload⟩ := linkMessage_uploaded
  obtain ⟨baseUrl, header, json, response, request, h⟩ :=
    link_request_read plainCrates PrekeyLookup.plainKeyGen_lawful (by decide) hUpload
  exact ⟨l, baseUrl, header, json, response, request, hUpload, h⟩

end Sigchat.Results.LinkRequest

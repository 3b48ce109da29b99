import Sigchat.Lib.JsonRead
import Sigchat.Lib.Log
import Sigchat.Model.Account

/-!
# The link request

`rest.rs` and the attributes of `account_attrs.rs`: the body of
`PUT /v1/devices/link` as serde serialises it, the copy of it that is written
to a file, in which the verification code is replaced, and the client with the
lines it logs. `ureq`, the file system and the deserialiser are parameters
(`HttpClient`).
-/

namespace Sigchat.Rest

open Sigchat.Lib
open Sigchat.Pddb
open Sigchat.Accounts

-- ---------------------------------------------------------------------------
-- The body
-- ---------------------------------------------------------------------------

structure Capabilities where
  storage : Bool
  versionedExpirationTimer : Bool
  attachmentBackfill : Bool
  ssre2 : Bool
  spqr : Bool

structure AccountAttributes where
  signalingKey : Option String
  registrationId : UInt32
  voice : Bool
  video : Bool
  fetchesMessages : Bool
  registrationLock : Option String
  unidentifiedAccessKey : String
  unrestrictedUnidentifiedAccess : Bool
  discoverableByPhoneNumber : Bool
  capabilities : Capabilities
  name : String
  pniRegistrationId : UInt32
  recoveryPassword : Option String

def Capabilities.toJson (c : Capabilities) : List Char :=
  Json.object [
    ("storage", Json.bool c.storage),
    ("versionedExpirationTimer", Json.bool c.versionedExpirationTimer),
    ("attachmentBackfill", Json.bool c.attachmentBackfill),
    ("ssre2", Json.bool c.ssre2),
    ("spqr", Json.bool c.spqr)]

def AccountAttributes.toJson (a : AccountAttributes) : List Char :=
  Json.object [
    ("signalingKey", Json.optional a.signalingKey),
    ("registrationId", Json.number a.registrationId.toNat),
    ("voice", Json.bool a.voice),
    ("video", Json.bool a.video),
    ("fetchesMessages", Json.bool a.fetchesMessages),
    ("registrationLock", Json.optional a.registrationLock),
    ("unidentifiedAccessKey", Json.quote a.unidentifiedAccessKey),
    ("unrestrictedUnidentifiedAccess", Json.bool a.unrestrictedUnidentifiedAccess),
    ("discoverableByPhoneNumber", Json.bool a.discoverableByPhoneNumber),
    ("capabilities", a.capabilities.toJson),
    ("name", Json.quote a.name),
    ("pniRegistrationId", Json.number a.pniRegistrationId.toNat),
    ("recoveryPassword", Json.optional a.recoveryPassword)]

/-- `SignedPreKeyEntity` and `KyberPreKeyEntity`. -/
def preKeyEntity (k : PreKeyJson) : List Char :=
  Json.object [
    ("keyId", Json.number k.keyId.toNat),
    ("publicKey", Json.quote k.publicKey),
    ("signature", Json.quote k.signature)]

abbrev Body := LinkDeviceRequestBody AccountAttributes

/-- The fields in the order of the struct. `gcmToken` is none and skipped. -/
def bodyJson (body : Body) : List Char :=
  Json.object [
    ("verificationCode", Json.quote body.verificationCode),
    ("accountAttributes", body.accountAttributes.toJson),
    ("aciSignedPreKey", preKeyEntity body.aciSignedPreKey),
    ("pniSignedPreKey", preKeyEntity body.pniSignedPreKey),
    ("aciPqLastResortPreKey", preKeyEntity body.aciPqLastResortPreKey),
    ("pniPqLastResortPreKey", preKeyEntity body.pniPqLastResortPreKey)]

/-- `serde_json::to_string`; it does not fail on these types. -/
def toJsonString (body : Body) : String := String.ofList (bodyJson body)

-- ---------------------------------------------------------------------------
-- Redaction
-- ---------------------------------------------------------------------------

def codeKey : List Char := "\"verificationCode\":\"".toList

def redactionText : String := "<redacted>"

/-- `redact_verification_code`: the value is taken to end at the next quote. -/
def redactVerificationCode (json : String) : String :=
  match splitAtFirst codeKey json.toList with
  | none => json
  | some (before, value) =>
    if '"' ∈ value then
      String.ofList
        (before ++ codeKey ++ redactionText.toList ++ value.dropWhile (· ≠ '"'))
    else json

-- ---------------------------------------------------------------------------
-- The attributes
-- ---------------------------------------------------------------------------

/-- `derive_unidentified_access_key`; `aesGcm` makes the first block of the
ciphertext of zeros. The kind `InvalidInput` is told apart nowhere. -/
def deriveUnidentifiedAccessKey (aesGcm : Bytes → Except IoError (Vector UInt8 16))
    (profileKey : Bytes) : Except IoError (Vector UInt8 16) :=
  if profileKey.length ≠ 32 then .error ⟨.other, "profile_key must be 32 bytes"⟩
  else aesGcm profileKey

def buildAccountAttributes (aesGcm : Bytes → Except IoError (Vector UInt8 16))
    (encryptedDeviceNameB64 : String) (profileKey : Bytes)
    (registrationId pniRegistrationId : UInt16) : Except IoError AccountAttributes :=
  (deriveUnidentifiedAccessKey aesGcm profileKey).map fun uak =>
    { signalingKey := none
      registrationId := registrationId.toUInt32
      voice := true
      video := true
      fetchesMessages := true
      registrationLock := none
      unidentifiedAccessKey := Base64.encodePadded Base64.standard uak.toList
      unrestrictedUnidentifiedAccess := false
      discoverableByPhoneNumber := false
      capabilities := ⟨true, true, true, true, true⟩
      name := encryptedDeviceNameB64
      pniRegistrationId := pniRegistrationId.toUInt32
      recoveryPassword := none }

-- ---------------------------------------------------------------------------
-- The response
-- ---------------------------------------------------------------------------

/-- `de_u32_from_str_or_num`: `visit_u64` gets the numbers that are written in
digits only, `visit_str` the strings. -/
def deU32FromStrOrNum : Json.Value → Option UInt32
  | .num text => if text.all Char.isDigit then parseDeviceId (String.ofList text) else none
  | .str s => parseDeviceId s
  | _ => none

/-- The fields of a `LinkDeviceResponse` that have been read. -/
structure SeenFields where
  uuid : Option String
  pni : Option String
  deviceId : Option UInt32

/-- One turn of the loop that serde derives. A known field must be new; the
value of any other is skipped. -/
def SeenFields.visit (seen : SeenFields) (field : String × Json.Value) : Option SeenFields :=
  let (name, value) := field
  if name = "uuid" then
    if seen.uuid.isSome then none else value.asString.map fun s => { seen with uuid := some s }
  else if name = "pni" then
    if seen.pni.isSome then none else value.asString.map fun s => { seen with pni := some s }
  else if name = "deviceId" then
    if seen.deviceId.isSome then none
    else (deU32FromStrOrNum value).map fun n => { seen with deviceId := some n }
  else some seen

/-- No field has a default. -/
def SeenFields.finish (seen : SeenFields) : Option LinkDeviceResponse := do
  let uuid ← seen.uuid
  let pni ← seen.pni
  let deviceId ← seen.deviceId
  return { uuid, pni, deviceId }

/-- The derived deserialiser; it takes the values of an array in the order of
the struct. -/
def deserializeResponse : Json.Value → Option LinkDeviceResponse
  | .obj fields => (fields.foldlM SeenFields.visit ⟨none, none, none⟩).bind SeenFields.finish
  | .arr [uuid, pni, deviceId] => do
    let uuid ← uuid.asString
    let pni ← pni.asString
    let deviceId ← deU32FromStrOrNum deviceId
    return { uuid, pni, deviceId }
  | _ => none

/-- The fields whose values are skipped. -/
def skipsField (name : String) : Bool := name ∉ ["uuid", "pni", "deviceId"]

/-- `serde_json::from_str`, with the texts of its errors. -/
def parseResponse (errorText : String → String) (text : String) :
    Except String LinkDeviceResponse :=
  match (Json.parseStruct skipsField text).bind deserializeResponse with
  | some response => .ok response
  | none => .error (errorText text)

-- ---------------------------------------------------------------------------
-- The client
-- ---------------------------------------------------------------------------

/-- What becomes of the copy of the body: there is none on the device. -/
inductive Dump where
  | device
  | written
  | createFailed (e : String)
  | writeFailed (e : String)

/-- What `ureq` returns, with the texts of its errors. -/
inductive Answer where
  | ok (status : Nat) (body : Except String String)
  | status (code : Nat) (body : String)
  | transport (e : String)

/-- The outcomes of one `try_put`. -/
structure Attempt where
  dump : Dump
  answer : Answer
  /-- The body of an error response was written to a file. -/
  errorDumped : Bool

structure HttpClient (U : UrlCrate) where
  /-- The base URL with the path `/v1/devices/link`, as text. -/
  linkUrl : U.Url → String
  /-- Arguments: URL, `Authorization` header, body. -/
  put : String → String → String → Attempt
  parseResponse : String → Except String LinkDeviceResponse

/-- The kinds of error that `try_put` makes. -/
inductive PutErrorKind where
  | permissionDenied
  | invalidData
  | other
  deriving DecidableEq

structure PutError where
  kind : PutErrorKind
  msg : String

/-- Outside `put_devices_link`, `PermissionDenied` is told apart nowhere. -/
def PutError.toIoError (e : PutError) : IoError :=
  ⟨if e.kind = .invalidData then .invalidData else .other, e.msg⟩

def basicAuthHeader (identifier password : String) : String :=
  "Basic " ++ Base64.encodePadded Base64.standard (utf8 (identifier ++ ":" ++ password))

/-- The first 200 characters of a body. -/
def previewOf (body : String) : String := String.ofList (body.toList.take 200)

def dumpLine (dump : Dump) (len : Nat) : Line :=
  let path := "/tmp/sigchat-link-body.json"
  match dump with
  | .device => ⟨.info, s!"link request body len={len}"⟩
  | .written => ⟨.info, s!"link request body dumped to {path} (len={len})"⟩
  | .createFailed e => ⟨.warn, s!"body file create failed: {e}"⟩
  | .writeFailed e => ⟨.warn, s!"body file write failed: {e}"⟩

def statusError (code : Nat) (preview : String) : PutErrorKind × String :=
  match code with
  | 403 => (.permissionDenied,
      s!"403: auth wrong (verificationCode or Authorization header). body[0..200]={preview}")
  | 409 => (.other,
      s!"409: missing capability — check spqr=true in request. body[0..200]={preview}")
  | 411 => (.other, s!"411: account has max linked devices. body[0..200]={preview}")
  | 422 => (.invalidData,
      s!"422: malformed body — check field names vs spec §4. body[0..200]={preview}")
  | 429 => (.other, s!"429: rate limited — wait before retrying. body[0..200]={preview}")
  | n => (.other, s!"unexpected status {n}. body[0..200]={preview}")

section Client

variable {U : UrlCrate} (H : HttpClient U)

/-- What `try_put` makes of the answer. -/
def readAnswer (url : String) (errorDumped : Bool) :
    Answer → Emit Line PutError LinkDeviceResponse
  | .ok status body => do
    Emit.log ⟨.info, s!"PUT {url} -> {status}"⟩
    match body with
    | .error e =>
      Emit.log ⟨.error, s!"read response body: {e}"⟩
      Emit.fail ⟨.invalidData, "failed to read response body"⟩
    | .ok text =>
      match H.parseResponse text with
      | .error e =>
        let preview := previewOf text
        Emit.log ⟨.error, s!"parse LinkDeviceResponse: {e}; body[0..200]={preview}"⟩
        Emit.fail ⟨.invalidData, "failed to parse link response"⟩
      | .ok response => return response
  | .status code text => do
    let errPath := "/tmp/sigchat-link-error-body.txt"
    let len := text.utf8ByteSize
    if errorDumped then
      Emit.log ⟨.info, s!"server {code} error body dumped to {errPath} (len={len})"⟩
    let (kind, message) := statusError code (previewOf text)
    Emit.log ⟨.error, message⟩
    Emit.fail ⟨kind, s!"HTTP {code}"⟩
  | .transport e => do
    Emit.log ⟨.error, s!"transport error during PUT: {e}"⟩
    Emit.fail ⟨.other, "transport error"⟩

/-- `try_put`; the serialisation does not fail. -/
def tryPut (url authValue : String) (body : Body) : Emit Line PutError LinkDeviceResponse := do
  let json := toJsonString body
  let attempt := H.put url authValue json
  Emit.log (dumpLine attempt.dump json.utf8ByteSize)
  readAnswer H url attempt.errorDumped attempt.answer

/-- `put_devices_link`: after a 403 once more, without the suffix. -/
def putDevicesLink (baseUrl : U.Url) (phoneNumber password : String) (body : Body) :
    Emit Line IoError LinkDeviceResponse := do
  let url := H.linkUrl baseUrl
  let identifier := phoneNumber ++ ".-1"
  Emit.log ⟨.info,
    s!"PUT {url} with Basic auth for identifier={identifier} (password redacted)"⟩
  (tryPut H url (basicAuthHeader identifier password) body).handle fun e =>
    if e.kind = .permissionDenied then do
      Emit.log ⟨.warn, "first PUT returned 403; retrying once without .-1 suffix, " ++
        s!"identifier={phoneNumber}"⟩
      (tryPut H url (basicAuthHeader phoneNumber password) body).handle fun e =>
        Emit.fail e.toIoError
    else Emit.fail e.toIoError

end Client

end Sigchat.Rest

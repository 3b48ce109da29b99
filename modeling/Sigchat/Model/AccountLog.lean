import Sigchat.Lib.Debug
import Sigchat.Model.Rest

/-!
# The lines the account logs

`account.rs` once more, with its log lines: `get` and `set` log every value they
read or write, `link` what it has checked and the server's answer. Without the
lines these are the functions of the model (`erase_read`, `erase_new`,
`erase_link`), and `rest.rs` is the client it calls.

How values of libraries are printed is a parameter (`Texts`).
-/

namespace Sigchat.AccountLog

open Sigchat.Lib
open Sigchat.Pddb
open Sigchat.Signal
open Sigchat.Stores
open Sigchat.Accounts
open Sigchat.Rest

/-- How values of libraries are printed. -/
structure Texts where
  /-- The characters that `{:?}` escapes by their number. -/
  unicode : Char → Bool
  /-- `{:?}` of the `Utf8Error` for bytes that are not UTF-8. -/
  utf8Error : Bytes → String
  /-- `{:?}` of an `io::Error`. -/
  ioError : IoError → String
  /-- A `base64::DecodeError`, for the text that does not decode. -/
  decodeError : String → String
  /-- A `url::ParseError`. -/
  urlError : String → String

variable (T : Texts)

-- ---------------------------------------------------------------------------
-- Reading and writing one key
-- ---------------------------------------------------------------------------

def getLine (key : Key) (value : Option String) : Line :=
  ⟨.info, "get '" ++ key.name ++ "' = '" ++ Debug.option T.unicode value ++ "'"⟩

def setLine (key : Key) (value : Option String) : Line :=
  ⟨.info, "set '" ++ key.name ++ "' = '" ++ Debug.option T.unicode value ++ "'"⟩

/-- `{:?}` of a `FromUtf8Error`. -/
def fromUtf8Error (bs : Bytes) : String :=
  "FromUtf8Error \x7b bytes: " ++ String.ofList (Debug.bytes bs) ++
    (", error: " ++ T.utf8Error bs ++ " \x7d")

/-- The bytes of a key as text. -/
def textOfBuffer (buf : Bytes) : Logged Line Resp (Option String) :=
  match fromUtf8 buf with
  | some s => return some s
  | none => do
    Logged.log ⟨.warn, "failed to String: " ++ fromUtf8Error T buf⟩
    return none

def readValue (dict : String) (key : Key) : Logged Line Resp (Option String) := do
  match ← Logged.request (Req.get dict key.name false) with
  | .error _ => return none
  | .ok () =>
    match ← Logged.request (Req.read dict key.name 0 256) with
    | .error e =>
      Logged.log ⟨.warn, "failed pddb_key read: " ++ T.ioError e⟩
      return none
    | .ok buf => textOfBuffer T buf

def get (dict : String) (key : Key) : Logged Line Resp (Option String) := do
  let value ← readValue T dict key
  Logged.log (getLine T key value)
  return value

def writeValue (dict : String) (key : Key) (value : String) :
    Logged Line Resp (Except IoError Unit) := do
  match ← Logged.request (Req.write dict key.name 0 (utf8 value)) with
  | .error e =>
    Logged.log ⟨.warn, "Error writing " ++ dict ++ ":" ++ key.name ++ " " ++ T.ioError e⟩
    return .ok ()
  | .ok len =>
    let _ ← Logged.request Req.sync
    Logged.log ⟨.trace, "Wrote " ++ decimal len ++ " bytes to " ++ dict ++ ":" ++ key.name⟩
    return .ok ()

def set (dict : String) (key : Key) (value : Option String) :
    Logged Line Resp (Except IoError Unit) := do
  Logged.log (setLine T key value)
  let _ ← Logged.request (Req.deleteKey dict key.name)
  match value with
  | none => return .ok ()
  | some value =>
    match ← Logged.request (Req.get dict key.name true) with
    | .error e =>
      Logged.log ⟨.warn, "failed to set pddb " ++ dict ++ ":" ++ key.name ++ "  " ++ T.ioError e⟩
      return .ok ()
    | .ok () => writeValue T dict key value

theorem erase_textOfBuffer (buf : Bytes) : (textOfBuffer T buf).erase = .done (fromUtf8 buf) := by
  unfold textOfBuffer
  cases fromUtf8 buf <;> rfl

/-- Reading a value is the `get` of the model. -/
theorem erase_readValue (dict : String) (key : Key) :
    (readValue T dict key).erase = Accounts.get dict key := by
  unfold readValue
  rw [Logged.erase_request_bind]
  refine congrArg (Prog.call _) (funext fun opened => ?_)
  cases opened with
  | error e => rfl
  | ok _ =>
    rw [Logged.erase_request_bind]
    refine congrArg (Prog.call _) (funext fun got => ?_)
    cases got with
    | error e => rfl
    | ok buf => exact erase_textOfBuffer T buf

theorem erase_get (dict : String) (key : Key) : (get T dict key).erase = Accounts.get dict key := by
  rw [get, Logged.erase_bind, erase_readValue]
  exact Prog.bind_done _

theorem erase_writeValue (dict : String) (key : Key) (value : String) :
    (writeValue T dict key value).erase = Accounts.writeValue dict key value := by
  unfold writeValue
  rw [Logged.erase_request_bind]
  refine congrArg (Prog.call _) (funext fun written => ?_)
  cases written <;> rfl

/-- **`set`** with its lines is the `set` of the model. -/
theorem erase_set (dict : String) (key : Key) (value : Option String) :
    (set T dict key value).erase = Accounts.set dict key value := by
  unfold set
  rw [Logged.erase_log_bind, Logged.erase_request_bind]
  refine congrArg (Prog.call _) (funext fun deleted => ?_)
  cases value with
  | none => rfl
  | some value =>
    rw [Logged.erase_request_bind]
    refine congrArg (Prog.call _) (funext fun opened => ?_)
    cases opened with
    | error e => rfl
    | ok _ => exact erase_writeValue T dict key value

-- ---------------------------------------------------------------------------
-- Reading and creating the account
-- ---------------------------------------------------------------------------

section Whole

variable {U : UrlCrate}

def getAll (dict : String) : List Key → Logged Line Resp (Key → Option String)
  | [] => return fun _ => none
  | k :: ks => do
    let text ← get T dict k
    let rest ← getAll dict ks
    return fun k' => if k' = k then text else rest k'

/-- `Account::read`. -/
def read (dict : String) : Logged Line Resp (Except Panic (Except IoError (Account U))) := do
  return ofTexts dict (← getAll T dict loadedKeys)

def setAll (dict : String) : List (Key × Option String) → Logged Line Resp (Except IoError Unit)
  | [] => return .ok ()
  | (k, v) :: kvs => do
    match ← set T dict k v with
    | .error e => return .error e
    | .ok () => setAll dict kvs

/-- `Account::new`. -/
def new (dict : String) (host : U.Host) (serviceEnvironment : ServiceEnvironment) :
    Logged Line Resp (Except Panic (Except IoError (Account U))) := do
  match ← setAll T dict (defaults host serviceEnvironment) with
  | .error e => return .ok (.error e)
  | .ok () => read T dict

/-- All the keys of an account are read in the same order. -/
theorem erase_getAll (dict : String) (ks : List Key) :
    (getAll T dict ks).erase = Accounts.getAll dict ks := by
  induction ks with
  | nil => rfl
  | cons k ks ih =>
    simp only [getAll, Accounts.getAll, Logged.erase_bind, erase_get, ih, Logged.erase_pure]
    rfl

/-- **`Account::read`** with its lines is that of the model. -/
theorem erase_read (dict : String) :
    (read T dict : Logged Line Resp (Except Panic (Except IoError (Account U)))).erase =
      Accounts.read dict := by
  rw [read, Logged.erase_bind, erase_getAll]
  rfl

/-- All the values of a new account are written in the same order. -/
theorem erase_setAll (dict : String) (kvs : List (Key × Option String)) :
    (setAll T dict kvs).erase = Accounts.setAll dict kvs := by
  induction kvs with
  | nil => rfl
  | cons kv kvs ih =>
    obtain ⟨k, v⟩ := kv
    rw [setAll, Accounts.setAll, Logged.erase_bind, erase_set]
    refine congrArg _ (funext fun result => ?_)
    cases result with
    | error e => rfl
    | ok _ => exact ih

/-- **`Account::new`** with its lines is that of the model. -/
theorem erase_new (dict : String) (host : U.Host) (serviceEnvironment : ServiceEnvironment) :
    (new T dict host serviceEnvironment).erase = Accounts.new dict host serviceEnvironment := by
  rw [new, Accounts.new, Logged.erase_bind, erase_setAll]
  refine congrArg _ (funext fun result => ?_)
  cases result with
  | error e => rfl
  | ok _ => exact erase_read T dict

end Whole

-- ---------------------------------------------------------------------------
-- Setting values
-- ---------------------------------------------------------------------------

section Setting

variable {U : UrlCrate} {L : Libsignal}

/-- `Account::set`. -/
def accountSet (a : Account U) (key : Key) (value : Option String) :
    Logged Line Resp (Except Panic (Except IoError Unit × Account U)) := do
  match ← set T a.pddbDict key value with
  | .error e => return .ok (.error e, a)
  | .ok () =>
    match a.arm key value with
    | some r => return r.map fun a' => (.ok (), a')
    | none =>
      Logged.log ⟨.warn, "invalid key: " ++ key.name⟩
      let _ ← Logged.request (Req.deleteKey a.pddbDict key.name)
      return .ok (.error (IoError.ofKind .notFound), a)

def setValues (a : Account U) : List (Key × Option String) →
    Logged Line Resp (Except Panic (Except IoError Unit × Account U))
  | [] => return .ok (.ok (), a)
  | (k, v) :: kvs => do
    match ← accountSet T a k v with
    | .error p => return .error p
    | .ok (.error e, a') => return .ok (.error e, a')
    | .ok (.ok (), a') => setValues a' kvs

/-- The prekeys are saved by another file. -/
def saveLinked (a : Account U) (msg : ProvisionMessage) (l : Linked L) :
    Logged Line Resp (Except Panic (Except IoError Bool × Account U)) := do
  match ← setValues T a (linkValues msg l) with
  | .error p => return .error p
  | .ok (.error e, a') => return .ok (.error e, a')
  | .ok (.ok (), a') =>
    match ← Logged.silent (saveToPddb l.generated) with
    | .error e => return .ok (.error e, a')
    | .ok () => return .ok (.ok true, a')

/-- **`Account::set`** with its lines is that of the model. -/
theorem erase_accountSet (a : Account U) (key : Key) (value : Option String) :
    (accountSet T a key value).erase = a.set key value := by
  rw [accountSet, Account.set, Logged.erase_bind, erase_set]
  refine congrArg _ (funext fun result => ?_)
  cases result with
  | error e => rfl
  | ok _ => cases a.arm key value <;> rfl

/-- The values that linking stores are stored in the same order. -/
theorem erase_setValues (a : Account U) (kvs : List (Key × Option String)) :
    (setValues T a kvs).erase = a.setValues kvs := by
  induction kvs generalizing a with
  | nil => rfl
  | cons kv kvs ih =>
    obtain ⟨k, v⟩ := kv
    rw [setValues, Account.setValues, Logged.erase_bind, erase_accountSet]
    refine congrArg _ (funext fun result => ?_)
    rcases result with p | ⟨e | _, a'⟩
    · rfl
    · rfl
    · exact ih a'

/-- What follows the answer of the server. -/
theorem erase_saveLinked (a : Account U) (msg : ProvisionMessage) (l : Linked L) :
    (saveLinked T a msg l).erase = a.saveLinked msg l := by
  rw [saveLinked, Account.saveLinked, Logged.erase_bind, erase_setValues]
  refine congrArg _ (funext fun result => ?_)
  rcases result with p | ⟨e | _, a'⟩
  · rfl
  · rfl
  · refine (Logged.erase_bind ..).trans ?_
    rw [Logged.erase_silent]
    refine congrArg _ (funext fun saved => ?_)
    cases saved <;> rfl

end Setting

-- ---------------------------------------------------------------------------
-- Linking
-- ---------------------------------------------------------------------------

section Linking

variable {U : UrlCrate} {L : Libsignal}

/-- What linking obtains elsewhere, as in `LinkServices`, down to the calls whose
outcomes are logged. -/
structure Services (U : UrlCrate) (L : Libsignal) where
  texts : Texts
  generateLinkPassword : Except IoError String
  registrationId : Except IoError UInt16
  pniRegistrationId : Except IoError UInt16
  encryptDeviceName : String → String → Except IoError String
  aesGcm : Bytes → Except IoError (Vector UInt8 16)
  derivePublic : L.PrivateKey → SignalResult L.PublicKey
  generatePrekeys : L.PrivateKey → L.PrivateKey → Except IoError (Prekeys L)
  http : HttpClient U

def Services.toLinkServices (S : Services U L) : LinkServices U L where
  generateLinkPassword := S.generateLinkPassword
  registrationId := S.registrationId
  pniRegistrationId := S.pniRegistrationId
  encryptDeviceName := S.encryptDeviceName
  Attributes := AccountAttributes
  buildAccountAttributes := buildAccountAttributes S.aesGcm
  generatePrekeys := S.generatePrekeys
  putDevicesLink url number password body :=
    (putDevicesLink S.http url number password body).result

/-- `ok_or_else` and `map_err` with an error line. -/
def orLog {α : Type} (x : Option α) (message : String) (e : IoError) : Emit Line IoError α :=
  match x with
  | some a => return a
  | none => do
    Emit.log ⟨.error, message⟩
    Emit.fail e

def decodePrivateKey (keyB64url label : String) : Emit Line IoError L.PrivateKey := do
  let bytes ← orLog (Base64.decode Base64.urlSafe keyB64url)
    (label ++ " private key base64 decode: " ++ T.decodeError keyB64url)
    ⟨.invalidData, "identity private key not valid base64"⟩
  match L.privateKeyDeserialize bytes with
  | .error e =>
    Emit.log ⟨.error, label ++ " private key deserialize: " ++ L.debug e⟩
    Emit.fail ⟨.invalidData, "identity private key invalid"⟩
  | .ok key => return key

/-- The public key derived from a private key, against that of the message. -/
def identityChainLine (L : Libsignal) (label : String) (derived : SignalResult L.PublicKey)
    (expectedPubB64url : String) : Line :=
  match derived with
  | .ok derivedPub =>
    let derivedB64 := Base64.encode Base64.urlSafe (L.publicKeySerialize derivedPub)
    if derivedB64 = expectedPubB64url then
      ⟨.info, label ++ " identity chain OK: derived pub matches ProvisionMessage pub"⟩
    else
      ⟨.error, label ++ s!" identity chain BROKEN: derived_pub={derivedB64}, " ++
        s!"provision_pub={expectedPubB64url}"⟩
  | .error e => ⟨.error, label ++ " public_key derivation failed: " ++ L.debug e⟩

def chatUrl (a : Account U) : Emit Line IoError U.Url :=
  let base := "https://" ++ a.chatHost
  orLog (U.parseUrl base) ("invalid chat URL " ++ base ++ ": " ++ T.urlError base)
    ⟨.invalidData, "invalid chat URL"⟩

/-- What is there before the request is sent. -/
structure Prepared (U : UrlCrate) (L : Libsignal) where
  password : String
  registrationId : UInt16
  pniRegistrationId : UInt16
  encryptedName : String
  profileKey : String
  generated : Prekeys L
  baseUrl : U.Url
  body : Body

variable (S : Services U L)

/-- `Account::link` up to the request. -/
def prepare (a : Account U) (deviceName : String) (msg : ProvisionMessage) :
    Emit Line IoError (Prepared U L) := do
  let verificationCode ← orLog msg.provisioningCode
    "ProvisionMessage missing provisioningCode (tag 4) — cannot link"
    ⟨.invalidData, "missing provisioningCode"⟩
  let profileKey ← orLog msg.profileKey "ProvisionMessage missing profile_key — cannot derive UAK"
    ⟨.invalidData, "missing profile_key"⟩
  let profileKeyBytes ← orLog (Base64.decode Base64.urlSafe profileKey)
    ("profile_key base64 decode: " ++ S.texts.decodeError profileKey)
    ⟨.invalidData, "profile_key not valid base64"⟩
  let password ← Emit.silent S.generateLinkPassword
  let registrationId ← Emit.silent S.registrationId
  let pniRegistrationId ← Emit.silent S.pniRegistrationId
  let encryptedName ← Emit.silent (S.encryptDeviceName deviceName msg.aci.djbPrivateKey)
  let attrs ← Emit.silent
    (buildAccountAttributes S.aesGcm encryptedName profileKeyBytes registrationId pniRegistrationId)
  let aciPriv ← decodePrivateKey (L := L) S.texts msg.aci.djbPrivateKey "aci"
  let pniPriv ← decodePrivateKey (L := L) S.texts msg.pni.djbPrivateKey "pni"
  Emit.log (identityChainLine L "aci" (S.derivePublic aciPriv) msg.aci.djbIdentityKey)
  Emit.log (identityChainLine L "pni" (S.derivePublic pniPriv) msg.pni.djbIdentityKey)
  let generated ← Emit.silent (S.generatePrekeys aciPriv pniPriv)
  let baseUrl ← chatUrl S.texts a
  return {
    password, registrationId, pniRegistrationId, encryptedName, profileKey, generated, baseUrl
    body := {
      verificationCode
      accountAttributes := attrs
      aciSignedPreKey := generated.aciSigned
      pniSignedPreKey := generated.pniSigned
      aciPqLastResortPreKey := generated.aciKyberLastResort
      pniPqLastResortPreKey := generated.pniKyberLastResort } }

/-- A service id the server reports otherwise than the message does; an empty one
of the message is not compared. -/
def logDiffering (server label ours theirs : String) : Emit Line IoError Unit :=
  if ours ≠ theirs ∧ theirs ≠ "" then
    Emit.log ⟨.warn, s!"server {server} ({ours}) differs from ProvisionMessage " ++
      s!"{label} ({theirs}); using ProvisionMessage value"⟩
  else return ()

/-- `Account::link` up to the server's answer. -/
def upload (a : Account U) (deviceName : String) (msg : ProvisionMessage) :
    Emit Line IoError (Linked L) := do
  let q ← prepare S a deviceName msg
  let response ← putDevicesLink S.http q.baseUrl msg.number q.password q.body
  let deviceId := decimal response.deviceId.toNat
  let uuid := response.uuid
  let pni := response.pni
  Emit.log ⟨.info, s!"device linked: device_id={deviceId}, uuid={uuid}, pni={pni}"⟩
  logDiffering "uuid" "aci.service_id" uuid msg.aci.serviceId
  logDiffering "pni" "pni.service_id" pni msg.pni.serviceId
  return ⟨q.password, q.registrationId, q.pniRegistrationId, q.encryptedName, q.profileKey,
    response.deviceId, q.generated⟩

/-- `Account::link`. -/
def link (a : Account U) (deviceName : String) (msg : ProvisionMessage) :
    Logged Line Resp (Except Panic (Except IoError Bool × Account U)) :=
  if a.isPrimaryDevice then do
    Logged.log ⟨.warn, "failed to link device as already registered as primary"⟩
    return .ok (.ok false, a)
  else do
    let sent := upload S a deviceName msg
    Logged.emit sent.lines
    match sent.result with
    | .error e => return .ok (.error e, a)
    | .ok l => saveLinked S.texts a msg l

theorem result_orLog_some {α : Type} (a : α) (message : String) (e : IoError) :
    (orLog (some a) message e).result = .ok a := rfl

/-- Decoding a key gives what it gives without lines. -/
theorem result_decodePrivateKey (keyB64url label : String) :
    (decodePrivateKey T keyB64url label : Emit Line IoError L.PrivateKey).result =
      Accounts.decodePrivateKey keyB64url := by
  rw [decodePrivateKey, Accounts.decodePrivateKey, Emit.result_bind]
  rcases Base64.decode Base64.urlSafe keyB64url with _ | bytes
  · rfl
  · simp only [result_orLog_some, ok_bind]
    rcases L.privateKeyDeserialize bytes with e | key <;> rfl

theorem result_chatUrl (a : Account U) : (chatUrl T a).result = a.chatUrl := by
  rw [chatUrl, Account.chatUrl]
  cases U.parseUrl ("https://" ++ a.chatHost) <;> rfl

theorem result_logDiffering (server label ours theirs : String) :
    (logDiffering server label ours theirs).result = .ok () := by
  unfold logDiffering
  split <;> rfl

/-- The part of `link` before anything is stored. -/
theorem result_upload (a : Account U) (deviceName : String) (msg : ProvisionMessage) :
    (upload S a deviceName msg).result = Accounts.upload S.toLinkServices a deviceName msg := by
  unfold upload prepare Accounts.upload
  rcases hCode : msg.provisioningCode with _ | code
  · rfl
  rcases hProfile : msg.profileKey with _ | profileKey
  · rfl
  simp only [Emit.result_bind, result_orLog_some, ok_bind]
  rcases hBytes : Base64.decode Base64.urlSafe profileKey with _ | profileKeyBytes
  · rfl
  simp only [result_orLog_some, ok_bind, bind_assoc, result_decodePrivateKey, result_chatUrl,
    result_logDiffering]
  rfl

/-- **`Account::link`** with its lines is that of the model. -/
theorem erase_link (a : Account U) (deviceName : String) (msg : ProvisionMessage) :
    (link S a deviceName msg).erase = a.link S.toLinkServices deviceName msg := by
  rw [link, Account.link, ← result_upload]
  by_cases hPrimary : a.isPrimaryDevice = true
  · rw [if_pos hPrimary, if_pos hPrimary]
    rfl
  · rw [if_neg hPrimary, if_neg hPrimary, Logged.erase_bind, Logged.erase_emit]
    cases (upload S a deviceName msg).result with
    | error e => rfl
    | ok l => exact erase_saveLinked S.texts a msg l

end Linking

end Sigchat.AccountLog

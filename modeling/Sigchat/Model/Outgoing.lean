import Sigchat.Lib.Wire
import Sigchat.Model.Stores

/-!
# Outgoing messages

`outgoing.rs`: padding, the encryption of a message for a peer, and the default
recipient the receive path records.
-/

namespace Sigchat.Outgoing

open Sigchat.Lib
open Sigchat.Lib.Wire
open Sigchat.Pddb
open Sigchat.Signal
open Sigchat.Stores

-- ---------------------------------------------------------------------------
-- Constants and messages
-- ---------------------------------------------------------------------------

def dialogueDict : String := "sigchat.dialogue"
def defaultPeerKey : String := "default.peer"
def aciServiceIdKey : String := "aci.service_id"
def deviceIdKey : String := "device_id"

def envelopeCiphertext : Int := 1
def envelopePrekeyBundle : Int := 3

structure DataMessageProto where
  body : Option String
  timestamp : Option UInt64

def DataMessageProto.fields (m : DataMessageProto) : List Field :=
  textField 1 m.body ++ uint64Field 5 m.timestamp

structure ContentProto where
  dataMessage : Option DataMessageProto

def ContentProto.encode (m : ContentProto) : Bytes :=
  encodeFields (messageField 1 (m.dataMessage.map DataMessageProto.fields))

structure EncryptedMessage where
  ciphertextBytes : Bytes
  ciphertextType : Int
  destinationDeviceId : Nat
  destinationRegistrationId : Nat
  timestampMs : UInt64

inductive OutgoingError where
  | pddb (text : String)
  | noRecipient
  | noLocalAccount (text : String)
  | sessionLoad (text : String)
  | noSession
  | registrationId (text : String)
  | encrypt (text : String)
  | unsupportedCiphertextType (text : String)
  | badDeviceId (id : Nat)
  deriving DecidableEq

-- ---------------------------------------------------------------------------
-- Padding
-- ---------------------------------------------------------------------------

/-- Push zeros until the length is a multiple of 160; `fuel` bounds them. -/
def padLoop : Nat → Bytes → Bytes
  | 0, content => content
  | fuel + 1, content => if content.length % 160 ≠ 0 then padLoop fuel (content ++ [0]) else content

def signalPad (content : Bytes) : Bytes := padLoop 160 (content ++ [0x80])

-- ---------------------------------------------------------------------------
-- Encryption
-- ---------------------------------------------------------------------------

section Encryption

variable {L : Libsignal} (P : Protocol L)

/-- The content of a text message. -/
def messageContent (plaintextBody : String) (timestampMs : UInt64) : Bytes :=
  ContentProto.encode ⟨some ⟨some plaintextBody, some timestampMs⟩⟩

/-- `format!("{:?}", message_type)` of the variants that are not sent. -/
def ciphertextResult : CiphertextMessage → Except OutgoingError (Bytes × Int)
  | .signalMessage bs => .ok (bs, envelopeCiphertext)
  | .preKeySignalMessage bs => .ok (bs, envelopePrekeyBundle)
  | .senderKeyMessage _ => .error (.unsupportedCiphertextType "SenderKey")
  | .plaintextContent _ => .error (.unsupportedCiphertextType "Plaintext")

/-- The stores are abstract here; `now` and `rng` are what the call reads of
the clock and the random number generator. -/
def buildEncryptedMessageWithStores (plaintextBody : String) (timestampMs : UInt64)
    (recipientAddr localAddr : ProtocolAddress) (now : Nat) (rng : P.Rng) :
    Prog (StoreOp.Resp (L := L)) (Except OutgoingError EncryptedMessage) :=
  let contentBytes := signalPad (messageContent plaintextBody timestampMs)
  .call (.record (.loadSession recipientAddr)) fun
    | .error e => .done (.error (.sessionLoad (L.debug e)))
    | .ok none => .done (.error .noSession)
    | .ok (some sessionRecord) =>
      match L.remoteRegistrationId sessionRecord with
      | .error e => .done (.error (.registrationId (L.debug e)))
      | .ok destRegId => do
        match ← P.messageEncrypt contentBytes recipientAddr localAddr now rng with
        | .error e => return .error (.encrypt (L.debug e))
        | .ok ciphertextMessage =>
          return (ciphertextResult ciphertextMessage).map fun (ciphertextBytes, ciphertextType) =>
            { ciphertextBytes, ciphertextType
              destinationDeviceId := recipientAddr.deviceId.val
              destinationRegistrationId := destRegId
              timestampMs }

end Encryption

def pddbGetString (dict key : String) : Prog Resp (Option String) :=
  .call (.get dict key false) fun
    | .error _ => .done none
    | .ok () => .call (.readToEnd dict key) fun
      | .error _ => .done none
      | .ok buf => .done (fromUtf8 buf)

/-- The requests of a reading one by one. -/
theorem interp_pddbGetString (d k : String) :
    (pddbGetString d k).interp inPieces = .call (.get d k false) fun
      | .error _ => .done none
      | .ok () => readToEndLoop d k (2 ^ 31) [] >>= fun r => .done (r.toOption.bind fromUtf8) := by
  refine congrArg (Prog.call _) (funext fun x => ?_)
  rcases x with e | _
  · rfl
  · refine congrArg ((readToEndLoop d k (2 ^ 31) []).bind) (funext fun x => ?_)
    cases x <;> rfl

/-- A text that is read is the content of the key. -/
theorem wp_pddbGetString {adm : Req → Outcome → Prop} {d k : String} {s : Disk} :
    (pddbGetString d k).wp serve adm
      (fun r s' => s' = s ∧ (r = none ∨ r = (s d k).bind fromUtf8)) s := by
  simp only [pddbGetString, Prog.wp_call]
  intro o _
  cases o with
  | failed f => exact ⟨rfl, .inl rfl⟩
  | served | short n =>
    cases h : s d k with
    | none => simp [serve, perform, h]
    | some bs =>
      simp only [serve, perform, h, Prog.wp_call]
      intro o' _
      cases o' with
      | failed f => exact ⟨rfl, .inl rfl⟩
      | served | short n => simp [h]

/-- When nothing fails the text of the key is read. -/
theorem runAll_pddbGetString (d k : String) (s : Disk) :
    (pddbGetString d k).runAll serve .served s = ((s d k).bind fromUtf8, s) := by
  unfold pddbGetString
  cases h : s d k with
  | none => simp [serve, perform, h]
  | some bs => simp [serve, perform, h]

/-- `DeviceId` from a stored number; `parseError` is the text of a failed
parse. -/
def deviceIdOf (devStr : String) (parseError : OutgoingError) : Except OutgoingError DeviceId :=
  match parseU32 devStr with
  | none => .error parseError
  | some devId =>
    match DeviceId.new devId with
    | none => .error (.badDeviceId devId)
    | some dev => .ok dev

/-- The leftmost error of a `u32` in digits, read from `value` on. -/
def digitsError : Nat → List Char → String
  | _, [] => "invalid digit found in string"
  | value, c :: cs =>
    if c.isDigit then
      let value := value * 10 + (c.toNat - '0'.toNat)
      if 2 ^ 32 ≤ value then "number too large to fit in target type" else digitsError value cs
    else "invalid digit found in string"

/-- The text of the `ParseIntError` of a `u32`. -/
def parseIntError (s : String) : String :=
  match s.toList with
  | [] => "cannot parse integer from empty string"
  | '+' :: cs => digitsError 0 cs
  | cs => digitsError 0 cs

/-- The leftmost error is reported; no digits after a sign are an invalid one. -/
example : parseIntError "99999999999x" = "number too large to fit in target type" ∧
    parseIntError "9x99999999999" = "invalid digit found in string" ∧
    parseIntError "+" = "invalid digit found in string" := by
  decide +kernel

def localProtocolAddress : Prog Resp (Except OutgoingError ProtocolAddress) := do
  match ← pddbGetString accountDict aciServiceIdKey with
  | none => return .error (.noLocalAccount "aci.service_id missing")
  | some aci =>
  match ← pddbGetString accountDict deviceIdKey with
  | none => return .error (.noLocalAccount "device_id missing")
  | some devStr =>
    return (deviceIdOf devStr (.noLocalAccount ("device_id parse: " ++ parseIntError devStr))).map
      fun dev => ⟨aci, dev⟩

def buildEncryptedMessage {L : Libsignal} (P : Protocol L) (plaintextBody : String)
    (timestampMs : UInt64) (recipientAddr : ProtocolAddress) (now : Nat) (rng : P.Rng) :
    Prog Resp (Except OutgoingError EncryptedMessage) := do
  match ← localProtocolAddress with
  | .error e => return .error e
  | .ok localAddr =>
    (buildEncryptedMessageWithStores P plaintextBody timestampMs recipientAddr localAddr now
      rng).interp handle

-- ---------------------------------------------------------------------------
-- The default recipient
-- ---------------------------------------------------------------------------

def peerJson (remoteAddr : ProtocolAddress) : String :=
  "\x7b\"uuid\":\"" ++ remoteAddr.name ++ "\",\"device_id\":" ++
    decimal remoteAddr.deviceId.val ++ "\x7d"

def setCurrentRecipient (remoteAddr : ProtocolAddress) : Prog Resp (Except OutgoingError Unit) :=
  overwrite (fun e => .pddb ("get: " ++ e.msg)) (fun e => .pddb ("write: " ++ e.msg)) dialogueDict
    defaultPeerKey (utf8 (peerJson remoteAddr))

/-- What follows the first occurrence of `needle`. -/
def afterFirst (needle : List Char) : List Char → Option (List Char)
  | [] => if needle = [] then some [] else none
  | c :: cs =>
    if needle.isPrefixOf (c :: cs) then some ((c :: cs).drop needle.length)
    else afterFirst needle cs

def extractStringField (s key : String) : Option String := do
  let rest ← afterFirst ("\"" ++ key ++ "\":\"").toList s.toList
  if '"' ∈ rest then some (String.ofList (rest.takeWhile (· ≠ '"'))) else none

def extractNumberField (s key : String) : Option String := do
  let rest ← afterFirst ("\"" ++ key ++ "\":").toList s.toList
  some (String.ofList (rest.takeWhile Char.isDigit))

def parsePeerJson (s : String) : Except OutgoingError ProtocolAddress :=
  match extractStringField s "uuid" with
  | none => .error (.pddb "peer json: uuid missing")
  | some uuid =>
  match extractNumberField s "device_id" with
  | none => .error (.pddb "peer json: device_id missing")
  | some devStr =>
    (deviceIdOf devStr (.pddb ("peer json: device_id parse: " ++ parseIntError devStr))).map
      fun dev => ⟨uuid, dev⟩

def currentRecipient : Prog Resp (Except OutgoingError ProtocolAddress) := do
  match ← pddbGetString dialogueDict defaultPeerKey with
  | none => return .error .noRecipient
  | some raw => return parsePeerJson raw

end Sigchat.Outgoing

import Sigchat.Model.Provisioning

/-!
# The provisioning format

`encode` is the primary's side of the format `Provisioning.decode` documents,
written from that comment: the message is encrypted and authenticated, and the
envelope goes into the request body of a WebSocket message.

Main results:

* `decode_encode`  — the matching temporary key gets back what was encoded;
* `decode_safe`    — no input makes the decoder cut outside its bytes;
* `decode_refused` — a frame whose body is not long enough, of another version
  or not authenticated is refused.
-/

namespace Sigchat.Results.ProvisionFormat

open Sigchat.Lib
open Sigchat.Lib.Wire
open Sigchat.Pddb
open Sigchat.Signal
open Sigchat.Accounts
open Sigchat.Provisioning

variable {L : Libsignal} (C : Curve L) (P : Primitives)

-- ---------------------------------------------------------------------------
-- The primary's side
-- ---------------------------------------------------------------------------

/-- The AES and the MAC key of a shared secret. -/
def aesKey (sharedSecret : Bytes) : Bytes := (P.hkdf sharedSecret hkdfInfo 64).take 32

def macKey (sharedSecret : Bytes) : Bytes := (P.hkdf sharedSecret hkdfInfo 64).drop 32

/-- Version, IV and ciphertext, followed by their code. `encrypt` is
AES-256-CBC with PKCS7 padding; its arguments are key, IV and plaintext. -/
def sealBody (encrypt : Bytes → Bytes → Bytes → Bytes) (sharedSecret iv plaintext : Bytes) :
    Bytes :=
  let signed := 0x01 :: (iv ++ encrypt (aesKey P sharedSecret) iv plaintext)
  signed ++ P.hmac (macKey P sharedSecret) signed

/-- What surrounds the envelope in its WebSocket message. -/
structure Frame where
  type : Option Int
  verb : Option String
  path : Option String
  id : Option UInt64
  type_isInt32 : ∀ v, type = some v → IsInt32 v

def Frame.wrap (frame : Frame) (body : Bytes) : WebSocketMessageProto :=
  ⟨frame.type, some ⟨frame.verb, frame.path, some body, frame.id⟩⟩

/-- The message the primary sends, with the key pair of `ephemeral`, to the
owner of `tempPub`. -/
def encode (encrypt : Bytes → Bytes → Bytes → Bytes) (frame : Frame) (ephemeral : L.PrivateKey)
    (tempPub : L.PublicKey) (iv : Bytes) (m : ProvisionMessageProto) :
    Except SignalProtocolError Bytes := do
  let sharedSecret ← C.calculateAgreement ephemeral tempPub
  let envelope : ProvisionEnvelopeProto :=
    ⟨some (L.publicKeySerialize (C.publicKey ephemeral)),
      some (sealBody P encrypt sharedSecret iv m.encode)⟩
  return (frame.wrap envelope.encode).encode

/-- What is assumed of the primitives. -/
structure Lawful (encrypt : Bytes → Bytes → Bytes → Bytes) : Prop where
  publicKey : ∀ k, L.publicKeyDeserialize (L.publicKeySerialize k) = .ok k
  agreement_comm : ∀ a b,
    C.calculateAgreement a (C.publicKey b) = C.calculateAgreement b (C.publicKey a)
  decrypt_encrypt : ∀ key iv plaintext, key.length = 32 → iv.length = 16 →
    P.aesCbcDecrypt key iv (encrypt key iv plaintext) = some plaintext
  /-- The padding fills up the last block, which may be one of its own. -/
  length_encrypt : ∀ key iv plaintext, key.length = 32 → iv.length = 16 →
    (encrypt key iv plaintext).length = (plaintext.length / 16 + 1) * 16

-- ---------------------------------------------------------------------------
-- Round trip
-- ---------------------------------------------------------------------------

/-- A part in the middle is cut out where it was put. -/
theorem slice_append (xs ys zs : Bytes) :
    slice (xs ++ (ys ++ zs)) xs.length (xs.length + ys.length) = .ok ys := by
  rw [slice, if_pos (by simp only [List.length_append]; omega), ← List.append_assoc,
    ← List.length_append, List.take_left, List.drop_left]

-- The checks and cuts of the decoder on a body put together of its parts.
section Parts

variable {P} {iv ciphertext code : Bytes} (hIv : iv.length = 16) (hCode : code.length = 32)

include hIv hCode

/-- A body of these parts is long enough and of version one. -/
theorem checkBody_parts (hCiphertext : 16 ≤ ciphertext.length) :
    checkBody (0x01 :: (iv ++ (ciphertext ++ code))) = .ok () := by
  rw [checkBody, if_neg (by simp only [List.length_append, List.length_cons]; omega)]
  have hVersion := slice_append [] [0x01] (iv ++ (ciphertext ++ code))
  rw [List.nil_append, List.singleton_append] at hVersion
  show (slice _ 0 1 >>= _) = _
  rw [show slice (0x01 :: (iv ++ (ciphertext ++ code))) 0 1 = .ok [0x01] from hVersion]
  rfl

theorem lenSub_parts : lenSub (0x01 :: (iv ++ (ciphertext ++ code))) 32 =
    .ok (17 + ciphertext.length) := by
  have hLen : (0x01 :: (iv ++ (ciphertext ++ code)) : Bytes).length =
      17 + ciphertext.length + 32 := by
    simp only [List.length_append, List.length_cons]
    omega
  rw [lenSub, if_pos (by omega), hLen, Nat.add_sub_cancel]

/-- The code at the end is the one that is checked. -/
theorem verifyMac_parts {key : Bytes}
    (hMac : P.hmac key (0x01 :: (iv ++ ciphertext)) = code) :
    verifyMac P key (0x01 :: (iv ++ (ciphertext ++ code))) = .ok () := by
  have hInput := slice_append [] (0x01 :: (iv ++ ciphertext)) code
  have hExpected := slice_append (0x01 :: (iv ++ ciphertext)) code []
  have hLen : (0x01 :: (iv ++ ciphertext) : Bytes).length = 17 + ciphertext.length := by
    simp only [List.length_append, List.length_cons]
    omega
  have hWhole : (0x01 :: (iv ++ (ciphertext ++ code)) : Bytes).length =
      17 + ciphertext.length + code.length := by
    simp only [List.length_append, List.length_cons]
    omega
  simp only [hLen, List.nil_append, List.append_nil, List.cons_append, List.append_assoc,
    List.length_nil, Nat.zero_add] at hInput hExpected
  simp only [verifyMac, lenSub_parts hIv hCode, bind, Except.bind, hInput, hWhole, hExpected, hMac]
  rfl

/-- What is decrypted is the part between the initial vector and the code. -/
theorem decryptBody_parts {key plaintext : Bytes} (hKey : key.length = 32)
    (hDecrypt : P.aesCbcDecrypt key iv ciphertext = some plaintext) :
    decryptBody P key (0x01 :: (iv ++ (ciphertext ++ code))) = .ok plaintext := by
  have hIvSlice := slice_append [0x01] iv (ciphertext ++ code)
  have hCiphertext := slice_append (0x01 :: iv) ciphertext code
  simp only [hIv, List.length_cons, List.length_nil, List.cons_append, List.nil_append,
    Nat.zero_add, Nat.reduceAdd] at hIvSlice hCiphertext
  simp only [decryptBody, lenSub_parts hIv hCode, bind, Except.bind, hIvSlice, hCiphertext]
  rw [if_neg (by omega), hDecrypt]
  rfl

end Parts

theorem length_aesKey (sharedSecret : Bytes) : (aesKey P sharedSecret).length = 32 := by
  rw [aesKey, List.length_take, P.length_hkdf]
  decide

variable {C P}

theorem openEnvelope_encode {publicKey body : Bytes}
    (hLen : (ProvisionEnvelopeProto.encode ⟨some publicKey, some body⟩).length < 2 ^ 64) :
    openEnvelope (ProvisionEnvelopeProto.encode ⟨some publicKey, some body⟩) =
      .ok (publicKey, body) := by
  rw [openEnvelope, ProvisionEnvelopeProto.decode_encode hLen]
  rfl

/-- The temporary key agrees on the secret the primary agreed on. -/
theorem deriveKeys_eq {encrypt : Bytes → Bytes → Bytes → Bytes}
    (hLawful : Lawful C P encrypt) {ephemeral temp : L.PrivateKey} {sharedSecret tempBytes : Bytes}
    {tempIdentity : ProvisionedIdentity}
    (hTemp : tempIdentity.djbPrivateKey = Base64.encode Base64.urlSafe tempBytes)
    (hTempBytes : L.privateKeyDeserialize tempBytes = .ok temp)
    (hSecret : C.calculateAgreement ephemeral (C.publicKey temp) = .ok sharedSecret) :
    deriveKeys C P tempIdentity (L.publicKeySerialize (C.publicKey ephemeral)) =
      .ok (aesKey P sharedSecret, macKey P sharedSecret) := by
  rw [hLawful.agreement_comm] at hSecret
  rw [deriveKeys, hTemp, Base64.decode_encode]
  simp only [orInvalid, bind, Except.bind, hTempBytes, Except.toOption, hLawful.publicKey,
    hSecret]
  rfl

/-- Opening, checking and decrypting undo the sealing. -/
theorem decrypt_sealBody {encrypt : Bytes → Bytes → Bytes → Bytes}
    (hLawful : Lawful C P encrypt) {ephemeral temp : L.PrivateKey} {sharedSecret tempBytes : Bytes}
    {tempIdentity : ProvisionedIdentity}
    (hTemp : tempIdentity.djbPrivateKey = Base64.encode Base64.urlSafe tempBytes)
    (hTempBytes : L.privateKeyDeserialize tempBytes = .ok temp)
    (hSecret : C.calculateAgreement ephemeral (C.publicKey temp) = .ok sharedSecret)
    {iv plaintext : Bytes} (hIv : iv.length = 16) {envelope : ProvisionEnvelopeProto}
    (hEnvelope : envelope = ⟨some (L.publicKeySerialize (C.publicKey ephemeral)),
      some (sealBody P encrypt sharedSecret iv plaintext)⟩)
    (hLen : envelope.encode.length < 2 ^ 64) :
    decrypt C P tempIdentity envelope.encode = readMessage plaintext := by
  subst hEnvelope
  have hKey := length_aesKey P sharedSecret
  have hCiphertext := hLawful.length_encrypt (aesKey P sharedSecret) iv plaintext hKey hIv
  have hDecrypt := hLawful.decrypt_encrypt (aesKey P sharedSecret) iv plaintext hKey hIv
  rw [decrypt, openEnvelope_encode hLen]
  simp only [sealBody, List.cons_append, List.append_assoc, bind, Except.bind,
    deriveKeys_eq hLawful hTemp hTempBytes hSecret,
    checkBody_parts hIv (P.length_hmac _ _)
      (show 16 ≤ (encrypt (aesKey P sharedSecret) iv plaintext).length by omega),
    verifyMac_parts hIv (P.length_hmac _ _) rfl,
    decryptBody_parts hIv (P.length_hmac _ _) hKey hDecrypt]

/-- An absent text is read as the empty one, and an absent PNI key as no
bytes. -/
theorem readMessage_encode {m : ProvisionMessageProto} {aciPub aciPriv : Bytes}
    (hPub : m.aciIdentityKeyPublic = some aciPub) (hPriv : m.aciIdentityKeyPrivate = some aciPriv)
    (hLen : m.encode.length < 2 ^ 64) :
    readMessage m.encode = .ok {
      number := m.number.getD ""
      aci := ⟨m.aci.getD "", Base64.encode Base64.urlSafe aciPub,
        Base64.encode Base64.urlSafe aciPriv⟩
      pni := ⟨m.pni.getD "", Base64.encode Base64.urlSafe (m.pniIdentityKeyPublic.getD []),
        Base64.encode Base64.urlSafe (m.pniIdentityKeyPrivate.getD [])⟩
      profileKey := m.profileKey.map (Base64.encode Base64.urlSafe)
      provisioningCode := m.provisioningCode
      accountEntropyPool := m.accountEntropyPool } := by
  rw [readMessage, ProvisionMessageProto.decode_encode hLen]
  simp only [orInvalid, bind, Except.bind, hPub, hPriv]
  rfl

/-- The plaintext is the innermost part of the frame. -/
theorem length_plaintext_le {encrypt : Bytes → Bytes → Bytes → Bytes} (hLawful : Lawful C P encrypt)
    (sharedSecret : Bytes) {iv : Bytes} (hIv : iv.length = 16) (plaintext : Bytes) :
    plaintext.length ≤ (sealBody P encrypt sharedSecret iv plaintext).length := by
  have hCiphertext := hLawful.length_encrypt _ iv plaintext (length_aesKey P sharedSecret) hIv
  simp only [sealBody, List.length_append, List.length_cons]
  omega

/-- A frame is as long as what it wraps, at least. -/
theorem Frame.length_le_wrap (frame : Frame) (body : Bytes) :
    body.length ≤ (frame.wrap body).encode.length := by
  have hRequest : (encodeFields (WebSocketRequestMessageProto.fields
      ⟨frame.verb, frame.path, some body, frame.id⟩)).length ≤ (frame.wrap body).encode.length :=
    length_messageField_le 2 (List.subset_append_right _ _)
  have hBody : bytesField 3 (some body) ⊆ WebSocketRequestMessageProto.fields
      ⟨frame.verb, frame.path, some body, frame.id⟩ := by
    intro f hf
    exact List.mem_append_left _ (List.mem_append_right _ hf)
  exact Nat.le_trans (length_bytesField_le 3 hBody) hRequest

/-- **Round trip.** The owner of the temporary key decodes what was encoded for
it. -/
theorem decode_encode {encrypt : Bytes → Bytes → Bytes → Bytes} (hLawful : Lawful C P encrypt)
    {ephemeral temp : L.PrivateKey} {tempBytes : Bytes} {tempIdentity : ProvisionedIdentity}
    (hTemp : tempIdentity.djbPrivateKey = Base64.encode Base64.urlSafe tempBytes)
    (hTempBytes : L.privateKeyDeserialize tempBytes = .ok temp) {iv : Bytes} (hIv : iv.length = 16)
    {frame : Frame} {m : ProvisionMessageProto} {bytes : Bytes}
    (hEncode : encode C P encrypt frame ephemeral (C.publicKey temp) iv m = .ok bytes)
    (hLen : bytes.length < 2 ^ 64) :
    m.encode.length < 2 ^ 64 ∧ decode C P tempIdentity bytes = readMessage m.encode := by
  -- Without an agreed secret nothing is sent.
  rcases hSecret : C.calculateAgreement ephemeral (C.publicKey temp) with e | sharedSecret
  · rw [encode, hSecret] at hEncode
    exact nomatch hEncode
  · rw [encode, hSecret] at hEncode
    obtain ⟨body, hBody⟩ : ∃ body, body = sealBody P encrypt sharedSecret iv m.encode := ⟨_, rfl⟩
    obtain ⟨envelope, hEnvelope⟩ : ∃ envelope : ProvisionEnvelopeProto,
        envelope = ⟨some (L.publicKeySerialize (C.publicKey ephemeral)), some body⟩ := ⟨_, rfl⟩
    obtain rfl : (frame.wrap envelope.encode).encode = bytes := by
      rw [hEnvelope, hBody]
      exact Except.ok.inj hEncode
    -- each layer is a member of the one around it
    have hPayload := frame.length_le_wrap envelope.encode
    have hSealed : body.length ≤ envelope.encode.length := by
      rw [hEnvelope]
      exact length_bytesField_le 2 (List.subset_append_right _ _)
    have hPlaintext := hBody ▸ length_plaintext_le hLawful sharedSecret hIv m.encode
    refine ⟨by omega, ?_⟩
    rw [decode, WebSocketMessageProto.decode_encode frame.type_isInt32 hLen]
    exact decrypt_sealBody hLawful hTemp hTempBytes hSecret hIv (hBody ▸ hEnvelope) (by omega)

-- ---------------------------------------------------------------------------
-- Refusal
-- ---------------------------------------------------------------------------

/-- A computation of the decoder that never cuts outside its bytes. -/
def Safe {α : Type} (x : Except Failure α) : Prop := ∀ lo hi len, x ≠ .error (.panic lo hi len)

theorem safe_ok {α : Type} (a : α) : Safe (.ok a) := fun _ _ _ h => nomatch h

theorem safe_invalidData {α : Type} (msg : String) : Safe (invalidData msg : Except Failure α) :=
  fun _ _ _ h => nomatch h

theorem safe_orInvalid {α : Type} (msg : String) (x : Option α) : Safe (orInvalid msg x) := by
  cases x with
  | none => exact safe_invalidData msg
  | some a => exact safe_ok a

/-- What follows a step has to be safe after the results of the step only. -/
theorem Safe.bind {α β : Type} {x : Except Failure α} {f : α → Except Failure β} (hx : Safe x)
    (hf : ∀ a, x = .ok a → Safe (f a)) : Safe (x >>= f) := by
  intro lo hi len h
  cases x with
  | error e => exact hx lo hi len (congrArg Except.error (Except.error.inj h))
  | ok a => exact hf a rfl lo hi len h

/-- A success comes from a value that was there. -/
theorem eq_some_of_orInvalid {α : Type} {msg : String} {x : Option α} {a : α}
    (h : orInvalid msg x = .ok a) : x = some a := by
  cases x with
  | none => exact nomatch h
  | some b => exact congrArg some (Except.ok.inj h)

theorem safe_slice {bs : Bytes} {lo hi : Nat} (h : lo ≤ hi ∧ hi ≤ bs.length) :
    Safe (slice bs lo hi) := by
  rw [slice, if_pos h]
  exact safe_ok _

theorem lenSub_eq {bs : Bytes} {n : Nat} (h : n ≤ bs.length) :
    lenSub bs n = .ok (bs.length - n) := if_pos h

theorem safe_openEnvelope (bytes : Bytes) : Safe (openEnvelope bytes) :=
  (safe_orInvalid _ _).bind fun _ _ => (safe_orInvalid _ _).bind fun _ _ =>
    (safe_orInvalid _ _).bind fun _ _ => safe_ok _

/-- The check of the length comes before the first slice. -/
theorem safe_checkBody (body : Bytes) : Safe (checkBody body) := by
  rw [checkBody]
  split
  · exact safe_invalidData _
  · refine (safe_slice ⟨by omega, by omega⟩).bind fun _ _ => ?_
    split
    · exact safe_ok ()
    · exact safe_invalidData _

/-- What the checks on a body establish. -/
theorem of_checkBody {body : Bytes} (h : checkBody body = .ok ()) :
    65 ≤ body.length ∧ body.head? = some 0x01 := by
  rw [checkBody] at h
  -- Shorter bodies are refused.
  by_cases hLen : body.length < 65
  · rw [if_pos hLen] at h
    exact nomatch h
  · rw [if_neg hLen] at h
    obtain ⟨version, hVersion, h⟩ := exists_of_bind_ok h
    obtain ⟨b, rest, rfl⟩ : ∃ b rest, body = b :: rest :=
      List.exists_cons_of_length_pos (by omega)
    rw [slice, if_pos ⟨by omega, by omega⟩] at hVersion
    obtain rfl : [b] = version := Except.ok.inj hVersion
    by_cases hb : [b] = [0x01]
    · exact ⟨by omega, congrArg some (List.singleton_inj.mp hb)⟩
    · rw [if_neg hb] at h
      exact nomatch h

theorem safe_deriveKeys (tempIdentity : ProvisionedIdentity) (ephemeralPub : Bytes) :
    Safe (deriveKeys C P tempIdentity ephemeralPub) :=
  (safe_orInvalid _ _).bind fun _ _ => (safe_orInvalid _ _).bind fun _ _ =>
    (safe_orInvalid _ _).bind fun _ _ => (safe_orInvalid _ _).bind fun _ _ => safe_ok _

/-- A body that has passed the check is long enough for the code. -/
theorem safe_verifyMac {body : Bytes} (hLen : 65 ≤ body.length) (key : Bytes) :
    Safe (verifyMac P key body) := by
  rw [verifyMac, lenSub_eq (by omega)]
  refine (safe_slice ⟨by omega, by omega⟩).bind fun _ _ => ?_
  refine (safe_slice ⟨by omega, by omega⟩).bind fun _ _ => ?_
  split
  · exact safe_ok ()
  · exact safe_invalidData _

/-- What passes is the code of everything before it. -/
theorem of_verifyMac {body : Bytes} (hLen : 65 ≤ body.length) {key : Bytes}
    (h : verifyMac P key body = .ok ()) :
    P.hmac key (body.take (body.length - 32)) = body.drop (body.length - 32) := by
  rw [verifyMac, lenSub_eq (by omega)] at h
  obtain ⟨n, hn, h⟩ := exists_of_bind_ok h
  obtain rfl := Except.ok.inj hn
  obtain ⟨macInput, hInput, h⟩ := exists_of_bind_ok h
  obtain ⟨n, hn, h⟩ := exists_of_bind_ok h
  obtain rfl := Except.ok.inj hn
  obtain ⟨macExpected, hExpected, h⟩ := exists_of_bind_ok h
  rw [slice, if_pos ⟨by omega, by omega⟩] at hInput hExpected
  obtain rfl := Except.ok.inj hInput
  obtain rfl := Except.ok.inj hExpected
  rw [List.take_length, List.drop_zero] at h
  by_contra hMac
  rw [if_neg hMac] at h
  exact nomatch h

/-- A body that has passed the check is long enough to be decrypted. -/
theorem safe_decryptBody {body : Bytes} (hLen : 65 ≤ body.length) (key : Bytes) :
    Safe (decryptBody P key body) := by
  rw [decryptBody, lenSub_eq (by omega)]
  refine (safe_slice ⟨by omega, by omega⟩).bind fun _ _ => ?_
  refine (safe_slice ⟨by omega, by omega⟩).bind fun _ _ => ?_
  split
  · exact safe_invalidData _
  · exact safe_orInvalid _ _

theorem safe_readMessage (plaintext : Bytes) : Safe (readMessage plaintext) :=
  (safe_orInvalid _ _).bind fun _ _ => (safe_orInvalid _ _).bind fun _ _ =>
    (safe_orInvalid _ _).bind fun _ _ => safe_ok _

variable (C P)

/-- **No panic.** Every cut stays inside the bytes. -/
theorem decode_safe (tempIdentity : ProvisionedIdentity) (bytes : Bytes) :
    Safe (decode C P tempIdentity bytes) := by
  refine (safe_orInvalid _ _).bind fun _ _ => (safe_orInvalid _ _).bind fun payload _ => ?_
  refine (safe_openEnvelope payload).bind fun (ephemeralPub, body) _ => ?_
  refine (safe_checkBody body).bind fun _ hBody => ?_
  obtain ⟨hLen, -⟩ := of_checkBody hBody
  refine (safe_deriveKeys _ _).bind fun (aes, mac) _ => ?_
  refine (safe_verifyMac hLen _).bind fun _ _ => ?_
  exact (safe_decryptBody hLen _).bind fun _ _ => safe_readMessage _

/-- The frame carries an envelope whose body is long enough, of version 1, and
authenticated by the key of its public key. -/
def Authentic (tempIdentity : ProvisionedIdentity) (bytes : Bytes) : Prop :=
  ∃ ws request payload envelope ephemeralPub body privBytes priv pub sharedSecret,
    WebSocketMessageProto.decode bytes = some ws ∧ ws.request = some request ∧
    request.body = some payload ∧ ProvisionEnvelopeProto.decode payload = some envelope ∧
    envelope.publicKey = some ephemeralPub ∧ envelope.body = some body ∧
    Base64.decode Base64.urlSafe tempIdentity.djbPrivateKey = some privBytes ∧
    L.privateKeyDeserialize privBytes = .ok priv ∧ L.publicKeyDeserialize ephemeralPub = .ok pub ∧
    C.calculateAgreement priv pub = .ok sharedSecret ∧
    65 ≤ body.length ∧ body.head? = some 0x01 ∧
    P.hmac (macKey P sharedSecret) (body.take (body.length - 32)) = body.drop (body.length - 32)

/-- What decodes is authentic. -/
theorem authentic_of_decode {tempIdentity : ProvisionedIdentity} {bytes : Bytes}
    {msg : ProvisionMessage} (h : decode C P tempIdentity bytes = .ok msg) :
    Authentic C P tempIdentity bytes := by
  -- Every step must have succeeded; each gives one clause.
  obtain ⟨ws, hWs, h⟩ := exists_of_bind_ok h
  obtain ⟨payload, hPayload, h⟩ := exists_of_bind_ok h
  obtain ⟨request, hRequest, hPayload⟩ := Option.bind_eq_some_iff.mp (eq_some_of_orInvalid hPayload)
  obtain ⟨⟨ephemeralPub, body⟩, hOpen, h⟩ := exists_of_bind_ok h
  obtain ⟨envelope, hEnvelope, hOpen⟩ := exists_of_bind_ok hOpen
  obtain ⟨ephemeralPub, hPub, hOpen⟩ := exists_of_bind_ok hOpen
  obtain ⟨body, hBody, hOpen⟩ := exists_of_bind_ok hOpen
  obtain ⟨rfl, rfl⟩ := Prod.mk.inj (Except.ok.inj hOpen)
  obtain ⟨⟨⟩, hCheck, h⟩ := exists_of_bind_ok h
  obtain ⟨hLen, hVersion⟩ := of_checkBody hCheck
  obtain ⟨⟨aes, mac⟩, hKeys, h⟩ := exists_of_bind_ok h
  obtain ⟨privBytes, hPrivBytes, hKeys⟩ := exists_of_bind_ok hKeys
  obtain ⟨priv, hPriv, hKeys⟩ := exists_of_bind_ok hKeys
  obtain ⟨pub, hTheirs, hKeys⟩ := exists_of_bind_ok hKeys
  obtain ⟨sharedSecret, hSecret, hKeys⟩ := exists_of_bind_ok hKeys
  obtain ⟨rfl, rfl⟩ := Prod.mk.inj (Except.ok.inj hKeys)
  obtain ⟨⟨⟩, hMac, -⟩ := exists_of_bind_ok h
  exact ⟨ws, request, payload, envelope, ephemeralPub, body, privBytes, priv, pub, sharedSecret,
    eq_some_of_orInvalid hWs, hRequest, hPayload, eq_some_of_orInvalid hEnvelope,
    eq_some_of_orInvalid hPub, eq_some_of_orInvalid hBody, eq_some_of_orInvalid hPrivBytes,
    ok_of_toOption (eq_some_of_orInvalid hPriv), ok_of_toOption (eq_some_of_orInvalid hTheirs),
    ok_of_toOption (eq_some_of_orInvalid hSecret), hLen, hVersion, of_verifyMac hLen hMac⟩

/-- A frame that is not authentic ends in an error. -/
theorem decode_refused {tempIdentity : ProvisionedIdentity} {bytes : Bytes}
    (h : ¬ Authentic C P tempIdentity bytes) :
    ∃ e, decode C P tempIdentity bytes = .error (.error e) := by
  rcases hDecode : decode C P tempIdentity bytes with (e | ⟨lo, hi, len⟩) | msg
  · exact ⟨e, rfl⟩
  · exact absurd hDecode (decode_safe C P tempIdentity bytes lo hi len)
  · exact absurd (authentic_of_decode C P hDecode) h

-- ---------------------------------------------------------------------------
-- The format
-- ---------------------------------------------------------------------------

/-- **The provisioning format.** The decoder gets back every message with ACI
keys that was encoded for its temporary key; on any input it stays inside its
bytes, and it refuses a frame that is not authentic. -/
theorem provisioning_format {encrypt : Bytes → Bytes → Bytes → Bytes}
    (hLawful : Lawful C P encrypt) :
    (∀ (frame : Frame) (m : ProvisionMessageProto) (aciPub aciPriv : Bytes)
        (ephemeral temp : L.PrivateKey) (tempBytes iv bytes : Bytes)
        (tempIdentity : ProvisionedIdentity),
      m.aciIdentityKeyPublic = some aciPub → m.aciIdentityKeyPrivate = some aciPriv →
      tempIdentity.djbPrivateKey = Base64.encode Base64.urlSafe tempBytes →
      L.privateKeyDeserialize tempBytes = .ok temp → iv.length = 16 →
      encode C P encrypt frame ephemeral (C.publicKey temp) iv m = .ok bytes →
      bytes.length < 2 ^ 63 →
      decode C P tempIdentity bytes = .ok {
        number := m.number.getD ""
        aci := ⟨m.aci.getD "", Base64.encode Base64.urlSafe aciPub,
          Base64.encode Base64.urlSafe aciPriv⟩
        pni := ⟨m.pni.getD "", Base64.encode Base64.urlSafe (m.pniIdentityKeyPublic.getD []),
          Base64.encode Base64.urlSafe (m.pniIdentityKeyPrivate.getD [])⟩
        profileKey := m.profileKey.map (Base64.encode Base64.urlSafe)
        provisioningCode := m.provisioningCode
        accountEntropyPool := m.accountEntropyPool }) ∧
    ∀ (tempIdentity : ProvisionedIdentity) (bytes : Bytes),
      (∀ lo hi len, decode C P tempIdentity bytes ≠ .error (.panic lo hi len)) ∧
      (¬ Authentic C P tempIdentity bytes →
        ∃ e, decode C P tempIdentity bytes = .error (.error e)) := by
  refine ⟨?_, fun tempIdentity bytes =>
    ⟨decode_safe C P tempIdentity bytes, decode_refused C P⟩⟩
  intro frame m aciPub aciPriv ephemeral temp tempBytes iv bytes tempIdentity hPub hPriv hTemp
    hTempBytes hIv hEncode hLen
  obtain ⟨hPlaintext, hDecode⟩ := decode_encode hLawful hTemp hTempBytes hIv hEncode (by omega)
  rw [hDecode, readMessage_encode hPub hPriv hPlaintext]

/-- Padding to whole blocks of 16 bytes, each of the added bytes their number. -/
def plainEncrypt (_key _iv plaintext : Bytes) : Bytes :=
  plaintext ++ List.replicate (16 - plaintext.length % 16)
    (UInt8.ofNat (16 - plaintext.length % 16))

def plainDecrypt (_key _iv ciphertext : Bytes) : Option Bytes :=
  let padding := (ciphertext.getLast?.getD 0).toNat
  if ciphertext.length % 16 = 0 ∧ 1 ≤ padding ∧ padding ≤ 16 ∧ padding ≤ ciphertext.length then
    some (ciphertext.take (ciphertext.length - padding))
  else none

/-- The instance concrete runs use: derived bytes and codes are made of the
inputs, and encryption only pads. -/
def Primitives.plain : Primitives where
  hkdf secret info n := (secret ++ info ++ List.replicate n 0).take n
  length_hkdf secret info n := by
    simp only [List.length_take, List.length_append, List.length_replicate]
    omega
  hmac key msg := (msg.reverse ++ key ++ List.replicate 32 0).take 32
  length_hmac key msg := by
    simp only [List.length_take, List.length_append, List.length_replicate]
    omega
  aesCbcDecrypt := plainDecrypt

/-- The plain cipher pads as PKCS#7 does and is undone by its decryption. -/
theorem plain_lawful : Lawful Curve.plain Primitives.plain plainEncrypt where
  publicKey _ := rfl
  agreement_comm a b := congrArg Except.ok (List.zipWith_comm_of_comm UInt8.xor_comm)
  decrypt_encrypt key iv plaintext _ _ := by
    have hPad : (UInt8.ofNat (16 - plaintext.length % 16)).toNat = 16 - plaintext.length % 16 := by
      rw [UInt8.toNat_ofNat']
      omega
    have hLast : (plainEncrypt key iv plaintext).getLast? =
        some (UInt8.ofNat (16 - plaintext.length % 16)) := by
      rw [plainEncrypt, List.getLast?_append, List.getLast?_replicate, if_neg (by omega)]
      rfl
    have hLen : (plainEncrypt key iv plaintext).length =
        plaintext.length + (16 - plaintext.length % 16) := by
      rw [plainEncrypt, List.length_append, List.length_replicate]
    show plainDecrypt key iv (plainEncrypt key iv plaintext) = some plaintext
    rw [plainDecrypt, hLast, Option.getD_some, hPad, hLen, if_pos (by omega), Nat.add_sub_cancel,
      plainEncrypt, List.take_left]
  length_encrypt key iv plaintext _ _ := by
    simp only [plainEncrypt, List.length_append, List.length_replicate]
    omega

/-- A message with both ACI keys, and no PNI keys. -/
def plainContent : ProvisionMessageProto :=
  { ProvisionMessageProto.default with
    aciIdentityKeyPublic := some [5, 7]
    aciIdentityKeyPrivate := some [7]
    number := some "+1"
    provisioningCode := some "c"
    profileKey := some [1, 2, 3]
    aci := some "a" }

def plainFrame : Frame := ⟨some 1, some "PUT", none, some 3, by
  rintro v ⟨⟩
  exact ⟨by decide, by decide⟩⟩

/-- The theorem for one message. -/
theorem provisioning_format_plain :
    ∃ bytes, encode Curve.plain Primitives.plain plainEncrypt plainFrame [9]
        (Curve.plain.publicKey [4]) (List.replicate 16 8) plainContent = .ok bytes ∧
      decode Curve.plain Primitives.plain
        ⟨"", "", Base64.encode Base64.urlSafe [4]⟩ bytes = .ok {
          number := "+1"
          aci := ⟨"a", "BQc", "Bw"⟩
          pni := ⟨"", "", ""⟩
          profileKey := some "AQID"
          provisioningCode := some "c"
          accountEntropyPool := none } := by
  refine ⟨_, rfl, ?_⟩
  exact (provisioning_format Curve.plain Primitives.plain plain_lawful).1 plainFrame plainContent
    [5, 7] [7] [9] [4] [4] (List.replicate 16 8) _ _ rfl rfl rfl rfl rfl rfl (by decide +kernel)

end Sigchat.Results.ProvisionFormat

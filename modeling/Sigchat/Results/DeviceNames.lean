import Sigchat.Model.DeviceName
import Sigchat.Results.ProvisionFormat

/-!
# Device names can be decrypted

* `aes256CtrEncrypt_ctr` — the hand-written loops are counter mode, for every
  block cipher and every length;
* `name_decrypts`        — the primary device recovers the name of a linked
  device, and the synthetic IV is the one it was sent.
-/

namespace Sigchat.Results

open Sigchat.Lib
open Sigchat.Lib.Ctr
open Sigchat.Signal
open Sigchat.Accounts
open Sigchat.Provisioning (Primitives)
open Sigchat.DeviceName

-- ---------------------------------------------------------------------------
-- The counter
-- ---------------------------------------------------------------------------

/-- The block with this number: 16 bytes, big-endian. -/
def counterBlock (v : Nat) : Block := ⟨(bigEndian 16 v).toArray, length_bigEndian 16 v⟩

theorem toList_counterBlock (v : Nat) : (counterBlock v).toList = bigEndian 16 v := rfl

theorem counterBlock_zero : counterBlock 0 = Vector.replicate 16 0 := rfl

theorem counterBlock_mod (v : Nat) : counterBlock (v % 2 ^ 128) = counterBlock v := by
  have hWidth : 2 ^ 128 = 256 ^ 16 := by decide
  apply Vector.toList_inj.mp
  rw [toList_counterBlock, toList_counterBlock, hWidth, bigEndian_mod]

/-- **The carry loop counts.** It adds one to the digits it runs over and leaves
the others. -/
theorem toList_incrementLoop {i : Nat} (hi : i ≤ 16) {counter : Block} {v : Nat} {rest : Bytes}
    (hDigits : counter.toList = bigEndian i v ++ rest) :
    (incrementLoop i hi counter).toList = bigEndian i (v + 1) ++ rest := by
  induction i generalizing counter v rest with
  | zero => exact hDigits
  | succ i ih =>
    have hHere : i = (bigEndian i (v / 256)).length := (length_bigEndian i _).symm
    rw [bigEndian, List.append_assoc, List.singleton_append] at hDigits
    -- the byte at the position is the lowest digit
    have hLow : counter[i] = UInt8.ofNat v := by
      have hAt : counter.toList[i]? = some (UInt8.ofNat v) := by
        rw [hDigits, List.getElem?_append_right (by omega), length_bigEndian, Nat.sub_self]
        rfl
      rw [List.getElem?_eq_getElem (by rw [Vector.length_toList]; omega)] at hAt
      exact Option.some.inj hAt
    have hSum : counter[i] + 1 = UInt8.ofNat (v + 1) := by
      rw [hLow, UInt8.ofNat_add]
      rfl
    have hSet : (counter.set i (counter[i] + 1)).toList =
        bigEndian i (v / 256) ++ UInt8.ofNat (v + 1) :: rest := by
      rw [Vector.toList_set, hDigits, hSum, List.set_append_right _ _ (by omega),
        length_bigEndian, Nat.sub_self]
      rfl
    have hGet : (counter.set i (counter[i] + 1))[i] = UInt8.ofNat (v + 1) := by
      rw [Vector.getElem_set_self, hSum]
    rw [incrementLoop]
    split
    -- no carry: the digits above are as before
    · next hNe =>
      rw [hGet] at hNe
      rw [hSet, bigEndian_succ_of_ne hNe, List.append_assoc]
      rfl
    -- a carry: the byte is zero, and the next digit is incremented
    · next hEq =>
      rw [hGet, ne_eq, not_not] at hEq
      rw [hEq] at hSet
      rw [ih (Nat.le_of_succ_le hi) hSet, bigEndian_succ_of_eq hEq, List.append_assoc]
      rfl

theorem incrementLoop_counterBlock (v : Nat) :
    incrementLoop 16 (Nat.le_refl 16) (counterBlock v) = counterBlock (v + 1) := by
  apply Vector.toList_inj.mp
  have hDigits : (counterBlock v).toList = bigEndian 16 v ++ [] := (List.append_nil _).symm
  rw [toList_incrementLoop _ hDigits, List.append_nil, toList_counterBlock]

-- ---------------------------------------------------------------------------
-- Counter mode
-- ---------------------------------------------------------------------------

/-- The key stream from the counter zero on. -/
def ctrStream (encryptBlock : Block → Block) (i : Nat) : UInt8 :=
  (encryptBlock (counterBlock (i / 16)))[i % 16]

/-- A chunk is combined with its block. -/
theorem zipWith_block (encryptBlock : Block → Block) (k : Nat) {chunk : Bytes}
    (hChunk : chunk.length ≤ 16) :
    List.zipWith (· ^^^ ·) chunk (encryptBlock (counterBlock k)).toList =
      xorStream (fun i => ctrStream encryptBlock (16 * k + i)) chunk := by
  have hLen : chunk.length ≤ (encryptBlock (counterBlock k)).toList.length := by
    rw [Vector.length_toList]
    exact hChunk
  refine List.ext_getElem ?_ fun i hi hi' => ?_
  · rw [List.length_zipWith, length_xorStream, Nat.min_eq_left hLen]
  · rw [length_xorStream] at hi'
    have hDiv : (16 * k + i) / 16 = k := by omega
    have hMod : (16 * k + i) % 16 = i := by omega
    simp only [List.getElem_zipWith, xorStream, List.getElem_mapIdx, ctrStream, hDiv, hMod,
      Vector.getElem_toList]

/-- The loop over the chunks, from the block `k` on. -/
theorem ctrLoop_eq (encryptBlock : Block → Block) (k : Nat) (plaintext out : Bytes) :
    ctrLoop encryptBlock (counterBlock k) plaintext out =
      out ++ xorStream (fun i => ctrStream encryptBlock (16 * k + i)) plaintext := by
  induction hLen : plaintext.length using Nat.strong_induction_on
    generalizing k plaintext out with
  | _ len ih =>
  subst hLen
  rw [ctrLoop]
  split
  -- nothing is left
  · next hNil =>
    rw [hNil, xorStream_nil, List.append_nil]
  · next hNil =>
    have hPos := List.length_pos_iff.mpr hNil
    have hShorter : (plaintext.drop 16).length < plaintext.length := by
      rw [List.length_drop]
      omega
    have hTake : (plaintext.take 16).length ≤ 16 := by
      rw [List.length_take]
      omega
    -- the stream goes on where the chunk ends, if anything follows it
    have hSplit : xorStream (fun i => ctrStream encryptBlock (16 * k + i)) plaintext =
        xorStream (fun i => ctrStream encryptBlock (16 * k + i)) (plaintext.take 16) ++
          xorStream (fun i => ctrStream encryptBlock (16 * (k + 1) + i)) (plaintext.drop 16) := by
      conv_lhs => rw [← List.take_append_drop 16 plaintext, xorStream_append]
      rcases Nat.lt_or_ge plaintext.length 16 with hShort | hFull
      · rw [List.drop_eq_nil_of_le (Nat.le_of_lt hShort), xorStream_nil, xorStream_nil]
      · rw [List.length_take, Nat.min_eq_left hFull]
        simp only [Nat.mul_add, Nat.mul_one, Nat.add_assoc]
    rw [incrementLoop_counterBlock, ih _ hShorter (k + 1) (plaintext.drop 16) _ rfl,
      zipWith_block _ _ hTake, hSplit, List.append_assoc]

/-- The loops are the key stream. -/
theorem aes256CtrEncrypt_eq (aes256 : Bytes → Block → Block) {key : Bytes}
    (hKey : key.length = 32) (plaintext : Bytes) :
    aes256CtrEncrypt aes256 key plaintext = .ok (xorStream (ctrStream (aes256 key)) plaintext) := by
  rw [aes256CtrEncrypt, if_neg (not_not_intro hKey), ← counterBlock_zero, ctrLoop_eq]
  simp only [Nat.mul_zero, Nat.zero_add, List.nil_append]

/-- **The loops are counter mode.** For every block cipher and every 32-byte
key, byte `i` is combined with byte `i mod 16` of the encrypted block whose
number is `i div 16`, to 128 bits; the second application undoes the first. -/
theorem aes256CtrEncrypt_ctr (aes256 : Bytes → Block → Block) (key : Vector UInt8 32)
    (plaintext : Bytes) :
    ∃ out, aes256CtrEncrypt aes256 key.toList plaintext = .ok out ∧
      out.length = plaintext.length ∧
      (∀ i (hi : i < plaintext.length), out[i]? = some (plaintext[i] ^^^
        (aes256 key.toList (counterBlock (i / 16 % 2 ^ 128)))[i % 16])) ∧
      aes256CtrEncrypt aes256 key.toList out = .ok plaintext := by
  have hKey : key.toList.length = 32 := Vector.length_toList
  refine ⟨_, aes256CtrEncrypt_eq aes256 hKey plaintext, length_xorStream _ _, fun i hi => ?_, ?_⟩
  · rw [getElem?_xorStream _ hi]
    simp only [counterBlock_mod, ctrStream]
  · rw [aes256CtrEncrypt_eq aes256 hKey, xorStream_xorStream]

-- ---------------------------------------------------------------------------
-- The primary's side
-- ---------------------------------------------------------------------------

/-- The container as the primary reads it: three optional fields of bytes. -/
def readField (m : DeviceNameProto) (f : Wire.Field) : Option DeviceNameProto :=
  match f.tag with
  | 1 => f.value.toBytes.map fun x => { m with ephemeralPublic := some x }
  | 2 => f.value.toBytes.map fun x => { m with syntheticIv := some x }
  | 3 => f.value.toBytes.map fun x => { m with ciphertext := some x }
  | _ => some m

def readContainer (bs : Bytes) : Option DeviceNameProto :=
  Wire.decodeMessage readField Wire.recursionLimit ⟨none, none, none⟩ bs

/-- **Round trip** of the container. -/
theorem readContainer_encode {m : DeviceNameProto} (hLen : m.encode.length < 2 ^ 64) :
    readContainer m.encode = some m := by
  have hEmitted : ∀ f ∈ m.fields, f.Emitted := by
    simp only [DeviceNameProto.fields, List.forall_mem_append]
    exact ⟨⟨Wire.emitted_bytesField (by decide) _, Wire.emitted_bytesField (by decide) _⟩,
      Wire.emitted_bytesField (by decide) _⟩
  refine Wire.decodeMessage_encodeFields (Wire.encodable_of_emitted hEmitted hLen) ?_
  obtain ⟨ephemeralPublic, syntheticIv, ciphertext⟩ := m
  cases ephemeralPublic <;> cases syntheticIv <;> cases ciphertext <;> rfl

variable {L : Libsignal} {C : Curve L} (K : KeyGen L C) (P : Primitives)
  (aes256 : Bytes → Block → Block)

/-- What the primary recovers: the name, the synthetic IV it was sent, and the
one the recovered name has. -/
structure ReceivedName where
  name : Bytes
  sentIv : Bytes
  computedIv : Bytes

/-- The receiver's procedure: agree with the ephemeral key, derive the cipher
key from the synthetic IV, decrypt in counter mode from zero, and compute the
synthetic IV of the result. -/
def receiveName (C : Curve L) (identityPrivate : L.PrivateKey) (s : String) :
    Option ReceivedName := do
  let container ← readContainer (← Base64.decodePadded Base64.standard s)
  let ephemeralPublic ← (L.publicKeyDeserialize (← container.ephemeralPublic)).toOption
  let sentIv ← container.syntheticIv
  let ciphertext ← container.ciphertext
  let masterSecret ← (C.calculateAgreement identityPrivate ephemeralPublic).toOption
  let cipherKey := P.hmac (P.hmac masterSecret (utf8 "cipher")) sentIv
  let name := xorStream (ctrStream (aes256 cipherKey)) ciphertext
  return ⟨name, sentIv, (P.hmac (P.hmac masterSecret (utf8 "auth")) name).take 16⟩

/-- What is assumed of the key primitives. -/
structure KeysLawful : Prop where
  derivePublic : ∀ key pub, K.derivePublic key = .ok pub → pub = C.publicKey key
  agreement_comm : ∀ a b,
    C.calculateAgreement a (C.publicKey b) = C.calculateAgreement b (C.publicKey a)
  publicKey : ∀ k, L.publicKeyDeserialize (L.publicKeySerialize k) = .ok k
  length_publicKey : ∀ k, (L.publicKeySerialize k).length = 33

-- ---------------------------------------------------------------------------
-- Round trip
-- ---------------------------------------------------------------------------

/-- The container of a name, from the serialised ephemeral key and the secret. -/
def nameContainer (ephemeralPublic masterSecret name : Bytes) : DeviceNameProto :=
  let syntheticIv := (P.hmac (P.hmac masterSecret (utf8 "auth")) name).take 16
  { ephemeralPublic := some ephemeralPublic
    syntheticIv := some syntheticIv
    ciphertext := some (xorStream
      (ctrStream (aes256 (P.hmac (P.hmac masterSecret (utf8 "cipher")) syntheticIv))) name) }

variable {K}

/-- The first steps succeed: what encrypting goes on with. -/
theorem encryptDeviceName_of_keys {seed : K.KeySeed} {aciIdentityPriv : String} {privBytes : Bytes}
    {key : L.PrivateKey} {pub : L.PublicKey} {masterSecret : Bytes}
    (hBytes : Base64.decode Base64.urlSafe aciIdentityPriv = some privBytes)
    (hKey : L.privateKeyDeserialize privBytes = .ok key) (hPub : K.derivePublic key = .ok pub)
    (hSecret : C.calculateAgreement (K.generate seed) pub = .ok masterSecret)
    (deviceName : String) :
    encryptDeviceName K P aes256 seed deviceName aciIdentityPriv =
      .ok (Base64.encodePadded Base64.standard (nameContainer P aes256
        (L.publicKeySerialize (C.publicKey (K.generate seed))) masterSecret
          (utf8 deviceName)).encode) := by
  have hCtr (iv : Bytes) := aes256CtrEncrypt_eq aes256
    (P.length_hmac (P.hmac masterSecret (utf8 "cipher")) iv) (utf8 deviceName)
  simp only [encryptDeviceName, hBytes, hKey, Except.mapError, ok_bind, hPub, hSecret, hCtr,
    nameContainer]
  rfl

/-- A name that was encrypted went through these steps. -/
theorem keys_of_encryptDeviceName {seed : K.KeySeed} {deviceName aciIdentityPriv s : String}
    (h : encryptDeviceName K P aes256 seed deviceName aciIdentityPriv = .ok s) :
    ∃ privBytes key pub masterSecret,
      Base64.decode Base64.urlSafe aciIdentityPriv = some privBytes ∧
      L.privateKeyDeserialize privBytes = .ok key ∧ K.derivePublic key = .ok pub ∧
      C.calculateAgreement (K.generate seed) pub = .ok masterSecret := by
  rcases hBytes : Base64.decode Base64.urlSafe aciIdentityPriv with _ | privBytes
  · rw [encryptDeviceName, hBytes] at h
    cases h
  · rw [encryptDeviceName, hBytes] at h
    obtain ⟨key, hKey, h⟩ := exists_of_bind_ok h
    obtain ⟨pub, hPub, h⟩ := exists_of_bind_ok h
    obtain ⟨masterSecret, hSecret, -⟩ := exists_of_bind_ok h
    exact ⟨privBytes, key, pub, masterSecret, rfl, ok_of_mapError hKey, ok_of_mapError hPub,
      ok_of_mapError hSecret⟩

/-- How long the container is. -/
theorem length_encode_container (ephemeralPublic syntheticIv ciphertext : Bytes) :
    (DeviceNameProto.mk (some ephemeralPublic) (some syntheticIv) (some ciphertext)).encode.length =
      (Wire.encodeField ⟨1, .bytes ephemeralPublic⟩).length +
        ((Wire.encodeField ⟨2, .bytes syntheticIv⟩).length +
          (Wire.encodeField ⟨3, .bytes ciphertext⟩).length) := by
  show (Wire.encodeFields [⟨1, .bytes ephemeralPublic⟩, ⟨2, .bytes syntheticIv⟩,
    ⟨3, .bytes ciphertext⟩]).length = _
  rw [Wire.length_encodeFields_cons, Wire.length_encodeFields_cons, Wire.length_encodeFields_cons]
  rfl

/-- A name that can be stored fits into the length that the format has. -/
theorem length_nameContainer_lt {ephemeralPublic : Bytes} (hPublic : ephemeralPublic.length = 33)
    (masterSecret : Bytes) (deviceName : Str) :
    (nameContainer P aes256 ephemeralPublic masterSecret (utf8 deviceName.val)).encode.length <
      2 ^ 64 := by
  have hKey := Wire.length_encodeField_bytes 1 ephemeralPublic
  have hIv (iv : Bytes) := Wire.length_encodeField_bytes 2 (iv.take 16)
  have hName (stream : Nat → UInt8) :=
    Wire.length_encodeField_bytes 3 (xorStream stream (utf8 deviceName.val))
  have hSize := deviceName.size_lt
  simp only [length_xorStream, length_utf8] at hName
  simp only [List.length_take] at hIv
  rw [nameContainer, length_encode_container]
  have := hIv (P.hmac (P.hmac masterSecret (utf8 "auth")) (utf8 deviceName.val))
  have := hName (ctrStream (aes256 (P.hmac (P.hmac masterSecret (utf8 "cipher"))
    ((P.hmac (P.hmac masterSecret (utf8 "auth")) (utf8 deviceName.val)).take 16))))
  omega

/-- **Device names can be decrypted.** Whatever the name and the identity key:
the owner of that key recovers exactly the bytes of the name, and computes the
synthetic IV it was sent. -/
theorem name_decrypts (hKeys : KeysLawful K) (seed : K.KeySeed) (deviceName : Str)
    {aciIdentityPriv s : String}
    (h : encryptDeviceName K P aes256 seed deviceName.val aciIdentityPriv = .ok s) :
    ∃ privBytes key, Base64.decode Base64.urlSafe aciIdentityPriv = some privBytes ∧
      L.privateKeyDeserialize privBytes = .ok key ∧
      ∃ iv, receiveName P aes256 C key s = some ⟨utf8 deviceName.val, iv, iv⟩ := by
  obtain ⟨privBytes, key, pub, masterSecret, hBytes, hKey, hPub, hSecret⟩ :=
    keys_of_encryptDeviceName P aes256 h
  rw [encryptDeviceName_of_keys P aes256 hBytes hKey hPub hSecret] at h
  obtain rfl := Except.ok.inj h
  have hLen := length_nameContainer_lt P aes256
    (hKeys.length_publicKey (C.publicKey (K.generate seed))) masterSecret deviceName
  -- both sides agree on the secret
  have hAgreed : C.calculateAgreement key (C.publicKey (K.generate seed)) = .ok masterSecret := by
    rw [hKeys.agreement_comm, ← hKeys.derivePublic key pub hPub, hSecret]
  refine ⟨privBytes, key, hBytes, hKey,
    (P.hmac (P.hmac masterSecret (utf8 "auth")) (utf8 deviceName.val)).take 16, ?_⟩
  rw [receiveName, Base64.decodePadded_encodePadded fun _ => Base64.standard_chr_ne]
  simp only [Option.bind_eq_bind, Option.bind_some, readContainer_encode hLen]
  simp only [nameContainer, Option.bind_some, hKeys.publicKey, Except.toOption, hAgreed,
    xorStream_xorStream]
  rfl

-- ---------------------------------------------------------------------------
-- An instance
-- ---------------------------------------------------------------------------

/-- The plain instance with public keys of 33 bytes, the last of which tells
them apart. -/
def nameSignal : Libsignal :=
  { Libsignal.plain with
    PublicKey := UInt8
    publicKeySerialize := fun key => 5 :: (List.replicate 31 0 ++ [key])
    publicKeyDeserialize := fun bs => .ok (bs.getLastD 0) }

def nameCurve : Curve nameSignal where
  publicKey (key : Bytes) := key.headD 0
  calculateAgreement (a : Bytes) (b : UInt8) := .ok [a.headD 0 ^^^ b]

def nameKeyGen : KeyGen nameSignal nameCurve where
  KeySeed := Bytes
  Nonce := Unit
  KemSeed := Bytes
  generate (seed : Bytes) := seed
  derivePublic (key : Bytes) := .ok (nameCurve.publicKey key)
  calculateSignature (key message : Bytes) _ := .ok (key ++ message)
  verifySignature _ _ _ := true
  signedPreKeyRecord _ _ (key signature : Bytes) := key ++ signature
  signedPreKeyPublic (record : Bytes) := .ok record
  signedPreKeySignature (record : Bytes) := .ok record
  kyberPreKeyRecord _ (key seed : Bytes) := .ok (key ++ seed)
  kyberPreKeyPublic (record : Bytes) := .ok record
  kyberPreKeySignature (record : Bytes) := .ok record

/-- The assumptions about the keys can be met. -/
theorem nameKeyGen_lawful : KeysLawful nameKeyGen where
  derivePublic _ _ h := (Except.ok.inj h).symm
  agreement_comm (a b : Bytes) :=
    congrArg (fun x : UInt8 => Except.ok [x]) (UInt8.xor_comm (a.headD 0) (b.headD 0))
  publicKey _ := rfl
  length_publicKey _ := rfl

/-- A block cipher that adds the key to every byte. -/
def nameCipher (key : Bytes) (block : Block) : Block := block.map (· + key.headD 0)

/-- A name encrypted for the key `[7]`. -/
theorem name_decrypts_plain :
    ∃ s, encryptDeviceName nameKeyGen ProvisionFormat.Primitives.plain nameCipher ([3] : Bytes)
        "pc" "Bw" = .ok s ∧
      ∃ privBytes key, Base64.decode Base64.urlSafe "Bw" = some privBytes ∧
        nameSignal.privateKeyDeserialize privBytes = .ok key ∧
        ∃ iv, receiveName ProvisionFormat.Primitives.plain nameCipher nameCurve key s =
          some ⟨utf8 "pc", iv, iv⟩ := by
  have hBytes : Base64.decode Base64.urlSafe "Bw" = some [7] := by decide
  have hKey : nameSignal.privateKeyDeserialize [7] = .ok ([7] : Bytes) := rfl
  have hOk : encryptDeviceName nameKeyGen ProvisionFormat.Primitives.plain nameCipher ([3] : Bytes)
      "pc" "Bw" = .ok _ :=
    encryptDeviceName_of_keys ProvisionFormat.Primitives.plain nameCipher hBytes hKey rfl rfl "pc"
  exact ⟨_, hOk, name_decrypts ProvisionFormat.Primitives.plain nameCipher nameKeyGen_lawful
    ([3] : Bytes) ⟨"pc", by decide⟩ hOk⟩

end Sigchat.Results

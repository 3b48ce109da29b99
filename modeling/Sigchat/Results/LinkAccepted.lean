import Sigchat.Model.MainWs
import Sigchat.Model.Prekeys
import Sigchat.Results.ProvisionFormat
import Sigchat.Results.Relink

/-!
# What the other components make of a linked account

Linking stores what the provisioning message and the server say. Four readers
use it: `Account::read`, the receive worker, the sending path and the identity
store. They agree on the account only if the message has an ACI service id of
at most 256 bytes, the server's device id is one of libsignal's, and the ACI
public key of the message is that of its private key; linking checks none of
these.

* `exchange_of_upload` — what is sent, and the answer;
* `link_accepted_iff`  — when the readers accept the account.
-/

namespace Sigchat.Results.LinkAccepted

open Sigchat.Lib
open Sigchat.Pddb
open Sigchat.Signal
open Sigchat.Stores
open Sigchat.Accounts
open Sigchat.MainWs (workerLocalAddr)
open Sigchat.Outgoing (localProtocolAddress)

variable {U : UrlCrate} {L : Libsignal}

-- ---------------------------------------------------------------------------
-- The request
-- ---------------------------------------------------------------------------

/-- What linking draws and makes, and the server's answer. -/
structure Exchange (S : LinkServices U L) where
  verificationCode : String
  profileKeyB64 : String
  profileKey : Bytes
  password : String
  registrationId : UInt16
  pniRegistrationId : UInt16
  encryptedName : String
  attributes : S.Attributes
  aciPrivate : L.PrivateKey
  pniPrivate : L.PrivateKey
  prekeys : Prekeys L
  baseUrl : U.Url
  response : LinkDeviceResponse

/-- This is what linking does for a message. -/
structure Exchange.Of {S : LinkServices U L} (x : Exchange S) (a : Account U) (deviceName : String)
    (msg : ProvisionMessage) : Prop where
  verificationCode : msg.provisioningCode = some x.verificationCode
  profileKeyB64 : msg.profileKey = some x.profileKeyB64
  profileKey : Base64.decode Base64.urlSafe x.profileKeyB64 = some x.profileKey
  password : S.generateLinkPassword = .ok x.password
  registrationId : S.registrationId = .ok x.registrationId
  pniRegistrationId : S.pniRegistrationId = .ok x.pniRegistrationId
  encryptedName : S.encryptDeviceName deviceName msg.aci.djbPrivateKey = .ok x.encryptedName
  attributes : S.buildAccountAttributes x.encryptedName x.profileKey x.registrationId
    x.pniRegistrationId = .ok x.attributes
  aciPrivate : decodePrivateKey msg.aci.djbPrivateKey = .ok x.aciPrivate
  pniPrivate : decodePrivateKey msg.pni.djbPrivateKey = .ok x.pniPrivate
  prekeys : S.generatePrekeys x.aciPrivate x.pniPrivate = .ok x.prekeys
  baseUrl : a.chatUrl = .ok x.baseUrl
  response : S.putDevicesLink x.baseUrl msg.number x.password
    (.fromParts x.verificationCode x.attributes x.prekeys) = .ok x.response

/-- What it leaves to be saved. -/
def Exchange.linked {S : LinkServices U L} (x : Exchange S) : Linked L :=
  ⟨x.password, x.registrationId, x.pniRegistrationId, x.encryptedName, x.profileKeyB64,
    x.response.deviceId, x.prekeys⟩

/-- An upload that succeeds has gone through every step, and these are its
values. -/
theorem exchange_of_upload {S : LinkServices U L} {a : Account U} {deviceName : String}
    {msg : ProvisionMessage} {l : Linked L} (h : upload S a deviceName msg = .ok l) :
    ∃ x : Exchange S, x.Of a deviceName msg ∧ l = x.linked := by
  unfold upload at h
  rcases hCode : msg.provisioningCode with _ | code
  · rw [hCode] at h
    cases h
  rcases hProfile : msg.profileKey with _ | profileKeyB64
  · rw [hCode, hProfile] at h
    cases h
  rcases hBytes : Base64.decode Base64.urlSafe profileKeyB64 with _ | profileKey
  · simp only [hCode, hProfile, hBytes] at h
    cases h
  simp only [hCode, hProfile, hBytes] at h
  -- The steps in the order of the source.
  obtain ⟨password, hPassword, h⟩ := exists_of_bind_ok h
  obtain ⟨registrationId, hRegistration, h⟩ := exists_of_bind_ok h
  obtain ⟨pniRegistrationId, hPniRegistration, h⟩ := exists_of_bind_ok h
  obtain ⟨encryptedName, hName, h⟩ := exists_of_bind_ok h
  obtain ⟨attributes, hAttributes, h⟩ := exists_of_bind_ok h
  obtain ⟨aciPrivate, hAci, h⟩ := exists_of_bind_ok h
  obtain ⟨pniPrivate, hPni, h⟩ := exists_of_bind_ok h
  obtain ⟨prekeys, hPrekeys, h⟩ := exists_of_bind_ok h
  obtain ⟨baseUrl, hUrl, h⟩ := exists_of_bind_ok h
  obtain ⟨response, hResponse, h⟩ := exists_of_bind_ok h
  exact ⟨⟨code, profileKeyB64, profileKey, password, registrationId, pniRegistrationId,
    encryptedName, attributes, aciPrivate, pniPrivate, prekeys, baseUrl, response⟩,
    ⟨hCode, hProfile, hBytes, hPassword, hRegistration, hPniRegistration, hName, hAttributes, hAci,
      hPni, hPrekeys, hUrl, hResponse⟩, (Except.ok.inj h).symm⟩

-- ---------------------------------------------------------------------------
-- The readers
-- ---------------------------------------------------------------------------

/-- The worker's check of the device id is libsignal's. -/
theorem workerLocalAddr_eq (aciServiceId : String) (deviceId : UInt32) :
    workerLocalAddr aciServiceId deviceId =
      (DeviceId.new deviceId.toNat).map fun dev => ⟨aciServiceId, dev⟩ := by
  -- The source compares with 0 and 127 and then truncates to a byte.
  by_cases hRange : deviceId = 0 ∨ 127 < deviceId
  · have hNew : DeviceId.new deviceId.toNat = none := by
      refine dif_neg fun h => ?_
      rcases hRange with rfl | hLarge
      · exact absurd h.1 (by decide)
      · have hLarge' : 127 < deviceId.toNat := UInt32.lt_iff_toNat_lt.mp hLarge
        omega
    rw [workerLocalAddr, if_pos hRange, hNew, Option.map_none]
  · have hSmall : deviceId.toNat ≤ 127 := by
      have h := (not_or.mp hRange).2
      rwa [UInt32.not_lt, UInt32.le_iff_toNat_le] at h
    have hByte : deviceId.toUInt8.toNat = deviceId.toNat := by
      rw [UInt32.toNat_toUInt8]
      omega
    rw [workerLocalAddr, if_neg hRange, hByte]

/-- The address the store reports is made of the two values on disk. -/
theorem runAll_localProtocolAddress {aci : String} {deviceId : UInt32} {s : Disk}
    (hAci : s accountDict Key.aciServiceId.name = some (utf8 aci))
    (hDevice : s accountDict Key.deviceId.name = some (utf8 (decimal deviceId.toNat))) :
    (localProtocolAddress.runAll serve .served s).1.toOption =
      (DeviceId.new deviceId.toNat).map fun dev => ⟨aci, dev⟩ := by
  have hAci' :
      (Outgoing.pddbGetString accountDict Outgoing.aciServiceIdKey).runAll serve .served s =
        (some aci, s) := by
    rw [Outgoing.runAll_pddbGetString, show s accountDict Outgoing.aciServiceIdKey = _ from hAci,
      Option.bind_some, fromUtf8_utf8]
  have hDevice' : (Outgoing.pddbGetString accountDict Outgoing.deviceIdKey).runAll serve .served s =
      (some (decimal deviceId.toNat), s) := by
    rw [Outgoing.runAll_pddbGetString, show s accountDict Outgoing.deviceIdKey = _ from hDevice,
      Option.bind_some, fromUtf8_utf8]
  rw [localProtocolAddress, Prog.runAll_bind, hAci']
  simp only [Prog.runAll_bind, hDevice', Prog.pure_eq, Prog.runAll_done, Outgoing.deviceIdOf,
    parseU32_decimal deviceId.toNat_lt]
  cases DeviceId.new deviceId.toNat <;> rfl

theorem textOf_decimal {n : Nat} (hn : n < 2 ^ 32) :
    textOf (some (utf8 (decimal n))) = some (decimal n) :=
  textOf_utf8 (Nat.le_trans (utf8ByteSize_decimal_le (by decide : 0 < 10) (by omega)) (by decide))

/-- The registration id comes back as it was stored. -/
theorem runAll_getLocalRegistrationId {registrationId : UInt16} {s : Disk}
    (hId : s accountDict Key.registrationId.name = some (utf8 (decimal registrationId.toNat))) :
    (identityStore.getLocalRegistrationId.runAll serve .served s).1 =
      .ok registrationId.toNat := by
  have hSmall : registrationId.toNat < 2 ^ 32 := by
    have := registrationId.toNat_lt
    omega
  have hText : (readAccountString accountDict "registration_id").runAll serve .served s =
      (some (decimal registrationId.toNat), s) := by
    rw [runAll_readAccountString, show s accountDict "registration_id" = _ from hId,
      textOf_decimal hSmall]
  have hParse : parseU32 (trim (decimal registrationId.toNat)) = some registrationId.toNat := by
    rw [trim_decimal, parseU32_decimal hSmall]
  unfold PddbIdentityStore.getLocalRegistrationId
  rw [Prog.runAll_bind, show identityStore.accountDict = accountDict from rfl, hText]
  simp only [Option.bind_some, Function.comp_apply, hParse, Prog.pure_eq, Prog.runAll_done]

/-- The base64 text of a key, cut off where reading stops. -/
theorem textOf_encode (key : Bytes) :
    textOf (some (utf8 (Base64.encode Base64.urlSafe key))) =
      some (Base64.encode Base64.urlSafe (key.take 192)) := by
  rw [textOf, Option.bind_some, Base64.take_utf8_encode_urlSafe 64 key, fromUtf8_utf8]

/-- The key pair comes back as libsignal reads the first 192 bytes of each half.
-/
theorem runAll_getIdentityKeyPair {priv pub : Bytes} {s : Disk}
    (hPriv : s accountDict Key.aciIdentityPrivate.name =
      some (utf8 (Base64.encode Base64.urlSafe priv)))
    (hPub : s accountDict Key.aciIdentityPublic.name =
      some (utf8 (Base64.encode Base64.urlSafe pub))) :
    (identityStore.getIdentityKeyPair.runAll serve .served s).1 = (do
      let privateKey ← L.privateKeyDeserialize (priv.take 192)
      let identityKey ← L.identityKeyDecode (pub.take 192)
      .ok ⟨identityKey, privateKey⟩ : SignalResult (IdentityKeyPair L)) := by
  have hPrivText : (readAccountString accountDict "aci.identity.private").runAll serve .served s =
      (some (Base64.encode Base64.urlSafe (priv.take 192)), s) := by
    rw [runAll_readAccountString, show s accountDict "aci.identity.private" = _ from hPriv,
      textOf_encode]
  have hPubText : (readAccountString accountDict "aci.identity.public").runAll serve .served s =
      (some (Base64.encode Base64.urlSafe (pub.take 192)), s) := by
    rw [runAll_readAccountString, show s accountDict "aci.identity.public" = _ from hPub,
      textOf_encode]
  unfold PddbIdentityStore.getIdentityKeyPair
  rw [show identityStore.accountDict = accountDict from rfl, Prog.runAll_bind, hPrivText]
  simp only [Prog.runAll_bind, hPubText, Base64.trim_encode_urlSafe, Base64.decode_encode,
    Prog.pure_eq, Prog.runAll_done]

-- ---------------------------------------------------------------------------
-- The account that is read
-- ---------------------------------------------------------------------------

/-- The texts of six keys decide whether an account can be read. -/
theorem exists_ofTexts {dict : String} {f : Key → Option String} {deviceId : UInt32} {host : U.Host}
    {isMultiDevice registered : Bool} {serviceEnvironment : ServiceEnvironment}
    {storeManifestVersion : Int} (hDevice : (f .deviceId).bind parseDeviceId = some deviceId)
    (hHost : (f .host).bind U.parseHost = some host)
    (hMulti : (f .isMultiDevice).bind parseBool = some isMultiDevice)
    (hRegistered : (f .registered).bind parseBool = some registered)
    (hEnvironment : (f .serviceEnvironment).bind ServiceEnvironment.fromStr =
      some serviceEnvironment)
    (hVersion : (f .storeManifestVersion).bind parseI64 = some storeManifestVersion) :
    ∃ b : Account U, ofTexts dict f = .ok (.ok b) := by
  refine ⟨⟨dict, f .aciIdentityPrivate, f .aciIdentityPublic, f .aciServiceId, deviceId,
    f .encryptedDeviceName, host, isMultiDevice, f .number, f .password, f .pinMasterKey,
    f .pniIdentityPrivate, f .pniIdentityPublic, f .pniServiceId, f .profileKey, registered,
    serviceEnvironment, f .storageKey, ((f .storeLastReceiveTimestamp).bind parseI64).getD 0,
    storeManifestVersion, f .storeManifest⟩, ofTexts_eq_iff.mpr ⟨rfl, fun k => ?_⟩⟩
  cases k <;> first | rfl | assumption | trivial

-- ---------------------------------------------------------------------------
-- Acceptance
-- ---------------------------------------------------------------------------

/-- The other components accept the account a disk holds: it can be read, worker
and sending path build the same address under its ACI, the identity key pair is
the private key with its own public key, and the registration id is the one
sent. -/
structure Accepted (U : UrlCrate) (C : Curve L) (key : L.PrivateKey) (registrationId : UInt16)
    (s : Disk) : Prop where
  address : ∃ (b : Account U) (aci : String) (addr : ProtocolAddress),
    ((Accounts.read accountDict).runAll serve .served s).1 = .ok (.ok b) ∧
      b.aciServiceId = some aci ∧ aci ≠ "" ∧ workerLocalAddr aci b.deviceId = some addr ∧
      (localProtocolAddress.runAll serve .served s).1 = .ok addr
  keyPair : ∃ pair : IdentityKeyPair L,
    (identityStore.getIdentityKeyPair.runAll serve .served s).1 = .ok pair ∧
      pair.privateKey = key ∧
      L.identityKeySerialize pair.identityKey = L.publicKeySerialize (C.publicKey key)
  registrationId :
    (identityStore.getLocalRegistrationId.runAll serve .served s).1 = .ok registrationId.toNat

/-- The first 192 bytes of a public key are what its reader sees. -/
structure Acceptable (C : Curve L) (msg : ProvisionMessage) (response : LinkDeviceResponse)
    (key : L.PrivateKey) : Prop where
  serviceId : msg.aci.serviceId ≠ "" ∧ msg.aci.serviceId.utf8ByteSize ≤ 256
  deviceId : 0 < response.deviceId.toNat ∧ response.deviceId.toNat ≤ 127
  identityKey : ∃ pub identityKey, Base64.decode Base64.urlSafe msg.aci.djbIdentityKey = some pub ∧
    L.identityKeyDecode (pub.take 192) = .ok identityKey ∧
    L.identityKeySerialize identityKey = L.publicKeySerialize (C.publicKey key)

/-- The keys of a decoded message are base64. -/
theorem exists_keys_of_decode {C : Curve L} {P : Provisioning.Primitives}
    {tempIdentity : ProvisionedIdentity} {bytes : Bytes} {msg : ProvisionMessage}
    (h : Provisioning.decode C P tempIdentity bytes = .ok msg) :
    ∃ pub priv, msg.aci.djbIdentityKey = Base64.encode Base64.urlSafe pub ∧
      msg.aci.djbPrivateKey = Base64.encode Base64.urlSafe priv := by
  obtain ⟨ws, -, h⟩ := exists_of_bind_ok h
  obtain ⟨body, -, h⟩ := exists_of_bind_ok h
  obtain ⟨⟨ephemeralPub, envelope⟩, -, h⟩ := exists_of_bind_ok h
  obtain ⟨-, -, h⟩ := exists_of_bind_ok h
  obtain ⟨⟨aesKey, macKey⟩, -, h⟩ := exists_of_bind_ok h
  obtain ⟨-, -, h⟩ := exists_of_bind_ok h
  obtain ⟨plaintext, -, h⟩ := exists_of_bind_ok h
  obtain ⟨proto, -, h⟩ := exists_of_bind_ok h
  obtain ⟨pub, -, h⟩ := exists_of_bind_ok h
  obtain ⟨priv, -, h⟩ := exists_of_bind_ok h
  obtain rfl := Except.ok.inj h
  exact ⟨pub, priv, rfl, rfl⟩

theorem deviceId_new_eq_some {id : Nat} (h : 0 < id ∧ id ≤ 127) :
    DeviceId.new id = some ⟨id, h.1, h.2⟩ := dif_pos h

theorem range_of_deviceId_new {id : Nat} {dev : DeviceId} (h : DeviceId.new id = some dev) :
    0 < id ∧ id ≤ 127 := by
  unfold DeviceId.new at h
  split at h
  · assumption
  · cases h

/-- A text is read in full exactly if it fits the buffer. -/
theorem textOf_utf8_eq_iff {text : String} :
    textOf (some (utf8 text)) = some text ↔ text.utf8ByteSize ≤ 256 := by
  constructor
  · intro h
    have hBytes := congrArg List.length (utf8_of_fromUtf8 h)
    rw [List.length_take, length_utf8] at hBytes
    omega
  · exact textOf_utf8

/-- Both readers of the address build the same one under the ACI exactly if the
id is there, fits the buffer, and the device id is in range. -/
theorem address_iff {b : Account U} {aci : String} {deviceId : UInt32} {s : Disk}
    (hRead : ((Accounts.read accountDict).runAll serve .served s).1 = .ok (.ok b))
    (hAci : s accountDict Key.aciServiceId.name = some (utf8 aci))
    (hDevice : s accountDict Key.deviceId.name = some (utf8 (decimal deviceId.toNat))) :
    (∃ (b : Account U) (aci : String) (addr : ProtocolAddress),
      ((Accounts.read accountDict).runAll serve .served s).1 = .ok (.ok b) ∧
        b.aciServiceId = some aci ∧ aci ≠ "" ∧ workerLocalAddr aci b.deviceId = some addr ∧
        (localProtocolAddress.runAll serve .served s).1 = .ok addr) ↔
      (aci ≠ "" ∧ aci.utf8ByteSize ≤ 256) ∧ 0 < deviceId.toNat ∧ deviceId.toNat ≤ 127 := by
  -- Every field of the account is what its key says.
  have hHolds : ∀ k, Holds b (keyText s accountDict k) k := by
    rw [runAll_read] at hRead
    exact (ofTexts_eq_iff.mp hRead).2
  have hText : textOf (some (utf8 aci)) = b.aciServiceId := by
    rw [← hAci]
    exact hHolds .aciServiceId
  have hId : b.deviceId = deviceId := by
    have h := hHolds .deviceId
    rw [Holds, keyText, hDevice, textOf_decimal deviceId.toNat_lt, Option.bind_some,
      parseDeviceId_decimal] at h
    exact (Option.some.inj h).symm
  have hLocal := runAll_localProtocolAddress hAci hDevice
  -- The service id must be there and fit the buffer, and the device id must be one.
  constructor
  · rintro ⟨b', aci', addr, hRead', hAci', hNe, hWorker, hAddr⟩
    obtain rfl := Except.ok.inj (Except.ok.inj (hRead.symm.trans hRead'))
    rw [workerLocalAddr_eq, hId] at hWorker
    obtain ⟨dev, hDev, rfl⟩ := Option.map_eq_some_iff.mp hWorker
    rw [hAddr, hDev] at hLocal
    -- the two addresses are under the same id
    obtain rfl : aci' = aci := congrArg ProtocolAddress.name (Option.some.inj hLocal)
    exact ⟨⟨hNe, textOf_utf8_eq_iff.mp (hText.trans hAci')⟩, range_of_deviceId_new hDev⟩
  · rintro ⟨⟨hNe, hFits⟩, hRange⟩
    refine ⟨b, aci, ⟨aci, ⟨_, hRange.1, hRange.2⟩⟩, hRead,
      hText.symm.trans (textOf_utf8_eq_iff.mpr hFits), hNe, ?_, ok_of_toOption ?_⟩
    · rw [workerLocalAddr_eq, hId, deviceId_new_eq_some hRange, Option.map_some]
    · rw [hLocal, deviceId_new_eq_some hRange, Option.map_some]

/-- The identity store returns the private key with its own public key exactly
if that is what it reads for the public key. -/
theorem keyPair_iff {C : Curve L} {priv pub : Bytes} {key : L.PrivateKey} {s : Disk}
    (hPriv : s accountDict Key.aciIdentityPrivate.name =
      some (utf8 (Base64.encode Base64.urlSafe priv)))
    (hPub : s accountDict Key.aciIdentityPublic.name =
      some (utf8 (Base64.encode Base64.urlSafe pub)))
    (hKey : L.privateKeyDeserialize (priv.take 192) = .ok key) :
    (∃ pair : IdentityKeyPair L,
      (identityStore.getIdentityKeyPair.runAll serve .served s).1 = .ok pair ∧
        pair.privateKey = key ∧
        L.identityKeySerialize pair.identityKey = L.publicKeySerialize (C.publicKey key)) ↔
      ∃ identityKey, L.identityKeyDecode (pub.take 192) = .ok identityKey ∧
        L.identityKeySerialize identityKey = L.publicKeySerialize (C.publicKey key) := by
  rw [runAll_getIdentityKeyPair hPriv hPub, hKey]
  constructor
  · rintro ⟨pair, hPair, -, hOwn⟩
    obtain ⟨privateKey, -, hPair⟩ := exists_of_bind_ok hPair
    obtain ⟨identityKey, hDecode, hPair⟩ := exists_of_bind_ok hPair
    obtain rfl := Except.ok.inj hPair
    exact ⟨identityKey, hDecode, hOwn⟩
  · rintro ⟨identityKey, hDecode, hOwn⟩
    refine ⟨⟨identityKey, key⟩, ?_, rfl, hOwn⟩
    show (L.identityKeyDecode (pub.take 192) >>= _) = _
    rw [hDecode]
    rfl

/-- Decoding undoes the Base64 and leaves the rest to libsignal. -/
theorem deserialize_of_decodePrivateKey {priv : Bytes} {key : L.PrivateKey}
    (h : decodePrivateKey (Base64.encode Base64.urlSafe priv) = .ok key) :
    L.privateKeyDeserialize priv = .ok key := by
  simp only [decodePrivateKey, Base64.decode_encode] at h
  rcases hKey : L.privateKeyDeserialize priv with e | key'
  · rw [hKey] at h
    cases h
  · rw [hKey] at h
    exact congrArg Except.ok (Except.ok.inj h)

/-- The account can be read again. -/
theorem exists_read_of_linked {a : Account U} {msg : ProvisionMessage} {l : Linked L} {s s' : Disk}
    (hRead : ((Accounts.read accountDict).runAll serve .served s).1 = .ok (.ok a))
    (hStored : ∀ name, s' accountDict name =
      stored accountDict (linkValues msg l) s accountDict name) :
    ∃ b : Account U, ((Accounts.read accountDict).runAll serve .served s').1 = .ok (.ok b) := by
  rw [runAll_read] at hRead
  obtain ⟨-, hHolds⟩ := ofTexts_eq_iff.mp hRead
  -- A key that the link writes holds what was written; the others hold what they held.
  have hContent {k : Key} {v : Option String} (hMem : (k, v) ∈ linkValues msg l) :
      keyText s' accountDict k = textOf (v.map utf8) := by
    rw [keyText, hStored, stored_of_mem (nodup_linkValues msg l) hMem]
  have hOther {k : Key} (hk : k ∉ (linkValues msg l).map Prod.fst) :
      keyText s' accountDict k = keyText s accountDict k := by
    rw [keyText, hStored, stored_other hk, keyText]
  have hKept : Key.host ∉ (linkValues msg l).map Prod.fst ∧
      Key.serviceEnvironment ∉ (linkValues msg l).map Prod.fst := by
    unfold linkValues identityValues profileValues
    cases msg.accountEntropyPool <;> simp
  -- Each field that is parsed is parsed from a value that the program itself has printed.
  have hDevice : (keyText s' accountDict .deviceId).bind parseDeviceId = some l.deviceId := by
    rw [hContent (v := some (decimal l.deviceId.toNat)) (by simp [linkValues, identityValues]),
      Option.map_some, textOf_decimal l.deviceId.toNat_lt, Option.bind_some, parseDeviceId_decimal]
  have hMulti : (keyText s' accountDict .isMultiDevice).bind parseBool = some true := by
    rw [hContent (v := some "true") (by simp [linkValues, profileValues])]
    decide +kernel
  have hRegistered : (keyText s' accountDict .registered).bind parseBool = some true := by
    rw [hContent (v := some "true") (by simp [linkValues])]
    decide +kernel
  have hVersion : (keyText s' accountDict .storeManifestVersion).bind parseI64 = some (-1) := by
    rw [hContent (v := some "-1") (by simp [linkValues, profileValues])]
    decide +kernel
  -- These two the link leaves as they were, and they were read before.
  have hHost : (keyText s' accountDict .host).bind U.parseHost = some a.host := by
    rw [hOther hKept.1]
    exact hHolds .host
  have hEnvironment : (keyText s' accountDict .serviceEnvironment).bind ServiceEnvironment.fromStr =
      some a.serviceEnvironment := by
    rw [hOther hKept.2]
    exact hHolds .serviceEnvironment
  obtain ⟨b, hb⟩ := exists_ofTexts hDevice hHost hMulti hRegistered hEnvironment hVersion
  exact ⟨b, by rw [runAll_read, hb]⟩

/-- **What the other components make of a linked account.** They accept it
exactly if the ACI service id of the message is there and can be read in full,
the server's device id is one of libsignal's, and the message's public key is
that of its private key. -/
theorem link_accepted_iff
    (hPrivate : ∀ bs key, L.privateKeyDeserialize bs = .ok key → bs.length = 32)
    {C : Curve L} {P : Provisioning.Primitives} {tempIdentity : ProvisionedIdentity} {bytes : Bytes}
    {msg : ProvisionMessage} (hMsg : Provisioning.decode C P tempIdentity bytes = .ok msg)
    {S : LinkServices U L} {a : Account U} {s : Disk} {deviceName : String}
    (hRead : ((Accounts.read accountDict).runAll serve .served s).1 = .ok (.ok a))
    (hTrue : ((a.link S deviceName msg).runAll serve .served s).1.map Prod.fst =
      .ok (.ok true)) :
    ∃ x : Exchange S, x.Of a deviceName msg ∧
      (Accepted U C x.aciPrivate x.registrationId
          ((a.link S deviceName msg).runAll serve .served s).2 ↔
        Acceptable C msg x.response x.aciPrivate) := by
  have hDict : a.pddbDict = accountDict := by
    rw [runAll_read] at hRead
    exact (ofTexts_eq_iff.mp hRead).1
  -- From the answer back to the exchange with the server and to what is on disk.
  obtain ⟨a', hResult⟩ := exists_of_map_fst hTrue
  obtain ⟨l, hUpload, hStored⟩ := runAll_link_true hDict hResult
  obtain ⟨x, hx, rfl⟩ := exchange_of_upload hUpload
  refine ⟨x, hx, ?_⟩
  generalize ((a.link S deviceName msg).runAll serve .served s).2 = s' at hStored ⊢
  have hContent {k : Key} {v : Option String} (hMem : (k, v) ∈ linkValues msg x.linked) :
      s' accountDict k.name = v.map utf8 :=
    (hStored _).trans (stored_of_mem (nodup_linkValues msg x.linked) hMem s)
  -- The five values on disk that the acceptance is about.
  have hAci : s' accountDict Key.aciServiceId.name = some (utf8 msg.aci.serviceId) :=
    hContent (v := some _) (by simp [linkValues, profileValues])
  have hDevice : s' accountDict Key.deviceId.name =
      some (utf8 (decimal x.response.deviceId.toNat)) :=
    hContent (v := some _) (by simp [linkValues, identityValues, Exchange.linked])
  have hPrivB64 : s' accountDict Key.aciIdentityPrivate.name = some (utf8 msg.aci.djbPrivateKey) :=
    hContent (v := some _) (by simp [linkValues, identityValues])
  have hPubB64 : s' accountDict Key.aciIdentityPublic.name = some (utf8 msg.aci.djbIdentityKey) :=
    hContent (v := some _) (by simp [linkValues, identityValues])
  have hId : s' accountDict Key.registrationId.name =
      some (utf8 (decimal x.registrationId.toNat)) :=
    hContent (v := some _) (by simp [linkValues, profileValues, Exchange.linked])
  obtain ⟨b, hb⟩ := exists_read_of_linked hRead hStored
  obtain ⟨pub, priv, hPub, hPriv⟩ := exists_keys_of_decode hMsg
  rw [hPub] at hPubB64
  rw [hPriv] at hPrivB64
  -- A private key has 32 bytes, so the 192 that are read hold all of it.
  have hKey : L.privateKeyDeserialize (priv.take 192) = .ok x.aciPrivate := by
    have hDeserialize := deserialize_of_decodePrivateKey (hPriv ▸ hx.aciPrivate)
    rw [List.take_of_length_le (by rw [hPrivate _ _ hDeserialize]; decide)]
    exact hDeserialize
  constructor
  · intro h
    obtain ⟨hServiceId, hDeviceId⟩ := (address_iff hb hAci hDevice).mp h.address
    obtain ⟨identityKey, hDecode, hOwn⟩ := (keyPair_iff hPrivB64 hPubB64 hKey).mp h.keyPair
    exact ⟨hServiceId, hDeviceId, pub, identityKey, by rw [hPub, Base64.decode_encode], hDecode,
      hOwn⟩
  · rintro ⟨hServiceId, hDeviceId, pub', identityKey, hPub', hDecode, hOwn⟩
    rw [hPub, Base64.decode_encode] at hPub'
    obtain rfl := Option.some.inj hPub'
    exact ⟨(address_iff hb hAci hDevice).mpr ⟨hServiceId, hDeviceId⟩,
      (keyPair_iff hPrivB64 hPubB64 hKey).mpr ⟨identityKey, hDecode, hOwn⟩,
      runAll_getLocalRegistrationId hId⟩

-- ---------------------------------------------------------------------------
-- A message without an ACI
-- ---------------------------------------------------------------------------

deriving instance DecidableEq for ProvisionedIdentity, ProvisionMessage

/-- The plain instance with private keys of 32 bytes only. -/
def strictSignal : Libsignal :=
  { Libsignal.plain with
    privateKeyDeserialize := fun bs : Bytes =>
      if bs.length = 32 then .ok bs else .error (.other "bad key length") }

def strictCurve : Curve strictSignal where
  publicKey (key : Bytes) := key
  calculateAgreement (a b : Bytes) := .ok (List.zipWith (· ^^^ ·) a b)

theorem strictSignal_length {bs : Bytes} {key : strictSignal.PrivateKey}
    (h : strictSignal.privateKeyDeserialize bs = .ok key) : bs.length = 32 := by
  by_contra hLen
  rw [show strictSignal.privateKeyDeserialize bs = _ from if_neg hLen] at h
  cases h

def strictServices : LinkServices .plain strictSignal where
  generateLinkPassword := .ok "secret"
  registrationId := .ok 1
  pniRegistrationId := .ok 2
  encryptDeviceName name _ := .ok name
  Attributes := Unit
  buildAccountAttributes _ _ _ _ := .ok ()
  generatePrekeys _ _ :=
    let record (n : UInt8) : Bytes := [n]
    .ok ⟨plainKey, plainKey, plainKey, plainKey, record 1, record 2, record 3, record 4⟩
  putDevicesLink _ _ _ _ := .ok ⟨"aci", "pni", 2⟩

/-- Keys of the device and of the primary. -/
def tempKey : Bytes := List.replicate 32 4

def primaryKey : Bytes := List.replicate 32 7

def tempIdentity : ProvisionedIdentity := ⟨"", "", Base64.encode Base64.urlSafe tempKey⟩

/-- What the primary sends, with its ACI if it has one. -/
def sent (aci : Option String) : Bytes :=
  ((ProvisionFormat.encode strictCurve ProvisionFormat.Primitives.plain ProvisionFormat.plainEncrypt
    ProvisionFormat.plainFrame (List.replicate 32 9 : Bytes) tempKey (List.replicate 16 8)
      { Provisioning.ProvisionMessageProto.default with
        aciIdentityKeyPublic := some primaryKey
        aciIdentityKeyPrivate := some primaryKey
        pniIdentityKeyPublic := some primaryKey
        pniIdentityKeyPrivate := some primaryKey
        number := some "+1"
        provisioningCode := some "c"
        profileKey := some [1, 2, 3]
        aci }).toOption).getD []

/-- What is decoded. -/
def received (aci : String) : ProvisionMessage :=
  let key := Base64.encode Base64.urlSafe primaryKey
  ⟨"+1", ⟨aci, key, key⟩, ⟨"", key, key⟩, some "AQID", some "c", none⟩

/-- The two messages are decoded, one with an empty service id. -/
theorem decode_sent :
    Provisioning.decode strictCurve ProvisionFormat.Primitives.plain tempIdentity (sent none) =
        .ok (received "") ∧
      Provisioning.decode strictCurve ProvisionFormat.Primitives.plain tempIdentity
        (sent (some "aci")) = .ok (received "aci") := by
  decide +kernel

theorem link_received :
    ((fresh.link strictServices "xous" (received "")).runAll serve .served freshDisk).1.map
        Prod.fst = .ok (.ok true) ∧
      ((fresh.link strictServices "xous" (received "aci")).runAll serve .served freshDisk).1.map
        Prod.fst = .ok (.ok true) := by
  decide +kernel

/-- A message without an ACI is linked, and the account has an empty one. -/
theorem linked_without_aci :
    ¬∀ (U : UrlCrate) (L : Libsignal) (C : Curve L) (P : Provisioning.Primitives)
      (tempIdentity : ProvisionedIdentity) (bytes : Bytes) (msg : ProvisionMessage),
      (∀ bs key, L.privateKeyDeserialize bs = .ok key → bs.length = 32) →
      Provisioning.decode C P tempIdentity bytes = .ok msg →
      ∀ (S : LinkServices U L) (a : Account U) (s : Disk) (deviceName : String),
      ((Accounts.read accountDict).runAll serve .served s).1 = .ok (.ok a) →
      ((a.link S deviceName msg).runAll serve .served s).1.map Prod.fst = .ok (.ok true) →
      ∀ x : Exchange S, x.Of a deviceName msg →
      Accepted U C x.aciPrivate x.registrationId
        ((a.link S deviceName msg).runAll serve .served s).2 := by
  intro h
  obtain ⟨a', hResult⟩ := exists_of_map_fst link_received.1
  obtain ⟨l, hUpload, -⟩ := runAll_link_true rfl hResult
  obtain ⟨x, hx, -⟩ := exchange_of_upload hUpload
  have hAccepted := h _ _ _ _ _ _ _ (fun _ _ => strictSignal_length) decode_sent.1 _ _ _ _
    fresh_coherent link_received.1 x hx
  obtain ⟨b, aci, addr, hRead, -⟩ := hAccepted.address
  have hAci : ((fresh.link strictServices "xous" (received "")).runAll serve .served freshDisk).2
      accountDict Key.aciServiceId.name = some (utf8 "") := by
    decide +kernel
  have hDevice : ((fresh.link strictServices "xous" (received "")).runAll serve .served
      freshDisk).2 accountDict Key.deviceId.name = some (utf8 (decimal (2 : UInt32).toNat)) := by
    decide +kernel
  exact ((address_iff hRead hAci hDevice).mp hAccepted.address).1.1 rfl

/-- The theorem for a message with an ACI. -/
theorem link_accepted_aci :
    ∃ x : Exchange strictServices, x.Of fresh "xous" (received "aci") ∧
      Accepted .plain strictCurve x.aciPrivate x.registrationId
        ((fresh.link strictServices "xous" (received "aci")).runAll serve .served freshDisk).2 := by
  obtain ⟨x, hx, hIff⟩ := link_accepted_iff (fun _ _ => strictSignal_length) decode_sent.2
    fresh_coherent link_received.2
  have hOwn : (primaryKey : Bytes) = x.aciPrivate := by
    have hKey := deserialize_of_decodePrivateKey hx.aciPrivate
    exact Except.ok.inj hKey
  have hResponse : (⟨"aci", "pni", 2⟩ : LinkDeviceResponse) = x.response :=
    Except.ok.inj hx.response
  refine ⟨x, hx, hIff.mpr ⟨by decide, ?_, primaryKey, primaryKey, ?_, rfl, ?_⟩⟩
  · rw [← hResponse]
    decide
  · exact Base64.decode_encode _ _
  · rw [← hOwn]
    rfl

end Sigchat.Results.LinkAccepted

import Sigchat.Model.LinkServices
import Sigchat.Model.Linking
import Sigchat.Results.Closing
import Sigchat.Results.ProvisionFormat

/-!
# The link QR code

`scan` is the primary's side of the URI in the QR code: it reads the parameters
and the key among them. The device shows a URI once it has the server's address
for it, and what the primary then encrypts for the key it has scanned is what
`Manager::link` goes on with.
-/

namespace Sigchat.Results.LinkQr

open Sigchat.Lib
open Sigchat.Pddb
open Sigchat.Signal
open Sigchat.Accounts
open Sigchat.App
open Sigchat.Provisioning
open Sigchat.Linking (provisioned)
open Computation
open Sigchat.Results.ProvisionFormat

variable {L : Libsignal}

-- ---------------------------------------------------------------------------
-- The primary's side
-- ---------------------------------------------------------------------------

/-- What the primary reads off the code. -/
structure Scanned (L : Libsignal) where
  uuid : String
  publicKey : L.PublicKey
  capabilities : Option String

def scan (L : Libsignal) (uri : String) : Option (Scanned L) := do
  let (target, query) ← splitAtFirst ['?'] uri.toList
  if String.ofList target = "sgnl://linkdevice" then
    let params ← FormUrl.parse query
    let uuid ← params.lookup "uuid"
    let pubKey ← params.lookup "pub_key"
    let bytes ← Base64.decode Base64.standard pubKey
    let publicKey ← (L.publicKeyDeserialize bytes).toOption
    some ⟨uuid, publicKey, params.lookup "capabilities"⟩
  else none

/-- The parameters are what follows the question mark. -/
theorem toList_linkdeviceUri (uuid pubKey : String) :
    (linkdeviceUri uuid pubKey).toList = "sgnl://linkdevice".toList ++
      '?' :: FormUrl.serialize [("uuid", uuid), ("pub_key", pubKey),
        ("capabilities", "backup5")] := by
  have hScheme : "sgnl://linkdevice?".toList = "sgnl://linkdevice".toList ++ ['?'] := by decide
  unfold linkdeviceUri
  generalize FormUrl.serialize _ = query
  rw [String.toList_append, hScheme, List.append_assoc, String.toList_ofList (l := query),
    List.singleton_append]

/-- Scanning the URI gives back the uuid and the key it was built from. -/
theorem scan_linkdeviceUri {pubKey : String} {bytes : Bytes} {key : L.PublicKey}
    (hBytes : Base64.decode Base64.standard pubKey = some bytes)
    (hKey : L.publicKeyDeserialize bytes = .ok key) (uuid : String) :
    scan L (linkdeviceUri uuid pubKey) = some ⟨uuid, key, some "backup5"⟩ := by
  have hFree : '?' ∉ "sgnl://linkdevice".toList := by decide
  have hSplit := splitAtFirst_singleton.mpr ⟨hFree, toList_linkdeviceUri uuid pubKey⟩
  have hParse := FormUrl.parse_serialize
    (List.cons_ne_nil ("uuid", uuid) [("pub_key", pubKey), ("capabilities", "backup5")])
  simp only [scan, hSplit, hParse, String.ofList_toList, Option.bind_eq_bind, Option.bind_some,
    if_true, List.lookup_cons, String.reduceBEq, beq_self_eq_true, hBytes, hKey, Except.toOption]

-- ---------------------------------------------------------------------------
-- The device's side
-- ---------------------------------------------------------------------------

/-- What has to go well for the worker to get the websocket, with the address
that is read from it. -/
structure Opens (o : Opening) (address : String) : Prop where
  connect : o.connect = .ok ()
  firstRead : ∃ bytes, o.firstRead = .ok (.binary bytes) ∧ decodeUuid bytes = .ok address
  xousNames : o.xousNames = true
  modals : o.modals = true
  spawn : o.spawn = .ok ()

section Device

variable {o : Opening} {pubKey uri : String} (hPub : o.pubKey = some pubKey)
    (hUrl : ∀ uuid pubKey, o.parseWithParams uuid pubKey = some (linkdeviceUri uuid pubKey))

include hPub hUrl

/-- There is a URI exactly if the first frame holds an address and both services
are there to show it. -/
theorem deviceLinkUri_iff :
    o.deviceLinkUri = some uri ↔ ∃ address,
      (∃ bytes, o.firstRead = .ok (.binary bytes) ∧ decodeUuid bytes = .ok address) ∧
        o.xousNames = true ∧ o.modals = true ∧ uri = linkdeviceUri address pubKey := by
  unfold Opening.deviceLinkUri
  -- The steps of `?` one after the other, and back.
  constructor
  · intro h
    split at h
    · rename_i bytes hRead
      obtain ⟨address, hAddress, h⟩ := Option.bind_eq_some_iff.mp h
      rw [hPub, Option.bind_eq_bind, Option.bind_some, hUrl, Option.bind_some] at h
      split_ifs at h with hUi
      exact ⟨address, ⟨bytes, hRead, ok_of_toOption hAddress⟩, hUi.1, hUi.2,
        (Option.some.inj h).symm⟩
    · cases h
  · rintro ⟨address, ⟨bytes, hRead, hAddress⟩, hNames, hModals, rfl⟩
    rw [hRead]
    dsimp only
    rw [hAddress, hPub, hNames, hModals]
    show (o.parseWithParams address pubKey).bind _ = _
    rw [hUrl]
    rfl

/-- A URI is shown exactly if nothing goes wrong before. -/
theorem ok_mem_link_iff : .ok uri ∈ o.link ↔
    ∃ address, Opens o address ∧ uri = linkdeviceUri address pubKey := by
  have hShown : o.deviceLinkUri = some uri ↔ _ := deviceLinkUri_iff hPub hUrl
  unfold Opening.link
  -- Without a connection the only outcome is the error.
  rcases hConnect : o.connect with e | ⟨⟩
  · rw [mem_return_iff]
    constructor
    · intro h
      cases h
    · rintro ⟨address, hOpens, -⟩
      have hOk := hOpens.connect
      rw [hConnect] at hOk
      cases hOk
  · constructor
    · intro h
      rcases hUri : o.deviceLinkUri with _ | shown
      · rw [hUri] at h
        -- A connection that is given up is closed first, whatever the
        -- closing says.
        obtain ⟨-, hErr⟩ := mem_close_then_iff.mp h
        cases hErr
      · rw [hUri] at h
        rcases hSpawn : o.spawn with e | ⟨⟩
        · rw [hSpawn] at h
          cases mem_return_iff.mp h
        · rw [hSpawn] at h
          cases mem_return_iff.mp h
          obtain ⟨address, hRead, hNames, hModals, rfl⟩ := hShown.mp hUri
          exact ⟨address, ⟨hConnect, hRead, hNames, hModals, hSpawn⟩, rfl⟩
    · rintro ⟨address, hOpens, rfl⟩
      have hUri := hShown.mpr
        ⟨address, hOpens.firstRead, hOpens.xousNames, hOpens.modals, rfl⟩
      rw [hUri, hOpens.spawn]
      exact mem_return_iff.mpr rfl

end Device

-- ---------------------------------------------------------------------------
-- Both sides
-- ---------------------------------------------------------------------------

/-- What the server sends first. -/
def addressFrame (frame : Frame) (address : String) : Bytes :=
  (frame.wrap (ProvisioningAddressProto.encode ⟨some address⟩)).encode

/-- The address of the server's frame is read. -/
theorem decodeUuid_addressFrame {frame : Frame} {address : String}
    (hLen : (addressFrame frame address).length < 2 ^ 64) :
    decodeUuid (addressFrame frame address) = .ok address := by
  have hBody := frame.length_le_wrap (ProvisioningAddressProto.encode ⟨some address⟩)
  unfold addressFrame at hLen ⊢
  rw [decodeUuid, WebSocketMessageProto.decode_encode frame.type_isInt32 hLen]
  show (orInvalid _ (ProvisioningAddressProto.decode _) >>= fun proto => _) = _
  rw [ProvisioningAddressProto.decode_encode (by omega)]
  rfl

/-- What the device makes of a message with ACI keys. -/
def messageOf (m : ProvisionMessageProto) (aciPub aciPriv : Bytes) : ProvisionMessage where
  number := m.number.getD ""
  aci := ⟨m.aci.getD "", Base64.encode Base64.urlSafe aciPub,
    Base64.encode Base64.urlSafe aciPriv⟩
  pni := ⟨m.pni.getD "", Base64.encode Base64.urlSafe (m.pniIdentityKeyPublic.getD []),
    Base64.encode Base64.urlSafe (m.pniIdentityKeyPrivate.getD [])⟩
  profileKey := m.profileKey.map (Base64.encode Base64.urlSafe)
  provisioningCode := m.provisioningCode
  accountEntropyPool := m.accountEntropyPool

variable {C : Curve L} {P : Primitives} {privateKeySerialize : L.PrivateKey → Bytes}
    {key : L.PrivateKey} {o : Opening}

/-- The key of the generated pair passes the check of its length. -/
theorem pubKey_generated (hLen : (L.publicKeySerialize (C.publicKey key)).length = 33)
    (hKey : o.identityKey = (generateIdentityKeyPair C privateKeySerialize key).djbIdentityKey) :
    o.pubKey = some (Base64.encode Base64.standard (L.publicKeySerialize (C.publicKey key))) := by
  have hBytes : Base64.decode Base64.urlSafe o.identityKey =
      some (L.publicKeySerialize (C.publicKey key)) := by
    rw [hKey]
    exact Base64.decode_encode _ _
  rw [Opening.pubKey, hBytes]
  exact if_pos hLen

/-- What is encrypted for the generated key is what linking goes on with. -/
theorem provisioned_encode {encrypt : Bytes → Bytes → Bytes → Bytes}
    (hLawful : Lawful C P encrypt)
    (hPrivate : L.privateKeyDeserialize (privateKeySerialize key) = .ok key)
    {frame : Frame} {m : ProvisionMessageProto} {aciPub aciPriv iv bytes : Bytes}
    {ephemeral : L.PrivateKey} (hPub : m.aciIdentityKeyPublic = some aciPub)
    (hPriv : m.aciIdentityKeyPrivate = some aciPriv) (hIv : iv.length = 16)
    (hEncode : encode C P encrypt frame ephemeral (C.publicKey key) iv m = .ok bytes)
    (hLen : bytes.length < 2 ^ 63) :
    provisioned C P (generateIdentityKeyPair C privateKeySerialize key) (some (.binary bytes)) =
      .ok (messageOf m aciPub aciPriv) := by
  have hTemp : (generateIdentityKeyPair C privateKeySerialize key).djbPrivateKey =
      Base64.encode Base64.urlSafe (privateKeySerialize key) := rfl
  obtain ⟨hPlaintext, hDecode⟩ := decode_encode hLawful hTemp hPrivate hIv hEncode (by omega)
  rw [readMessage_encode hPub hPriv hPlaintext] at hDecode
  rw [provisioned, hDecode]
  rfl

/-- **The QR code joins the two devices.** `Manager::link` gets to show a URI
exactly if it has read an address and nothing else fails. Scanned, the URI gives
that address, which is the one in the server's frame, and the key of the pair:
every message with ACI keys that is encrypted for it is the one linking goes on
with. -/
theorem link_qr {encrypt : Bytes → Bytes → Bytes → Bytes} (hLawful : Lawful C P encrypt)
    (hPrivate : L.privateKeyDeserialize (privateKeySerialize key) = .ok key)
    (hLen : (L.publicKeySerialize (C.publicKey key)).length = 33)
    (hKey : o.identityKey = (generateIdentityKeyPair C privateKeySerialize key).djbIdentityKey)
    (hUrl : ∀ uuid pubKey, o.parseWithParams uuid pubKey = some (linkdeviceUri uuid pubKey)) :
    ((∃ uri, .ok uri ∈ o.link) ↔ ∃ address, Opens o address) ∧
    ∀ uri, .ok uri ∈ o.link → ∃ scanned, scan L uri = some scanned ∧
      Opens o scanned.uuid ∧ scanned.publicKey = C.publicKey key ∧
      scanned.capabilities = some "backup5" ∧
      (∀ (frame : Frame) (address : String), (addressFrame frame address).length < 2 ^ 64 →
        o.firstRead = .ok (.binary (addressFrame frame address)) → scanned.uuid = address) ∧
      ∀ (frame : Frame) (m : ProvisionMessageProto) (aciPub aciPriv iv bytes : Bytes)
        (ephemeral : L.PrivateKey), m.aciIdentityKeyPublic = some aciPub →
        m.aciIdentityKeyPrivate = some aciPriv → iv.length = 16 →
        encode C P encrypt frame ephemeral scanned.publicKey iv m = .ok bytes →
        bytes.length < 2 ^ 63 →
        provisioned C P (generateIdentityKeyPair C privateKeySerialize key) (some (.binary bytes)) =
          .ok (messageOf m aciPub aciPriv) := by
  have hPubKey := pubKey_generated hLen hKey
  have hShown (uri : String) : .ok uri ∈ o.link ↔ _ := ok_mem_link_iff hPubKey hUrl
  refine ⟨⟨fun ⟨uri, hMem⟩ => ?_, fun ⟨address, hOpens⟩ => ?_⟩, fun uri hMem => ?_⟩
  · obtain ⟨address, hOpens, -⟩ := (hShown uri).mp hMem
    exact ⟨address, hOpens⟩
  · exact ⟨_, (hShown _).mpr ⟨address, hOpens, rfl⟩⟩
  · obtain ⟨address, hOpens, rfl⟩ := (hShown uri).mp hMem
    -- The key in the URI is the one the message will be encrypted for.
    have hScan := scan_linkdeviceUri (Base64.decode_encode _ _)
      (hLawful.publicKey (C.publicKey key)) address
    refine ⟨_, hScan, hOpens, rfl, rfl, fun frame address' hFrameLen hRead => ?_,
      fun frame m aciPub aciPriv iv bytes ephemeral hPub hPriv hIv hEncode hBytes =>
        provisioned_encode hLawful hPrivate hPub hPriv hIv hEncode hBytes⟩
    obtain ⟨bytes, hBinary, hDecode⟩ := hOpens.firstRead
    rw [hRead] at hBinary
    cases hBinary
    rw [decodeUuid_addressFrame hFrameLen] at hDecode
    exact (Except.ok.inj hDecode).symm

/-- The device has drawn a key, and the server names an address. -/
def plainKey : Bytes := List.replicate 33 5

def plainOpening : Opening where
  connect := .ok ()
  firstRead := .ok (.binary (addressFrame plainFrame "a+b =="))
  identityKey := (generateIdentityKeyPair Curve.plain id plainKey).djbIdentityKey
  parseWithParams uuid pubKey := some (linkdeviceUri uuid pubKey)
  xousNames := true
  modals := true
  spawn := .ok ()
  flush _ := .ok ()

/-- The theorem for an address with characters that the URI escapes. -/
theorem link_qr_plain : ∃ uri scanned, .ok uri ∈ plainOpening.link ∧
    scan .plain uri = some scanned ∧ scanned.uuid = "a+b ==" ∧
    ∃ bytes, encode Curve.plain Primitives.plain plainEncrypt plainFrame [9] scanned.publicKey
        (List.replicate 16 8) plainContent = .ok bytes ∧
      provisioned Curve.plain Primitives.plain (generateIdentityKeyPair Curve.plain id plainKey)
        (some (.binary bytes)) = .ok (messageOf plainContent [5, 7] [7]) := by
  have hFrame : decodeUuid (addressFrame plainFrame "a+b ==") = .ok "a+b ==" :=
    decodeUuid_addressFrame (by decide +kernel)
  obtain ⟨hOpened, hScanned⟩ := @link_qr .plain Curve.plain Primitives.plain id plainKey
    plainOpening plainEncrypt plain_lawful rfl rfl rfl fun _ _ => rfl
  obtain ⟨uri, hMem⟩ := hOpened.mpr ⟨"a+b ==", rfl, ⟨_, rfl, hFrame⟩, rfl, rfl, rfl⟩
  obtain ⟨⟨uuid, publicKey, capabilities⟩, hScan, -, rfl, -, hAddress, hMessage⟩ :=
    hScanned uri hMem
  have hSize : ((encode Curve.plain Primitives.plain plainEncrypt plainFrame ([9] : Bytes) plainKey
      (List.replicate 16 8) plainContent).toOption.getD []).length < 2 ^ 63 := by decide +kernel
  refine ⟨uri, _, hMem, hScan, hAddress plainFrame _ (by decide +kernel) rfl, _, rfl, ?_⟩
  exact hMessage plainFrame plainContent [5, 7] [7] (List.replicate 16 8) _ ([9] : Bytes) rfl rfl
    rfl rfl hSize

end Sigchat.Results.LinkQr

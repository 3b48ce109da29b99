import Sigchat.Results.DeviceNames
import Sigchat.Results.LinkAccepted

/-!
# Reading stored values back

Three readers look at the account dictionary. `account::get` and
`read_account_string` make one read of at most 256 bytes, `pddb_get_string`
reads to the end. A longer value is cut for the first two, and is not even text
if the cut is inside a character.

## Results

* `readsBack_iff`              — a value is read back by all three if and only if
  it has at most 256 bytes.
* `length_encryptedDeviceName` — how long the encryption of a device name is.
* `read_back_iff`              — values, absent values, device names and the ACI.
* `long_value_cut`             — a value of 257 bytes.
-/

namespace Sigchat.Results

open Sigchat.Lib
open Sigchat.Lib.Wire
open Sigchat.Pddb
open Sigchat.Signal
open Sigchat.Stores
open Sigchat.Accounts
open Sigchat.Outgoing
open Sigchat.Provisioning
open Sigchat.DeviceName
open Sigchat.Lib.Ctr
open Sigchat.Results.LinkAccepted

-- ---------------------------------------------------------------------------
-- The readers
-- ---------------------------------------------------------------------------

/-- What the three readers answer for a key. -/
structure Readers where
  get : Option String
  readAccountString : Option String
  pddbGetString : Option String

def readers (dict : String) (k : Key) (s : Disk) : Readers where
  get := ((Accounts.get dict k).runAll serve .served s).1
  readAccountString := ((Stores.readAccountString dict k.name).runAll serve .served s).1
  pddbGetString := ((Outgoing.pddbGetString dict k.name).runAll serve .served s).1

/-- All of them answer `v`. -/
def ReadsBack (dict : String) (k : Key) (v : Option String) (s : Disk) : Prop :=
  readers dict k s = ⟨v, v, v⟩

/-- What the three readers make of a key: two stop at 256 bytes, one does not.
-/
theorem readers_eq (dict : String) (k : Key) (s : Disk) :
    readers dict k s = ⟨textOf (s dict k.name), textOf (s dict k.name),
      (s dict k.name).bind fromUtf8⟩ := by
  rw [readers, runAll_get, runAll_readAccountString, runAll_pddbGetString, keyText]

/-- A stored value reads back exactly if it fits the buffer. -/
theorem readsBack_iff {dict : String} {k : Key} {v : String} {s : Disk}
    (hStored : s dict k.name = some (utf8 v)) :
    ReadsBack dict k (some v) s ↔ v.utf8ByteSize ≤ 256 := by
  rw [ReadsBack, readers_eq, hStored, Option.bind_some, fromUtf8_utf8, Readers.mk.injEq,
    ← textOf_utf8_eq_iff]
  exact ⟨fun h => h.1, fun h => ⟨h, h, rfl⟩⟩

theorem readsBack_none {dict : String} {k : Key} {s : Disk} (hStored : s dict k.name = none) :
    ReadsBack dict k none s := by
  rw [ReadsBack, readers_eq, hStored]
  rfl

-- ---------------------------------------------------------------------------
-- Device names
-- ---------------------------------------------------------------------------

theorem length_encodeField_bytes_eq {tag : Nat} (hTag : tag * 8 + 2 < 0x80) (bs : Bytes) :
    (encodeField ⟨tag, .bytes bs⟩).length = 1 + (encodeVarint bs.length).length + bs.length := by
  rw [encodeField, List.length_append, List.length_append, length_encodeVarint_one hTag]

section Names

variable {L : Libsignal} {C : Curve L} {K : KeyGen L C} {P : Primitives}
  {aes256 : Bytes → Block → Block}

/-- The container of a name: 54 bytes, the length of the name and the name. -/
theorem length_nameContainer {ephemeralPublic : Bytes} (hPublic : ephemeralPublic.length = 33)
    (masterSecret name : Bytes) :
    (nameContainer P aes256 ephemeralPublic masterSecret name).encode.length =
      54 + (encodeVarint name.length).length + name.length := by
  rw [nameContainer, length_encode_container, length_encodeField_bytes_eq (by decide),
    length_encodeField_bytes_eq (by decide), length_encodeField_bytes_eq (by decide),
    length_xorStream, hPublic, List.length_take, P.length_hmac]
  have hKey : (encodeVarint 33).length = 1 := rfl
  have hIv : (encodeVarint (min 16 32)).length = 1 := rfl
  omega

/-- **The length of an encrypted name.** -/
theorem length_encryptedDeviceName (hPublic : ∀ k, (L.publicKeySerialize k).length = 33)
    {seed : K.KeySeed} {deviceName aciIdentityPriv s : String}
    (h : encryptDeviceName K P aes256 seed deviceName aciIdentityPriv = .ok s) :
    s.utf8ByteSize = 4 * ((54 + (encodeVarint deviceName.utf8ByteSize).length +
      deviceName.utf8ByteSize + 2) / 3) := by
  obtain ⟨privBytes, key, pub, masterSecret, hBytes, hKey, hPub, hSecret⟩ :=
    keys_of_encryptDeviceName P aes256 h
  rw [encryptDeviceName_of_keys P aes256 hBytes hKey hPub hSecret] at h
  obtain rfl := Except.ok.inj h
  rw [Base64.utf8ByteSize_encodePadded, length_nameContainer (hPublic _), length_utf8]

/-- It fits the buffer if and only if the name has at most 136 bytes. -/
theorem encryptedDeviceName_fits (hPublic : ∀ k, (L.publicKeySerialize k).length = 33)
    {seed : K.KeySeed} {deviceName aciIdentityPriv s : String}
    (h : encryptDeviceName K P aes256 seed deviceName aciIdentityPriv = .ok s) :
    s.utf8ByteSize ≤ 256 ↔ deviceName.utf8ByteSize ≤ 136 := by
  rw [length_encryptedDeviceName hPublic h]
  generalize deviceName.utf8ByteSize = n
  rcases Nat.lt_or_ge n 0x80 with hSmall | hLarge
  · rw [length_encodeVarint_one hSmall]
    omega
  · rcases Nat.lt_or_ge n (0x80 * 0x80) with hTwo | hHuge
    · rw [length_encodeVarint_two hLarge hTwo]
      omega
    · have hPos := length_encodeVarint_pos n
      omega

end Names

-- ---------------------------------------------------------------------------
-- Stored and read back
-- ---------------------------------------------------------------------------

/-- Linking stores a name that is read back if and only if the device name has at
most 136 bytes. -/
theorem readsBack_linked_name {U : UrlCrate} {L : Libsignal} {C : Curve L} (K : KeyGen L C)
    (P : Primitives) (aes256 : Bytes → Block → Block) (seed : K.KeySeed)
    (hPublic : ∀ k, (L.publicKeySerialize k).length = 33) {S : LinkServices U L}
    (hEncrypt : S.encryptDeviceName = encryptDeviceName K P aes256 seed) {a : Account U}
    {deviceName : String} {msg : ProvisionMessage} {s : Disk} (hDict : a.pddbDict = accountDict)
    (hTrue : ((a.link S deviceName msg).runAll serve .served s).1.map Prod.fst = .ok (.ok true)) :
    ∃ name, S.encryptDeviceName deviceName msg.aci.djbPrivateKey = .ok name ∧
      (ReadsBack accountDict .encryptedDeviceName (some name)
        ((a.link S deviceName msg).runAll serve .served s).2 ↔
          deviceName.utf8ByteSize ≤ 136) := by
  obtain ⟨a', hResult⟩ := exists_of_map_fst hTrue
  obtain ⟨l, hUpload, hStored⟩ := runAll_link_true hDict hResult
  obtain ⟨x, hx, rfl⟩ := exchange_of_upload hUpload
  refine ⟨x.encryptedName, hx.encryptedName, ?_⟩
  have hName := hx.encryptedName
  rw [hEncrypt] at hName
  rw [← encryptedDeviceName_fits hPublic hName]
  refine readsBack_iff ?_
  have hValue : (Key.encryptedDeviceName, some x.encryptedName) ∈ linkValues msg x.linked := by
    simp [linkValues, profileValues, Exchange.linked]
  rw [hStored, stored_of_mem (nodup_linkValues msg x.linked) hValue]
  rfl

/-- **Reading back.** After a `set` of a value all readers return it if and only
if it has at most 256 bytes, after one of `None` they return `None`; the
encrypted device name that linking stores is read back if and only if the name
has at most 136 bytes; and the receive path sees the ACI service id of the send
path if and only if it has at most 256. -/
theorem read_back_iff {U : UrlCrate} {L : Libsignal} {C : Curve L} (K : KeyGen L C)
    (P : Primitives) (aes256 : Bytes → Block → Block) (seed : K.KeySeed)
    (hPublic : ∀ k, (L.publicKeySerialize k).length = 33) {S : LinkServices U L}
    (hEncrypt : S.encryptDeviceName = encryptDeviceName K P aes256 seed) {a : Account U}
    {deviceName : String} {msg : ProvisionMessage} {s : Disk} (hDict : a.pddbDict = accountDict)
    (hTrue : ((a.link S deviceName msg).runAll serve .served s).1.map Prod.fst = .ok (.ok true)) :
    (∀ dict k v s, ReadsBack dict k (some v)
      ((Accounts.set dict k (some v)).runAll serve .served s).2 ↔ v.utf8ByteSize ≤ 256) ∧
    (∀ dict k s, ReadsBack dict k none
      ((Accounts.set dict k none).runAll serve .served s).2) ∧
    (∃ name, S.encryptDeviceName deviceName msg.aci.djbPrivateKey = .ok name ∧
      (ReadsBack accountDict .encryptedDeviceName (some name)
        ((a.link S deviceName msg).runAll serve .served s).2 ↔
          deviceName.utf8ByteSize ≤ 136)) ∧
    (∀ v s,
      (readers accountDict .aciServiceId
        ((Accounts.set accountDict .aciServiceId (some v)).runAll serve .served s).2).get =
      (readers accountDict .aciServiceId ((Accounts.set accountDict .aciServiceId
        (some v)).runAll serve .served s).2).pddbGetString ↔ v.utf8ByteSize ≤ 256) := by
  refine ⟨fun dict k v s => ?_, fun dict k s => ?_, ?_, fun v s => ?_⟩
  · rw [runAll_set]
    exact readsBack_iff (Disk.set_same ..)
  · rw [runAll_set]
    exact readsBack_none (Disk.set_same ..)
  · exact readsBack_linked_name K P aes256 seed hPublic hEncrypt hDict hTrue
  · simp only [runAll_set, readers_eq, Disk.set_same, Option.map_some, Option.bind_some,
      fromUtf8_utf8, textOf_utf8_eq_iff]

/-- A value of 257 bytes is cut for two of the readers. -/
theorem long_value_cut :
    ¬∀ (dict : String) (k : Key) (v : Option String) (s : Disk),
      ReadsBack dict k v ((Accounts.set dict k v).runAll serve .served s).2 := by
  intro h
  have hRead := h accountDict .number (some (String.ofList (List.replicate 257 'a')))
    fun _ _ => none
  rw [runAll_set] at hRead
  have hFits := (readsBack_iff (Disk.set_same ..)).mp hRead
  have hLen : (String.ofList (List.replicate 257 'a')).utf8ByteSize = 257 :=
    (utf8ByteSize_ofList fun c hc => by rw [List.eq_of_mem_replicate hc]; rfl).trans
      List.length_replicate
  omega

/-- Linking with real device names, for plain services otherwise. -/
def nameServices : LinkServices .plain nameSignal where
  generateLinkPassword := .ok "secret"
  registrationId := .ok 1
  pniRegistrationId := .ok 2
  encryptDeviceName :=
    encryptDeviceName nameKeyGen ProvisionFormat.Primitives.plain nameCipher ([3] : Bytes)
  Attributes := Unit
  buildAccountAttributes _ _ _ _ := .ok ()
  generatePrekeys _ _ :=
    let record (n : UInt8) : Bytes := [n]
    .ok ⟨plainKey, plainKey, plainKey, plainKey, record 1, record 2, record 3, record 4⟩
  putDevicesLink _ _ _ _ := .ok ⟨"aci", "pni", 2⟩

/-- The message of a primary with the private key `[7]`. -/
def nameMessage : ProvisionMessage :=
  ⟨"+1", ⟨"aci", "Bw", "Bw"⟩, ⟨"pni", "Bw", "Bw"⟩, some "AQID", some "c", none⟩

theorem link_name :
    ((fresh.link nameServices "pc" nameMessage).runAll serve .served freshDisk).1.map
      Prod.fst = .ok (.ok true) := by
  decide +kernel

/-- The theorem for the device name `pc`. -/
theorem read_back_pc :
    ∃ name, nameServices.encryptDeviceName "pc" "Bw" = .ok name ∧
      ReadsBack accountDict .encryptedDeviceName (some name)
        ((fresh.link nameServices "pc" nameMessage).runAll serve .served freshDisk).2 := by
  obtain ⟨-, -, ⟨name, hName, hRead⟩, -⟩ := read_back_iff nameKeyGen
    ProvisionFormat.Primitives.plain nameCipher ([3] : Bytes) (fun _ => rfl) rfl rfl link_name
  exact ⟨name, hName, hRead.mpr (by decide)⟩

end Sigchat.Results

import Sigchat.Results.LogSecrecy

/-!
# What linking logs of the secrets

Two links with the same public inputs and the same outcomes of everything they
call differ in the password, the private keys, the profile key and the entropy
pool. Up to the server's answer they log the same: the request is redacted, and
of the body only its length is logged. Then every value is stored by `set`,
which logs it.

* `agree_upload`   — up to the server's answer;
* `linkLog_eq_iff` — when two links log the same;
* `logs_alike_iff` — reading, creating and linking;
* `secrets_logged` — two links that do not log the same.
-/

namespace Sigchat.Results

open Sigchat.Lib
open Sigchat.Pddb
open Sigchat.Signal
open Sigchat.Accounts
open Sigchat.AccountLog
open Sigchat.Rest

variable {U : UrlCrate} {L : Libsignal}

-- ---------------------------------------------------------------------------
-- Two runs
-- ---------------------------------------------------------------------------

/-- Two accounts that differ in secret fields only, with a password both or
neither. -/
structure AlikeAccounts (a a' : Account U) : Prop where
  fields : a' = { a with
    aciIdentityPrivate := a'.aciIdentityPrivate
    password := a'.password
    pniIdentityPrivate := a'.pniIdentityPrivate
    profileKey := a'.profileKey }
  password : a.password.isSome = a'.password.isSome

/-- Two messages that differ in the private keys, the profile key and the entropy
pool only, and hold the same of them. -/
structure AlikeMessages (msg msg' : ProvisionMessage) : Prop where
  fields : msg' = { msg with
    aci := { msg.aci with djbPrivateKey := msg'.aci.djbPrivateKey }
    pni := { msg.pni with djbPrivateKey := msg'.pni.djbPrivateKey }
    profileKey := msg'.profileKey
    accountEntropyPool := msg'.accountEntropyPool }
  profileKey : msg.profileKey.isSome = msg'.profileKey.isSome
  accountEntropyPool : msg.accountEntropyPool.isSome = msg'.accountEntropyPool.isSome

/-- Decoding two texts: both decode, to bytes that are related, or neither does,
for the same reason. -/
def SameDecoding (S S' : Services U L) (R : Bytes → Bytes → Prop) (k k' : String) : Prop :=
  match Base64.decode Base64.urlSafe k, Base64.decode Base64.urlSafe k' with
  | some bytes, some bytes' => R bytes bytes'
  | none, none => S.texts.decodeError k = S'.texts.decodeError k'
  | _, _ => False

/-- Two profile keys: as many bytes, and the access key is derived or not, for
the same reason. -/
def SameProfileKey (S S' : Services U L) : String → String → Prop :=
  SameDecoding S S' fun bytes bytes' => bytes.length = bytes'.length ∧
    (bytes.length = 32 → Emit.Related (fun _ _ => True) (S.aesGcm bytes) (S'.aesGcm bytes'))

/-- Two private keys: they are accepted or not, for the same reason, and deriving
the public key has the same outcome. -/
def SameKey (S S' : Services U L) : String → String → Prop :=
  SameDecoding S S' fun bytes bytes' =>
    Emit.Related (fun key key' => S.derivePublic key = S'.derivePublic key')
      (L.privateKeyDeserialize bytes) (L.privateKeyDeserialize bytes')

/-- The same outcomes of everything linking calls, for a password, private keys
and a profile key that may differ. -/
structure SameOutcomes (S S' : Services U L) (a a' : Account U) (deviceName : String)
    (msg msg' : ProvisionMessage) : Prop where
  texts : S.texts = S'.texts
  password : Emit.Related (fun _ _ => True) S.generateLinkPassword S'.generateLinkPassword
  registrationId : S.registrationId = S'.registrationId
  pniRegistrationId : S.pniRegistrationId = S'.pniRegistrationId
  encryptedName : S.encryptDeviceName deviceName msg.aci.djbPrivateKey =
    S'.encryptDeviceName deviceName msg'.aci.djbPrivateKey
  profileKey : ∀ k k', msg.profileKey = some k → msg'.profileKey = some k' →
    SameProfileKey S S' k k'
  aciKey : SameKey S S' msg.aci.djbPrivateKey msg'.aci.djbPrivateKey
  pniKey : SameKey S S' msg.pni.djbPrivateKey msg'.pni.djbPrivateKey
  prekeys : ∀ aci pni aci' pni',
    Accounts.decodePrivateKey msg.aci.djbPrivateKey = .ok aci →
    Accounts.decodePrivateKey msg.pni.djbPrivateKey = .ok pni →
    Accounts.decodePrivateKey msg'.aci.djbPrivateKey = .ok aci' →
    Accounts.decodePrivateKey msg'.pni.djbPrivateKey = .ok pni' →
    S.generatePrekeys aci pni = S'.generatePrekeys aci' pni'
  linkUrl : S.http.linkUrl = S'.http.linkUrl
  parseResponse : S.http.parseResponse = S'.http.parseResponse
  put : ∀ q q', (prepare S a deviceName msg).result = .ok q →
    (prepare S' a' deviceName msg').result = .ok q' →
    ∀ identifier ∈ [msg.number ++ ".-1", msg.number],
      S.http.put (S.http.linkUrl q.baseUrl) (basicAuthHeader identifier q.password)
        (toJsonString q.body) =
      S'.http.put (S'.http.linkUrl q'.baseUrl) (basicAuthHeader identifier q'.password)
        (toJsonString q'.body)

/-- Two links with the same public inputs and the same outcomes. -/
structure AlikeLinks (S S' : Services U L) (a a' : Account U) (deviceName : String)
    (msg msg' : ProvisionMessage) : Prop where
  accounts : AlikeAccounts a a'
  messages : AlikeMessages msg msg'
  outcomes : SameOutcomes S S' a a' deviceName msg msg'

-- ---------------------------------------------------------------------------
-- The length of the body
-- ---------------------------------------------------------------------------

/-- A string without characters to escape takes its bytes and two quotes. -/
theorem size_quote {s : String} (h : ∀ c ∈ s.toList, Json.escape c = [c]) :
    ((Json.quote s).map Char.utf8Size).sum = s.utf8ByteSize + 2 := by
  have hPlain : Json.escapeAll s.toList = s.toList := by
    rw [Json.escapeAll, List.flatMap_congr h, List.flatMap_singleton']
  have hBytes := utf8ByteSize_ofList_eq_sum s.toList
  rw [String.ofList_toList] at hBytes
  rw [Json.quote, hPlain, List.map_append, List.map_cons, List.sum_append, List.sum_cons, ← hBytes]
  show Char.utf8Size '"' + s.utf8ByteSize + (Char.utf8Size '"' + 0) = _
  have hQuote : Char.utf8Size '"' = 1 := rfl
  omega

/-- Base64 has no character that JSON escapes. -/
theorem escape_encodePadded {bs : Bytes} {c : Char}
    (h : c ∈ (Base64.encodePadded Base64.standard bs).toList) : Json.escape c = [c] := by
  have hAll : ∀ n < 64, Json.escape (Base64.standard.chr n) = [Base64.standard.chr n] := by decide
  rw [Base64.encodePadded, String.toList_ofList, List.mem_append] at h
  rcases h with hChar | hPad
  · obtain ⟨n, hn, rfl⟩ := Base64.exists_chr_of_mem _ hChar
    exact hAll n hn
  · rw [List.eq_of_mem_replicate hPad]
    rfl

def withUak (attrs : AccountAttributes) (uak : Vector UInt8 16) : AccountAttributes :=
  { attrs with
    unidentifiedAccessKey := Base64.encodePadded Base64.standard uak.toList }

/-- The size of the body does not depend on the access key, of 16 bytes. -/
theorem size_body (body : Body) (uak uak' : Vector UInt8 16) :
    (toJsonString { body with
      accountAttributes := withUak body.accountAttributes uak }).utf8ByteSize =
    (toJsonString { body with
      accountAttributes := withUak body.accountAttributes uak' }).utf8ByteSize := by
  have hKey (key : Vector UInt8 16) : ((Json.quote
      (Base64.encodePadded Base64.standard key.toList)).map Char.utf8Size).sum = 26 := by
    rw [size_quote fun _ => escape_encodePadded, Base64.utf8ByteSize_encodePadded,
      Vector.length_toList]
  rw [toJsonString, toJsonString, utf8ByteSize_ofList_eq_sum, utf8ByteSize_ofList_eq_sum]
  simp only [bodyJson, withUak, AccountAttributes.toJson, Json.object, Json.fields, Json.field,
    List.map_append, List.map_cons, List.sum_append, List.sum_cons, hKey]

-- ---------------------------------------------------------------------------
-- Up to the server's answer
-- ---------------------------------------------------------------------------

section Upload

variable {S S' : Services U L}

/-- Two values that are both there or both missing log the same line or none. -/
theorem agree_orLog {α β : Type} {R : α → β → Prop} {x : Option α} {y : Option β}
    {message message' : String} {e : IoError} (hPresence : x.isSome = y.isSome)
    (hMessage : x = none → message = message')
    (hSome : ∀ a b, x = some a → y = some b → R a b) :
    Emit.Agree R (orLog x message e) (orLog y message' e) := by
  rcases x with _ | a <;> rcases y with _ | b
  · rw [hMessage rfl]
    exact Emit.agree_bind_refl _ fun _ => Emit.agree_fail e
  · cases hPresence
  · cases hPresence
  · exact ⟨rfl, .ok (hSome a b rfl rfl)⟩

/-- Two texts that decode alike log alike. -/
theorem agree_decode {R : Bytes → Bytes → Prop} {k k' : String} (h : SameDecoding S S' R k k')
    (label : String) (e : IoError) :
    Emit.Agree R
      (orLog (Base64.decode Base64.urlSafe k) (label ++ S.texts.decodeError k) e)
      (orLog (Base64.decode Base64.urlSafe k') (label ++ S'.texts.decodeError k') e) := by
  unfold SameDecoding at h
  generalize Base64.decode Base64.urlSafe k = x at h ⊢
  generalize Base64.decode Base64.urlSafe k' = y at h ⊢
  rcases x with _ | bytes <;> rcases y with _ | bytes'
  · exact agree_orLog rfl (fun _ => congrArg (label ++ ·) h) nofun
  · exact h.elim
  · exact h.elim
  · exact ⟨rfl, .ok h⟩

/-- Two private keys that are accepted alike log alike. -/
theorem agree_decodePrivateKey {k k' : String} (h : SameKey S S' k k') (label : String) :
    Emit.Agree (fun key key' => S.derivePublic key = S'.derivePublic key')
      (AccountLog.decodePrivateKey S.texts k label)
      (AccountLog.decodePrivateKey S'.texts k' label) := by
  refine Emit.agree_bind (agree_decode h _ _) fun bytes bytes' hKey => ?_
  generalize L.privateKeyDeserialize bytes = x at hKey ⊢
  generalize L.privateKeyDeserialize bytes' = y at hKey ⊢
  cases hKey with
  | error e => exact Emit.agree_bind_refl _ fun _ => Emit.agree_fail _
  | ok hDerived => exact ⟨rfl, .ok hDerived⟩

/-- Attributes that differ in the access key only. -/
def AlikeAttributes (x y : AccountAttributes) : Prop :=
  ∃ attrs uak uak', x = withUak attrs uak ∧ y = withUak attrs uak'

/-- The attributes fail for the same reason, or differ in the access key only.
-/
theorem related_buildAccountAttributes {bytes bytes' : Bytes} (hLen : bytes.length = bytes'.length)
    (hGcm : bytes.length = 32 →
      Emit.Related (fun _ _ => True) (S.aesGcm bytes) (S'.aesGcm bytes'))
    (name : String) (registrationId pniRegistrationId : UInt16) :
    Emit.Related AlikeAttributes
      (buildAccountAttributes S.aesGcm name bytes registrationId pniRegistrationId)
      (buildAccountAttributes S'.aesGcm name bytes' registrationId pniRegistrationId) := by
  unfold buildAccountAttributes deriveUnidentifiedAccessKey
  rw [← hLen]
  -- A profile key of another length is refused before it is used.
  by_cases hSize : bytes.length = 32
  · rw [if_neg (not_not_intro hSize), if_neg (not_not_intro hSize)]
    have hKey := hGcm hSize
    generalize S.aesGcm bytes = x at hKey ⊢
    generalize S'.aesGcm bytes' = y at hKey ⊢
    cases hKey with
    | error e => exact .error e
    | @ok uak uak' _ =>
      refine .ok ⟨⟨none, registrationId.toUInt32, true, true, true, none, "", false, false,
        ⟨true, true, true, true, true⟩, name, pniRegistrationId.toUInt32, none⟩, uak, uak', rfl,
        rfl⟩
  · rw [if_pos hSize, if_pos hSize]
    exact .error _

/-- A request whose body has the same length logs the same, if the server gives
the same answer. -/
theorem tryPut_congr {H H' : HttpClient U} {url auth auth' : String} {body body' : Body}
    (hParse : H.parseResponse = H'.parseResponse)
    (hSize : (toJsonString body).utf8ByteSize = (toJsonString body').utf8ByteSize)
    (hPut : H.put url auth (toJsonString body) = H'.put url auth' (toJsonString body')) :
    tryPut H url auth body = tryPut H' url auth' body' := by
  have hRead : readAnswer H = readAnswer H' := by
    funext url errorDumped answer
    unfold readAnswer
    rw [hParse]
  simp only [tryPut, hSize, hPut, hRead]

/-- The request is redacted: what is logged of it and its outcome do not depend
on the password. -/
theorem putDevicesLink_congr {H H' : HttpClient U} {baseUrl : U.Url}
    {number password password' : String} {body body' : Body}
    (hUrl : H.linkUrl = H'.linkUrl) (hParse : H.parseResponse = H'.parseResponse)
    (hSize : (toJsonString body).utf8ByteSize = (toJsonString body').utf8ByteSize)
    (hPut : ∀ identifier ∈ [number ++ ".-1", number],
      H.put (H.linkUrl baseUrl) (basicAuthHeader identifier password) (toJsonString body) =
        H'.put (H'.linkUrl baseUrl) (basicAuthHeader identifier password') (toJsonString body')) :
    putDevicesLink H baseUrl number password body =
      putDevicesLink H' baseUrl number password' body' := by
  rw [hUrl] at hPut
  have hFirst := tryPut_congr hParse hSize (hPut _ List.mem_cons_self)
  have hSecond := tryPut_congr hParse hSize (hPut _ (List.mem_cons_of_mem _ List.mem_cons_self))
  simp only [putDevicesLink, hUrl, hFirst, hSecond]

/-- What two alike links have prepared. -/
structure AlikePrepared (S S' : Services U L) (msg msg' : ProvisionMessage)
    (q q' : Prepared U L) : Prop where
  password : S.generateLinkPassword = .ok q.password ∧ S'.generateLinkPassword = .ok q'.password
  profileKey : msg.profileKey = some q.profileKey ∧ msg'.profileKey = some q'.profileKey
  registrationId : q.registrationId = q'.registrationId
  pniRegistrationId : q.pniRegistrationId = q'.pniRegistrationId
  encryptedName : q.encryptedName = q'.encryptedName
  baseUrl : q.baseUrl = q'.baseUrl
  bodySize : (toJsonString q.body).utf8ByteSize = (toJsonString q'.body).utf8ByteSize

/-- The URL of the chat server is made of the fields that agree. -/
theorem chatUrl_congr {a a' : Account U} (h : AlikeAccounts a a') (T : Texts) :
    AccountLog.chatUrl T a' = AccountLog.chatUrl T a := by
  rw [h.fields]
  rfl

/-- Everything before the request logs the same. -/
theorem agree_prepare {a a' : Account U} {deviceName : String} {msg msg' : ProvisionMessage}
    (h : AlikeLinks S S' a a' deviceName msg msg') :
    Emit.Agree (AlikePrepared S S' msg msg') (prepare S a deviceName msg)
      (prepare S' a' deviceName msg') := by
  obtain ⟨hAccounts, hMessages, hOutcomes⟩ := h
  have hCode : msg'.provisioningCode = msg.provisioningCode := by rw [hMessages.fields]
  have hAciPublic : msg'.aci.djbIdentityKey = msg.aci.djbIdentityKey := by rw [hMessages.fields]
  have hPniPublic : msg'.pni.djbIdentityKey = msg.pni.djbIdentityKey := by rw [hMessages.fields]
  unfold prepare
  rw [hCode]
  -- Step by step, in the order of the source.
  refine Emit.agree_bind_refl _ fun code => ?_
  refine Emit.agree_bind (R := fun k k' => msg.profileKey = some k ∧ msg'.profileKey = some k')
    (agree_orLog hMessages.profileKey (fun _ => rfl) fun _ _ hk hk' => ⟨hk, hk'⟩)
    fun profileKey profileKey' hProfileKey => ?_
  refine Emit.agree_bind (agree_decode (hOutcomes.profileKey _ _ hProfileKey.1 hProfileKey.2) _ _)
    fun bytes bytes' hBytes => ?_
  refine Emit.agree_bind (Emit.agree_silent hOutcomes.password).results
    fun password password' hPassword => ?_
  rw [← hOutcomes.registrationId, ← hOutcomes.pniRegistrationId, ← hOutcomes.encryptedName]
  refine Emit.agree_bind_refl _ fun registrationId => ?_
  refine Emit.agree_bind_refl _ fun pniRegistrationId => ?_
  refine Emit.agree_bind_refl _ fun encryptedName => ?_
  refine Emit.agree_bind
    (Emit.agree_silent (related_buildAccountAttributes hBytes.1 hBytes.2 _ _ _))
    fun attrs attrs' hAttrs => ?_
  refine Emit.agree_bind (agree_decodePrivateKey hOutcomes.aciKey "aci").results
    fun aci aci' hAci => ?_
  refine Emit.agree_bind (agree_decodePrivateKey hOutcomes.pniKey "pni").results
    fun pni pni' hPni => ?_
  rw [hAciPublic, hPniPublic, ← hAci.1, ← hPni.1]
  refine Emit.agree_bind_refl _ fun _ => ?_
  refine Emit.agree_bind_refl _ fun _ => ?_
  -- The prekeys are signed with keys that libsignal has accepted in both links.
  have hPrekeys : S.generatePrekeys aci pni = S'.generatePrekeys aci' pni' := by
    refine hOutcomes.prekeys aci pni aci' pni' ?_ ?_ ?_ ?_
    · exact (result_decodePrivateKey ..).symm.trans hAci.2.1
    · exact (result_decodePrivateKey ..).symm.trans hPni.2.1
    · exact (result_decodePrivateKey ..).symm.trans hAci.2.2
    · exact (result_decodePrivateKey ..).symm.trans hPni.2.2
  rw [← hPrekeys, ← hOutcomes.texts, chatUrl_congr hAccounts]
  refine Emit.agree_bind_refl _ fun generated => ?_
  refine Emit.agree_bind_refl _ fun baseUrl => ?_
  obtain ⟨attrs, uak, uak', rfl, rfl⟩ := hAttrs
  exact ⟨rfl, .ok ⟨hPassword.2, hProfileKey, rfl, rfl, rfl, rfl,
    size_body ⟨code, attrs, generated.aciSigned, generated.pniSigned, generated.aciKyberLastResort,
      generated.pniKyberLastResort⟩ uak uak'⟩⟩

/-- What two alike links save. -/
structure AlikeLinked (S S' : Services U L) (msg msg' : ProvisionMessage) (l l' : Linked L) :
    Prop where
  password : S.generateLinkPassword = .ok l.password ∧ S'.generateLinkPassword = .ok l'.password
  profileKey : msg.profileKey = some l.profileKey ∧ msg'.profileKey = some l'.profileKey
  registrationId : l.registrationId = l'.registrationId
  pniRegistrationId : l.pniRegistrationId = l'.pniRegistrationId
  encryptedName : l.encryptedName = l'.encryptedName
  deviceId : l.deviceId = l'.deviceId

/-- **Up to the server's answer** nothing of the secrets is logged. -/
theorem agree_upload {a a' : Account U} {deviceName : String} {msg msg' : ProvisionMessage}
    (h : AlikeLinks S S' a a' deviceName msg msg') :
    Emit.Agree (AlikeLinked S S' msg msg') (AccountLog.upload S a deviceName msg)
      (AccountLog.upload S' a' deviceName msg') := by
  have hNumber : msg'.number = msg.number := by rw [h.messages.fields]
  have hAciService : msg'.aci.serviceId = msg.aci.serviceId := by rw [h.messages.fields]
  have hPniService : msg'.pni.serviceId = msg.pni.serviceId := by rw [h.messages.fields]
  unfold AccountLog.upload
  refine Emit.agree_bind (agree_prepare h).results fun q q' hq => ?_
  obtain ⟨hPrepared, hOk, hOk'⟩ := hq
  -- The bodies differ in the access key, which has one length, so the size that is logged
  -- is the same.
  have hPut := h.outcomes.put q q' hOk hOk'
  rw [← hPrepared.baseUrl] at hPut
  rw [hNumber, hAciService, hPniService, ← hPrepared.baseUrl, ← putDevicesLink_congr
    h.outcomes.linkUrl h.outcomes.parseResponse hPrepared.bodySize hPut]
  refine Emit.agree_bind_refl _ fun response => ?_
  refine Emit.agree_bind_refl _ fun _ => ?_
  refine Emit.agree_bind_refl _ fun _ => ?_
  refine Emit.agree_bind_refl _ fun _ => ?_
  exact ⟨rfl, .ok ⟨hPrepared.password, hPrepared.profileKey, hPrepared.registrationId,
    hPrepared.pniRegistrationId, hPrepared.encryptedName, rfl⟩⟩

-- ---------------------------------------------------------------------------
-- The stored values
-- ---------------------------------------------------------------------------

/-- Two messages that are alike are the same if their secrets are. -/
theorem AlikeMessages.eq_iff {msg msg' : ProvisionMessage} (h : AlikeMessages msg msg') :
    msg = msg' ↔ msg.aci.djbPrivateKey = msg'.aci.djbPrivateKey ∧
      msg.pni.djbPrivateKey = msg'.pni.djbPrivateKey ∧ msg.profileKey = msg'.profileKey ∧
      msg.accountEntropyPool = msg'.accountEntropyPool := by
  constructor
  · rintro rfl
    exact ⟨rfl, rfl, rfl, rfl⟩
  · rintro ⟨hAci, hPni, hProfile, hPool⟩
    rw [h.fields, ← hAci, ← hPni, ← hProfile, ← hPool]

variable {msg msg' : ProvisionMessage} {l l' : Linked L}

/-- Both links set the same keys in the same order. -/
theorem sameShape_linkValues (hMessages : AlikeMessages msg msg') (l l' : Linked L) :
    SameShape (linkValues msg l) (linkValues msg' l') := by
  have hPool := hMessages.accountEntropyPool
  unfold SameShape linkValues identityValues profileValues
  generalize msg.accountEntropyPool = pool at hPool ⊢
  generalize msg'.accountEntropyPool = pool' at hPool ⊢
  rcases pool with _ | aep <;> rcases pool' with _ | aep'
  · simp
  · cases hPool
  · cases hPool
  · simp

/-- The stored values of two alike links are the same if their secrets are. -/
theorem linkValues_eq_iff (hMessages : AlikeMessages msg msg')
    (hLinked : AlikeLinked S S' msg msg' l l') :
    linkValues msg l = linkValues msg' l' ↔ l.password = l'.password ∧ msg = msg' := by
  have hPool := hMessages.accountEntropyPool
  have hNumber : msg'.number = msg.number := by rw [hMessages.fields]
  have hAci : msg'.aci.serviceId = msg.aci.serviceId := by rw [hMessages.fields]
  have hAciPublic : msg'.aci.djbIdentityKey = msg.aci.djbIdentityKey := by rw [hMessages.fields]
  have hPni : msg'.pni.serviceId = msg.pni.serviceId := by rw [hMessages.fields]
  have hPniPublic : msg'.pni.djbIdentityKey = msg.pni.djbIdentityKey := by rw [hMessages.fields]
  rw [hMessages.eq_iff, hLinked.profileKey.1, hLinked.profileKey.2]
  unfold linkValues identityValues profileValues
  rw [hNumber, hAci, hAciPublic, hPni, hPniPublic, hLinked.registrationId,
    hLinked.pniRegistrationId, hLinked.encryptedName, hLinked.deviceId]
  generalize msg.accountEntropyPool = pool at hPool ⊢
  generalize msg'.accountEntropyPool = pool' at hPool ⊢
  -- The entropy pool is written only if there is one, in both links or in neither.
  rcases pool with _ | aep <;> rcases pool' with _ | aep'
  · simp
  · cases hPool
  · cases hPool
  · simp

end Upload

-- ---------------------------------------------------------------------------
-- Linking
-- ---------------------------------------------------------------------------

/-- What `Account::link` logs. -/
def linkLog (S : Services U L) (a : Account U) (deviceName : String) (msg : ProvisionMessage)
    (env : Env Req Outcome) (s : Disk) : List Line :=
  (AccountLog.link S a deviceName msg).lines serve env s

/-- A primary device logs one line and stops. -/
theorem linkLog_of_primary {S : Services U L} {a : Account U} {deviceName : String}
    {msg : ProvisionMessage} (hPrimary : a.isPrimaryDevice = true) (env : Env Req Outcome)
    (s : Disk) : linkLog S a deviceName msg env s =
      [⟨.warn, "failed to link device as already registered as primary"⟩] := by
  rw [linkLog, AccountLog.link, if_pos hPrimary]
  rfl

/-- Otherwise the lines of the upload come first, and those of the values follow
if it succeeds. -/
theorem linkLog_of_secondary {S : Services U L} {a : Account U} {deviceName : String}
    {msg : ProvisionMessage} (hSecondary : a.isPrimaryDevice = false) (env : Env Req Outcome)
    (s : Disk) : linkLog S a deviceName msg env s =
      (AccountLog.upload S a deviceName msg).lines ++
        match (AccountLog.upload S a deviceName msg).result with
        | .error _ => []
        | .ok l => allLines S.texts a.pddbDict (linkValues msg l) env := by
  rw [linkLog, AccountLog.link, if_neg (by rw [hSecondary]; exact Bool.false_ne_true),
    Logged.lines_bind, Logged.lines_emit]
  refine congrArg (_ ++ ·) ?_
  cases (AccountLog.upload S a deviceName msg).result with
  | error e => rfl
  | ok l => exact lines_saveLinked S.texts a msg l _ _

theorem isPrimaryDevice_congr {a a' : Account U} (h : AlikeAccounts a a') :
    a'.isPrimaryDevice = a.isPrimaryDevice := by
  rw [h.fields, Account.isPrimaryDevice, Account.isPrimaryDevice, Account.isRegistered,
    Account.isRegistered, h.password]

/-- No value gets stored, or the secrets are the same. -/
def SameStored (S S' : Services U L) (a : Account U) (deviceName : String)
    (msg msg' : ProvisionMessage) : Prop :=
  a.isPrimaryDevice = false →
    ∀ l, Accounts.upload S.toLinkServices a deviceName msg = .ok l →
      S.generateLinkPassword = S'.generateLinkPassword ∧ msg = msg'

/-- **Linking**: the same is logged exactly if no value gets stored or the
secrets are the same. -/
theorem linkLog_eq_iff {S S' : Services U L} {a a' : Account U} {deviceName : String}
    {msg msg' : ProvisionMessage} (h : AlikeLinks S S' a a' deviceName msg msg')
    (env : Env Req Outcome) (s s' : Disk) :
    linkLog S a deviceName msg env s = linkLog S' a' deviceName msg' env s' ↔
      SameStored S S' a deviceName msg msg' := by
  have hSame := isPrimaryDevice_congr h.accounts
  unfold SameStored
  rcases hPrimary : a.isPrimaryDevice with _ | _
  · have hDict : a'.pddbDict = a.pddbDict := by rw [h.accounts.fields]
    rw [linkLog_of_secondary hPrimary, linkLog_of_secondary (hSame.trans hPrimary), hDict,
      ← h.outcomes.texts, ← result_upload]
    obtain ⟨hLines, hResult⟩ := agree_upload h
    -- The lines of the upload are equal, so only those of the stored values can differ.
    rw [← hLines, List.append_cancel_left_eq]
    generalize (AccountLog.upload S a deviceName msg).result = x at hResult ⊢
    generalize (AccountLog.upload S' a' deviceName msg').result = y at hResult ⊢
    cases hResult with
    | error e => exact iff_of_true rfl fun _ _ => nofun
    | @ok l l' hLinked =>
      -- A stored value is logged in full, so equal lines mean equal values.
      rw [allLines_eq_iff _ (sameShape_linkValues h.messages l l'),
        linkValues_eq_iff h.messages hLinked, hLinked.password.1, hLinked.password.2]
      constructor
      · rintro ⟨hPassword, hMsg⟩ - _ -
        exact ⟨congrArg Except.ok hPassword, hMsg⟩
      · intro hAll
        obtain ⟨hPassword, hMsg⟩ := hAll rfl l rfl
        exact ⟨Except.ok.inj hPassword, hMsg⟩
  · rw [linkLog_of_primary hPrimary, linkLog_of_primary (hSame.trans hPrimary)]
    exact iff_of_true rfl nofun

/-- **What is logged of the secrets.** Two runs that differ in them only, with the
same outcomes, log the same exactly if: reading, the same bytes arrive of each
secret; creating, the same of what the deletions have left; linking, no value
gets stored, or the secrets are the same. -/
theorem logs_alike_iff (U : UrlCrate) (T : Texts) :
    (∀ dict s s' env, AlikeDisks dict s s' →
      (readLog T U dict env s = readLog T U dict env s' ↔ SameArrived dict env s s')) ∧
    (∀ dict (host : U.Host) serviceEnvironment s s' env, AlikeDisks dict s s' →
      (newLog T dict host serviceEnvironment env s = newLog T dict host serviceEnvironment env s' ↔
        SameLeft dict host serviceEnvironment env s s')) ∧
    ∀ (L : Libsignal) (S S' : Services U L) a a' deviceName msg msg' env s s',
      AlikeLinks S S' a a' deviceName msg msg' →
      (linkLog S a deviceName msg env s = linkLog S' a' deviceName msg' env s' ↔
        SameStored S S' a deviceName msg msg') :=
  ⟨fun _ _ _ env hAlike => readLog_eq_iff T hAlike env,
    fun _ host serviceEnvironment _ _ env hAlike =>
      newLog_eq_iff T hAlike host serviceEnvironment env,
    fun _ _ _ _ _ _ _ _ env s s' hAlike => linkLog_eq_iff hAlike env s s'⟩

-- ---------------------------------------------------------------------------
-- Two links
-- ---------------------------------------------------------------------------

/-- Texts without detail. -/
def plainTexts : Texts where
  unicode _ := false
  utf8Error _ := ""
  ioError e := e.msg
  decodeError _ := ""
  urlError _ := ""

/-- Plain services, and a server that accepts everything. -/
def secretServices (n : UInt8) : Services .plain .plain where
  texts := plainTexts
  generateLinkPassword := .ok (Base64.encode Base64.urlSafe [n])
  registrationId := .ok 1
  pniRegistrationId := .ok 2
  encryptDeviceName name _ := .ok name
  aesGcm _ := .ok (Vector.replicate 16 0)
  derivePublic _ := .ok ([0] : Bytes)
  generatePrekeys _ _ :=
    let record (n : UInt8) : Bytes := [n]
    .ok ⟨plainKey, plainKey, plainKey, plainKey, record 1, record 2, record 3, record 4⟩
  http := ⟨id, fun _ _ _ => ⟨.device, .ok 200 (.ok ""), false⟩, fun _ => .ok ⟨"aci", "pni", 2⟩⟩

def secretMessage (n : UInt8) : ProvisionMessage :=
  let key := Base64.encode Base64.urlSafe [n]
  ⟨"+1", ⟨"aci", "", key⟩, ⟨"pni", "", key⟩, some (Base64.encode Base64.urlSafe
    (List.replicate 32 n)), some "c", some key⟩

/-- Two links with different secrets and the same outcomes. -/
theorem secret_alike (n m : UInt8) :
    AlikeLinks (secretServices n) (secretServices m) fresh fresh "pc" (secretMessage n)
      (secretMessage m) where
  accounts := ⟨rfl, rfl⟩
  messages := ⟨rfl, rfl, rfl⟩
  outcomes :=
    { texts := rfl
      password := .ok trivial
      registrationId := rfl
      pniRegistrationId := rfl
      encryptedName := rfl
      profileKey := by
        intro k k' hk hk'
        obtain rfl := Option.some.inj hk
        obtain rfl := Option.some.inj hk'
        rw [SameProfileKey, SameDecoding, Base64.decode_encode, Base64.decode_encode]
        exact ⟨rfl, fun _ => .ok trivial⟩
      aciKey := by
        show SameKey _ _ (Base64.encode _ _) (Base64.encode _ _)
        rw [SameKey, SameDecoding, Base64.decode_encode, Base64.decode_encode]
        exact .ok rfl
      pniKey := by
        show SameKey _ _ (Base64.encode _ _) (Base64.encode _ _)
        rw [SameKey, SameDecoding, Base64.decode_encode, Base64.decode_encode]
        exact .ok rfl
      prekeys := fun _ _ _ _ _ _ _ _ => rfl
      linkUrl := rfl
      parseResponse := rfl
      put := fun _ _ _ _ _ _ => rfl }

theorem secret_upload : ∃ l, Accounts.upload (secretServices 1).toLinkServices fresh "pc"
    (secretMessage 1) = .ok l := ⟨_, rfl⟩

/-- Two links that differ in every secret are logged differently. -/
theorem secrets_logged :
    ¬∀ (U : UrlCrate) (L : Libsignal) (S S' : Services U L) (a a' : Account U)
      (deviceName : String) (msg msg' : ProvisionMessage) (env : Env Req Outcome) (s s' : Disk),
      AlikeLinks S S' a a' deviceName msg msg' →
      linkLog S a deviceName msg env s = linkLog S' a' deviceName msg' env s' := by
  intro h
  have hAlike := secret_alike 1 2
  have hLines := h _ _ _ _ _ _ _ _ _ (fun _ _ => .served) freshDisk freshDisk hAlike
  obtain ⟨l, hl⟩ := secret_upload
  have hSame := (linkLog_eq_iff hAlike _ _ _).mp hLines rfl l hl
  exact absurd (Base64.encode_injective _ (Except.ok.inj hSame.1)) (by decide)

end Sigchat.Results

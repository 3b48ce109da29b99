import Sigchat.Lib.BasicAuth
import Sigchat.Model.Rest

/-!
# The answers a link accepts

`put_devices_link` asks once, and after a 403 once more under the plain number.
The loop that serde derives for the answer collects the fields as they come; it
is the same as looking each of them up, where it has to be there exactly once.

* `fill_eq`            — what the loop collects for one field;
* `link_response_iff`  — the answers that link the device, and what is read of
  them.
-/

namespace Sigchat.Results.LinkResponse

open Sigchat.Lib
open Sigchat.Pddb
open Sigchat.Accounts
open Sigchat.Rest

-- ---------------------------------------------------------------------------
-- One field
-- ---------------------------------------------------------------------------

/-- What the loop collects for one field, from what it has. -/
def fill {α : Type} (name : String) (readAs : Json.Value → Option α) :
    Option α → List (String × Json.Value) → Option (Option α)
  | old, [] => some old
  | old, (n, v) :: fs =>
    if n = name then
      if old.isSome then none else (readAs v).bind fun x => fill name readAs (some x) fs
    else fill name readAs old fs

variable {α : Type} {name : String} {readAs : Json.Value → Option α}

/-- A field of the name is read the first time and refused the second. -/
theorem fill_cons_self {old : Option α} {v : Json.Value} {fs : List (String × Json.Value)} :
    fill name readAs old ((name, v) :: fs) =
      if old.isSome then none else (readAs v).bind fun x => fill name readAs (some x) fs :=
  if_pos rfl

theorem fill_cons_ne {old : Option α} {n : String} {v : Json.Value}
    {fs : List (String × Json.Value)} (h : n ≠ name) :
    fill name readAs old ((n, v) :: fs) = fill name readAs old fs := if_neg h

/-- A field that is there must not come again. -/
theorem fill_some_iff {x y : α} {fs : List (String × Json.Value)} :
    fill name readAs (some x) fs = some (some y) ↔
      x = y ∧ fs.filter (fun f => f.1 = name) = [] := by
  -- Once the field has been read, no other of its name may follow.
  induction fs with
  | nil =>
    show some (some x) = some (some y) ↔ _
    simp
  | cons f fs ih =>
    obtain ⟨n, v⟩ := f
    by_cases hName : n = name
    · subst hName
      have hThere : ¬((n, v) :: fs).filter (fun f => f.1 = n) = [] := fun h =>
        List.filter_eq_nil_iff.mp h (n, v) List.mem_cons_self (decide_eq_true rfl)
      rw [fill_cons_self, Option.isSome_some]
      exact iff_of_false (Option.some_ne_none _).symm fun h => hThere h.2
    · have hFilter : ((n, v) :: fs).filter (fun f => f.1 = name) =
          fs.filter (fun f => f.1 = name) :=
        List.filter_cons_of_neg (fun h => hName (of_decide_eq_true h))
      rw [fill_cons_ne hName, ih, hFilter]

/-- A field is collected if it is there once, with a value that can be read. -/
theorem fill_none_iff {x : α} {fs : List (String × Json.Value)} :
    fill name readAs none fs = some (some x) ↔
      ((Json.Value.obj fs).get name).bind readAs = some x := by
  -- Field by field, until the first of the name.
  induction fs with
  | nil =>
    show some none = some (some x) ↔ none = some x
    simp
  | cons f fs ih =>
    obtain ⟨n, v⟩ := f
    by_cases hName : n = name
    · subst hName
      rw [fill_cons_self, Option.isSome_none, Json.get_cons_self]
      -- the value is read at once, what follows must not have the field
      by_cases hRest : fs.filter (fun f => f.1 = n) = []
      · rw [if_pos hRest, Option.bind_some]
        rcases hRead : readAs v with _ | y
        · exact iff_of_false (Option.some_ne_none _).symm (Option.some_ne_none _).symm
        · show fill n readAs (some y) fs = _ ↔ _
          rw [fill_some_iff, Option.some.injEq]
          exact and_iff_left hRest
      · rw [if_neg hRest]
        refine iff_of_false (fun h => ?_) (Option.some_ne_none _).symm
        obtain ⟨y, -, hFill⟩ := Option.bind_eq_some_iff.mp h
        exact hRest (fill_some_iff.mp hFill).2
    · rw [fill_cons_ne hName, ih, Json.get_cons_ne hName]

-- ---------------------------------------------------------------------------
-- The loop
-- ---------------------------------------------------------------------------

/-- **The loop collects every field by itself**, whatever comes in between. -/
theorem fill_eq (seen : SeenFields) (fs : List (String × Json.Value)) :
    fs.foldlM SeenFields.visit seen =
      (fill "uuid" Json.Value.asString seen.uuid fs).bind fun uuid =>
        (fill "pni" Json.Value.asString seen.pni fs).bind fun pni =>
          (fill "deviceId" deU32FromStrOrNum seen.deviceId fs).map fun deviceId =>
            ⟨uuid, pni, deviceId⟩ := by
  have hPni : "pni" ≠ "uuid" := by decide
  have hDevice : "deviceId" ≠ "uuid" ∧ "deviceId" ≠ "pni" := by decide
  -- Each field goes to at most one of the three slots, as the names differ.
  induction fs generalizing seen with
  | nil => rfl
  | cons f fs ih =>
    obtain ⟨n, v⟩ := f
    rw [List.foldlM_cons, Option.bind_eq_bind]
    unfold SeenFields.visit
    dsimp only
    by_cases hUuid : n = "uuid"
    · subst hUuid
      rw [if_pos rfl, fill_cons_self, fill_cons_ne hPni.symm, fill_cons_ne hDevice.1.symm]
      rcases hOld : seen.uuid with _ | old
      · rcases hRead : v.asString with _ | s
        · rfl
        · show fs.foldlM SeenFields.visit _ = _
          rw [ih]
          rfl
      · rfl
    · rw [if_neg hUuid, fill_cons_ne hUuid]
      by_cases hPniName : n = "pni"
      · subst hPniName
        rw [if_pos rfl, fill_cons_self, fill_cons_ne hDevice.2.symm]
        rcases hOld : seen.pni with _ | old
        · rcases hRead : v.asString with _ | s
          · simp
          · show fs.foldlM SeenFields.visit _ = _
            rw [ih]
            rfl
        · simp
      · rw [if_neg hPniName, fill_cons_ne hPniName]
        by_cases hDeviceName : n = "deviceId"
        · subst hDeviceName
          rw [if_pos rfl, fill_cons_self]
          rcases hOld : seen.deviceId with _ | old
          · rcases hRead : deU32FromStrOrNum v with _ | s
            · simp
            · show fs.foldlM SeenFields.visit _ = _
              rw [ih]
              rfl
          · simp
        · rw [if_neg hDeviceName, fill_cons_ne hDeviceName]
          exact ih seen

/-- A number below 2^32 in digits, or in a string, where a plus sign may come
first. -/
inductive Numeral (n : UInt32) : Json.Value → Prop where
  | number {text : List Char} (h : parseDigits text = some n.toNat) : Numeral n (.num text)
  | string {s : String} (h : parseDigits s.toList = some n.toNat) : Numeral n (.str s)
  | signed {s : String} {digits : List Char} (hSign : s.toList = '+' :: digits)
      (h : parseDigits digits = some n.toNat) : Numeral n (.str s)

/-- What a value says of the account: fields that are each there once, or the
values in their order. -/
inductive Says (r : LinkDeviceResponse) : Json.Value → Prop where
  | object {v deviceId : Json.Value} (uuid : v.get "uuid" = some (.str r.uuid))
      (pni : v.get "pni" = some (.str r.pni)) (hDevice : v.get "deviceId" = some deviceId)
      (numeral : Numeral r.deviceId deviceId) : Says r v
  | array {deviceId : Json.Value} (numeral : Numeral r.deviceId deviceId) :
      Says r (.arr [.str r.uuid, .str r.pni, deviceId])

/-- A device id is a text that Rust parses as a `u32`. -/
theorem parseDeviceId_iff {s : String} {n : UInt32} :
    parseDeviceId s = some n ↔ parseU32 s = some n.toNat := by
  rw [parseDeviceId, Option.map_eq_some_iff]
  constructor
  · rintro ⟨k, hParse, rfl⟩
    have hSmall : k ≤ 2 ^ 32 - 1 := by
      unfold parseU32 parseUnsigned at hParse
      exact of_decide_eq_true (Option.filter_eq_some_iff.mp hParse).2
    rw [hParse, UInt32.toNat_ofNat_of_lt' (by show k < 2 ^ 32; omega)]
  · intro hParse
    exact ⟨n.toNat, hParse, UInt32.ofNat_toNat⟩

/-- A value that fits is not filtered out. -/
theorem filter_fits {x : Option Nat} {n : UInt32} :
    x.filter (· ≤ 2 ^ 32 - 1) = some n.toNat ↔ x = some n.toNat := by
  have hSmall := n.toNat_lt
  rw [Option.filter_eq_some_iff]
  exact and_iff_left (decide_eq_true (by omega))

theorem parseDeviceId_signed {s : String} {digits : List Char} (hSign : s.toList = '+' :: digits)
    {n : UInt32} : parseDeviceId s = some n ↔ parseDigits digits = some n.toNat := by
  rw [parseDeviceId_iff, parseU32, parseUnsigned_signed hSign, filter_fits]

theorem parseDeviceId_plain {s : String} (hPlain : s.toList.head? ≠ some '+') {n : UInt32} :
    parseDeviceId s = some n ↔ parseDigits s.toList = some n.toNat := by
  rw [parseDeviceId_iff, parseU32, parseUnsigned_plain hPlain, filter_fits]

/-- The deserialiser takes numerals, as a number without a sign or as a text
with or without one. -/
theorem deU32_iff {v : Json.Value} {n : UInt32} : deU32FromStrOrNum v = some n ↔ Numeral n v := by
  constructor
  · intro h
    -- Numbers and texts are the two kinds it visits.
    cases v with
    | num text =>
      unfold deU32FromStrOrNum at h
      dsimp only at h
      split_ifs at h with hDigits
      have hPlain := head_ne_plus (List.all_eq_true.mp hDigits)
      rw [← String.toList_ofList (l := text)] at hPlain
      have hParse := (parseDeviceId_plain hPlain).mp h
      rw [String.toList_ofList] at hParse
      exact .number hParse
    | str s =>
      by_cases hPlain : s.toList.head? = some '+'
      · obtain ⟨digits, hSign⟩ := List.head?_eq_some_iff.mp hPlain
        exact .signed hSign ((parseDeviceId_signed hSign).mp h)
      · exact .string ((parseDeviceId_plain hPlain).mp h)
    | null => cases h
    | bool b => cases h
    | arr vs => cases h
    | obj fs => cases h
  · rintro (hParse | hParse | ⟨hSign, hParse⟩)
    · rename_i text
      have hDigits := isDigit_of_parseDigits hParse
      have hPlain := head_ne_plus hDigits
      rw [← String.toList_ofList (l := text)] at hPlain hParse
      unfold deU32FromStrOrNum
      dsimp only
      rw [if_pos (List.all_eq_true.mpr hDigits)]
      exact (parseDeviceId_plain hPlain).mpr hParse
    · exact (parseDeviceId_plain (head_ne_plus (isDigit_of_parseDigits hParse))).mpr hParse
    · exact (parseDeviceId_signed hSign).mpr hParse

/-- Only a text is a string. -/
theorem asString_eq_some_iff {v : Json.Value} {s : String} : v.asString = some s ↔ v = .str s := by
  constructor
  · intro h
    cases v with
    | str t => rw [Option.some.inj h]
    | null => cases h
    | bool b => cases h
    | num text => cases h
    | arr vs => cases h
    | obj fs => cases h
  · rintro rfl
    rfl

/-- A field that is read as a string is one. -/
theorem getString_iff {v : Json.Value} {name s : String} :
    (v.get name).bind Json.Value.asString = some s ↔ v.get name = some (.str s) := by
  constructor
  · intro h
    obtain ⟨w, hGet, hString⟩ := Option.bind_eq_some_iff.mp h
    rw [hGet, asString_eq_some_iff.mp hString]
  · intro h
    rw [h]
    rfl

/-- At the end all three fields must have been seen. -/
theorem finish_eq_some_iff {seen : SeenFields} {r : LinkDeviceResponse} :
    seen.finish = some r ↔ seen = ⟨some r.uuid, some r.pni, some r.deviceId⟩ := by
  constructor
  · intro h
    obtain ⟨uuid, pni, deviceId⟩ := seen
    obtain ⟨uuid', hUuid, h⟩ := Option.bind_eq_some_iff.mp h
    obtain ⟨pni', hPni, h⟩ := Option.bind_eq_some_iff.mp h
    obtain ⟨deviceId', hDevice, h⟩ := Option.bind_eq_some_iff.mp h
    obtain rfl := Option.some.inj h
    show SeenFields.mk uuid pni deviceId = ⟨some uuid', some pni', some deviceId'⟩
    rw [← hUuid, ← hPni, ← hDevice]
  · rintro rfl
    rfl

/-- An object is read field by field, in any order. -/
theorem deserialize_object_iff {fs : List (String × Json.Value)} {r : LinkDeviceResponse} :
    deserializeResponse (.obj fs) = some r ↔
      (Json.Value.obj fs).get "uuid" = some (.str r.uuid) ∧
        (Json.Value.obj fs).get "pni" = some (.str r.pni) ∧
        ((Json.Value.obj fs).get "deviceId").bind deU32FromStrOrNum = some r.deviceId := by
  rw [← getString_iff, ← getString_iff, ← fill_none_iff, ← fill_none_iff, ← fill_none_iff,
    deserializeResponse, fill_eq]
  constructor
  · intro h
    obtain ⟨seen, hLoop, hFinish⟩ := Option.bind_eq_some_iff.mp h
    obtain ⟨uuid, hUuid, hLoop⟩ := Option.bind_eq_some_iff.mp hLoop
    obtain ⟨pni, hPni, hLoop⟩ := Option.bind_eq_some_iff.mp hLoop
    obtain ⟨deviceId, hDevice, rfl⟩ := Option.map_eq_some_iff.mp hLoop
    obtain ⟨rfl, rfl, rfl⟩ := SeenFields.mk.inj (finish_eq_some_iff.mp hFinish)
    exact ⟨hUuid, hPni, hDevice⟩
  · rintro ⟨hUuid, hPni, hDevice⟩
    rw [hUuid, Option.bind_some, hPni, Option.bind_some, hDevice]
    rfl

/-- The derived visitor takes an object or an array of three. -/
theorem deserialize_iff {v : Json.Value} {r : LinkDeviceResponse} :
    deserializeResponse v = some r ↔ Says r v := by
  constructor
  · intro h
    unfold deserializeResponse at h
    split at h
    · obtain ⟨hUuid, hPni, hDevice⟩ := deserialize_object_iff.mp h
      obtain ⟨deviceId, hGet, hNumeral⟩ := Option.bind_eq_some_iff.mp hDevice
      exact .object hUuid hPni hGet (deU32_iff.mp hNumeral)
    · rename_i uuid pni deviceId
      obtain ⟨uuid', hUuid, h⟩ := Option.bind_eq_some_iff.mp h
      obtain ⟨pni', hPni, h⟩ := Option.bind_eq_some_iff.mp h
      obtain ⟨deviceId', hDevice, h⟩ := Option.bind_eq_some_iff.mp h
      obtain rfl := Option.some.inj h
      rw [asString_eq_some_iff.mp hUuid, asString_eq_some_iff.mp hPni]
      exact .array (deU32_iff.mp hDevice)
    · cases h
  · rintro (⟨hUuid, hPni, hGet, hNumeral⟩ | hNumeral)
    -- Only an object has fields.
    · cases v with
      | obj fs =>
        rw [← deU32_iff] at hNumeral
        exact deserialize_object_iff.mpr ⟨hUuid, hPni, Option.bind_eq_some_iff.mpr
          ⟨_, hGet, hNumeral⟩⟩
      | null => cases hUuid
      | bool b => cases hUuid
      | num text => cases hUuid
      | str s => cases hUuid
      | arr vs => cases hUuid
    · show (deU32FromStrOrNum _).bind _ = some r
      rw [deU32_iff.mpr hNumeral]
      rfl

/-- A text is a response exactly if it is JSON and its value says so. -/
theorem parseResponse_iff {errorText : String → String} {text : String} {r : LinkDeviceResponse} :
    parseResponse errorText text = .ok r ↔
      ∃ v, Json.parseStruct skipsField text = some v ∧ Says r v := by
  have hSome : parseResponse errorText text = .ok r ↔
      (Json.parseStruct skipsField text).bind deserializeResponse = some r := by
    unfold parseResponse
    cases (Json.parseStruct skipsField text).bind deserializeResponse with
    | none => exact iff_of_false (by intro h; cases h) (Option.some_ne_none _).symm
    | some r' =>
      exact ⟨fun h => congrArg some (Except.ok.inj h),
        fun h => congrArg Except.ok (Option.some.inj h)⟩
  rw [hSome, Option.bind_eq_some_iff]
  exact exists_congr fun v => and_congr_right fun _ => deserialize_iff

-- ---------------------------------------------------------------------------
-- The requests
-- ---------------------------------------------------------------------------

section Requests

variable {U : UrlCrate} (H : HttpClient U) (url json : String)

/-- The server accepts a request with a response. -/
def Answered (header : String) (r : LinkDeviceResponse) : Prop :=
  ∃ status text, (H.put url header json).answer = .ok status (.ok text) ∧
    H.parseResponse text = .ok r

/-- The server refuses the credentials. -/
def Refused (header : String) : Prop := ∃ text, (H.put url header json).answer = .status 403 text

end Requests

variable {U : UrlCrate} {H : HttpClient U}

/-- Only status 403 is a refusal. -/
theorem statusError_kind (code : Nat) (preview : String) :
    (statusError code preview).1 = .permissionDenied ↔ code = 403 := by
  by_cases hCode : code = 403
  · subst hCode
    exact iff_of_true rfl rfl
  · refine iff_of_false (fun h => ?_) hCode
    unfold statusError at h
    split at h
    · exact hCode rfl
    all_goals exact PutErrorKind.noConfusion h

/-- A result comes from an answer whose body was read and parsed. -/
theorem readAnswer_ok_iff {url : String} {errorDumped : Bool} {answer : Answer}
    {r : LinkDeviceResponse} :
    (readAnswer H url errorDumped answer).result = .ok r ↔
      ∃ status text, answer = .ok status (.ok text) ∧ H.parseResponse text = .ok r := by
  constructor
  · intro h
    rcases answer with ⟨status, e | text⟩ | ⟨code, text⟩ | e
    · cases h
    · refine ⟨status, text, rfl, ?_⟩
      rcases hParse : H.parseResponse text with e | response
      · simp only [readAnswer, Emit.result_bind, hParse] at h
        cases h
      · simp only [readAnswer, Emit.result_bind, hParse] at h
        exact congrArg Except.ok (Except.ok.inj h)
    · cases errorDumped <;> cases h
    · cases h
  · rintro ⟨status, text, rfl, hParse⟩
    simp only [readAnswer, Emit.result_bind, hParse]
    rfl

/-- Only a 403 is a refusal of the credentials. -/
theorem readAnswer_denied_iff {url : String} {errorDumped : Bool} {answer : Answer} {e : PutError}
    (h : (readAnswer H url errorDumped answer).result = .error e) :
    e.kind = .permissionDenied ↔ ∃ text, answer = .status 403 text := by
  -- Every other error has another kind.
  have hOther {e' : PutError} (hKind : e'.kind ≠ .permissionDenied)
      (hAnswer : ∀ text, answer ≠ .status 403 text)
      (hError : (.error e' : Except PutError LinkDeviceResponse) = .error e) :
      e.kind = .permissionDenied ↔ ∃ text, answer = .status 403 text := by
    obtain rfl := Except.error.inj hError
    exact iff_of_false hKind fun ⟨text, hText⟩ => hAnswer text hText
  rcases answer with ⟨status, e' | text⟩ | ⟨code, text⟩ | e'
  · exact hOther (by decide) (fun _ hEq => by cases hEq) h
  · rcases hParse : H.parseResponse text with e' | response
    · simp only [readAnswer, Emit.result_bind, hParse] at h
      exact hOther (by decide) (fun _ hEq => by cases hEq) h
    · simp only [readAnswer, Emit.result_bind, hParse] at h
      cases h
  · have hError : (.error ⟨(statusError code (previewOf text)).1, s!"HTTP {code}"⟩ :
        Except PutError LinkDeviceResponse) = .error e := by
      rw [← h]
      cases errorDumped <;> rfl
    obtain rfl := Except.error.inj hError
    rw [statusError_kind]
    constructor
    · rintro rfl
      exact ⟨text, rfl⟩
    · rintro ⟨text', hEq⟩
      cases hEq
      rfl
  · exact hOther (by decide) (fun _ hEq => by cases hEq) h

/-- One request succeeds exactly if its answer does. -/
theorem tryPut_ok_iff {url header : String} {body : Body} {r : LinkDeviceResponse} :
    (tryPut H url header body).result = .ok r ↔ Answered H url (toJsonString body) header r :=
  readAnswer_ok_iff

/-- **The requests of a link**: the first is answered, or refused and the second
answered. -/
theorem putDevicesLink_ok_iff {baseUrl : U.Url} {phoneNumber password : String} {body : Body}
    {r : LinkDeviceResponse} :
    (putDevicesLink H baseUrl phoneNumber password body).result = .ok r ↔
      Answered H (H.linkUrl baseUrl) (toJsonString body)
          (BasicAuth.header (phoneNumber ++ ".-1") password) r ∨
        Refused H (H.linkUrl baseUrl) (toJsonString body)
            (BasicAuth.header (phoneNumber ++ ".-1") password) ∧
          Answered H (H.linkUrl baseUrl) (toJsonString body)
            (BasicAuth.header phoneNumber password) r := by
  rw [putDevicesLink, Emit.result_bind]
  show (Emit.handle (tryPut H (H.linkUrl baseUrl)
    (BasicAuth.header (phoneNumber ++ ".-1") password) body) _).result = .ok r ↔ _
  rw [← tryPut_ok_iff, ← tryPut_ok_iff]
  -- A first attempt that fails is followed by a second one only if it was refused.
  rcases hFirst : (tryPut H (H.linkUrl baseUrl)
    (BasicAuth.header (phoneNumber ++ ".-1") password) body).result with e | r'
  · have hDenied : e.kind = .permissionDenied ↔ Refused H (H.linkUrl baseUrl) (toJsonString body)
        (BasicAuth.header (phoneNumber ++ ".-1") password) := readAnswer_denied_iff hFirst
    rw [Emit.result_handle_error hFirst, ← hDenied]
    by_cases hKind : e.kind = .permissionDenied
    · rw [if_pos hKind, Emit.result_bind]
      show (Emit.handle (tryPut H (H.linkUrl baseUrl) (BasicAuth.header phoneNumber password) body)
        fun e => Emit.fail e.toIoError).result = .ok r ↔ _
      rw [Emit.result_handle_fail]
      constructor
      · exact fun h => .inr ⟨hKind, h⟩
      · rintro (h | ⟨-, h⟩)
        · cases h
        · exact h
    · rw [if_neg hKind]
      refine iff_of_false (by intro h; cases h) ?_
      rintro (h | ⟨h, -⟩)
      · cases h
      · exact hKind h
  · rw [Emit.result_handle_ok hFirst]
    -- A first attempt that succeeds was not refused.
    obtain ⟨status, text, hAnswer, -⟩ := readAnswer_ok_iff.mp hFirst
    refine ⟨fun h => .inl (congrArg Except.ok (Except.ok.inj h)), ?_⟩
    rintro (h | ⟨⟨text', hText⟩, -⟩)
    · exact congrArg Except.ok (Except.ok.inj h)
    · exact absurd (hAnswer.symm.trans hText) (by intro hEq; cases hEq)

/-- What the server answers to a request under a login. -/
def answerTo (H : HttpClient U) (baseUrl : U.Url) (login password : String) (body : Body) :
    Answer :=
  (H.put (H.linkUrl baseUrl) (BasicAuth.header login password) (toJsonString body)).answer

/-- The answer is a success, with a text that says so of the account. -/
def Accepts (r : LinkDeviceResponse) (answer : Answer) : Prop :=
  ∃ status text v, answer = .ok status (.ok text) ∧
    Json.parseStruct skipsField text = some v ∧ Says r v

/-- **The answers a link accepts**, and what it reads of them: an object that
has each of the three fields once, in any order and among any others, whose
values are skipped, or an array of the three values. It asks again, under the
plain number, exactly after a 403. -/
theorem link_response_iff (H : HttpClient U) (errorText : String → String) (baseUrl : U.Url)
    (phoneNumber password : String) (body : Body) (r : LinkDeviceResponse) :
    (putDevicesLink { H with parseResponse := parseResponse errorText } baseUrl phoneNumber password
        body).result = .ok r ↔
      Accepts r (answerTo H baseUrl (phoneNumber ++ ".-1") password body) ∨
        (∃ text, answerTo H baseUrl (phoneNumber ++ ".-1") password body = .status 403 text) ∧
          Accepts r (answerTo H baseUrl phoneNumber password body) := by
  -- What the client accepts is what its parser reads.
  have hAccepts (login : String) :
      Answered { H with parseResponse := parseResponse errorText } (H.linkUrl baseUrl)
          (toJsonString body) (BasicAuth.header login password) r ↔
        Accepts r (answerTo H baseUrl login password body) := by
    constructor
    · rintro ⟨status, text, hAnswer, hParse⟩
      obtain ⟨v, hValue, hSays⟩ := parseResponse_iff.mp hParse
      exact ⟨status, text, v, hAnswer, hValue, hSays⟩
    · rintro ⟨status, text, v, hAnswer, hValue, hSays⟩
      exact ⟨status, text, hAnswer, parseResponse_iff.mpr ⟨v, hValue, hSays⟩⟩
  rw [putDevicesLink_ok_iff, ← hAccepts, ← hAccepts]
  rfl

/-- The device id as a string, with another field. -/
example :
    (parseResponse id "\x7b \"deviceId\": \"2\", \"x\": [], \"pni\":\"p\", \"uuid\":\"u\" \x7d").map
      LinkDeviceResponse.deviceId = .ok 2 := by
  decide +kernel

/-- Half a surrogate pair is skipped with the field that it is in, and refused in
a field that is read. -/
example :
    (parseResponse id "\x7b\"x\":[\"\\ud800\"],\"uuid\":\"u\",\"pni\":\"p\",\"deviceId\":2\x7d").map
        LinkDeviceResponse.deviceId = .ok 2 ∧
      ¬(parseResponse id "\x7b\"uuid\":\"\\ud800\",\"pni\":\"p\",\"deviceId\":2\x7d").isOk := by
  decide +kernel

end Sigchat.Results.LinkResponse

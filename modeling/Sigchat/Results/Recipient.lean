import Mathlib.Data.List.TakeWhile
import Sigchat.Model.Outgoing

/-!
# The default recipient

The receive path records its last peer as a line of JSON, the name between the
quotes as it is, and the sending path finds name and device id in it by
searching for the members. A name is whatever an envelope or a certificate
says; one with a quote ends early, and may bring a device id of its own.

* `parsePeerJson_peerJson` — a name without quotes is found again;
* `recipient_recorded_iff` — when the recorded peer is the one replied to.
-/

namespace Sigchat.Results

open Sigchat.Lib
open Sigchat.Pddb
open Sigchat.Signal
open Sigchat.Stores
open Sigchat.Outgoing

-- ---------------------------------------------------------------------------
-- Searching
-- ---------------------------------------------------------------------------

/-- Where the needle does not begin it is looked for one character later. -/
theorem afterFirst_of_not_prefix {needle : List Char} {c : Char} {cs : List Char}
    (h : needle.isPrefixOf (c :: cs) = false) :
    afterFirst needle (c :: cs) = afterFirst needle cs :=
  if_neg (by rw [h]; exact Bool.false_ne_true)

/-- A needle is found where the text starts with it. -/
theorem afterFirst_self {needle : List Char} (h : needle ≠ []) (cs : List Char) :
    afterFirst needle (needle ++ cs) = some cs := by
  rcases needle with _ | ⟨c, needle⟩
  · exact absurd rfl h
  · have hPrefix : (c :: needle).isPrefixOf (c :: (needle ++ cs)) = true :=
      List.isPrefixOf_iff_prefix.mpr (List.prefix_append (c :: needle) cs)
    rw [List.cons_append, afterFirst, if_pos hPrefix, ← List.cons_append, List.drop_left]

/-- Characters other than the first of the needle are passed over. -/
theorem afterFirst_append {c : Char} {needle xs : List Char} (h : c ∉ xs) (ys : List Char) :
    afterFirst (c :: needle) (xs ++ ys) = afterFirst (c :: needle) ys := by
  induction xs with
  | nil => rfl
  | cons x xs ih =>
    rw [List.mem_cons, not_or] at h
    have hPrefix : (c :: needle).isPrefixOf (x :: (xs ++ ys)) = false := by
      rw [List.isPrefixOf, beq_false_of_ne h.1, Bool.false_and]
    rw [List.cons_append, afterFirst_of_not_prefix hPrefix, ih h.2]

/-- Reading up to a character stops at the one that ends the text. -/
theorem takeWhile_ne_append_cons (c : Char) (xs ys : List Char) :
    (xs ++ c :: ys).takeWhile (· ≠ c) = xs.takeWhile (· ≠ c) := by
  induction xs with
  | nil => exact List.takeWhile_cons_of_neg (by simp)
  | cons x xs ih =>
    rw [List.cons_append, List.takeWhile_cons, List.takeWhile_cons, ih]

-- ---------------------------------------------------------------------------
-- The two members
-- ---------------------------------------------------------------------------

def uuidNeedle : List Char := ['"', 'u', 'u', 'i', 'd', '"', ':', '"']

def deviceNeedle : List Char := ['"', 'd', 'e', 'v', 'i', 'c', 'e', '_', 'i', 'd', '"', ':']

/-- What follows the name in a record. -/
def recordTail (remoteAddr : ProtocolAddress) (behind : String) : List Char :=
  '"' :: ',' :: (deviceNeedle ++ ((decimal remoteAddr.deviceId.val).toList ++
    '\x7d' :: behind.toList))

/-- A record, with a text behind it, as the search sees it. -/
theorem toList_record (remoteAddr : ProtocolAddress) (behind : String) :
    (peerJson remoteAddr ++ behind).toList =
      '\x7b' :: (uuidNeedle ++ (remoteAddr.name.toList ++ recordTail remoteAddr behind)) := by
  simp [peerJson, uuidNeedle, recordTail, deviceNeedle]

/-- The name is read up to its first quote. -/
theorem extractStringField_record (remoteAddr : ProtocolAddress) (behind : String) :
    extractStringField (peerJson remoteAddr ++ behind) "uuid" =
      some (String.ofList (remoteAddr.name.toList.takeWhile (· ≠ '"'))) := by
  have hAfter : afterFirst ("\"" ++ "uuid" ++ "\":\"").toList
      (peerJson remoteAddr ++ behind).toList =
        some (remoteAddr.name.toList ++ recordTail remoteAddr behind) := by
    rw [toList_record, show ("\"" ++ "uuid" ++ "\":\"").toList = uuidNeedle by decide,
      afterFirst_of_not_prefix (by rfl)]
    exact afterFirst_self (by decide) _
  have hQuote : '"' ∈ remoteAddr.name.toList ++ recordTail remoteAddr behind :=
    List.mem_append_right _ List.mem_cons_self
  rw [extractStringField, hAfter, Option.bind_eq_bind, Option.bind_some, if_pos hQuote, recordTail,
    takeWhile_ne_append_cons]

/-- A name without quotes is not the member that is searched for: a comma follows
its quote. -/
theorem not_prefix_name {remoteAddr : ProtocolAddress} (hName : '"' ∉ remoteAddr.name.toList)
    (behind : String) :
    deviceNeedle.isPrefixOf ('"' :: (remoteAddr.name.toList ++ recordTail remoteAddr behind)) =
      false := by
  rw [Bool.eq_false_iff]
  intro hPrefix
  obtain ⟨rest, hRest⟩ := List.isPrefixOf_iff_prefix.mp hPrefix
  have hSplit : ['d', 'e', 'v', 'i', 'c', 'e', '_', 'i', 'd'] ++ '"' :: (':' :: rest) =
      remoteAddr.name.toList ++ recordTail remoteAddr behind :=
    (List.cons.inj hRest).2
  have hColon := (append_cons_inj_first (by decide) hName hSplit).2
  exact absurd (List.cons.inj hColon).1 (by decide)

/-- The number is not found in a name without quotes, nor in front of it. -/
theorem afterFirst_device_record {remoteAddr : ProtocolAddress}
    (hName : '"' ∉ remoteAddr.name.toList) (behind : String) :
    afterFirst deviceNeedle (peerJson remoteAddr ++ behind).toList =
      some ((decimal remoteAddr.deviceId.val).toList ++ '\x7d' :: behind.toList) := by
  calc afterFirst deviceNeedle (peerJson remoteAddr ++ behind).toList
      = afterFirst deviceNeedle
          ('"' :: (remoteAddr.name.toList ++ recordTail remoteAddr behind)) := by
        rw [toList_record]
        rfl
    _ = afterFirst deviceNeedle (remoteAddr.name.toList ++ recordTail remoteAddr behind) :=
        afterFirst_of_not_prefix (not_prefix_name hName behind)
    _ = afterFirst deviceNeedle (recordTail remoteAddr behind) := afterFirst_append hName _
    _ = afterFirst deviceNeedle (deviceNeedle ++ ((decimal remoteAddr.deviceId.val).toList ++
          '\x7d' :: behind.toList)) := rfl
    _ = some ((decimal remoteAddr.deviceId.val).toList ++ '\x7d' :: behind.toList) :=
        afterFirst_self (by decide) _

/-- The number is read behind a name without quotes. -/
theorem extractNumberField_record {remoteAddr : ProtocolAddress}
    (hName : '"' ∉ remoteAddr.name.toList) (behind : String) :
    extractNumberField (peerJson remoteAddr ++ behind) "device_id" =
      some (decimal remoteAddr.deviceId.val) := by
  have hDigits : ((decimal remoteAddr.deviceId.val).toList ++ '\x7d' :: behind.toList).takeWhile
      Char.isDigit = (decimal remoteAddr.deviceId.val).toList := by
    rw [List.takeWhile_append_of_pos fun _ hc => isDigit_of_mem_decimal hc,
      List.takeWhile_cons_of_neg (by decide), List.append_nil]
  rw [extractNumberField,
    show ("\"" ++ "device_id" ++ "\":").toList = deviceNeedle by decide,
    afterFirst_device_record hName, Option.bind_eq_bind, Option.bind_some, hDigits,
    String.ofList_toList]

-- ---------------------------------------------------------------------------
-- Reading a record
-- ---------------------------------------------------------------------------

/-- Nothing is cut off exactly if the character does not occur. -/
theorem takeWhile_ne_eq_iff {c : Char} {cs : List Char} :
    cs.takeWhile (· ≠ c) = cs ↔ c ∉ cs := by
  rw [List.takeWhile_eq_self_iff]
  simp only [decide_eq_true_eq]
  exact ⟨fun h hMem => h c hMem rfl, fun h d hd hEq => h (hEq ▸ hd)⟩

/-- A device id is read back from its digits. -/
theorem deviceIdOf_decimal (deviceId : DeviceId) (parseError : OutgoingError) :
    deviceIdOf (decimal deviceId.val) parseError = .ok deviceId := by
  have hRange := And.intro deviceId.pos deviceId.le
  have hSmall : deviceId.val < 2 ^ 32 := Nat.lt_of_le_of_lt deviceId.le (by decide)
  rw [deviceIdOf, parseU32_decimal hSmall]
  simp only [DeviceId.new, dif_pos hRange]

/-- **Reading a record.** The address is found again exactly if its name has no
quotes; what stands behind the record does not matter. -/
theorem parsePeerJson_record_iff {remoteAddr : ProtocolAddress} {behind : String} :
    parsePeerJson (peerJson remoteAddr ++ behind) = .ok remoteAddr ↔
      '"' ∉ remoteAddr.name.toList := by
  rw [parsePeerJson, extractStringField_record]
  -- The name that is read ends at the first quote, so it is the whole name if there is
  -- none.
  constructor
  · intro h
    rcases hNumber : extractNumberField (peerJson remoteAddr ++ behind) "device_id" with _ | devStr
    · simp only [hNumber] at h
      cases h
    · simp only [hNumber] at h
      rcases hDevice : deviceIdOf devStr (.pddb ("peer json: device_id parse: " ++
        parseIntError devStr)) with e | dev
      · rw [hDevice] at h
        cases h
      · rw [hDevice] at h
        -- the name that is read is the recorded one
        have hName := congrArg (String.toList ∘ ProtocolAddress.name) (Except.ok.inj h)
        simp only [Function.comp_apply, String.toList_ofList] at hName
        exact takeWhile_ne_eq_iff.mp hName
  · intro hName
    rw [takeWhile_ne_eq_iff.mpr hName, String.ofList_toList]
    simp only [extractNumberField_record hName, deviceIdOf_decimal]
    rfl

-- ---------------------------------------------------------------------------
-- The recorded peer
-- ---------------------------------------------------------------------------

/-- The sending path replies to the address, and to no other. -/
structure Recorded (remoteAddr : ProtocolAddress) (s : Disk) : Prop where
  found : (currentRecipient.runAll serve .served s).1 = .ok remoteAddr
  only : ∀ env found, (currentRecipient.run serve env s).1 = .ok found → found = remoteAddr

/-- What stands behind the record of an address that has been set. -/
def recordBehind (remoteAddr : ProtocolAddress) (env : Env Req Outcome) (s : Disk) : Bytes :=
  leftBehind (env 0 (.deleteKey dialogueDict defaultPeerKey)) (s dialogueDict defaultPeerKey)
    (utf8 (peerJson remoteAddr))

/-- A recording that succeeds leaves the record, and behind it what the delete
has left. -/
theorem setCurrentRecipient_run_ok {remoteAddr : ProtocolAddress} {env : Env Req Outcome} {s : Disk}
    (hSet : ((setCurrentRecipient remoteAddr).run serve env s).1 = .ok ()) :
    ((setCurrentRecipient remoteAddr).run serve env s).2 dialogueDict defaultPeerKey =
      some (utf8 (peerJson remoteAddr) ++ recordBehind remoteAddr env s) := by
  rw [setCurrentRecipient, overwrite_run_ok hSet, Disk.set_same, recordBehind]

/-- Where every request is served the recipient is what the record parses to. -/
theorem currentRecipient_served {content : Bytes} {s : Disk}
    (hContent : s dialogueDict defaultPeerKey = some content) :
    (currentRecipient.runAll serve .served s).1 =
      (fromUtf8 content).elim (.error .noRecipient) parsePeerJson := by
  rw [currentRecipient, Prog.runAll_bind, runAll_pddbGetString, hContent, Option.bind_some]
  cases fromUtf8 content <;> rfl

/-- Whatever fails, an address that is read is the one the record says. -/
theorem currentRecipient_run {content : Bytes} {s : Disk}
    (hContent : s dialogueDict defaultPeerKey = some content) {env : Env Req Outcome}
    {found : ProtocolAddress} (hFound : (currentRecipient.run serve env s).1 = .ok found) :
    (fromUtf8 content).elim (.error .noRecipient) parsePeerJson = .ok found := by
  have hRead := Prog.wp_run_any (wp_pddbGetString (d := dialogueDict) (k := defaultPeerKey)
    (s := s)) env
  rw [hContent, Option.bind_some] at hRead
  rw [currentRecipient, Prog.run_bind] at hFound
  rcases hRead with ⟨-, hNone | hText⟩
  · rw [hNone] at hFound
    cases hFound
  · rw [hText] at hFound
    rw [← hFound]
    cases fromUtf8 content <;> rfl

/-- **The default recipient.** Once an address has been set, it is the one replied
to exactly if its name has no quotes and what a failed delete request has left
behind its record is text. -/
theorem recipient_recorded_iff {remoteAddr : ProtocolAddress} {env : Env Req Outcome} {s : Disk}
    (hSet : ((setCurrentRecipient remoteAddr).run serve env s).1 = .ok ()) :
    Recorded remoteAddr ((setCurrentRecipient remoteAddr).run serve env s).2 ↔
      '"' ∉ remoteAddr.name.toList ∧ (fromUtf8 (recordBehind remoteAddr env s)).isSome := by
  have hContent := setCurrentRecipient_run_ok hSet
  generalize ((setCurrentRecipient remoteAddr).run serve env s).2 = s' at hContent ⊢
  have hServed := currentRecipient_served hContent
  have hOnly (env : Env Req Outcome) (found : ProtocolAddress)
      (hFound : (currentRecipient.run serve env s').1 = .ok found) :=
    currentRecipient_run hContent hFound
  rw [fromUtf8_utf8_append] at hServed hOnly
  -- What is left behind the record must be text too, or the record is not read at all.
  rcases hBehind : fromUtf8 (recordBehind remoteAddr env s) with _ | behind
  · rw [hBehind] at hServed
    refine ⟨fun h => ?_, fun h => absurd h.2 (by decide)⟩
    rw [h.found] at hServed
    cases hServed
  · rw [hBehind, Option.map_some, Option.elim_some] at hServed hOnly
    constructor
    · intro h
      exact ⟨parsePeerJson_record_iff.mp (hServed.symm.trans h.found), rfl⟩
    · rintro ⟨hName, -⟩
      have hParse : parsePeerJson (peerJson remoteAddr ++ behind) = .ok remoteAddr :=
        parsePeerJson_record_iff.mpr hName
      exact ⟨hServed.trans hParse, fun env found hFound =>
        (Except.ok.inj (hParse.symm.trans (hOnly env found hFound))).symm⟩

/-- The record of a peer whose name brings a device id of its own. -/
theorem recipient_forged :
    ¬∀ (remoteAddr : ProtocolAddress) (env : Env Req Outcome) (s : Disk),
      ((setCurrentRecipient remoteAddr).run serve env s).1 = .ok () →
      Recorded remoteAddr ((setCurrentRecipient remoteAddr).run serve env s).2 := by
  intro h
  have hFound := (h ⟨"x\",\"device_id\":9,\"y", .first⟩ (fun _ _ => .served) (fun _ _ => none)
    (by decide +kernel)).found
  revert hFound
  decide +kernel

theorem other_ne_notFound : (IoError.ofKind .other).kind ≠ .notFound := by decide

/-- The first request fails, which is to delete the key. -/
def notDeleted : Env Req Outcome := fun i _ =>
  if i = 0 then .failed ⟨IoError.ofKind .other, other_ne_notFound⟩ else .served

/-- The record of a peer with a longer name. -/
def longerRecord : Disk :=
  ((setCurrentRecipient ⟨"PNI:9d0652a3-dcc3-4d11-975f-74d61598733f", .first⟩).run serve
    (fun _ _ => .served) fun _ _ => none).2

/-- The theorem for a service id recorded over a longer record that stays. -/
theorem recipient_recorded_over :
    Recorded ⟨"9d0652a3-dcc3-4d11-975f-74d61598733f", .first⟩
      ((setCurrentRecipient ⟨"9d0652a3-dcc3-4d11-975f-74d61598733f", .first⟩).run serve notDeleted
        longerRecord).2 :=
  (recipient_recorded_iff (by decide +kernel)).mpr ⟨by decide +kernel, by decide +kernel⟩

end Sigchat.Results

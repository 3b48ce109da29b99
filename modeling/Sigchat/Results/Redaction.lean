import Sigchat.Model.Rest

/-!
# What the dumped body tells of the verification code

The redaction cuts the serialised code at the next quote. A quote of the code
itself is escaped by a backslash only, so the rest of the code stays.

* `redact_withCode`   — what the redaction leaves, for every code;
* `redacts_iff`       — the dump is free of the code exactly if the code has no
  quote.
-/

namespace Sigchat.Results

open Sigchat.Lib
open Sigchat.Accounts
open Sigchat.Rest

def withCode (body : Body) (code : String) : Body := { body with verificationCode := code }

/-- What follows the closing quote of the code. -/
def afterCode (body : Body) : List Char :=
  ',' :: Json.fields [
    ("accountAttributes", body.accountAttributes.toJson),
    ("aciSignedPreKey", preKeyEntity body.aciSignedPreKey),
    ("pniSignedPreKey", preKeyEntity body.pniSignedPreKey),
    ("aciPqLastResortPreKey", preKeyEntity body.aciPqLastResortPreKey),
    ("pniPqLastResortPreKey", preKeyEntity body.pniPqLastResortPreKey)] ++ ['}']

/-- The code is the first thing the body holds. -/
theorem bodyJson_withCode (body : Body) (code : String) :
    bodyJson (withCode body code) =
      '{' :: (codeKey ++ (Json.escapeAll code.toList ++ '"' :: afterCode body)) := by
  have hKey : Json.quote "verificationCode" ++ [':', '"'] = codeKey := by decide
  rw [← hKey]
  simp [bodyJson, withCode, afterCode, Json.object, Json.fields, Json.field, Json.quote]

/-- The code is looked for right after the opening brace. -/
theorem splitAtFirst_withCode (value : List Char) :
    splitAtFirst codeKey ('{' :: (codeKey ++ value)) = some (['{'], value) := by
  have hHere : codeKey.isPrefixOf ('{' :: (codeKey ++ value)) = false := rfl
  have hKey : codeKey ≠ [] := by decide
  rw [splitAtFirst, hHere, if_neg Bool.false_ne_true, splitAtFirst_append hKey]
  rfl

/-- What the redaction leaves of a body. -/
theorem redact_withCode (body : Body) (code : String) :
    redactVerificationCode (toJsonString (withCode body code)) =
      String.ofList ('{' :: (codeKey ++ (redactionText.toList ++
        (Json.escapeAll code.toList ++ '"' :: afterCode body).dropWhile (· ≠ '"')))) := by
  have hQuote : '"' ∈ Json.escapeAll code.toList ++ '"' :: afterCode body :=
    List.mem_append_right _ List.mem_cons_self
  rw [redactVerificationCode, toJsonString, String.toList_ofList, bodyJson_withCode,
    splitAtFirst_withCode]
  simp only [hQuote, if_true, List.append_assoc, List.cons_append, List.nil_append]

/-- The body with the text of the redaction in place of the code. -/
theorem toJsonString_redacted (body : Body) :
    toJsonString (withCode body redactionText) =
      String.ofList ('{' :: (codeKey ++ (redactionText.toList ++ '"' :: afterCode body))) := by
  have hPlain : Json.escapeAll redactionText.toList = redactionText.toList := by decide
  rw [toJsonString, bodyJson_withCode, hPlain]

/-- The redacted body is the body of the redaction text. -/
theorem redact_eq_iff (body : Body) (code : String) :
    redactVerificationCode (toJsonString (withCode body code)) =
      toJsonString (withCode body redactionText) ↔ '"' ∉ code.toList := by
  rw [redact_withCode, toJsonString_redacted, String.ofList_inj, List.cons_inj_right,
    List.append_cancel_left_eq, List.append_cancel_left_eq]
  constructor
  · intro hEq hMem
    -- what is left after the first quote of the code is longer
    obtain ⟨tail, hTail⟩ := Json.dropWhile_quoted_of_mem hMem (afterCode body)
    have hLen := congrArg List.length (hTail.symm.trans hEq)
    simp only [List.length_cons, List.length_append] at hLen
    omega
  · intro hPlain
    exact Json.dropWhile_quoted hPlain _

/-- Two bodies that differ in the code only are dumped alike, as the body of
the redaction text. -/
def Redacts (body : Body) (code code' : String) : Prop :=
  redactVerificationCode (toJsonString (withCode body code)) =
      redactVerificationCode (toJsonString (withCode body code')) ∧
    redactVerificationCode (toJsonString (withCode body code)) =
      toJsonString (withCode body redactionText)

/-- **The dump is free of the code exactly if the code has no quote.** -/
theorem redacts_iff (body : Body) (code code' : String) :
    Redacts body code code' ↔ '"' ∉ code.toList ∧ '"' ∉ code'.toList := by
  rw [← redact_eq_iff body code, ← redact_eq_iff body code']
  constructor
  · rintro ⟨hSame, hRedacted⟩
    exact ⟨hRedacted, hSame.symm.trans hRedacted⟩
  · rintro ⟨hFirst, hSecond⟩
    exact ⟨hFirst.trans hSecond.symm, hFirst⟩

def plainAttributes : AccountAttributes where
  signalingKey := none
  registrationId := 1
  voice := true
  video := true
  fetchesMessages := true
  registrationLock := none
  unidentifiedAccessKey := "AAAAAAAAAAAAAAAAAAAAAA=="
  unrestrictedUnidentifiedAccess := false
  discoverableByPhoneNumber := false
  capabilities := ⟨true, true, true, true, true⟩
  name := "bmFtZQ=="
  pniRegistrationId := 2
  recoveryPassword := none

def plainBody : Body :=
  let key : PreKeyJson := ⟨1, "a2V5", "c2ln"⟩
  ⟨"", plainAttributes, key, key, key, key⟩

/-- Of the code `1"23`, the dump shows `23`. -/
theorem dump_shows_code :
    (¬∀ body code code', Redacts body code code') ∧
    redactionText.toList ++ ['"', '2', '3', '"'] <:+:
      (redactVerificationCode (toJsonString (withCode plainBody "1\"23"))).toList := by
  refine ⟨fun h => ?_, ?_⟩
  · have hFirst := (h plainBody "1\"23" "").2
    exact (redact_eq_iff plainBody _).mp hFirst (by decide)
  · have hLeft (rest : List Char) : (Json.escapeAll "1\"23".toList ++ '"' :: rest).dropWhile
        (· ≠ '"') = ['"', '2', '3', '"'] ++ rest := rfl
    rw [redact_withCode, String.toList_ofList, hLeft]
    exact ⟨'{' :: codeKey, afterCode plainBody, by simp⟩

end Sigchat.Results

import Sigchat.Lib.Base64

/-!
# Basic authentication

The `Authorization` header for a login and a password: the base64 text of the
two, with a colon between them. The reader splits at the first colon, so it
gives back every password, and every login without one.

* `read_header_iff` — what is read from a header.
-/

namespace Sigchat.Lib.BasicAuth

open Sigchat.Lib

def scheme : String := "Basic "

/-- The credentials as they are encoded. -/
def joined (login password : String) : String := login ++ ":" ++ password

def header (login password : String) : String :=
  scheme ++ Base64.encodePadded Base64.standard (utf8 (joined login password))

def split (text : String) : Option (String × String) :=
  (splitAtFirst [':'] text.toList).map fun (login, password) =>
    (String.ofList login, String.ofList password)

/-- Login and password of a header. -/
def read (value : String) : Option (String × String) :=
  if scheme.toList.isPrefixOf value.toList then
    ((Base64.decodePadded Base64.standard
      (String.ofList (value.toList.drop scheme.toList.length))).bind fromUtf8).bind split
  else none

/-- The characters of the joined text: the user, the colon, the password. -/
theorem toList_joined (login password : String) :
    (joined login password).toList = login.toList ++ ':' :: password.toList := by
  rw [joined, String.toList_append, String.toList_append, List.append_assoc]
  rfl

/-- The server gets back the joined text, and splits it. -/
theorem read_header (login password : String) :
    read (header login password) = split (joined login password) := by
  have hPrefix : scheme.toList.isPrefixOf (header login password).toList = true := by
    rw [List.isPrefixOf_iff_prefix, header, String.toList_append]
    exact List.prefix_append _ _
  rw [read, if_pos hPrefix, header, String.toList_append, List.drop_left, String.ofList_toList,
    Base64.decodePadded_encodePadded fun n hn => Base64.standard_chr_ne hn, Option.bind_some,
    fromUtf8_utf8, Option.bind_some]

/-- **What is read from a header**: a login without a colon, and a password,
that are the same text together. -/
theorem read_header_iff {login password login' password' : String} :
    read (header login password) = some (login', password') ↔
      ':' ∉ login'.toList ∧ joined login password = joined login' password' := by
  rw [read_header, split, Option.map_eq_some_iff]
  constructor
  · rintro ⟨⟨before, after⟩, hSplit, hEq⟩
    obtain ⟨rfl, rfl⟩ := Prod.mk.inj hEq
    obtain ⟨hFree, hText⟩ := splitAtFirst_singleton.mp hSplit
    refine ⟨by rwa [String.toList_ofList], String.toList_inj.mp ?_⟩
    rw [hText, toList_joined, String.toList_ofList, String.toList_ofList]
  · rintro ⟨hFree, hText⟩
    refine ⟨(login'.toList, password'.toList), splitAtFirst_singleton.mpr ⟨hFree, ?_⟩, ?_⟩
    · rw [hText, toList_joined]
    · show (String.ofList login'.toList, String.ofList password'.toList) = (login', password')
      rw [String.ofList_toList, String.ofList_toList]

/-- Texts that are the same together have the same parts, if neither login
contains a colon. -/
theorem joined_inj {login password login' password' : String} (hFree : ':' ∉ login.toList)
    (hFree' : ':' ∉ login'.toList) (h : joined login password = joined login' password') :
    login = login' ∧ password = password' := by
  have hChars := congrArg String.toList h
  rw [toList_joined, toList_joined] at hChars
  obtain ⟨hLogin, hPassword⟩ := append_cons_inj_first hFree hFree' hChars
  exact ⟨String.toList_inj.mp hLogin, String.toList_inj.mp hPassword⟩

end Sigchat.Lib.BasicAuth

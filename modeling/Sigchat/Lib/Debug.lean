import Mathlib.Data.Nat.Digits.Lemmas
import Sigchat.Lib.Json

/-!
# Values as they are printed for debugging

The texts that Rust's `{:?}` makes of strings, optional strings and byte
vectors. A string stands between quotes, and what could not be printed is
escaped. Which other characters are escaped by their number is left open
(`unicode`).

* `quote_append_inj`  — a quoted string can be read back;
* `option_injective`  — different optional strings are printed differently;
* `bytes_append_inj`  — a byte vector can be read back.
-/

namespace Sigchat.Lib.Debug

-- ---------------------------------------------------------------------------
-- Strings
-- ---------------------------------------------------------------------------

/-- The lower-case hexadecimal digits of a number that is not 0. -/
def hex (n : Nat) : List Char := (Nat.digits 16 n).reverse.map Json.hexDigit

/-- The character after the backslash of a short escape. -/
def short (c : Char) : Option Char :=
  if c.toNat = 0 then some '0'
  else if c = '\t' then some 't'
  else if c = '\r' then some 'r'
  else if c = '\n' then some 'n'
  else if c = '\\' then some '\\'
  else if c = '"' then some '"'
  else none

def escape (unicode : Char → Bool) (c : Char) : List Char :=
  match short c with
  | some x => ['\\', x]
  | none => if unicode c then '\\' :: 'u' :: '{' :: hex c.toNat ++ ['}'] else [c]

def quote (unicode : Char → Bool) (s : String) : List Char :=
  '"' :: s.toList.flatMap (escape unicode) ++ ['"']

/-- `{:?}` of an `Option<&str>`. -/
def option (unicode : Char → Bool) : Option String → String
  | none => "None"
  | some s => "Some(" ++ String.ofList (quote unicode s) ++ ")"

/-- The value of a hexadecimal digit. -/
def hexValue (c : Char) : Nat := if c.toNat < 58 then c.toNat - 48 else c.toNat - 87

theorem hexValue_hexDigit {n : Nat} (hn : n < 16) : hexValue (Json.hexDigit n) = n := by
  have hAll : ∀ n < 16, hexValue (Json.hexDigit n) = n := by decide
  exact hAll n hn

theorem hexDigit_ne_brace {n : Nat} (hn : n < 16) : Json.hexDigit n ≠ '}' := by
  have hAll : ∀ n < 16, Json.hexDigit n ≠ '}' := by decide
  exact hAll n hn

theorem digit_lt {n d : Nat} (h : d ∈ (Nat.digits 16 n).reverse) : d < 16 :=
  Nat.digits_lt_base (by decide) (List.mem_reverse.mp h)

theorem brace_not_mem_hex (n : Nat) : '}' ∉ hex n := by
  intro h
  obtain ⟨d, hd, hBrace⟩ := List.mem_map.mp h
  exact hexDigit_ne_brace (digit_lt hd) hBrace

/-- Different numbers have different digits. -/
theorem hex_injective {m n : Nat} (h : hex m = hex n) : m = n := by
  have hValues (k : Nat) : (hex k).map hexValue = (Nat.digits 16 k).reverse := by
    rw [hex, List.map_map]
    refine (List.map_congr_left fun d hd => ?_).trans (List.map_id _)
    exact hexValue_hexDigit (digit_lt hd)
  have hDigits := congrArg (List.map hexValue) h
  rw [hValues, hValues] at hDigits
  exact Nat.digits_inj_iff.mp (List.reverse_injective hDigits)

/-- The character a short escape stands for. -/
def long (x : Char) : Char :=
  if x = '0' then Char.ofNat 0
  else if x = 't' then '\t'
  else if x = 'r' then '\r'
  else if x = 'n' then '\n'
  else x

/-- A short escape says which character it stands for, and is none of the long
ones. -/
theorem long_of_short {c x : Char} (h : short c = some x) : long x = c ∧ x ≠ 'u' := by
  unfold short at h
  split_ifs at h with hZero
  · obtain rfl := Option.some.inj h
    exact ⟨Char.toNat_inj.mp hZero.symm, by decide⟩
  all_goals
    obtain rfl := Option.some.inj h
    subst c
    exact ⟨rfl, by decide⟩

theorem short_eq_none {c : Char} (h : short c = none) : c ≠ '\\' ∧ c ≠ '"' := by
  constructor <;> rintro rfl <;> exact absurd h (by decide)

/-- A character is escaped shortly, by its number, or not at all. -/
theorem escape_cases (unicode : Char → Bool) (c : Char) :
    (∃ x, escape unicode c = ['\\', x] ∧ long x = c ∧ x ≠ 'u') ∨
    (escape unicode c = '\\' :: 'u' :: '{' :: hex c.toNat ++ ['}']) ∨
    (escape unicode c = [c] ∧ c ≠ '\\' ∧ c ≠ '"') := by
  unfold escape
  rcases hShort : short c with _ | x
  · by_cases hUnicode : unicode c = true
    · exact .inr (.inl (if_pos hUnicode))
    · exact .inr (.inr ⟨if_neg hUnicode, short_eq_none hShort⟩)
  · exact .inl ⟨x, rfl, long_of_short hShort⟩

/-- The escapes are a prefix code. -/
theorem escape_append_inj {unicode : Char → Bool} {c d : Char} {r r' : List Char}
    (h : escape unicode c ++ r = escape unicode d ++ r') : c = d ∧ r = r' := by
  -- each of the two is a short escape, the character itself, or its number
  rcases escape_cases unicode c with ⟨x, hc, hLong, hu⟩ | hc | ⟨hc, hSlash, -⟩ <;>
    rcases escape_cases unicode d with ⟨y, hd, hLong', hu'⟩ | hd | ⟨hd, hSlash', -⟩ <;>
    rw [hc, hd] at h <;> simp only [List.cons_append, List.nil_append, List.cons.injEq] at h
  · obtain ⟨-, rfl, hRest⟩ := h
    exact ⟨hLong.symm.trans hLong', hRest⟩
  · exact absurd h.2.1 hu
  · exact absurd h.1.symm hSlash'
  · exact absurd h.2.1.symm hu'
  · obtain ⟨-, -, -, hHex⟩ := h
    rw [List.append_assoc, List.append_assoc] at hHex
    -- the digits end at the first brace
    obtain ⟨hNumber, hRest⟩ :=
      append_cons_inj_first (brace_not_mem_hex _) (brace_not_mem_hex _) hHex
    exact ⟨Char.toNat_inj.mp (hex_injective hNumber), hRest⟩
  · exact absurd h.1.symm hSlash'
  · exact absurd h.1 hSlash
  · exact absurd h.1 hSlash
  · exact h

/-- An escape does not begin with the closing quote. -/
theorem escape_ne_quote (unicode : Char → Bool) (c : Char) (r r' : List Char) :
    escape unicode c ++ r ≠ '"' :: r' := by
  intro h
  rcases escape_cases unicode c with ⟨x, hc, -⟩ | hc | ⟨hc, -, hQuote⟩ <;>
    rw [hc] at h <;> have hHead := (List.cons.inj h).1
  · exact absurd hHead (by decide)
  · exact absurd hHead (by decide)
  · exact hQuote hHead

/-- **A quoted string can be read back**, whatever follows it. -/
theorem quote_append_inj {unicode : Char → Bool} {s t : String} {r r' : List Char}
    (h : quote unicode s ++ r = quote unicode t ++ r') : s = t ∧ r = r' := by
  -- character by character, until one of the two texts is at its quote
  have hChars (cs : List Char) : ∀ ds, cs.flatMap (escape unicode) ++ '"' :: r =
      ds.flatMap (escape unicode) ++ '"' :: r' → cs = ds ∧ r = r' := by
    induction cs with
    | nil =>
      intro ds hEq
      cases ds with
      | nil => exact ⟨rfl, (List.cons.inj hEq).2⟩
      | cons d ds =>
        rw [List.flatMap_cons, List.append_assoc] at hEq
        exact (escape_ne_quote _ _ _ _ hEq.symm).elim
    | cons c cs ih =>
      intro ds hEq
      cases ds with
      | nil =>
        rw [List.flatMap_cons, List.append_assoc] at hEq
        exact (escape_ne_quote _ _ _ _ hEq).elim
      | cons d ds =>
        rw [List.flatMap_cons, List.flatMap_cons, List.append_assoc, List.append_assoc] at hEq
        obtain ⟨rfl, hRest⟩ := escape_append_inj hEq
        obtain ⟨rfl, hr⟩ := ih ds hRest
        exact ⟨rfl, hr⟩
  simp only [quote, List.cons_append, List.append_assoc, List.cons.injEq, true_and,
    List.nil_append] at h
  obtain ⟨hEq, hr⟩ := hChars _ _ h
  exact ⟨String.toList_inj.mp hEq, hr⟩

/-- Different options are shown differently. -/
theorem option_injective (unicode : Char → Bool) : Function.Injective (option unicode) := by
  intro v w h
  have hList := congrArg String.toList h
  rcases v with _ | s <;> rcases w with _ | t
  · rfl
  · simp [option] at hList
  · simp [option] at hList
  · simp only [option, String.toList_append, String.toList_ofList, List.append_assoc,
      List.append_cancel_left_eq] at hList
    rw [(quote_append_inj hList).1]

-- ---------------------------------------------------------------------------
-- Bytes
-- ---------------------------------------------------------------------------

/-- The rest of a vector, behind its first element. -/
def bytesTail : Bytes → List Char
  | [] => [']']
  | b :: bs => ',' :: ' ' :: (decimal b.toNat).toList ++ bytesTail bs

/-- `{:?}` of a `Vec<u8>`. -/
def bytes : Bytes → List Char
  | [] => ['[', ']']
  | b :: bs => '[' :: (decimal b.toNat).toList ++ bytesTail bs

/-- The first number of a list ends before the comma or the bracket. -/
theorem takeWhile_decimal_bytesTail (n : Nat) (bs : Bytes) (r : List Char) :
    ((decimal n).toList ++ (bytesTail bs ++ r)).takeWhile Char.isDigit = (decimal n).toList := by
  rw [List.takeWhile_append_of_pos fun _ => isDigit_of_mem_decimal]
  have hEnd : (bytesTail bs ++ r).takeWhile Char.isDigit = [] := by
    cases bs <;> exact List.takeWhile_cons_of_neg (by decide)
  rw [hEnd, List.append_nil]

/-- The digits of an element end where it ends. -/
theorem decimal_bytesTail_inj {m n : Nat} {bs cs : Bytes} {r r' : List Char}
    (h : (decimal m).toList ++ (bytesTail bs ++ r) = (decimal n).toList ++ (bytesTail cs ++ r')) :
    m = n ∧ bytesTail bs ++ r = bytesTail cs ++ r' := by
  have hDigits := congrArg (List.takeWhile Char.isDigit) h
  rw [takeWhile_decimal_bytesTail, takeWhile_decimal_bytesTail] at hDigits
  rw [hDigits] at h
  exact ⟨decimal_injective (String.toList_inj.mp hDigits), List.append_cancel_left h⟩

/-- The rest of a list of bytes is told from what follows it. -/
theorem bytesTail_append_inj {bs cs : Bytes} {r r' : List Char}
    (h : bytesTail bs ++ r = bytesTail cs ++ r') : bs = cs ∧ r = r' := by
  induction bs generalizing cs with
  | nil =>
    cases cs with
    | nil => exact ⟨rfl, (List.cons.inj h).2⟩
    | cons c cs => exact absurd (List.cons.inj h).1 (by decide)
  | cons b bs ih =>
    cases cs with
    | nil => exact absurd (List.cons.inj h).1 (by decide)
    | cons c cs =>
      simp only [bytesTail, List.cons_append, List.append_assoc, List.cons.injEq, true_and] at h
      obtain ⟨hFirst, hRest⟩ := decimal_bytesTail_inj h
      obtain ⟨rfl, hr⟩ := ih hRest
      obtain rfl := UInt8.toNat_inj.mp hFirst
      exact ⟨rfl, hr⟩

/-- A number does not begin with the closing bracket. -/
theorem decimal_append_ne (n : Nat) (bs : Bytes) (r r' : List Char) :
    (decimal n).toList ++ (bytesTail bs ++ r) ≠ ']' :: r' := by
  intro h
  have hDigits := congrArg (List.takeWhile Char.isDigit) h
  rw [takeWhile_decimal_bytesTail, toList_decimal] at hDigits
  exact Nat.toDigits_ne_nil hDigits

/-- **A byte vector can be read back.** -/
theorem bytes_append_inj {bs cs : Bytes} {r r' : List Char} (h : bytes bs ++ r = bytes cs ++ r') :
    bs = cs ∧ r = r' := by
  rcases bs with _ | ⟨b, bs⟩ <;> rcases cs with _ | ⟨c, cs⟩
  · exact ⟨rfl, List.append_cancel_left h⟩
  · simp only [bytes, List.cons_append, List.append_assoc, List.cons.injEq, true_and] at h
    exact (decimal_append_ne _ _ _ _ h.symm).elim
  · simp only [bytes, List.cons_append, List.append_assoc, List.cons.injEq, true_and] at h
    exact (decimal_append_ne _ _ _ _ h).elim
  · simp only [bytes, List.cons_append, List.append_assoc, List.cons.injEq, true_and] at h
    obtain ⟨hFirst, hRest⟩ := decimal_bytesTail_inj h
    obtain ⟨rfl, hr⟩ := bytesTail_append_inj hRest
    obtain rfl := UInt8.toNat_inj.mp hFirst
    exact ⟨rfl, hr⟩

end Sigchat.Lib.Debug

import Mathlib.Data.List.Forall2
import Mathlib.Data.List.TakeWhile
import Sigchat.Lib.Json

/-!
# Reading JSON

A reader of JSON texts: white space, the escapes of strings with their
surrogate pairs, numbers as they are written, the fields of an object in their
order. A value that is skipped has to have the form of one, but no surrogates
are paired in it. A serialised value is read back whatever follows it, unless
that goes on a number (`Reads`); so the rules for a serialiser are rules for its
parts.

* `reads_quote`, `reads_number`, `reads_optional`, `reads_bool`, `reads_object`;
* `parse_of_reads` — a whole text.
-/

namespace Sigchat.Lib.Json

-- ---------------------------------------------------------------------------
-- The reader
-- ---------------------------------------------------------------------------

inductive Value where
  | null
  | bool (b : Bool)
  | num (text : List Char)
  | str (s : String)
  | arr (vs : List Value)
  | obj (fs : List (String × Value))

def Value.asString : Value → Option String
  | .str s => some s
  | _ => none

def Value.asBool : Value → Option Bool
  | .bool b => some b
  | _ => none

def Value.fields : Value → List (String × Value)
  | .obj fs => fs
  | _ => []

@[simp] theorem asString_str (s : String) : (Value.str s).asString = some s := rfl
@[simp] theorem asBool_bool (b : Bool) : (Value.bool b).asBool = some b := rfl
@[simp] theorem fields_obj (fs : List (String × Value)) : (Value.obj fs).fields = fs := rfl

/-- The value of a field, if it is there once. -/
def Value.get (v : Value) (name : String) : Option Value :=
  match v.fields.filter fun f => f.1 = name with
  | [f] => some f.2
  | _ => none

def skipWs (cs : List Char) : List Char :=
  cs.dropWhile fun c => c = ' ' ∨ c = '\t' ∨ c = '\n' ∨ c = '\r'

def hexVal (c : Char) : Option Nat :=
  if '0' ≤ c ∧ c ≤ '9' then some (c.toNat - 48)
  else if 'a' ≤ c ∧ c ≤ 'f' then some (c.toNat - 87)
  else if 'A' ≤ c ∧ c ≤ 'F' then some (c.toNat - 55)
  else none

/-- Four hexadecimal digits. -/
def readHex : List Char → Option (Nat × List Char)
  | a :: b :: c :: d :: cs => do
    let a ← hexVal a
    let b ← hexVal b
    let c ← hexVal c
    let d ← hexVal d
    some (((a * 16 + b) * 16 + c) * 16 + d, cs)
  | _ => none

/-- The character of a code unit; the first of a surrogate pair needs the
second. -/
def readUnit (n : Nat) (cs : List Char) : Option (Char × List Char) :=
  if 0xDC00 ≤ n ∧ n < 0xE000 then none
  else if 0xD800 ≤ n ∧ n < 0xDC00 then do
    let (m, cs') ← readHex (cs.drop 2)
    if cs.take 2 = ['\\', 'u'] ∧ 0xDC00 ≤ m ∧ m < 0xE000 then
      some (Char.ofNat (0x10000 + (n - 0xD800) * 0x400 + (m - 0xDC00)), cs')
    else none
  else some (Char.ofNat n, cs)

/-- What follows a backslash. In a value that is skipped any code unit will
do. -/
def unescape (skip : Bool) : List Char → Option (Char × List Char)
  | [] => none
  | c :: cs =>
    if c = 'u' then
      (readHex cs).bind fun (n, cs) => if skip then some (Char.ofNat n, cs) else readUnit n cs
    else if c = '"' ∨ c = '\\' ∨ c = '/' then some (c, cs)
    else if c = 'b' then some (Char.ofNat 8, cs)
    else if c = 'f' then some (Char.ofNat 12, cs)
    else if c = 'n' then some ('\n', cs)
    else if c = 'r' then some ('\r', cs)
    else if c = 't' then some ('\t', cs)
    else none

/-- The characters of a string, up to its closing quote. -/
def readChars (skip : Bool) : Nat → List Char → Option (List Char × List Char)
  | 0, _ => none
  | _ + 1, [] => none
  | n + 1, c :: cs =>
    if c = '"' then some ([], cs)
    else if c = '\\' then do
      let (d, cs) ← unescape skip cs
      let (ds, cs) ← readChars skip n cs
      some (d :: ds, cs)
    else if c.toNat < 32 then none
    else do
      let (ds, cs) ← readChars skip n cs
      some (c :: ds, cs)

/-- The rest of a string. -/
def readString (skip : Bool) (cs : List Char) : Option (String × List Char) :=
  (readChars skip (cs.length + 1) cs).map fun (ds, cs) => (String.ofList ds, cs)

def isInt (cs : List Char) : Bool :=
  cs ≠ [] ∧ cs.all Char.isDigit ∧ (cs.head? = some '0' → cs.length = 1)

def isFraction (cs : List Char) : Bool :=
  cs = [] ∨ cs.head? = some '.' ∧ cs.tail ≠ [] ∧ cs.tail.all Char.isDigit

def isExponent (cs : List Char) : Bool :=
  let digits :=
    if cs.tail.head? = some '+' ∨ cs.tail.head? = some '-' then cs.tail.tail else cs.tail
  cs = [] ∨ digits ≠ [] ∧ digits.all Char.isDigit

/-- A number: an integer with an optional sign, fraction and exponent. -/
def isNumber (text : List Char) : Bool :=
  let cs := if text.head? = some '-' then text.tail else text
  let mantissa := cs.takeWhile fun c => c ≠ 'e' ∧ c ≠ 'E'
  isInt (mantissa.takeWhile (· ≠ '.')) && isFraction (mantissa.dropWhile (· ≠ '.')) &&
    isExponent (cs.drop mantissa.length)

def isNumberChar (c : Char) : Bool :=
  c.isDigit ∨ c = '-' ∨ c = '+' ∨ c = '.' ∨ c = 'e' ∨ c = 'E'

def readNumber (cs : List Char) : Option (Value × List Char) :=
  let text := cs.takeWhile isNumberChar
  if isNumber text then some (.num text, cs.dropWhile isNumberChar) else none

def readLiteral (literal : List Char) (v : Value) (cs : List Char) : Option (Value × List Char) :=
  if literal.isPrefixOf cs then some (v, cs.drop literal.length) else none

/-- A character after white space. -/
def expect (c : Char) (cs : List Char) : Option (List Char) :=
  if (skipWs cs).head? = some c then some (skipWs cs).tail else none

/-- A comma, after which there is more, or the closing bracket. -/
def separator (close : Char) (cs : List Char) : Option (Bool × List Char) :=
  ((expect ',' cs).map fun cs => (true, cs)).or ((expect close cs).map fun cs => (false, cs))

mutual

/-- The value a text begins with, and the rest. -/
def readValue (skip : Bool) : Nat → List Char → Option (Value × List Char)
  | 0, _ => none
  | n + 1, cs =>
    match skipWs cs with
    | [] => none
    | c :: cs =>
      if c = '"' then (readString skip cs).map fun (s, cs) => (.str s, cs)
      else if c = '{' then
        ((expect '}' cs).map fun cs => (.obj [], cs)).or
          ((readFields skip (fun _ => skip) n cs).map fun (fs, cs) => (.obj fs, cs))
      else if c = '[' then
        ((expect ']' cs).map fun cs => (.arr [], cs)).or
          ((readValues skip n cs).map fun (vs, cs) => (.arr vs, cs))
      else if c = 't' then readLiteral (bool true) (.bool true) (c :: cs)
      else if c = 'f' then readLiteral (bool false) (.bool false) (c :: cs)
      else if c = 'n' then readLiteral (optional none) .null (c :: cs)
      else readNumber (c :: cs)

/-- The fields of an object, up to its closing brace; `skips` are those whose
values are skipped. -/
def readFields (skip : Bool) (skips : String → Bool) :
    Nat → List Char → Option (List (String × Value) × List Char)
  | 0, _ => none
  | n + 1, cs => do
    let cs ← expect '"' cs
    let (name, cs) ← readString skip cs
    let cs ← expect ':' cs
    let (v, cs) ← readValue (skips name) n cs
    let (more, cs) ← separator '}' cs
    if more then (readFields skip skips n cs).map fun (fs, cs) => ((name, v) :: fs, cs)
    else some ([(name, v)], cs)

/-- The values of an array, up to its closing bracket. -/
def readValues (skip : Bool) : Nat → List Char → Option (List Value × List Char)
  | 0, _ => none
  | n + 1, cs => do
    let (v, cs) ← readValue skip n cs
    let (more, cs) ← separator ']' cs
    if more then (readValues skip n cs).map fun (vs, cs) => (v :: vs, cs)
    else some ([v], cs)

end

/-- The value a text begins with, some fields of which are skipped if it is an
object. -/
def readStruct (skips : String → Bool) (n : Nat) (cs : List Char) : Option (Value × List Char) :=
  match expect '{' cs with
  | some cs =>
    ((expect '}' cs).map fun cs => (.obj [], cs)).or
      ((readFields false skips n cs).map fun (fs, cs) => (.obj fs, cs))
  | none => readValue false n cs

/-- Nothing but white space follows. -/
def whole : Option (Value × List Char) → Option Value
  | some (v, rest) => if skipWs rest = [] then some v else none
  | none => none

/-- The value of a whole text. -/
def parse (text : String) : Option Value :=
  whole (readValue false (text.toList.length + 1) text.toList)

/-- The value of a whole text that is read into a struct. -/
def parseStruct (skips : String → Bool) (text : String) : Option Value :=
  whole (readStruct skips (text.toList.length + 1) text.toList)

-- ---------------------------------------------------------------------------
-- Fields
-- ---------------------------------------------------------------------------

/-- A field that comes first is the value, unless it comes again. -/
theorem get_cons_self (name : String) (v : Value) (fs : List (String × Value)) :
    (Value.obj ((name, v) :: fs)).get name =
      if fs.filter (fun f => f.1 = name) = [] then some v else none := by
  have hFilter : ((name, v) :: fs).filter (fun f => f.1 = name) =
      (name, v) :: fs.filter (fun f => f.1 = name) :=
    List.filter_cons_of_pos (decide_eq_true rfl)
  rw [Value.get, fields_obj, hFilter]
  cases fs.filter fun f => f.1 = name <;> rfl

theorem get_cons_ne {n name : String} (h : n ≠ name) (v : Value) (fs : List (String × Value)) :
    (Value.obj ((n, v) :: fs)).get name = (Value.obj fs).get name := by
  have hFilter : ((n, v) :: fs).filter (fun f => f.1 = name) = fs.filter (fun f => f.1 = name) :=
    List.filter_cons_of_neg (by simpa using h)
  rw [Value.get, Value.get, fields_obj, fields_obj, hFilter]

-- ---------------------------------------------------------------------------
-- Strings
-- ---------------------------------------------------------------------------

theorem hexVal_hexDigit {n : Nat} (hn : n < 16) : hexVal (hexDigit n) = some n := by
  have hAll : ∀ n < 16, hexVal (hexDigit n) = some n := by decide
  exact hAll n hn

/-- A control character is read back from its four digits. -/
theorem unescape_control {c : Char} (hc : c.toNat < 32) (cs : List Char) :
    unescape false ('u' :: '0' :: '0' :: hexDigit (c.toNat / 16) :: hexDigit (c.toNat % 16) :: cs) =
      some (c, cs) := by
  have hHigh : hexVal (hexDigit (c.toNat / 16)) = some (c.toNat / 16) :=
    hexVal_hexDigit (by omega)
  have hLow : hexVal (hexDigit (c.toNat % 16)) = some (c.toNat % 16) :=
    hexVal_hexDigit (by omega)
  have hZero : hexVal '0' = some 0 := by decide
  have hHex : readHex ('0' :: '0' :: hexDigit (c.toNat / 16) :: hexDigit (c.toNat % 16) :: cs) =
      some (c.toNat, cs) := by
    simp only [readHex, hZero, hHigh, hLow, Option.bind_eq_bind, Option.bind_some,
      Option.some.injEq, Prod.mk.injEq, and_true]
    omega
  -- the number is below the surrogates, so it is a character by itself
  rw [unescape, if_pos rfl, hHex, Option.bind_some]
  show readUnit c.toNat cs = _
  rw [readUnit, if_neg (by omega), if_neg (by omega), Char.ofNat_toNat]

/-- One character that has been escaped, whatever follows it. -/
theorem readChars_escape (n : Nat) (c : Char) (cs : List Char) :
    readChars false (n + 1) (escape c ++ cs) =
      (readChars false n cs).map fun (ds, rest) => (c :: ds, rest) := by
  -- the escapes that begin with a backslash
  have hSlash {d : Char} {es : List Char} (h : unescape false es = some (d, cs)) :
      readChars false (n + 1) ('\\' :: es) =
        (readChars false n cs).map fun (ds, rest) => (d :: ds, rest) := by
    rw [readChars, if_neg (by decide), if_pos rfl, h, Option.bind_eq_bind, Option.bind_some]
    dsimp only
    cases readChars false n cs <;> rfl
  unfold escape
  split_ifs with hQuote hBack hBell hTab hLine hForm hReturn hControl
  · subst hQuote
    exact hSlash rfl
  · subst hBack
    exact hSlash rfl
  · rw [← Char.ofNat_toNat c, hBell]
    exact hSlash rfl
  · subst hTab
    exact hSlash rfl
  · subst hLine
    exact hSlash rfl
  · rw [← Char.ofNat_toNat c, hForm]
    exact hSlash rfl
  · subst hReturn
    exact hSlash rfl
  · exact hSlash (unescape_control hControl cs)
  -- a character that stands for itself
  · show readChars false (n + 1) (c :: cs) = _
    rw [readChars, if_neg hQuote, if_neg hBack, if_neg hControl]
    cases readChars false n cs <;> rfl

/-- The text up to the closing quote. -/
theorem readChars_escapeAll {n : Nat} {cs : List Char} (hn : cs.length < n) (rest : List Char) :
    readChars false n (escapeAll cs ++ '"' :: rest) = some (cs, rest) := by
  induction cs generalizing n with
  | nil =>
    obtain ⟨n, rfl⟩ := Nat.exists_eq_succ_of_ne_zero (Nat.ne_of_gt hn)
    rfl
  | cons c cs ih =>
    obtain ⟨n, rfl⟩ := Nat.exists_eq_succ_of_ne_zero (Nat.ne_of_gt (Nat.zero_lt_of_lt hn))
    have hRest := ih (Nat.lt_of_succ_lt_succ hn)
    rw [escapeAll_cons, List.append_assoc, readChars_escape, hRest]
    rfl

/-- Escaping makes no text shorter, so the length of what is read bounds the
steps. -/
theorem length_le_escapeAll (cs : List Char) : cs.length ≤ (escapeAll cs).length := by
  have hOne (c : Char) : 1 ≤ (escape c).length := by
    unfold escape
    split_ifs <;> exact Nat.succ_pos _
  induction cs with
  | nil => exact Nat.le_refl _
  | cons c cs ih =>
    rw [escapeAll_cons, List.length_append, List.length_cons]
    have hFirst := hOne c
    omega

/-- **Round trip** of a string. -/
theorem readString_escapeAll (s : String) (rest : List Char) :
    readString false (escapeAll s.toList ++ '"' :: rest) = some (s, rest) := by
  have hFuel : s.toList.length < (escapeAll s.toList ++ '"' :: rest).length + 1 := by
    have hLonger := length_le_escapeAll s.toList
    rw [List.length_append]
    omega
  rw [readString, readChars_escapeAll hFuel, Option.map_some]
  show some (String.ofList s.toList, rest) = _
  rw [String.ofList_toList]

-- ---------------------------------------------------------------------------
-- Numbers
-- ---------------------------------------------------------------------------

/-- Only the number zero begins with a zero. -/
theorem eq_zero_of_head_decimal {n : Nat} (h : (decimal n).toList.head? = some '0') : n = 0 := by
  rw [toList_decimal] at h
  induction n using Nat.strong_induction_on with
  | _ n ih =>
    by_cases hn : n < 10
    · rw [Nat.toDigits_of_lt_base hn] at h
      have hAll : ∀ n < 10, n.digitChar = '0' → n = 0 := by decide
      exact hAll n hn (Option.some.inj h)
    · rw [Nat.toDigits_of_base_le (by decide) (by omega), List.head?_append_of_ne_nil _
        Nat.toDigits_ne_nil] at h
      have hZero := ih (n / 10) (by omega) h
      omega

theorem isNumberChar_of_isDigit {c : Char} (h : c.isDigit = true) : isNumberChar c = true :=
  decide_eq_true (.inl h)

theorem ne_of_isDigit {c d : Char} (hd : d.isDigit = false) (hc : c.isDigit = true) : c ≠ d := by
  rintro rfl
  rw [hd] at hc
  exact absurd hc Bool.false_ne_true

/-- A natural number in decimal is a number of the grammar: no sign, no
fraction, no exponent and no leading zero. -/
theorem isNumber_decimal (n : Nat) : isNumber (decimal n).toList = true := by
  have hDigits : ∀ c ∈ (decimal n).toList, c.isDigit = true := fun c hc => isDigit_of_mem_decimal hc
  have hNe : (decimal n).toList ≠ [] := by
    rw [toList_decimal]
    exact Nat.toDigits_ne_nil
  have hSign : (decimal n).toList.head? ≠ some '-' := by
    intro h
    have hMem := List.mem_of_mem_head? h
    exact ne_of_isDigit (by decide) (hDigits _ hMem) rfl
  -- there is no exponent
  have hMantissa :
      (decimal n).toList.takeWhile (fun c => c ≠ 'e' ∧ c ≠ 'E') = (decimal n).toList := by
    rw [List.takeWhile_eq_self_iff]
    intro c hc
    have hDigit := hDigits c hc
    exact decide_eq_true ⟨ne_of_isDigit (by decide) hDigit, ne_of_isDigit (by decide) hDigit⟩
  -- there is no fraction
  have hWhole : ∀ c ∈ (decimal n).toList, decide (c ≠ '.') = true := fun c hc =>
    decide_eq_true (ne_of_isDigit (by decide) (hDigits c hc))
  have hInt : isInt (decimal n).toList = true := by
    refine decide_eq_true ⟨hNe, List.all_eq_true.mpr hDigits, fun hZero => ?_⟩
    rw [eq_zero_of_head_decimal hZero]
    decide
  rw [isNumber, if_neg hSign, hMantissa, List.takeWhile_eq_self_iff.mpr hWhole,
    List.dropWhile_eq_nil_iff.mpr hWhole, hInt, List.drop_length]
  rfl

/-- What follows does not go on a number. -/
def NoNumber (rest : List Char) : Prop := ∀ c ∈ rest.head?, isNumberChar c = false

/-- A number ends where no character of one follows. -/
theorem takeWhile_of_noNumber {cs rest : List Char} (hcs : ∀ c ∈ cs, isNumberChar c = true)
    (hRest : NoNumber rest) :
    (cs ++ rest).takeWhile isNumberChar = cs ∧ (cs ++ rest).dropWhile isNumberChar = rest := by
  rw [List.takeWhile_append_of_pos hcs, List.dropWhile_append_of_pos hcs]
  cases rest with
  | nil => exact ⟨List.append_nil cs, rfl⟩
  | cons c rest =>
    have hc : ¬isNumberChar c = true := by
      rw [hRest c rfl]
      exact Bool.false_ne_true
    rw [List.takeWhile_cons_of_neg hc, List.dropWhile_cons_of_neg hc]
    exact ⟨List.append_nil cs, rfl⟩

theorem readNumber_decimal (n : Nat) {rest : List Char} (hRest : NoNumber rest) :
    readNumber ((decimal n).toList ++ rest) = some (.num (decimal n).toList, rest) := by
  have hChars : ∀ c ∈ (decimal n).toList, isNumberChar c = true := fun c hc =>
    isNumberChar_of_isDigit (isDigit_of_mem_decimal hc)
  obtain ⟨hTake, hDrop⟩ := takeWhile_of_noNumber hChars hRest
  rw [readNumber, hTake, hDrop]
  exact if_pos (isNumber_decimal n)

-- ---------------------------------------------------------------------------
-- Values
-- ---------------------------------------------------------------------------

/-- A text is read as a value, whatever follows it. -/
def Reads (text : List Char) (v : Value) : Prop :=
  ∀ n rest, text.length ≤ n → NoNumber rest → readValue false n (text ++ rest) = some (v, rest)

def isWs (c : Char) : Bool := c = ' ' ∨ c = '\t' ∨ c = '\n' ∨ c = '\r'

theorem skipWs_cons {c : Char} (hc : isWs c = false) (cs : List Char) :
    skipWs (c :: cs) = c :: cs :=
  List.dropWhile_cons_of_neg (by rw [← isWs, hc]; exact Bool.false_ne_true)

/-- **Strings.** -/
theorem reads_quote (s : String) : Reads (quote s) (.str s) := by
  intro n rest hn _
  obtain ⟨n, rfl⟩ := Nat.exists_eq_succ_of_ne_zero (Nat.ne_of_gt (Nat.lt_of_lt_of_le
    (show 0 < (quote s).length from Nat.succ_pos _) hn))
  have hText : quote s ++ rest = '"' :: (escapeAll s.toList ++ '"' :: rest) := by
    rw [quote, List.cons_append, List.cons_append, List.append_assoc]
    rfl
  rw [hText, readValue, skipWs_cons (by decide)]
  dsimp only
  rw [if_pos rfl, readString_escapeAll]
  rfl

/-- **Numbers.** The first digit tells a number from the other kinds of values.
-/
theorem reads_number (k : Nat) : Reads (number k) (.num (decimal k).toList) := by
  intro n rest hn hRest
  have hDigits : ∀ c ∈ (decimal k).toList, c.isDigit = true := fun c hc => isDigit_of_mem_decimal hc
  have hRead := readNumber_decimal k hRest
  unfold number at hn ⊢
  rcases hText : (decimal k).toList with _ | ⟨c, cs⟩
  · rw [toList_decimal] at hText
    exact absurd hText Nat.toDigits_ne_nil
  · rw [hText] at hn hRead hDigits
    have hc : c.isDigit = true := hDigits c List.mem_cons_self
    have hNe {d : Char} (hd : d.isDigit = false) : c ≠ d := ne_of_isDigit hd hc
    have hWs : isWs c = false := by
      refine decide_eq_false ?_
      rintro (rfl | rfl | rfl | rfl) <;> exact absurd hc (by decide)
    -- there is a character to read, so there is fuel
    obtain ⟨n, rfl⟩ := Nat.exists_eq_succ_of_ne_zero (Nat.ne_of_gt (Nat.lt_of_lt_of_le
      (Nat.succ_pos _) hn))
    rw [List.cons_append, readValue, skipWs_cons hWs]
    dsimp only
    -- a digit opens no string, array, object or literal
    rw [if_neg (hNe (by decide)), if_neg (hNe (by decide)), if_neg (hNe (by decide)),
      if_neg (hNe (by decide)), if_neg (hNe (by decide)), if_neg (hNe (by decide))]
    exact hRead

theorem reads_bool (b : Bool) : Reads (bool b) (.bool b) := by
  intro n rest hn _
  obtain ⟨n, rfl⟩ := Nat.exists_eq_succ_of_ne_zero (Nat.ne_of_gt (Nat.lt_of_lt_of_le
    (show 0 < (bool b).length by cases b <;> exact Nat.succ_pos _) hn))
  cases b <;> rfl

theorem reads_null : Reads (optional none) .null := by
  intro n rest hn _
  obtain ⟨n, rfl⟩ := Nat.exists_eq_succ_of_ne_zero (Nat.ne_of_gt (Nat.lt_of_lt_of_le
    (Nat.succ_pos _) hn))
  rfl

/-- A string or `null`. -/
def Value.optional : Option String → Value
  | some s => .str s
  | none => .null

/-- An optional value is read back, whether it is there or missing. -/
theorem reads_optional (s : Option String) : Reads (optional s) (Value.optional s) := by
  cases s with
  | none => exact reads_null
  | some s => exact reads_quote s

-- ---------------------------------------------------------------------------
-- Objects
-- ---------------------------------------------------------------------------

/-- A field that is serialised, and what it is read as. -/
def ReadsField (f : String × List Char) (v : String × Value) : Prop :=
  f.1 = v.1 ∧ Reads f.2 v.2

theorem expect_cons {c : Char} (hc : isWs c = false) (cs : List Char) :
    expect c (c :: cs) = some cs := by
  rw [expect, skipWs_cons hc]
  exact if_pos rfl

theorem expect_ne {c d : Char} (hc : isWs c = false) (h : c ≠ d) (cs : List Char) :
    expect d (c :: cs) = none := by
  rw [expect, skipWs_cons hc]
  exact if_neg fun hEq => h (Option.some.inj hEq)

theorem separator_comma (close : Char) (cs : List Char) :
    separator close (',' :: cs) = some (true, cs) := by
  rw [separator, expect_cons (by decide)]
  rfl

theorem separator_close {close : Char} (hWs : isWs close = false) (h : close ≠ ',')
    (cs : List Char) : separator close (close :: cs) = some (false, cs) := by
  rw [separator, expect_ne hWs h, expect_cons hWs]
  rfl

/-- A field and what its separator says of the others. -/
theorem readFields_field {text : List Char} {v : Value} (hText : Reads text v) (name : String)
    {n : Nat} (hn : text.length ≤ n) {tail : List Char} (hTail : NoNumber tail) :
    readFields false (fun _ => false) (n + 1) (field name text ++ tail) = (do
      let (more, cs) ← separator '}' tail
      if more then
        (readFields false (fun _ => false) n cs).map fun (fs, cs) => ((name, v) :: fs, cs)
      else some ([(name, v)], cs)) := by
  have hValue := hText n tail hn hTail
  have hSplit : field name text ++ tail =
      '"' :: (escapeAll name.toList ++ '"' :: ':' :: (text ++ tail)) := by
    simp [field, quote]
  rw [hSplit, readFields, expect_cons (by decide), Option.bind_eq_bind, Option.bind_some,
    readString_escapeAll, Option.bind_eq_bind, Option.bind_some]
  dsimp only
  rw [expect_cons (by decide), Option.bind_eq_bind, Option.bind_some, hValue, Option.bind_eq_bind,
    Option.bind_some]

/-- The last field of an object. -/
theorem readFields_last {text : List Char} {v : Value} (hText : Reads text v) (name : String)
    {n : Nat} (hn : text.length ≤ n) (rest : List Char) :
    readFields false (fun _ => false) (n + 1) (field name text ++ '}' :: rest) =
      some ([(name, v)], rest) := by
  have hTail : NoNumber ('}' :: rest) := by
    intro c hc
    cases hc
    rfl
  rw [readFields_field hText name hn hTail, separator_close (by decide) (by decide)]
  rfl

/-- A field that others follow. -/
theorem readFields_more {text : List Char} {v : Value} (hText : Reads text v) (name : String)
    {n : Nat} (hn : text.length ≤ n) {more rest : List Char} {fs : List (String × Value)}
    (hMore : readFields false (fun _ => false) n more = some (fs, rest)) :
    readFields false (fun _ => false) (n + 1) (field name text ++ ',' :: more) =
      some ((name, v) :: fs, rest) := by
  have hTail : NoNumber (',' :: more) := by
    intro c hc
    cases hc
    rfl
  rw [readFields_field hText name hn hTail, separator_comma, Option.bind_eq_bind, Option.bind_some]
  dsimp only
  rw [if_pos rfl, hMore]
  rfl

/-- A field is longer than its value, so the value can be read with the fuel
that is left. -/
theorem length_field (name : String) (text : List Char) :
    text.length < (field name text).length := by
  rw [field, List.length_append, List.length_cons]
  omega

/-- All the fields of an object, by induction on them. -/
theorem readFields_fields {fs : List (String × List Char)} {vs : List (String × Value)}
    (h : List.Forall₂ ReadsField fs vs) (hNe : fs ≠ []) {n : Nat} (hn : (fields fs).length ≤ n)
    (rest : List Char) :
    readFields false (fun _ => false) n (fields fs ++ '}' :: rest) = some (vs, rest) := by
  induction h generalizing n with
  -- (there is at least one field)
  | nil => exact absurd rfl hNe
  | @cons f v fs vs hField hFields ih =>
    obtain ⟨name, text⟩ := f
    obtain ⟨_, value⟩ := v
    obtain ⟨rfl, hValue⟩ := hField
    have hLonger : text.length < (field name text).length := length_field name text
    cases hFields with
    | nil =>
      -- the last field
      replace hn : (field name text).length ≤ n := hn
      obtain ⟨n, rfl⟩ := Nat.exists_eq_succ_of_ne_zero (show n ≠ 0 by omega)
      have hFuel : text.length ≤ n := by omega
      exact readFields_last hValue name hFuel rest
    | @cons f₂ v₂ fs₂ vs₂ hSecond hOthers =>
      -- a field, a comma, and the others
      rw [show fields ((name, text) :: f₂ :: fs₂) = field name text ++ ',' :: fields (f₂ :: fs₂)
        from rfl] at hn ⊢
      rw [List.length_append, List.length_cons] at hn
      obtain ⟨n, rfl⟩ := Nat.exists_eq_succ_of_ne_zero (show n ≠ 0 by omega)
      rw [List.append_assoc, List.cons_append]
      have hFuel : text.length ≤ n := by omega
      have hMore := ih (List.cons_ne_nil f₂ fs₂) (show (fields (f₂ :: fs₂)).length ≤ n by omega)
      exact readFields_more hValue name hFuel hMore

/-- **Objects.** -/
theorem reads_object {fs : List (String × List Char)} {vs : List (String × Value)}
    (h : List.Forall₂ ReadsField fs vs) : Reads (object fs) (.obj vs) := by
  intro n rest hn _
  rw [object, List.length_append, List.length_cons] at hn
  obtain ⟨n, rfl⟩ := Nat.exists_eq_succ_of_ne_zero (show n ≠ 0 by omega)
  rw [object, List.append_assoc, List.cons_append, readValue, skipWs_cons (by decide)]
  dsimp only
  rw [if_neg (by decide), if_pos rfl]
  cases h with
  | nil => rfl
  | @cons f v fs vs hField hFields =>
    -- the first field is not the closing brace
    have hFirst : expect '}' (fields (f :: fs) ++ (['}'] ++ rest)) = none := by
      obtain ⟨name, text⟩ := f
      cases fs <;> exact expect_ne (by decide) (by decide) _
    have hRead := readFields_fields (.cons hField hFields) (List.cons_ne_nil f fs)
      (show (fields (f :: fs)).length ≤ n by omega) rest
    rw [hFirst]
    show (readFields false (fun _ => false) n (fields (f :: fs) ++ '}' :: rest)).map _ = _
    rw [hRead]
    rfl

/-- A serialised value is the value of its text. -/
theorem parse_of_reads {text : List Char} {v : Value} (h : Reads text v) :
    parse (String.ofList text) = some v := by
  have hValue := h (text.length + 1) [] (Nat.le_succ _) (by intro c hc; cases hc)
  rw [List.append_nil] at hValue
  rw [parse, String.toList_ofList, hValue]
  rfl

end Sigchat.Lib.Json

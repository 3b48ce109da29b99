import Mathlib.Algebra.Order.Ring.Int
import Mathlib.Data.List.Basic

/-!
# Text as bytes, and numbers as text

The string operations the programs of this development share with their
standard library: UTF-8 encoding and checked decoding, slicing at a byte
index, decimal rendering and parsing of machine integers, white
space trimming.

The lemmas say that encoding is injective and undone by decoding, that
decimal rendering is injective and uses digits only (so that a separator that
is not a digit can be found again), and that parsing undoes rendering.
-/

namespace Sigchat.Lib

abbrev Bytes := List UInt8

-- ---------------------------------------------------------------------------
-- UTF-8
-- ---------------------------------------------------------------------------

/-- The UTF-8 bytes of a string. -/
def utf8 (s : String) : Bytes := s.toByteArray.data.toList

/-- A `str` of the program: an allocation has at most `isize::MAX` bytes. -/
structure Str where
  val : String
  size_lt : val.utf8ByteSize < 2 ^ 63

/-- `String::from_utf8`: the string with these bytes, if they are UTF-8. -/
def fromUtf8 (bs : Bytes) : Option String := String.fromUTF8? ⟨bs.toArray⟩

theorem utf8_injective {s t : String} (h : utf8 s = utf8 t) : s = t := by
  apply String.toByteArray_inj.mp
  apply ByteArray.ext
  exact Array.toList_inj.mp h

@[simp] theorem utf8_inj {s t : String} : utf8 s = utf8 t ↔ s = t :=
  ⟨utf8_injective, congrArg utf8⟩

@[simp] theorem length_utf8 (s : String) : (utf8 s).length = s.utf8ByteSize := rfl

@[simp] theorem fromUtf8_utf8 (s : String) : fromUtf8 (utf8 s) = some s := by
  have h : (⟨(utf8 s).toArray⟩ : ByteArray) = s.toByteArray := by
    simp [utf8]
  unfold fromUtf8 String.fromUTF8?
  rw [h, dif_pos s.isValidUTF8]
  rfl

/-- What is read as a text is its encoding, byte by byte. -/
theorem utf8_of_fromUtf8 {bs : Bytes} {s : String} (h : fromUtf8 bs = some s) : utf8 s = bs := by
  unfold fromUtf8 String.fromUTF8? at h
  split at h
  · obtain rfl := Option.some.inj h
    rfl
  · cases h

theorem utf8_append (s t : String) : utf8 (s ++ t) = utf8 s ++ utf8 t := by
  simp [utf8]

/-- Valid bytes after valid ones. -/
theorem isValidUTF8_utf8Encode_append_iff {b : ByteArray} (cs : List Char) :
    (cs.utf8Encode ++ b).IsValidUTF8 ↔ b.IsValidUTF8 := by
  induction cs with
  | nil => rw [List.utf8Encode_nil, ByteArray.empty_append]
  | cons c cs ih =>
    rw [List.utf8Encode_cons, ByteArray.append_assoc,
      ByteArray.isValidUTF8_utf8Encode_singleton_append_iff, ih]

/-- A text with bytes behind it is text if they are. -/
theorem fromUtf8_utf8_append (s : String) (rest : Bytes) :
    fromUtf8 (utf8 s ++ rest) = (fromUtf8 rest).map (s ++ ·) := by
  rcases hRest : fromUtf8 rest with _ | t
  · have hBytes : (⟨(utf8 s ++ rest).toArray⟩ : ByteArray) =
        s.toList.utf8Encode ++ ⟨rest.toArray⟩ := by
      apply ByteArray.ext
      simp [utf8, String.utf8Encode_toList]
    unfold fromUtf8 String.fromUTF8? at hRest ⊢
    rw [hBytes, dif_neg, Option.map_none]
    rw [isValidUTF8_utf8Encode_append_iff]
    intro hValid
    rw [dif_pos hValid] at hRest
    cases hRest
  · rw [← utf8_of_fromUtf8 hRest, ← utf8_append, fromUtf8_utf8, Option.map_some]

/-- Characters of one byte each are encoded one by one. -/
theorem utf8_ofList {cs : List Char} (h : ∀ c ∈ cs, c.utf8Size = 1) :
    utf8 (String.ofList cs) = cs.map fun c => c.val.toUInt8 := by
  have hBytes : (String.ofList cs).toByteArray =
      (cs.map fun c => c.val.toUInt8).toByteArray := by
    rw [String.toByteArray_ofList]
    induction cs with
    | nil => rfl
    | cons c cs ih =>
      rw [List.utf8Encode_cons, List.utf8Encode_singleton,
        String.utf8EncodeChar_eq_singleton (h c List.mem_cons_self),
        ih fun d hd => h d (List.mem_cons_of_mem _ hd), ← List.toByteArray_append]
      rfl
  rw [utf8, hBytes, List.toList_data_toByteArray]

theorem utf8ByteSize_ofList {cs : List Char} (h : ∀ c ∈ cs, c.utf8Size = 1) :
    (String.ofList cs).utf8ByteSize = cs.length := by
  rw [← length_utf8, utf8_ofList h, List.length_map]

/-- The bytes of a text are those of its characters. -/
theorem utf8ByteSize_ofList_eq_sum (cs : List Char) :
    (String.ofList cs).utf8ByteSize = (cs.map Char.utf8Size).sum := by
  induction cs with
  | nil => rfl
  | cons c cs ih =>
    rw [← List.singleton_append, String.ofList_append, String.utf8ByteSize_append, ih,
      ← String.singleton_eq_ofList, String.utf8ByteSize_singleton, List.singleton_append,
      List.map_cons, List.sum_cons]

/-- Their first bytes are their first characters. -/
theorem take_utf8 {s : String} (h : ∀ c ∈ s.toList, c.utf8Size = 1) (n : Nat) :
    (utf8 s).take n = utf8 (String.ofList (s.toList.take n)) := by
  rw [utf8_ofList fun c hc => h c (List.mem_of_mem_take hc), List.map_take, ← utf8_ofList h,
    String.ofList_toList]

/-- The characters whose encodings make up exactly the first `n` bytes, if
there are such characters. -/
def sliceChars : Nat → List Char → Option (List Char)
  | 0, _ => some []
  | _ + 1, [] => none
  | n + 1, c :: cs =>
    if c.utf8Size ≤ n + 1 then (sliceChars (n + 1 - c.utf8Size) cs).map (c :: ·) else none

/-- Rust's `&s[..n]`: `none`, where it panics, means that byte index `n` is not
on a character boundary. -/
def sliceTo (s : String) (n : Nat) : Option String := (sliceChars n s.toList).map String.ofList

-- ---------------------------------------------------------------------------
-- Decimal numbers
-- ---------------------------------------------------------------------------

/-- The decimal rendering of an unsigned integer (`format!("{}", n)`). -/
def decimal (n : Nat) : String := Nat.repr n

@[simp] theorem toList_decimal (n : Nat) : (decimal n).toList = Nat.toDigits 10 n :=
  Nat.toList_repr

theorem isDigit_of_mem_decimal {n : Nat} {c : Char} (h : c ∈ (decimal n).toList) :
    c.isDigit = true := by
  rw [toList_decimal] at h
  exact Nat.isDigit_of_mem_toDigits (by decide) (by decide) h

theorem decimal_injective {m n : Nat} (h : decimal m = decimal n) : m = n := by
  have hl := congrArg (fun s => Nat.ofDigitChars 10 s.toList 0) h
  simpa using hl

@[simp] theorem decimal_inj {m n : Nat} : decimal m = decimal n ↔ m = n :=
  ⟨decimal_injective, congrArg decimal⟩

/-- A character that is no digit does not occur in a decimal number. -/
theorem not_mem_decimal {c : Char} (hc : c.isDigit = false) (n : Nat) :
    c ∉ (decimal n).toList := fun h => by
  rw [isDigit_of_mem_decimal h] at hc
  exact absurd hc (by decide)

/-- A number of at most `k` digits takes at most `k` bytes. -/
theorem utf8ByteSize_decimal_le {n k : Nat} (hk : 0 < k) (hn : n < 10 ^ k) :
    (decimal n).utf8ByteSize ≤ k := by
  have hSize : ∀ c ∈ (decimal n).toList, c.utf8Size = 1 := by
    intro c hc
    have hDigit := isDigit_of_mem_decimal hc
    simp only [Char.isDigit, Bool.and_eq_true, decide_eq_true_eq] at hDigit
    exact Char.utf8Size_eq_one_iff.mpr (UInt32.le_trans hDigit.2 (by decide))
  have hLength : (decimal n).utf8ByteSize = (Nat.toDigits 10 n).length := by
    rw [← length_utf8, ← toList_decimal, ← String.ofList_toList (s := decimal n),
      utf8_ofList hSize, List.length_map, String.ofList_toList]
  rw [hLength]
  exact (Nat.length_toDigits_le_iff (by decide) hk).mpr hn

/-- The value of a non-empty string of decimal digits. -/
def parseDigits (cs : List Char) : Option Nat :=
  if cs ≠ [] ∧ cs.all Char.isDigit then some (Nat.ofDigitChars 10 cs 0) else none

theorem parseDigits_decimal (n : Nat) : parseDigits (decimal n).toList = some n := by
  have hne : (decimal n).toList ≠ [] := by simp [Nat.toDigits_ne_nil]
  have hall : (decimal n).toList.all Char.isDigit = true :=
    List.all_eq_true.mpr fun c hc => isDigit_of_mem_decimal hc
  rw [parseDigits, if_pos ⟨hne, hall⟩, toList_decimal, Nat.ofDigitChars_ten_toDigits]

/-- `str::parse` for an unsigned type with largest value `maxValue`: an
optional plus sign, digits, and no overflow. -/
def parseUnsigned (maxValue : Nat) (s : String) : Option Nat :=
  let digits := match s.toList with
    | '+' :: cs => cs
    | cs => cs
  (parseDigits digits).filter (· ≤ maxValue)

/-- `str::parse::<u32>`. -/
def parseU32 (s : String) : Option Nat := parseUnsigned (2 ^ 32 - 1) s

/-- `str::parse::<i64>`. -/
def parseI64 (s : String) : Option Int :=
  match s.toList with
  | '-' :: cs => ((parseDigits cs).filter (· ≤ 2 ^ 63)).map fun n => -(n : Int)
  | '+' :: cs => ((parseDigits cs).filter (· < 2 ^ 63)).map Int.ofNat
  | cs => ((parseDigits cs).filter (· < 2 ^ 63)).map Int.ofNat

/-- `str::parse::<bool>`. -/
def parseBool (s : String) : Option Bool :=
  if s = "true" then some true else if s = "false" then some false else none

theorem parseUnsigned_decimal {maxValue n : Nat} (hn : n ≤ maxValue) :
    parseUnsigned maxValue (decimal n) = some n := by
  unfold parseUnsigned
  split
  · rename_i cs heq
    exact absurd (heq ▸ List.mem_cons_self) (not_mem_decimal (by decide : '+'.isDigit = false) n)
  · simp only [parseDigits_decimal]
    simp [hn]

/-- After a plus sign the digits are read as without one. -/
theorem parseUnsigned_signed {maxValue : Nat} {s : String} {digits : List Char}
    (h : s.toList = '+' :: digits) :
    parseUnsigned maxValue s = (parseDigits digits).filter (· ≤ maxValue) := by
  unfold parseUnsigned
  split
  · rename_i cs hSign
    rw [h] at hSign
    rw [(List.cons.inj hSign).2]
  · rename_i hNone
    exact absurd h (hNone digits)

/-- Without a sign all of the text is digits. -/
theorem parseUnsigned_plain {maxValue : Nat} {s : String} (h : s.toList.head? ≠ some '+') :
    parseUnsigned maxValue s = (parseDigits s.toList).filter (· ≤ maxValue) := by
  unfold parseUnsigned
  split
  · rename_i cs hSign
    rw [hSign] at h
    exact absurd rfl h
  · rfl

theorem isDigit_of_parseDigits {cs : List Char} {n : Nat} (h : parseDigits cs = some n) :
    ∀ c ∈ cs, c.isDigit = true := by
  unfold parseDigits at h
  split_ifs at h with hDigits
  exact List.all_eq_true.mp hDigits.2

/-- Digits do not begin with a sign. -/
theorem head_ne_plus {cs : List Char} (h : ∀ c ∈ cs, c.isDigit = true) : cs.head? ≠ some '+' := by
  intro hHead
  have hDigit := h '+' (List.mem_of_mem_head? hHead)
  exact absurd hDigit (by decide)

theorem parseU32_decimal {n : Nat} (hn : n < 2 ^ 32) : parseU32 (decimal n) = some n :=
  parseUnsigned_decimal (by omega)

-- ---------------------------------------------------------------------------
-- Separators
-- ---------------------------------------------------------------------------

/-- What precedes the first occurrence of a separator, and what follows it,
are determined by the list. -/
theorem append_cons_inj_first {α : Type} {c : α} {xs ys us vs : List α} (hx : c ∉ xs)
    (hy : c ∉ ys) (h : xs ++ c :: us = ys ++ c :: vs) : xs = ys ∧ us = vs := by
  induction xs generalizing ys with
  | nil =>
    -- each of the two ends at its first separator
    cases ys with
    | nil => simpa using h
    | cons y ys =>
      rw [List.nil_append, List.cons_append, List.cons.injEq] at h
      exact absurd (h.1 ▸ List.mem_cons_self) hy
  | cons x xs ih =>
    cases ys with
    | nil =>
      rw [List.nil_append, List.cons_append, List.cons.injEq] at h
      exact absurd (h.1 ▸ List.mem_cons_self) hx
    | cons y ys =>
      rw [List.cons_append, List.cons_append, List.cons.injEq] at h
      obtain ⟨hxs, hus⟩ := ih (fun hm => hx (List.mem_cons_of_mem _ hm))
        (fun hm => hy (List.mem_cons_of_mem _ hm)) h.2
      exact ⟨by rw [h.1, hxs], hus⟩

/-- In a text the last occurrence of a separator does the same: read it
backwards. -/
theorem split_at_last {s s' t t' : String} {c : Char} (ht : c ∉ t.toList) (ht' : c ∉ t'.toList)
    (h : s ++ String.singleton c ++ t = s' ++ String.singleton c ++ t') : s = s' ∧ t = t' := by
  have hl := congrArg (fun u : String => u.toList.reverse) h
  simp only [String.toList_append, String.toList_singleton, List.append_assoc,
    List.singleton_append, List.reverse_append, List.reverse_cons] at hl
  obtain ⟨h1, h2⟩ := append_cons_inj_first (by simpa using ht) (by simpa using ht') hl
  exact ⟨String.toList_inj.mp (List.reverse_inj.mp h2),
    String.toList_inj.mp (List.reverse_inj.mp h1)⟩

/-- `find` of a substring: what is in front of its first occurrence, and what
follows it. -/
def splitAtFirst (pat : List Char) : List Char → Option (List Char × List Char)
  | [] => if pat = [] then some ([], []) else none
  | c :: cs =>
    if pat.isPrefixOf (c :: cs) then some ([], (c :: cs).drop pat.length)
    else (splitAtFirst pat cs).map fun (before, after) => (c :: before, after)

/-- A pattern that comes first is found at once. -/
theorem splitAtFirst_append {pat : List Char} (hPat : pat ≠ []) (rest : List Char) :
    splitAtFirst pat (pat ++ rest) = some ([], rest) := by
  obtain ⟨c, cs, rfl⟩ := List.exists_cons_of_ne_nil hPat
  have hHere : (c :: cs).isPrefixOf (c :: (cs ++ rest)) = true :=
    List.isPrefixOf_iff_prefix.mpr (List.prefix_append (c :: cs) rest)
  rw [List.cons_append, splitAtFirst, if_pos hHere]
  exact congrArg (fun after => some ([], after)) List.drop_left

/-- For a separator of one character. -/
theorem splitAtFirst_singleton {c : Char} {cs before after : List Char} :
    splitAtFirst [c] cs = some (before, after) ↔ c ∉ before ∧ cs = before ++ c :: after := by
  induction cs generalizing before with
  | nil =>
    rw [splitAtFirst, if_neg (List.cons_ne_nil c [])]
    constructor
    · intro h
      cases h
    · rintro ⟨-, h⟩
      exact absurd h.symm (List.append_ne_nil_of_right_ne_nil before (List.cons_ne_nil c after))
  | cons d cs ih =>
    -- the separator is here, or it is further on
    by_cases hHere : d = c
    · subst hHere
      have hSplit : splitAtFirst [d] (d :: cs) = some ([], cs) :=
        splitAtFirst_append (List.cons_ne_nil d []) cs
      rw [hSplit]
      constructor
      · intro h
        obtain ⟨rfl, rfl⟩ := Prod.mk.inj (Option.some.inj h)
        exact ⟨List.not_mem_nil, rfl⟩
      · rintro ⟨hFree, hEq⟩
        obtain ⟨rfl, rfl⟩ := append_cons_inj_first List.not_mem_nil hFree hEq
        rfl
    · have hNot : ¬[c].isPrefixOf (d :: cs) = true := by
        rw [List.isPrefixOf_iff_prefix, List.cons_prefix_cons]
        exact fun h => hHere h.1.symm
      rw [splitAtFirst, if_neg hNot]
      constructor
      · intro h
        obtain ⟨⟨before', after'⟩, hRest, hEq⟩ := Option.map_eq_some_iff.mp h
        obtain ⟨rfl, rfl⟩ := Prod.mk.inj hEq
        obtain ⟨hFree, rfl⟩ := ih.mp hRest
        exact ⟨List.not_mem_cons_of_ne_of_not_mem (fun h => hHere h.symm) hFree, rfl⟩
      · rintro ⟨hFree, hEq⟩
        cases before with
        | nil => exact absurd (List.cons.inj hEq).1 hHere
        | cons b before =>
          obtain ⟨rfl, rfl⟩ := List.cons.inj hEq
          have hRest := ih.mpr ⟨fun h => hFree (List.mem_cons_of_mem _ h), rfl⟩
          rw [hRest]
          rfl

-- ---------------------------------------------------------------------------
-- White space
-- ---------------------------------------------------------------------------

/-- Unicode's White_Space property, which `str::trim` strips. -/
def isWhiteSpace (c : Char) : Bool :=
  let n := c.toNat
  (0x09 ≤ n && n ≤ 0x0D) || n == 0x20 || n == 0x85 || n == 0xA0 || n == 0x1680 ||
    (0x2000 ≤ n && n ≤ 0x200A) || n == 0x2028 || n == 0x2029 || n == 0x202F ||
    n == 0x205F || n == 0x3000

/-- `str::trim`. -/
def trim (s : String) : String :=
  String.ofList ((s.toList.dropWhile isWhiteSpace).reverse.dropWhile isWhiteSpace).reverse

/-- Where there is no white space none is trimmed. -/
theorem trim_of_forall {s : String} (h : ∀ c ∈ s.toList, isWhiteSpace c = false) : trim s = s := by
  have hDrop {cs : List Char} (hcs : ∀ c ∈ cs, isWhiteSpace c = false) :
      cs.dropWhile isWhiteSpace = cs := by
    cases cs with
    | nil => rfl
    | cons c cs => exact List.dropWhile_cons_of_neg (by simp [hcs c List.mem_cons_self])
  rw [trim, hDrop h, hDrop fun c hc => h c (List.mem_reverse.mp hc), List.reverse_reverse,
    String.ofList_toList]

/-- No white space is trimmed off a number. -/
theorem trim_decimal (n : Nat) : trim (decimal n) = decimal n := by
  refine trim_of_forall fun c hc => ?_
  have hDigit := isDigit_of_mem_decimal hc
  simp only [Char.isDigit, Bool.and_eq_true, decide_eq_true_eq] at hDigit
  obtain ⟨hLow, hHigh⟩ := hDigit
  have hLow' : 48 ≤ c.toNat := UInt32.le_iff_toNat_le.mp hLow
  have hHigh' : c.toNat ≤ 57 := UInt32.le_iff_toNat_le.mp hHigh
  simp only [isWhiteSpace, Bool.or_eq_false_iff, Bool.and_eq_false_iff, decide_eq_false_iff_not,
    beq_eq_false_iff_ne]
  omega

end Sigchat.Lib

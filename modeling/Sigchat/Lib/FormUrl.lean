import Sigchat.Lib.JsonRead

/-!
# Form encoding

`application/x-www-form-urlencoded`, the query of a URL. Names and values are
escaped byte by byte: a letter, a digit and `*`, `-`, `.`, `_` stand for
themselves, a space is a plus sign, and every other byte is `%` with two
upper-case digits. Neither `&` nor `=` is left over, so that pairs can be
joined by the one and their parts by the other.

* `parse_serialize` — a reader gets back the pairs.
-/

namespace Sigchat.Lib.FormUrl

open Sigchat.Lib
open Sigchat.Lib.Json (hexVal)

-- ---------------------------------------------------------------------------
-- Writing
-- ---------------------------------------------------------------------------

def upperDigit (n : Nat) : Char := if n < 10 then Char.ofNat (48 + n) else Char.ofNat (55 + n)

/-- The characters that stand for themselves. -/
def isKept (c : Char) : Bool := c.isAlphanum || c = '*' || c = '-' || c = '.' || c = '_'

def escapeByte (b : UInt8) : List Char :=
  if b = 0x20 then ['+']
  else if isKept (Char.ofNat b.toNat) then [Char.ofNat b.toNat]
  else ['%', upperDigit (b.toNat / 16), upperDigit (b.toNat % 16)]

def escape (s : String) : List Char := (utf8 s).flatMap escapeByte

def writePair (pair : String × String) : List Char := escape pair.1 ++ '=' :: escape pair.2

def serialize (pairs : List (String × String)) : List Char :=
  ['&'].intercalate (pairs.map writePair)

-- ---------------------------------------------------------------------------
-- Reading
-- ---------------------------------------------------------------------------

/-- A byte that is one character. -/
def plainByte (c : Char) : Option UInt8 :=
  if c = '+' then some 0x20
  else if c ≠ '%' ∧ c.toNat < 128 then some (UInt8.ofNat c.toNat)
  else none

def hexByte (high low : Char) : Option UInt8 := do
  let high ← hexVal high
  let low ← hexVal low
  return UInt8.ofNat (high * 16 + low)

def unescape : List Char → Option Bytes
  | [] => some []
  | '%' :: high :: low :: cs => do return (← hexByte high low) :: (← unescape cs)
  | c :: cs => do return (← plainByte c) :: (← unescape cs)

def readText (cs : List Char) : Option String := (unescape cs).bind fromUtf8

def readPair (cs : List Char) : Option (String × String) := do
  let (name, value) ← splitAtFirst ['='] cs
  return (← readText name, ← readText value)

/-- The pairs of a query that is not empty. -/
def parse (cs : List Char) : Option (List (String × String)) := (cs.splitOn '&').mapM readPair

-- ---------------------------------------------------------------------------
-- Round trip
-- ---------------------------------------------------------------------------

theorem hexVal_upperDigit {n : Nat} (hn : n < 16) : hexVal (upperDigit n) = some n := by
  have hAll : ∀ n < 16, hexVal (upperDigit n) = some n := by decide
  exact hAll n hn

/-- A byte that stands for itself is a character of its own number, and not one
of the reader's. -/
theorem plainByte_kept {b : UInt8} (h : isKept (Char.ofNat b.toNat) = true) :
    plainByte (Char.ofNat b.toNat) = some b ∧ Char.ofNat b.toNat ≠ '%' := by
  have hAll : ∀ n < 256, isKept (Char.ofNat n) = true →
      plainByte (Char.ofNat n) = some (UInt8.ofNat n) ∧ Char.ofNat n ≠ '%' := by
    decide +kernel
  have hKept := hAll b.toNat b.toNat_lt h
  rwa [UInt8.ofNat_toNat] at hKept

/-- Two digits are read as their byte. -/
theorem hexByte_upperDigit (b : UInt8) :
    hexByte (upperDigit (b.toNat / 16)) (upperDigit (b.toNat % 16)) = some b := by
  have hb := b.toNat_lt
  have hByte : b.toNat / 16 * 16 + b.toNat % 16 = b.toNat := by omega
  rw [hexByte, hexVal_upperDigit (by omega), hexVal_upperDigit (by omega)]
  show some (UInt8.ofNat (b.toNat / 16 * 16 + b.toNat % 16)) = some b
  rw [hByte, UInt8.ofNat_toNat]

theorem unescape_plain {c : Char} {b : UInt8} (hPlain : plainByte c = some b) (hc : c ≠ '%')
    (cs : List Char) : unescape (c :: cs) = (unescape cs).map (b :: ·) := by
  rw [unescape.eq_3 c cs fun _ _ _ h _ => hc h, hPlain]
  show (unescape cs >>= fun bs => some (b :: bs)) = _
  rw [Option.map_eq_bind]
  rfl

/-- A byte that has been escaped is read back, whatever follows it. -/
theorem unescape_escapeByte (b : UInt8) (cs : List Char) :
    unescape (escapeByte b ++ cs) = (unescape cs).map (b :: ·) := by
  unfold escapeByte
  split_ifs with hSpace hKept
  · subst hSpace
    exact unescape_plain rfl (by decide) cs
  · obtain ⟨hPlain, hc⟩ := plainByte_kept hKept
    exact unescape_plain hPlain hc cs
  · show unescape ('%' :: upperDigit (b.toNat / 16) :: upperDigit (b.toNat % 16) :: cs) = _
    rw [unescape, hexByte_upperDigit, Option.map_eq_bind]
    rfl

theorem unescape_flatMap (bs : Bytes) : unescape (bs.flatMap escapeByte) = some bs := by
  induction bs with
  | nil => rfl
  | cons b bs ih =>
    rw [List.flatMap_cons, unescape_escapeByte, ih]
    rfl

theorem readText_escape (s : String) : readText (escape s) = some s := by
  rw [readText, escape, unescape_flatMap, Option.bind_some, fromUtf8_utf8]

/-- The separators are escaped. -/
theorem separators_escape (s : String) : '&' ∉ escape s ∧ '=' ∉ escape s := by
  have hAll : ∀ n < 256, '&' ∉ escapeByte (UInt8.ofNat n) ∧ '=' ∉ escapeByte (UInt8.ofNat n) := by
    decide +kernel
  have hByte (b : UInt8) : '&' ∉ escapeByte b ∧ '=' ∉ escapeByte b := by
    have h := hAll b.toNat b.toNat_lt
    rwa [UInt8.ofNat_toNat] at h
  simp only [escape, List.mem_flatMap, not_exists, not_and]
  exact ⟨fun b _ => (hByte b).1, fun b _ => (hByte b).2⟩

/-- **Round trip** of a pair. -/
theorem readPair_writePair (pair : String × String) : readPair (writePair pair) = some pair := by
  have hSplit : splitAtFirst ['='] (writePair pair) = some (escape pair.1, escape pair.2) :=
    splitAtFirst_singleton.mpr ⟨(separators_escape pair.1).2, rfl⟩
  rw [readPair, hSplit]
  show (readText (escape pair.1) >>= fun name => readText (escape pair.2) >>= fun value =>
    some (name, value)) = some pair
  rw [readText_escape, readText_escape]
  rfl

/-- What separates pairs occurs in none. -/
theorem not_mem_writePair (pair : String × String) : '&' ∉ writePair pair := by
  have hName := (separators_escape pair.1).1
  have hValue := (separators_escape pair.2).1
  rw [writePair, List.mem_append, List.mem_cons]
  rintro (h | h | h)
  · exact hName h
  · exact absurd h (by decide)
  · exact hValue h

/-- **Round trip.** A reader gets back the pairs of a query. -/
theorem parse_serialize {pairs : List (String × String)} (hNe : pairs ≠ []) :
    parse (serialize pairs) = some pairs := by
  have hFree : ∀ cs ∈ pairs.map writePair, '&' ∉ cs := by
    intro cs hMem
    obtain ⟨pair, -, rfl⟩ := List.mem_map.mp hMem
    exact not_mem_writePair pair
  -- splitting undoes joining, since no pair has the separator
  have hSplit : (serialize pairs).splitOn '&' = pairs.map writePair :=
    List.splitOn_intercalate '&' hFree (mt List.map_eq_nil_iff.mp hNe)
  rw [parse, hSplit]
  clear hNe hFree hSplit
  induction pairs with
  | nil => rfl
  | cons pair pairs ih =>
    rw [List.map_cons, List.mapM_cons, readPair_writePair, ih]
    rfl

end Sigchat.Lib.FormUrl

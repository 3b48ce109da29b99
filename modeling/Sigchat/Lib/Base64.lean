import Mathlib.Data.List.DropRight
import Sigchat.Lib.Text

/-!
# Base64

Encoding over an arbitrary 64-character alphabet, and the strict decoder: no
padding character, no stray bits after the last byte. An alphabet carries the
proof that its reverse table undoes it, so `decode_encode` holds for all of
them; with padding (`decodePadded_encodePadded`) `=` must not be one of its
characters.
-/

namespace Sigchat.Lib.Base64

open Sigchat.Lib

/-- A 64-character alphabet with its reverse table. -/
structure Alphabet where
  chr : Nat → Char
  val : Char → Option Nat
  val_chr : ∀ n, n < 64 → val (chr n) = some n

private def urlSafeChr (n : Nat) : Char :=
  if n < 26 then Char.ofNat (65 + n)
  else if n < 52 then Char.ofNat (71 + n)
  else if n < 62 then Char.ofNat (n - 4)
  else if n = 62 then '-'
  else '_'

private def urlSafeVal (c : Char) : Option Nat :=
  if c.isUpper then some (c.toNat - 65)
  else if c.isLower then some (c.toNat - 71)
  else if c.isDigit then some (c.toNat + 4)
  else if c = '-' then some 62
  else if c = '_' then some 63
  else none

/-- The URL-safe alphabet: `-` and `_` for the last two digits. -/
def urlSafe : Alphabet where
  chr := urlSafeChr
  val := urlSafeVal
  val_chr := by decide

private def standardChr (n : Nat) : Char :=
  if n = 62 then '+' else if n = 63 then '/' else urlSafeChr n

private def standardVal (c : Char) : Option Nat :=
  if c = '+' then some 62
  else if c = '/' then some 63
  else if c = '-' ∨ c = '_' then none
  else urlSafeVal c

/-- The standard alphabet: `+` and `/` for the last two digits. -/
def standard : Alphabet where
  chr := standardChr
  val := standardVal
  val_chr := by decide

variable (al : Alphabet)

def encodeChars : Bytes → List Char
  | [] => []
  | [a] => [al.chr (a.toNat / 4), al.chr (a.toNat % 4 * 16)]
  | [a, b] =>
    [al.chr (a.toNat / 4), al.chr (a.toNat % 4 * 16 + b.toNat / 16), al.chr (b.toNat % 16 * 4)]
  | a :: b :: c :: rest =>
    al.chr (a.toNat / 4) :: al.chr (a.toNat % 4 * 16 + b.toNat / 16) ::
      al.chr (b.toNat % 16 * 4 + c.toNat / 64) :: al.chr (c.toNat % 64) :: encodeChars rest

def decodeChars : List Char → Option Bytes
  | [] => some []
  | [_] => none
  | [x, y] => do
    let a ← al.val x
    let b ← al.val y
    if b % 16 = 0 then some [UInt8.ofNat (a * 4 + b / 16)] else none
  | [x, y, z] => do
    let a ← al.val x
    let b ← al.val y
    let c ← al.val z
    if c % 4 = 0 then
      some [UInt8.ofNat (a * 4 + b / 16), UInt8.ofNat (b % 16 * 16 + c / 4)]
    else none
  | x :: y :: z :: w :: rest => do
    let a ← al.val x
    let b ← al.val y
    let c ← al.val z
    let d ← al.val w
    let bs ← decodeChars rest
    some (UInt8.ofNat (a * 4 + b / 16) :: UInt8.ofNat (b % 16 * 16 + c / 4) ::
      UInt8.ofNat (c % 4 * 64 + d) :: bs)

def encode (bs : Bytes) : String := String.ofList (encodeChars al bs)

def decode (s : String) : Option Bytes := decodeChars al s.toList

private theorem ofNat_of_toNat_eq {b : UInt8} {n : Nat} (h : n = b.toNat) : UInt8.ofNat n = b := by
  rw [h, UInt8.ofNat_toNat]

/-- The decoder inverts the encoder, group by group: one and two bytes at the
end, three before it. -/
theorem decodeChars_encodeChars (bs : Bytes) : decodeChars al (encodeChars al bs) = some bs := by
  induction bs using encodeChars.induct with
  | case1 => rfl
  -- one byte is left: two characters
  | case2 a =>
    have ha := a.toNat_lt
    simp only [encodeChars, decodeChars]
    rw [al.val_chr _ (by omega), al.val_chr _ (by omega)]
    simp only [Option.bind_eq_bind, Option.bind_some]
    rw [if_pos (by omega), ofNat_of_toNat_eq (b := a) (by omega)]
  -- two bytes are left: three characters
  | case3 a b =>
    have ha := a.toNat_lt
    have hb := b.toNat_lt
    simp only [encodeChars, decodeChars]
    rw [al.val_chr _ (by omega), al.val_chr _ (by omega), al.val_chr _ (by omega)]
    simp only [Option.bind_eq_bind, Option.bind_some]
    rw [if_pos (by omega), ofNat_of_toNat_eq (b := a) (by omega),
      ofNat_of_toNat_eq (b := b) (by omega)]
  -- a full group, and what follows it
  | case4 a b c rest ih =>
    have ha := a.toNat_lt
    have hb := b.toNat_lt
    have hc := c.toNat_lt
    simp only [encodeChars, decodeChars]
    rw [al.val_chr _ (by omega), al.val_chr _ (by omega), al.val_chr _ (by omega),
      al.val_chr _ (by omega), ih]
    simp only [Option.bind_eq_bind, Option.bind_some]
    rw [ofNat_of_toNat_eq (b := a) (by omega), ofNat_of_toNat_eq (b := b) (by omega),
      ofNat_of_toNat_eq (b := c) (by omega)]

theorem decode_encode (bs : Bytes) : decode al (encode al bs) = some bs := by
  rw [decode, encode, String.toList_ofList, decodeChars_encodeChars]

theorem encode_injective {bs cs : Bytes} (h : encode al bs = encode al cs) : bs = cs := by
  have := congrArg (decode al) h
  rwa [decode_encode, decode_encode, Option.some.injEq] at this

/-- How many characters there are, without padding. -/
theorem length_encodeChars (bs : Bytes) :
    (encodeChars al bs).length = (4 * bs.length + 2) / 3 := by
  induction bs using encodeChars.induct with
  | case1 => rfl
  | case2 a => simp [encodeChars]
  | case3 a b => simp [encodeChars]
  | case4 a b c rest ih =>
    simp only [encodeChars, List.length_cons, ih]
    omega

-- ---------------------------------------------------------------------------
-- The characters of an encoding
-- ---------------------------------------------------------------------------

/-- All that is written is of the alphabet. -/
theorem exists_chr_of_mem {bs : Bytes} {c : Char} (h : c ∈ encodeChars al bs) :
    ∃ n, n < 64 ∧ c = al.chr n := by
  induction bs using encodeChars.induct with
  | case1 => exact absurd h List.not_mem_nil
  | case2 a =>
    have ha := a.toNat_lt
    simp only [encodeChars, List.mem_cons, List.not_mem_nil, or_false] at h
    rcases h with rfl | rfl <;> exact ⟨_, by omega, rfl⟩
  | case3 a b =>
    have ha := a.toNat_lt
    have hb := b.toNat_lt
    simp only [encodeChars, List.mem_cons, List.not_mem_nil, or_false] at h
    rcases h with rfl | rfl | rfl <;> exact ⟨_, by omega, rfl⟩
  -- the four characters of the group, or one of those that follow
  | case4 a b c' rest ih =>
    have ha := a.toNat_lt
    have hb := b.toNat_lt
    have hc := c'.toNat_lt
    simp only [encodeChars, List.mem_cons] at h
    rcases h with rfl | rfl | rfl | rfl | hRest
    · exact ⟨_, by omega, rfl⟩
    · exact ⟨_, by omega, rfl⟩
    · exact ⟨_, by omega, rfl⟩
    · exact ⟨_, by omega, rfl⟩
    · exact ih hRest

-- ---------------------------------------------------------------------------
-- Padding
-- ---------------------------------------------------------------------------

/-- How many characters are missing to a multiple of four. -/
def padLength (len : Nat) : Nat := (4 - len % 4) % 4

def encodePadded (bs : Bytes) : String :=
  String.ofList (encodeChars al bs ++ List.replicate (padLength (encodeChars al bs).length) '=')

/-- The decoder that insists on the padding. -/
def decodePadded (s : String) : Option Bytes :=
  let chars := s.toList.rdropWhile (· = '=')
  if s.toList.length = chars.length + padLength chars.length then decodeChars al chars else none

/-- Taking the padding off again takes nothing else off a text that has no `=`.
-/
theorem rdropWhile_replicate {cs : List Char} (h : '=' ∉ cs) (n : Nat) :
    (cs ++ List.replicate n '=').rdropWhile (· = '=') = cs := by
  induction n with
  | zero =>
    rw [List.replicate_zero, List.append_nil, List.rdropWhile_eq_self_iff]
    intro hNil hLast
    exact h (of_decide_eq_true hLast ▸ List.getLast_mem hNil)
  | succ n ih =>
    rw [List.replicate_succ', ← List.append_assoc, List.rdropWhile_concat_pos _ _ _ (by decide), ih]

variable {al} in
/-- **Round trip** with padding, for an alphabet that has no `=`. -/
theorem decodePadded_encodePadded (hPad : ∀ n < 64, al.chr n ≠ '=') (bs : Bytes) :
    decodePadded al (encodePadded al bs) = some bs := by
  have hChars : '=' ∉ encodeChars al bs := fun h => by
    obtain ⟨n, hn, hEq⟩ := exists_chr_of_mem al h
    exact hPad n hn hEq.symm
  rw [decodePadded, encodePadded, String.toList_ofList, rdropWhile_replicate hChars]
  rw [if_pos (by rw [List.length_append, List.length_replicate]), decodeChars_encodeChars]

theorem standard_chr_ne {n : Nat} (hn : n < 64) : standard.chr n ≠ '=' := by
  have hAll : ∀ n < 64, standard.chr n ≠ '=' := by decide
  exact hAll n hn

/-- With the padding, every three bytes that are begun take four. -/
theorem utf8ByteSize_encodePadded (bs : Bytes) :
    (encodePadded standard bs).utf8ByteSize = 4 * ((bs.length + 2) / 3) := by
  have hAscii : ∀ n < 64, (standard.chr n).utf8Size = 1 := by decide
  rw [encodePadded, utf8ByteSize_ofList, List.length_append, List.length_replicate,
    length_encodeChars, padLength]
  · omega
  · intro c hc
    rcases List.mem_append.mp hc with hChar | hPad
    · obtain ⟨n, hn, rfl⟩ := exists_chr_of_mem standard hChar
      exact hAscii n hn
    · rw [List.eq_of_mem_replicate hPad]
      rfl

/-- Four characters encode three bytes, whatever follows. -/
theorem take_encodeChars (n : Nat) (bs : Bytes) :
    (encodeChars al bs).take (4 * n) = encodeChars al (bs.take (3 * n)) := by
  induction n generalizing bs with
  | zero => simp [encodeChars]
  | succ n ih =>
    rw [Nat.mul_add, Nat.mul_add]
    match bs with
    | [] => rfl
    | [a] => rfl
    | [a, b] => rfl
    | a :: b :: c :: rest =>
      simp only [Nat.mul_one, encodeChars, List.take_succ_cons, ih]

/-- The URL-safe alphabet is ASCII and has no white space. -/
theorem urlSafe_chr {n : Nat} (hn : n < 64) :
    (urlSafe.chr n).utf8Size = 1 ∧ isWhiteSpace (urlSafe.chr n) = false := by
  have hAll : ∀ n < 64,
      (urlSafe.chr n).utf8Size = 1 ∧ isWhiteSpace (urlSafe.chr n) = false := by decide
  exact hAll n hn

theorem mem_encode_urlSafe {bs : Bytes} {c : Char} (h : c ∈ (encode urlSafe bs).toList) :
    c.utf8Size = 1 ∧ isWhiteSpace c = false := by
  rw [encode, String.toList_ofList] at h
  obtain ⟨n, hn, rfl⟩ := exists_chr_of_mem urlSafe h
  exact urlSafe_chr hn

theorem trim_encode_urlSafe (bs : Bytes) : trim (encode urlSafe bs) = encode urlSafe bs :=
  trim_of_forall fun _ hc => (mem_encode_urlSafe hc).2

/-- The first bytes of an encoding encode the first bytes. -/
theorem take_utf8_encode_urlSafe (n : Nat) (bs : Bytes) :
    (utf8 (encode urlSafe bs)).take (4 * n) = utf8 (encode urlSafe (bs.take (3 * n))) := by
  rw [take_utf8 fun _ hc => (mem_encode_urlSafe hc).1, encode, encode, String.toList_ofList,
    take_encodeChars]

end Sigchat.Lib.Base64

import Mathlib.Data.List.Basic
import Sigchat.Lib.Text

/-!
# JSON texts

What a compact serialiser emits: a string between quotes, with quotes,
backslashes and control characters escaped, and the fields of an object in
their order. A quote ends a string that is read without regard to escapes
exactly where the original text has its first quote (`dropWhile_quoted`).
-/

namespace Sigchat.Lib.Json

/-- A digit of a lower-case hexadecimal number. -/
def hexDigit (n : Nat) : Char := if n < 10 then Char.ofNat (48 + n) else Char.ofNat (87 + n)

/-- Control characters without a short escape are written with four digits. -/
def escape (c : Char) : List Char :=
  if c = '"' then ['\\', '"']
  else if c = '\\' then ['\\', '\\']
  else if c.toNat = 8 then ['\\', 'b']
  else if c = '\t' then ['\\', 't']
  else if c = '\n' then ['\\', 'n']
  else if c.toNat = 12 then ['\\', 'f']
  else if c = '\r' then ['\\', 'r']
  else if c.toNat < 32 then ['\\', 'u', '0', '0', hexDigit (c.toNat / 16), hexDigit (c.toNat % 16)]
  else [c]

def escapeAll (cs : List Char) : List Char := cs.flatMap escape

/-- A string value. -/
def quote (s : String) : List Char := '"' :: escapeAll s.toList ++ ['"']

def bool : Bool → List Char
  | true => ['t', 'r', 'u', 'e']
  | false => ['f', 'a', 'l', 's', 'e']

def number (n : Nat) : List Char := (decimal n).toList

/-- A string or `null`. -/
def optional : Option String → List Char
  | some s => quote s
  | none => ['n', 'u', 'l', 'l']

/-- A field of an object; its value is serialised. -/
def field (name : String) (value : List Char) : List Char := quote name ++ ':' :: value

def fields : List (String × List Char) → List Char
  | [] => []
  | [(name, value)] => field name value
  | (name, value) :: f :: fs => field name value ++ ',' :: fields (f :: fs)

def object (fs : List (String × List Char)) : List Char := '{' :: fields fs ++ ['}']

-- ---------------------------------------------------------------------------
-- Quotes
-- ---------------------------------------------------------------------------

theorem hexDigit_ne_quote {n : Nat} (hn : n < 16) : hexDigit n ≠ '"' := by
  have hAll : ∀ n < 16, hexDigit n ≠ '"' := by decide
  exact hAll n hn

/-- Escaping makes no quotes. -/
theorem quote_not_mem_escape {c : Char} (h : c ≠ '"') : '"' ∉ escape c := by
  unfold escape
  rw [if_neg h]
  split_ifs with _ _ _ _ _ _ hControl
  all_goals try decide
  · have hHigh : c.toNat / 16 < 16 := by omega
    have hLow : c.toNat % 16 < 16 := by omega
    simp [(hexDigit_ne_quote hHigh).symm, (hexDigit_ne_quote hLow).symm]
  · simpa using h.symm

theorem escapeAll_cons (c : Char) (cs : List Char) :
    escapeAll (c :: cs) = escape c ++ escapeAll cs := List.flatMap_cons

theorem escapeAll_append (cs ds : List Char) :
    escapeAll (cs ++ ds) = escapeAll cs ++ escapeAll ds := List.flatMap_append

theorem quote_not_mem_escapeAll {cs : List Char} (h : '"' ∉ cs) : '"' ∉ escapeAll cs := by
  intro hMem
  obtain ⟨c, hc, hQuote⟩ := List.mem_flatMap.mp hMem
  exact quote_not_mem_escape (fun hEq => h (hEq ▸ hc)) hQuote

/-- A text without quotes ends at the first one. -/
theorem dropWhile_append {cs : List Char} (h : '"' ∉ cs) (rest : List Char) :
    (cs ++ '"' :: rest).dropWhile (· ≠ '"') = '"' :: rest := by
  induction cs with
  | nil => rfl
  | cons c cs ih =>
    have hc : c ≠ '"' := fun hEq => h (hEq ▸ List.mem_cons_self)
    rw [List.cons_append, List.dropWhile_cons, if_pos (decide_eq_true hc)]
    exact ih fun hMem => h (List.mem_cons_of_mem c hMem)

/-- A string without quotes ends at its closing quote. -/
theorem dropWhile_quoted {cs : List Char} (h : '"' ∉ cs) (rest : List Char) :
    (escapeAll cs ++ '"' :: rest).dropWhile (· ≠ '"') = '"' :: rest :=
  dropWhile_append (quote_not_mem_escapeAll h) rest

/-- Otherwise what follows its first quote is kept. -/
theorem dropWhile_quoted_of_mem {cs : List Char} (h : '"' ∈ cs) (rest : List Char) :
    ∃ tail, (escapeAll cs ++ '"' :: rest).dropWhile (· ≠ '"') =
      '"' :: (escapeAll tail ++ '"' :: rest) := by
  obtain ⟨init, tail, rfl, hInit⟩ := List.eq_append_cons_of_mem h
  have hFront : '"' ∉ escapeAll init ++ ['\\'] := by
    rw [List.mem_append, not_or]
    exact ⟨quote_not_mem_escapeAll hInit, by decide⟩
  have hSplit : escapeAll (init ++ '"' :: tail) ++ '"' :: rest =
      (escapeAll init ++ ['\\']) ++ '"' :: (escapeAll tail ++ '"' :: rest) := by
    have hEscape : escape '"' = ['\\', '"'] := rfl
    simp only [escapeAll_append, escapeAll_cons, hEscape, List.append_assoc, List.cons_append,
      List.nil_append]
  exact ⟨tail, by rw [hSplit, dropWhile_append hFront]⟩

end Sigchat.Lib.Json

import Sigchat.Lib.Text

/-!
# The protobuf wire format

Encoding and decoding of the wire format, independent of any schema: base-128
varints of at most ten bytes, field keys, the six wire types, skipped groups
with their recursion limit.

A message type is given by a merge function that folds one parsed field into
the value read so far (`decodeMessage`), and by the fields its encoder emits
(`encodeFields`). A decoder that merges while it reads and one that first
splits the input into fields accept the same inputs with the same result: an
error anywhere rejects the whole message, so the order in which a malformed
key, a truncated payload and a mismatched wire type are noticed does not
matter.

`parseFields_encodeFields` is the round trip every schema's own round trip is
proved from.
-/

namespace Sigchat.Lib.Wire

open Sigchat.Lib

-- ---------------------------------------------------------------------------
-- Varints
-- ---------------------------------------------------------------------------

def encodeVarintLoop : Nat → Nat → Bytes
  | 0, _ => []
  | fuel + 1, v =>
    if v < 0x80 then [UInt8.ofNat v]
    else UInt8.ofNat (v % 0x80 + 0x80) :: encodeVarintLoop fuel (v / 0x80)

/-- Seven bits a byte, least significant first, at most ten bytes. -/
def encodeVarint (v : Nat) : Bytes := encodeVarintLoop 10 v

def decodeVarintLoop : Nat → Bytes → Option (Nat × Bytes)
  | 0, _ => none
  | _ + 1, [] => none
  | fuel + 1, b :: bs =>
    if b.toNat < 0x80 then
      -- the tenth byte holds the top bit of a 64-bit value only
      if fuel = 0 ∧ 2 ≤ b.toNat then none else some (b.toNat, bs)
    else do
      let (v, rest) ← decodeVarintLoop fuel bs
      some (b.toNat - 0x80 + 0x80 * v, rest)

def decodeVarint (bs : Bytes) : Option (Nat × Bytes) := decodeVarintLoop 10 bs

/-- The loop reads back what the loop of the encoder has written, by induction
on the bytes that are left. -/
theorem decodeVarintLoop_encode (fuel : Nat) {v : Nat} (hv : v < 2 * 128 ^ fuel) (rest : Bytes) :
    decodeVarintLoop (fuel + 1) (encodeVarintLoop (fuel + 1) v ++ rest) = some (v, rest) := by
  induction fuel generalizing v with
  -- the tenth byte has one bit of a 64-bit value left
  | zero =>
    have hv2 : v < 2 := by simpa using hv
    have hb : (UInt8.ofNat v).toNat = v := by
      rw [UInt8.toNat_ofNat']
      omega
    rw [encodeVarintLoop, if_pos (by omega), List.singleton_append, decodeVarintLoop, hb,
      if_pos (by omega), if_neg (by omega)]
  | succ fuel ih =>
    -- the last byte, or one with the bit that says that more follow
    by_cases hsmall : v < 0x80
    · have hb : (UInt8.ofNat v).toNat = v := by
        rw [UInt8.toNat_ofNat']
        omega
      rw [encodeVarintLoop, if_pos hsmall, List.singleton_append, decodeVarintLoop, hb,
        if_pos hsmall, if_neg (by omega)]
    · have hb : (UInt8.ofNat (v % 0x80 + 0x80)).toNat = v % 0x80 + 0x80 := by
        rw [UInt8.toNat_ofNat']
        omega
      have hdiv : v / 0x80 < 2 * 128 ^ fuel := by
        rw [Nat.div_lt_iff_lt_mul (by omega)]
        rw [Nat.pow_succ] at hv
        omega
      rw [encodeVarintLoop, if_neg hsmall, List.cons_append, decodeVarintLoop, hb,
        if_neg (by omega), ih hdiv]
      simp only [Option.bind_eq_bind, Option.bind_some, Option.some.injEq, Prod.mk.injEq, and_true]
      omega

theorem decodeVarint_encodeVarint {v : Nat} (hv : v < 2 ^ 64) (rest : Bytes) :
    decodeVarint (encodeVarint v ++ rest) = some (v, rest) :=
  decodeVarintLoop_encode 9 (by simpa using hv) rest

/-- The encoder writes no more bytes than it may. -/
theorem length_encodeVarintLoop (fuel v : Nat) : (encodeVarintLoop fuel v).length ≤ fuel := by
  induction fuel generalizing v with
  | zero => simp [encodeVarintLoop]
  | succ fuel ih =>
    rw [encodeVarintLoop]
    split
    · simp
    · simpa using ih (v / 0x80)

theorem length_encodeVarint (v : Nat) : (encodeVarint v).length ≤ 10 :=
  length_encodeVarintLoop 10 v

theorem length_encodeVarint_one {v : Nat} (hv : v < 0x80) : (encodeVarint v).length = 1 := by
  rw [encodeVarint, encodeVarintLoop, if_pos hv]
  rfl

theorem length_encodeVarint_two {v : Nat} (hLow : 0x80 ≤ v) (hHigh : v < 0x80 * 0x80) :
    (encodeVarint v).length = 2 := by
  rw [encodeVarint, encodeVarintLoop, if_neg (by omega), encodeVarintLoop, if_pos (by omega)]
  rfl

theorem length_encodeVarint_pos (v : Nat) : 0 < (encodeVarint v).length := by
  rw [encodeVarint, encodeVarintLoop]
  split <;> simp

theorem encodeVarint_ne_nil (v : Nat) : encodeVarint v ≠ [] :=
  List.ne_nil_of_length_pos (length_encodeVarint_pos v)

-- ---------------------------------------------------------------------------
-- Fields
-- ---------------------------------------------------------------------------

/-- The payload of a field, by wire type. The content of a group is skipped
and not kept. -/
inductive Value where
  | varint (v : Nat)
  | fixed64 (bs : Bytes)
  | bytes (bs : Bytes)
  | group
  | fixed32 (bs : Bytes)
  deriving DecidableEq

structure Field where
  tag : Nat
  value : Value
  deriving DecidableEq

/-- Tag and wire type of the next field. -/
def decodeKey (bs : Bytes) : Option (Nat × Nat × Bytes) := do
  let (key, rest) ← decodeVarint bs
  if 2 ^ 32 ≤ key ∨ 5 < key % 8 ∨ key / 8 = 0 then none else some (key / 8, key % 8, rest)

def takeBytes (n : Nat) (bs : Bytes) : Option (Bytes × Bytes) :=
  if n ≤ bs.length then some (bs.take n, bs.drop n) else none

/-- Skip to the end of the group `tag`. `limit` is what is left of the
recursion limit, `fuel` bounds the bytes still to be read. -/
def skipGroup : Nat → Nat → Nat → Bytes → Option Bytes
  | 0, _, _, _ => none
  | fuel + 1, limit, tag, bs => do
    let (inner, wireType, rest) ← decodeKey bs
    if wireType = 4 then
      if inner = tag then some rest else none
    else if limit ≤ 1 then none
    else do
      let rest' ← match wireType with
        | 0 => (decodeVarint rest).map Prod.snd
        | 1 => (takeBytes 8 rest).map Prod.snd
        | 2 => (decodeVarint rest).bind fun (n, r) => (takeBytes n r).map Prod.snd
        | 3 => skipGroup fuel (limit - 1) inner rest
        | _ => (takeBytes 4 rest).map Prod.snd
      skipGroup fuel limit tag rest'

def parseField (limit : Nat) (bs : Bytes) : Option (Field × Bytes) := do
  let (tag, wireType, rest) ← decodeKey bs
  match wireType with
  | 0 => (decodeVarint rest).map fun (v, r) => (⟨tag, .varint v⟩, r)
  | 1 => (takeBytes 8 rest).map fun (b, r) => (⟨tag, .fixed64 b⟩, r)
  | 2 => (decodeVarint rest).bind fun (n, r) =>
      (takeBytes n r).map fun (b, r') => (⟨tag, .bytes b⟩, r')
  | 3 => (skipGroup rest.length limit tag rest).map fun r => (⟨tag, .group⟩, r)
  | 5 => (takeBytes 4 rest).map fun (b, r) => (⟨tag, .fixed32 b⟩, r)
  | _ => none

def parseFieldsLoop (limit : Nat) : Nat → Bytes → Option (List Field)
  | _, [] => some []
  | 0, _ :: _ => none
  | fuel + 1, b :: bs => do
    let (f, rest) ← parseField limit (b :: bs)
    let fs ← parseFieldsLoop limit fuel rest
    some (f :: fs)

/-- The fields of a message, in the order they occur. -/
def parseFields (limit : Nat) (bs : Bytes) : Option (List Field) :=
  parseFieldsLoop limit bs.length bs

/-- How deep messages and groups may nest. -/
def recursionLimit : Nat := 100

/-- Decode a message by merging its fields one after the other. -/
def decodeMessage {α : Type} (merge : α → Field → Option α) (limit : Nat) (init : α) (bs : Bytes) :
    Option α := do
  let fs ← parseFields limit bs
  fs.foldlM merge init

-- ---------------------------------------------------------------------------
-- Encoding
-- ---------------------------------------------------------------------------

/-- Encoders emit varints and length-delimited payloads only. -/
def encodeField (f : Field) : Bytes :=
  match f.value with
  | .varint v => encodeVarint (f.tag * 8) ++ encodeVarint v
  | .bytes bs => encodeVarint (f.tag * 8 + 2) ++ encodeVarint bs.length ++ bs
  | _ => []

def encodeFields (fs : List Field) : Bytes := fs.flatMap encodeField

/-- A field an encoder can emit and a decoder reads back. -/
def Field.Encodable (f : Field) : Prop :=
  0 < f.tag ∧ f.tag < 2 ^ 29 ∧
    match f.value with
    | .varint v => v < 2 ^ 64
    | .bytes bs => bs.length < 2 ^ 64
    | _ => False

theorem encodable_varint {tag v : Nat} (ht : 0 < tag ∧ tag < 2 ^ 29) (hv : v < 2 ^ 64) :
    Field.Encodable ⟨tag, .varint v⟩ := ⟨ht.1, ht.2, hv⟩

theorem encodable_bytes {tag : Nat} {bs : Bytes} (ht : 0 < tag ∧ tag < 2 ^ 29)
    (hbs : bs.length < 2 ^ 64) : Field.Encodable ⟨tag, .bytes bs⟩ := ⟨ht.1, ht.2, hbs⟩

/-- The key of a field gives its tag and its wire type. -/
theorem decodeKey_encodeVarint {tag wireType : Nat} (ht : 0 < tag) (ht' : tag < 2 ^ 29)
    (hw : wireType ≤ 5) (rest : Bytes) :
    decodeKey (encodeVarint (tag * 8 + wireType) ++ rest) = some (tag, wireType, rest) := by
  rw [decodeKey, decodeVarint_encodeVarint (by omega)]
  simp only [Option.bind_eq_bind, Option.bind_some]
  rw [if_neg (by omega)]
  congr 2
  · omega
  · congr 1
    omega

/-- **Round trip** of a field. Only the two wire types that are written can be
read back. -/
theorem parseField_encodeField {f : Field} (hf : f.Encodable) (limit : Nat) (rest : Bytes) :
    parseField limit (encodeField f ++ rest) = some (f, rest) := by
  obtain ⟨tag, value⟩ := f
  obtain ⟨ht, ht', hv⟩ := hf
  cases value with
  | varint v =>
    have hkey := decodeKey_encodeVarint ht ht' (Nat.zero_le 5) (encodeVarint v ++ rest)
    simp only [Nat.add_zero] at hkey
    simp only [parseField, encodeField, List.append_assoc, hkey, Option.bind_eq_bind,
      Option.bind_some, decodeVarint_encodeVarint hv, Option.map_some]
  | bytes bs =>
    have hkey := decodeKey_encodeVarint ht ht' (by decide : 2 ≤ 5)
      (encodeVarint bs.length ++ (bs ++ rest))
    -- the length says where the bytes end
    have htake : takeBytes bs.length (bs ++ rest) = some (bs, rest) := by
      rw [takeBytes, if_pos (by simp), List.take_left, List.drop_left]
    simp only [parseField, encodeField, List.append_assoc, hkey, Option.bind_eq_bind,
      Option.bind_some, decodeVarint_encodeVarint hv, htake, Option.map_some]
  | fixed64 _ => exact hv.elim
  | group => exact hv.elim
  | fixed32 _ => exact hv.elim

/-- A field takes at least one byte. -/
theorem encodeField_ne_nil {f : Field} (hf : f.Encodable) : encodeField f ≠ [] := by
  obtain ⟨tag, value⟩ := f
  cases value with
  | varint v => simp [encodeField, encodeVarint_ne_nil]
  | bytes bs => simp [encodeField, encodeVarint_ne_nil]
  | fixed64 _ => exact hf.2.2.elim
  | group => exact hf.2.2.elim
  | fixed32 _ => exact hf.2.2.elim

/-- **Round trip** of a message, by induction on its fields. -/
theorem parseFieldsLoop_encodeFields {limit : Nat} (fs : List Field) {fuel : Nat}
    (hfs : ∀ f ∈ fs, f.Encodable) (hfuel : (encodeFields fs).length ≤ fuel) :
    parseFieldsLoop limit fuel (encodeFields fs) = some fs := by
  induction fs generalizing fuel with
  | nil => cases fuel <;> rfl
  | cons f fs ih =>
    have hf := hfs f List.mem_cons_self
    have hne := encodeField_ne_nil hf
    have hcons : encodeFields (f :: fs) = encodeField f ++ encodeFields fs := rfl
    rw [hcons] at hfuel ⊢
    -- the first field takes at least one byte off the fuel
    obtain ⟨b, bs, hb⟩ : ∃ b bs, encodeField f ++ encodeFields fs = b :: bs := by
      cases hE : encodeField f with
      | nil => exact absurd hE hne
      | cons b bs => exact ⟨b, bs ++ encodeFields fs, rfl⟩
    have hpos : 0 < (encodeField f).length := List.length_pos_of_ne_nil hne
    rw [List.length_append] at hfuel
    obtain ⟨fuel, rfl⟩ : ∃ k, fuel = k + 1 := ⟨fuel - 1, by omega⟩
    rw [hb, parseFieldsLoop, ← hb, parseField_encodeField hf]
    simp only [Option.bind_eq_bind, Option.bind_some]
    rw [ih (fun g hg => hfs g (List.mem_cons_of_mem _ hg)) (by omega)]
    rfl

/-- **Wire round trip.** Parsing undoes encoding. -/
theorem parseFields_encodeFields {limit : Nat} {fs : List Field} (hfs : ∀ f ∈ fs, f.Encodable) :
    parseFields limit (encodeFields fs) = some fs :=
  parseFieldsLoop_encodeFields fs hfs (Nat.le_refl _)

/-- A schema's round trip: merging the emitted fields into the empty message
gives the message back. -/
theorem decodeMessage_encodeFields {α : Type} {merge : α → Field → Option α} {limit : Nat}
    {init a : α} {fs : List Field} (hfs : ∀ f ∈ fs, f.Encodable)
    (hmerge : fs.foldlM merge init = some a) :
    decodeMessage merge limit init (encodeFields fs) = some a := by
  rw [decodeMessage, parseFields_encodeFields hfs]
  exact hmerge

/-- The length of a message is the sum of those of its fields. -/
theorem length_encodeFields_cons (f : Field) (fs : List Field) :
    (encodeFields (f :: fs)).length = (encodeField f).length + (encodeFields fs).length := by
  rw [encodeFields, List.flatMap_cons, List.length_append]
  rfl

theorem length_encodeField_varint (tag v : Nat) :
    (encodeField ⟨tag, .varint v⟩).length ≤ 20 := by
  have h1 := length_encodeVarint (tag * 8)
  have h2 := length_encodeVarint v
  simp only [encodeField, List.length_append]
  omega

/-- A byte string takes twenty more than it has. -/
theorem length_encodeField_bytes (tag : Nat) (bs : Bytes) :
    (encodeField ⟨tag, .bytes bs⟩).length ≤ bs.length + 20 := by
  have h1 := length_encodeVarint (tag * 8 + 2)
  have h2 := length_encodeVarint bs.length
  simp only [encodeField, List.length_append]
  omega

-- ---------------------------------------------------------------------------
-- Field types
-- ---------------------------------------------------------------------------

/-- The readers of the field types; a payload of another wire type is refused. -/
def Value.toUInt64 : Value → Option UInt64
  | .varint v => some (UInt64.ofNat v)
  | _ => none

/-- The upper half of a longer varint is dropped. -/
def Value.toUInt32 : Value → Option UInt32
  | .varint v => some (UInt32.ofNat v)
  | _ => none

def Value.toInt32 : Value → Option Int
  | .varint v => some (Int.bmod v (2 ^ 32))
  | _ => none

def Value.toBool : Value → Option Bool
  | .varint v => some (v != 0)
  | _ => none

def Value.toBytes : Value → Option Bytes
  | .bytes bs => some bs
  | _ => none

def Value.toText (v : Value) : Option String := v.toBytes.bind fromUtf8

/-- An embedded message is merged into the value the field has already. -/
def Value.toMessage {α : Type} (merge : Nat → α → Field → Option α) (limit : Nat) (current : α)
    (v : Value) : Option α := do
  let bs ← v.toBytes
  if limit = 0 then none else decodeMessage (merge (limit - 1)) (limit - 1) current bs

/-- The fields an optional member is encoded as. -/
def uint64Field (tag : Nat) (x : Option UInt64) : List Field :=
  x.toList.map fun v => ⟨tag, .varint v.toNat⟩

def uint32Field (tag : Nat) (x : Option UInt32) : List Field :=
  x.toList.map fun v => ⟨tag, .varint v.toNat⟩

/-- A negative number is sign-extended to 64 bits. -/
def int32Field (tag : Nat) (x : Option Int) : List Field :=
  x.toList.map fun v => ⟨tag, .varint (v % 2 ^ 64).toNat⟩

def boolField (tag : Nat) (x : Option Bool) : List Field :=
  x.toList.map fun b => ⟨tag, .varint b.toNat⟩

def bytesField (tag : Nat) (x : Option Bytes) : List Field :=
  x.toList.map fun bs => ⟨tag, .bytes bs⟩

def textField (tag : Nat) (x : Option String) : List Field :=
  bytesField tag (x.map utf8)

def messageField (tag : Nat) (x : Option (List Field)) : List Field :=
  bytesField tag (x.map encodeFields)

-- ---------------------------------------------------------------------------
-- Emitted fields
-- ---------------------------------------------------------------------------

/-- A field of an encoder, before the message's length is known. -/
def Field.Emitted (f : Field) : Prop :=
  0 < f.tag ∧ f.tag < 2 ^ 29 ∧
    match f.value with
    | .varint v => v < 2 ^ 64
    | .bytes _ => True
    | _ => False

/-- No field is longer than its message. -/
theorem length_encodeField_le {f : Field} {fs : List Field} (hf : f ∈ fs) :
    (encodeField f).length ≤ (encodeFields fs).length := by
  induction fs with
  | nil => exact absurd hf List.not_mem_nil
  | cons g fs ih =>
    rw [length_encodeFields_cons]
    rcases List.mem_cons.mp hf with rfl | hf
    · omega
    · have := ih hf
      omega

/-- In a message that is not too long every field can be read back. -/
theorem encodable_of_emitted {fs : List Field} (hfs : ∀ f ∈ fs, f.Emitted)
    (hLen : (encodeFields fs).length < 2 ^ 64) : ∀ f ∈ fs, f.Encodable := by
  intro f hf
  have hField := length_encodeField_le hf
  obtain ⟨ht, ht', hv⟩ := hfs f hf
  obtain ⟨tag, value⟩ := f
  cases value with
  | varint v => exact ⟨ht, ht', hv⟩
  | bytes bs =>
    simp only [encodeField, List.length_append] at hField
    exact encodable_bytes ⟨ht, ht'⟩ (by omega)
  | fixed64 _ => exact hv.elim
  | group => exact hv.elim
  | fixed32 _ => exact hv.elim

section Emitted

variable {tag : Nat} (ht : 0 < tag ∧ tag < 2 ^ 29)

include ht

/-- A 64-bit number is written as a field of a kind the encoder writes. -/
theorem emitted_uint64Field (x : Option UInt64) : ∀ f ∈ uint64Field tag x, f.Emitted := by
  cases x with
  | none => simp [uint64Field]
  | some v => simpa [uint64Field] using ⟨ht.1, ht.2, v.toNat_lt⟩

theorem emitted_uint32Field (x : Option UInt32) : ∀ f ∈ uint32Field tag x, f.Emitted := by
  cases x with
  | none => simp [uint32Field]
  | some v =>
    have hv : v.toNat < 2 ^ 64 := Nat.lt_trans v.toNat_lt (by decide)
    simpa [uint32Field] using ⟨ht.1, ht.2, hv⟩

theorem emitted_int32Field (x : Option Int) : ∀ f ∈ int32Field tag x, f.Emitted := by
  cases x with
  | none => simp [int32Field]
  | some v =>
    have hv : (v % 2 ^ 64).toNat < 2 ^ 64 := by omega
    simpa [int32Field] using ⟨ht.1, ht.2, hv⟩

theorem emitted_boolField (x : Option Bool) : ∀ f ∈ boolField tag x, f.Emitted := by
  cases x with
  | none => simp [boolField]
  | some b =>
    have hb : b.toNat < 2 ^ 64 := Nat.lt_of_le_of_lt b.toNat_le (by decide)
    simpa [boolField] using ⟨ht.1, ht.2, hb⟩

theorem emitted_bytesField (x : Option Bytes) : ∀ f ∈ bytesField tag x, f.Emitted := by
  cases x with
  | none => simp [bytesField]
  | some bs => simpa [bytesField] using ⟨ht.1, ht.2, trivial⟩

theorem emitted_map_bytes (xs : List String) :
    ∀ f ∈ xs.map fun h => (⟨tag, .bytes (utf8 h)⟩ : Field), f.Emitted := by
  intro f hf
  obtain ⟨h, _, rfl⟩ := List.mem_map.mp hf
  exact ⟨ht.1, ht.2, trivial⟩

end Emitted

/-- Merging the elements of a repeated text member one by one appends them, if
merging one does. -/
theorem foldlM_repeatedText {M : Type} {tag : Nat} {merge : M → Field → Option M}
    (elements : M → List String) (withElements : M → List String → M)
    (hMerge : ∀ m x, merge m ⟨tag, .bytes (utf8 x)⟩ = some (withElements m (elements m ++ [x])))
    (hElements : ∀ m xs, elements (withElements m xs) = xs)
    (hTwice : ∀ m xs ys, withElements (withElements m xs) ys = withElements m ys)
    (hSame : ∀ m, withElements m (elements m) = m) (xs : List String) (m : M) :
    (xs.map fun x => (⟨tag, .bytes (utf8 x)⟩ : Field)).foldlM merge m =
      some (withElements m (elements m ++ xs)) := by
  induction xs generalizing m with
  | nil => simp [hSame]
  | cons x xs ih =>
    rw [List.map_cons, List.foldlM_cons, hMerge, Option.bind_eq_bind, Option.bind_some, ih,
      hElements, hTwice, List.append_assoc, List.singleton_append]

/-- Merging an optional member sets it. `set` puts a value in its place. -/
theorem foldlM_optional {M α : Type} {merge : M → Field → Option M} {mk : α → Field}
    (set : M → Option α → M) (hMerge : ∀ m x, merge m (mk x) = some (set m (some x))) {m : M}
    (hNone : set m none = m) (x : Option α) :
    (x.toList.map mk).foldlM merge m = some (set m x) := by
  cases x with
  | none => exact congrArg some hNone.symm
  | some v =>
    rw [Option.toList_some, List.map_singleton, List.foldlM_cons, hMerge]
    rfl

/-- Merging an optional text into a message. -/
theorem foldlM_textField {M : Type} {merge : M → Field → Option M} {tag : Nat}
    (set : M → Option String → M)
    (hMerge : ∀ m x, merge m ⟨tag, .bytes x⟩ = (fromUtf8 x).map fun t => set m (some t)) {m : M}
    (hNone : set m none = m) (x : Option String) :
    (textField tag x).foldlM merge m = some (set m x) := by
  rw [textField, bytesField, Option.toList_map, List.map_map]
  refine foldlM_optional set (fun m t => ?_) hNone x
  rw [Function.comp_apply, hMerge, fromUtf8_utf8, Option.map_some]

theorem foldlM_uint64Field {M : Type} {merge : M → Field → Option M} {tag : Nat}
    (set : M → Option UInt64 → M)
    (hMerge : ∀ m v, merge m ⟨tag, .varint v⟩ = some (set m (some (UInt64.ofNat v)))) {m : M}
    (hNone : set m none = m) (x : Option UInt64) :
    (uint64Field tag x).foldlM merge m = some (set m x) :=
  foldlM_optional set (fun m v => by rw [hMerge, UInt64.ofNat_toNat]) hNone x

theorem foldlM_uint32Field {M : Type} {merge : M → Field → Option M} {tag : Nat}
    (set : M → Option UInt32 → M)
    (hMerge : ∀ m v, merge m ⟨tag, .varint v⟩ = some (set m (some (UInt32.ofNat v)))) {m : M}
    (hNone : set m none = m) (x : Option UInt32) :
    (uint32Field tag x).foldlM merge m = some (set m x) :=
  foldlM_optional set (fun m v => by rw [hMerge, UInt32.ofNat_toNat]) hNone x

/-- Merging an optional embedded message sets what it decodes to. -/
theorem foldlM_messageField {M A B : Type} {merge : M → Field → Option M}
    {mergeMember : Nat → A → Field → Option A} {tag limit : Nat} {init : A}
    {fields : B → List Field} {read : B → A} (set : M → Option A → M) {m : M}
    (hMerge : ∀ v, merge m ⟨tag, v⟩ =
      (v.toMessage mergeMember (limit + 1) init).map fun a => set m (some a))
    (hNone : set m none = m) {x : Option B}
    (hDecode : ∀ b, x = some b → decodeMessage (mergeMember limit) limit init
      (encodeFields (fields b)) = some (read b)) :
    (messageField tag (x.map fields)).foldlM merge m = some (set m (x.map read)) := by
  cases x with
  | none => exact congrArg some hNone.symm
  | some b =>
    have hMember : (Value.bytes (encodeFields (fields b))).toMessage mergeMember (limit + 1) init =
        some (read b) := by
      rw [← hDecode b rfl]
      rfl
    rw [messageField, bytesField, Option.map_some, Option.map_some, Option.toList_some,
      List.map_singleton, List.foldlM_cons, hMerge, hMember]
    rfl

/-- The values of an `int32` member. -/
def IsInt32 (v : Int) : Prop := -2 ^ 31 ≤ v ∧ v < 2 ^ 31

/-- An `int32` member is read back as it was. -/
theorem toInt32_of_isInt32 {v : Int} (hv : IsInt32 v) :
    Value.toInt32 (.varint (v % 0x10000000000000000).toNat) = some v := by
  simp only [Value.toInt32, Option.some.injEq]
  obtain ⟨hMin, hMax⟩ := hv
  rw [Int.bmod_def]
  omega

/-- Merging an optional signed number, which is in range. -/
theorem foldlM_int32Field {M : Type} {merge : M → Field → Option M} {tag : Nat}
    (set : M → Option Int → M)
    (hMerge : ∀ m v, merge m ⟨tag, v⟩ = v.toInt32.map fun x => set m (some x)) {m : M}
    (hNone : set m none = m) {x : Option Int} (hx : ∀ v, x = some v → IsInt32 v) :
    (int32Field tag x).foldlM merge m = some (set m x) := by
  cases x with
  | none => exact congrArg some hNone.symm
  | some v =>
    have hRead := toInt32_of_isInt32 (hx v rfl)
    rw [int32Field, Option.toList_some, List.map_singleton, List.foldlM_cons, hMerge]
    exact congrArg (fun y => (y.map fun x => set m (some x)) >>= pure) hRead

/-- A member is no longer than the message around it. -/
theorem length_bytesField_le (tag : Nat) {bs : Bytes} {gs : List Field}
    (h : bytesField tag (some bs) ⊆ gs) : bs.length ≤ (encodeFields gs).length := by
  have := length_encodeField_le (h (List.mem_singleton_self _))
  simp only [encodeField, List.length_append] at this
  omega

/-- An embedded message is no longer than the message around it. -/
theorem length_messageField_le (tag : Nat) {fs gs : List Field}
    (h : messageField tag (some fs) ⊆ gs) : (encodeFields fs).length ≤ (encodeFields gs).length :=
  length_bytesField_le tag h

end Sigchat.Lib.Wire

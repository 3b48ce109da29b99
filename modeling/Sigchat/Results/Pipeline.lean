import Sigchat.Model.MainWs

/-!
# The receive pipeline undoes the send pipeline

* `signalPad_eq` — the padding loop appends one `0x80` and the fewest zeros
  that reach a multiple of 160;
* `stripSignalPadding_signalPad` — the receiver's scan removes exactly that;
* `removesOnlyPadding_iff` — of bytes that were not padded, it takes the zeros
  they end in;
* `receive_undoes_send` — padded content of a text message decodes, under the
  receiver's own schema, to the body and the timestamp.
-/

namespace Sigchat.Results

open Sigchat.Lib
open Sigchat.Lib.Wire
open Sigchat.Outgoing (signalPad padLoop messageContent)
open Sigchat.MainWs (stripSignalPadding)

-- ---------------------------------------------------------------------------
-- Padding
-- ---------------------------------------------------------------------------

/-- How many zeros are missing to a multiple of 160. -/
def zerosMissing (len : Nat) : Nat := (160 - len % 160) % 160

/-- With fuel enough the loop appends all the zeros that are missing. -/
theorem padLoop_eq {fuel : Nat} {content : Bytes} (hfuel : zerosMissing content.length ≤ fuel) :
    padLoop fuel content = content ++ List.replicate (zerosMissing content.length) 0 := by
  -- One zero a turn.
  induction fuel generalizing content with
  | zero =>
    have hNone : zerosMissing content.length = 0 := by omega
    rw [hNone, List.replicate_zero, List.append_nil]
    rfl
  | succ fuel ih =>
    rw [padLoop]
    split
    · -- one more zero
      have hStep : zerosMissing content.length = zerosMissing (content ++ [0]).length + 1 := by
        simp only [zerosMissing, List.length_append, List.length_singleton] at *
        omega
      rw [ih (by omega), hStep, List.append_assoc, List.replicate_succ, List.singleton_append]
    · have hNone : zerosMissing content.length = 0 := by
        simp only [zerosMissing] at *
        omega
      rw [hNone, List.replicate_zero, List.append_nil]

/-- The padding loop ends, and appends the marker and the missing zeros. -/
theorem signalPad_eq (content : Bytes) :
    signalPad content =
      content ++ [0x80] ++ List.replicate (zerosMissing (content.length + 1)) 0 := by
  have hfuel : zerosMissing (content ++ [0x80]).length ≤ 160 := by
    simp only [zerosMissing]
    omega
  rw [signalPad, padLoop_eq hfuel, List.length_append, List.length_singleton]

/-- Zeros at the end are dropped, however many. -/
theorem rdropWhile_replicate_zero (content : Bytes) (n : Nat) :
    (content ++ List.replicate n 0).rdropWhile (· = 0x00) = content.rdropWhile (· = 0x00) := by
  induction n with
  | zero => rw [List.replicate_zero, List.append_nil]
  | succ n ih =>
    rw [List.replicate_succ', ← List.append_assoc, List.rdropWhile_concat_pos _ _ _ (by decide), ih]

/-- **Padding round trip.** Whatever bytes the content ends in, the scan stops
at the marker. -/
theorem stripSignalPadding_signalPad (content : Bytes) :
    stripSignalPadding (signalPad content) = content := by
  have hMarker : (content ++ [(0x80 : UInt8)]).rdropWhile (· = 0x00) = content ++ [0x80] :=
    List.rdropWhile_concat_neg _ _ _ (by decide)
  simp only [stripSignalPadding, signalPad_eq, rdropWhile_replicate_zero, hMarker,
    List.getLast?_concat, if_true, List.dropLast_concat]

theorem length_signalPad (content : Bytes) :
    (signalPad content).length = content.length + 1 + zerosMissing (content.length + 1) := by
  rw [signalPad_eq, List.length_append, List.length_append, List.length_singleton,
    List.length_replicate]

/-- Bytes are a core that does not end in a zero, and zeros. -/
theorem exists_trailing_zeros (p : Bytes) :
    ∃ core n, p = core ++ List.replicate n 0 ∧ core.rdropWhile (· = 0x00) = core := by
  refine ⟨p.rdropWhile (· = 0x00), (p.rtakeWhile (· = 0x00)).length, ?_, ?_⟩
  · have hZeros : p.rtakeWhile (· = 0x00) =
        List.replicate (p.rtakeWhile (· = 0x00)).length 0 := by
      refine List.eq_replicate_iff.mpr ⟨rfl, fun b hb => ?_⟩
      simpa using List.mem_rtakeWhile_imp hb
    rw [← hZeros, List.rdropWhile_append_rtakeWhile]
  · exact List.rdropWhile_idempotent _ _

/-- What is left after dropping zeros does not end in one. -/
theorem getLast?_ne_zero {core : Bytes} (hCore : core.rdropWhile (· = 0x00) = core) :
    core.getLast? ≠ some 0x00 := by
  intro hLast
  obtain ⟨init, rfl⟩ := List.getLast?_eq_some_iff.mp hLast
  rw [List.rdropWhile_concat_pos _ _ _ (by decide)] at hCore
  have hLen := (List.rdropWhile_prefix (· = (0x00 : UInt8)) init).length_le
  rw [hCore, List.length_append, List.length_singleton] at hLen
  omega

/-- All trailing zeros go, the marker with them if it is there. -/
theorem stripSignalPadding_zeros {core : Bytes} (hCore : core.rdropWhile (· = 0x00) = core)
    (n : Nat) : stripSignalPadding (core ++ List.replicate n 0) =
      if core.getLast? = some 0x80 then core.dropLast else core := by
  simp only [stripSignalPadding, rdropWhile_replicate_zero, hCore]

/-- Stripping drops at least the zeros. -/
theorem length_stripSignalPadding_le {core : Bytes}
    (hCore : core.rdropWhile (· = 0x00) = core) (n : Nat) :
    (stripSignalPadding (core ++ List.replicate n 0)).length ≤ core.length := by
  rw [stripSignalPadding_zeros hCore]
  split
  · rw [List.length_dropLast]
    omega
  · exact Nat.le_refl _

/-- The marker and any number of zeros. -/
def padding (n : Nat) : Bytes := 0x80 :: List.replicate n 0

theorem append_padding (content : Bytes) (n : Nat) :
    content ++ padding n = content ++ [0x80] ++ List.replicate n 0 := by
  rw [List.append_assoc]
  rfl

/-- The scan over the zeros stops at the marker. -/
theorem rdropWhile_append_padding (content : Bytes) (n : Nat) :
    (content ++ padding n).rdropWhile (· = 0x00) = content ++ [0x80] := by
  rw [append_padding, rdropWhile_replicate_zero]
  exact List.rdropWhile_concat_neg _ _ _ (by decide)

/-- The core of padded bytes ends in the marker. -/
theorem marker_of_padded {core content : Bytes} {n k : Nat}
    (hCore : core.rdropWhile (· = 0x00) = core)
    (hPadded : core ++ List.replicate n 0 = content ++ padding k) : core = content ++ [0x80] := by
  have hCores := congrArg (List.rdropWhile (· = 0x00)) hPadded
  rwa [rdropWhile_replicate_zero, rdropWhile_append_padding, hCore] at hCores

/-- What the scan removes is padding or nothing; what does not end in padding
stays as it is. -/
def RemovesOnlyPadding (p : Bytes) : Prop :=
  (∃ removed, p = stripSignalPadding p ++ removed ∧ (removed = [] ∨ ∃ n, removed = padding n)) ∧
  ((¬∃ content n, p = content ++ padding n) → stripSignalPadding p = p)

/-- A message that is empty but for a field of length zero decodes; what the
scan leaves of it does not. -/
theorem strip_eats_content :
    (¬∀ p, RemovesOnlyPadding p) ∧
    Protos.ContentProto.decode [0x0a, 0x00] = some ⟨some ⟨none, none⟩, none⟩ ∧
    Protos.ContentProto.decode (stripSignalPadding [0x0a, 0x00]) = none := by
  refine ⟨fun h => ?_, by decide, by decide⟩
  have hStays := (h [0x0a, 0x00]).2
  have hEaten : stripSignalPadding [0x0a, 0x00] ≠ [0x0a, 0x00] := by decide
  refine hEaten (hStays ?_)
  rintro ⟨content, n, hEq⟩
  have hMarker : (0x80 : UInt8) ∈ ([0x0a, 0x00] : Bytes) := by
    rw [hEq]
    exact List.mem_append_right content List.mem_cons_self
  revert hMarker
  decide

/-- **Only the marker protects content.** The scan removes nothing but padding
exactly if the bytes do not end in a zero or do end in padding. -/
theorem removesOnlyPadding_iff (p : Bytes) :
    RemovesOnlyPadding p ↔
      (p.getLast? = some 0x00 → ∃ content n, p = content ++ padding n) := by
  obtain ⟨core, n, rfl, hCore⟩ := exists_trailing_zeros p
  have hStrip := stripSignalPadding_zeros hCore n
  constructor
  · intro hOnly hLast
    by_contra hNone
    -- the zero at the end is removed all the same
    have hShorter := length_stripSignalPadding_le hCore n
    rw [hOnly.2 hNone, List.length_append, List.length_replicate] at hShorter
    obtain rfl : n = 0 := by omega
    rw [List.replicate_zero, List.append_nil] at hLast
    exact getLast?_ne_zero hCore hLast
  · intro hEnds
    -- The last byte before the zeros is the marker or it is not.
    by_cases hMarker : core.getLast? = some 0x80
    · obtain ⟨content, rfl⟩ := List.getLast?_eq_some_iff.mp hMarker
      rw [if_pos hMarker, List.dropLast_concat, ← append_padding] at hStrip
      rw [← append_padding]
      refine ⟨⟨padding n, ?_, .inr ⟨n, rfl⟩⟩, fun hNone => absurd ⟨content, n, rfl⟩ hNone⟩
      rw [hStrip]
    · -- without a marker there are no zeros
      have hNoZeros : n = 0 := by
        by_contra hn
        obtain ⟨m, rfl⟩ := Nat.exists_eq_succ_of_ne_zero hn
        have hLast : (core ++ List.replicate m.succ 0).getLast? = some 0x00 := by
          rw [List.replicate_succ', ← List.append_assoc, List.getLast?_concat]
        obtain ⟨content, k, hPadded⟩ := hEnds hLast
        rw [marker_of_padded hCore hPadded, List.getLast?_concat] at hMarker
        exact hMarker rfl
      rw [if_neg hMarker] at hStrip
      rw [hNoZeros, List.replicate_zero, List.append_nil] at hStrip ⊢
      exact ⟨⟨[], by rw [hStrip, List.append_nil], .inl rfl⟩, fun _ => hStrip⟩

/-- The padded length is the smallest multiple of 160 above the length. -/
theorem length_signalPad_least (content : Bytes) :
    (signalPad content).length % 160 = 0 ∧ content.length < (signalPad content).length ∧
      ∀ m, m % 160 = 0 → content.length < m → (signalPad content).length ≤ m := by
  rw [length_signalPad]
  simp only [zerosMissing]
  refine ⟨by omega, by omega, fun m hm hlt => by omega⟩

-- ---------------------------------------------------------------------------
-- Content
-- ---------------------------------------------------------------------------

/-- The fields of the data message the sender emits. -/
def textFields (body : String) (ts : UInt64) : List Field :=
  [⟨1, .bytes (utf8 body)⟩, ⟨5, .varint ts.toNat⟩]

theorem messageContent_eq (body : String) (ts : UInt64) :
    messageContent body ts = encodeFields [⟨1, .bytes (encodeFields (textFields body ts))⟩] := rfl

/-- Both fields of a text fit their wire types. -/
theorem textFields_encodable (body : Str) (ts : UInt64) :
    ∀ f ∈ textFields body.val ts, f.Encodable := by
  have hBody : (utf8 body.val).length < 2 ^ 64 := by
    have := body.size_lt
    rw [length_utf8]
    omega
  intro f hf
  simp only [textFields, List.mem_cons, List.not_mem_nil, or_false] at hf
  rcases hf with rfl | rfl
  · exact encodable_bytes (by decide) hBody
  · exact encodable_varint (by decide) ts.toNat_lt

/-- The encoded text is short enough for a length prefix. -/
theorem length_encodeFields_textFields (body : Str) (ts : UInt64) :
    (encodeFields (textFields body.val ts)).length < 2 ^ 64 := by
  have hBody := length_encodeField_bytes 1 (utf8 body.val)
  have hTs := length_encodeField_varint 5 ts.toNat
  have hSize := body.size_lt
  rw [length_utf8] at hBody
  rw [textFields, length_encodeFields_cons, length_encodeFields_cons]
  have hNil : (encodeFields []).length = 0 := rfl
  omega

/-- The receiver's data message schema reads the sender's fields. -/
theorem decode_textFields (body : Str) (ts : UInt64) (limit : Nat) :
    decodeMessage (Protos.DataMessageProto.merge limit) limit .default
      (encodeFields (textFields body.val ts)) = some ⟨some body.val, some ts⟩ := by
  refine decodeMessage_encodeFields (textFields_encodable body ts) ?_
  simp [textFields, Protos.DataMessageProto.merge, Value.toText, Value.toBytes, Value.toUInt64]

/-- The text and its timestamp are read back. -/
theorem decode_messageContent (body : Str) (ts : UInt64) :
    Protos.ContentProto.decode (messageContent body.val ts) =
      some ⟨some ⟨some body.val, some ts⟩, none⟩ := by
  rw [messageContent_eq, Protos.ContentProto.decode]
  refine decodeMessage_encodeFields ?_ ?_
  · intro f hf
    rw [List.mem_singleton.mp hf]
    exact encodable_bytes (by decide) (length_encodeFields_textFields body ts)
  · simp [Protos.ContentProto.merge, Value.toMessage, Value.toBytes, recursionLimit,
      decode_textFields]

/-- **The receive pipeline undoes the send pipeline.** Content built, padded,
stripped and decoded again is the body and the timestamp and nothing else, and
padding reaches the smallest multiple of 160 above the encoded length. -/
theorem receive_undoes_send (body : Str) (ts : UInt64) :
    Protos.ContentProto.decode (stripSignalPadding (signalPad (messageContent body.val ts))) =
        some ⟨some ⟨some body.val, some ts⟩, none⟩ ∧
      (signalPad (messageContent body.val ts)).length % 160 = 0 ∧
      (messageContent body.val ts).length < (signalPad (messageContent body.val ts)).length ∧
      ∀ m, m % 160 = 0 → (messageContent body.val ts).length < m →
        (signalPad (messageContent body.val ts)).length ≤ m := by
  rw [stripSignalPadding_signalPad]
  exact ⟨decode_messageContent body ts, length_signalPad_least _⟩

end Sigchat.Results

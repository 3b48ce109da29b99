import Sigchat.Lib.Text

/-!
# Byte counters and streams

Counter mode rests on two facts that have nothing to do with its cipher: a
counter that is incremented byte by byte, with carries, counts (`bigEndian`),
and combining with a stream of bytes twice is the identity (`xorStream`).
-/

namespace Sigchat.Lib.Ctr

-- ---------------------------------------------------------------------------
-- Counters
-- ---------------------------------------------------------------------------

/-- The last `n` digits of `v` to the base 256, the most significant first. -/
def bigEndian : Nat → Nat → Bytes
  | 0, _ => []
  | n + 1, v => bigEndian n (v / 256) ++ [UInt8.ofNat v]

@[simp] theorem length_bigEndian (n v : Nat) : (bigEndian n v).length = n := by
  induction n generalizing v with
  | zero => rfl
  | succ n ih => rw [bigEndian, List.length_append, ih, List.length_singleton]

/-- Only the remainder fits. -/
theorem bigEndian_mod (n v : Nat) : bigEndian n (v % 256 ^ n) = bigEndian n v := by
  induction n generalizing v with
  | zero => rfl
  | succ n ih =>
    have hDiv : v % 256 ^ (n + 1) / 256 = v / 256 % 256 ^ n := by
      rw [Nat.pow_succ, Nat.mul_comm, Nat.mod_mul_right_div_self]
    have hLow : UInt8.ofNat (v % 256 ^ (n + 1)) = UInt8.ofNat v := by
      apply UInt8.toNat_inj.mp
      rw [UInt8.toNat_ofNat', UInt8.toNat_ofNat', Nat.pow_succ, Nat.mul_comm]
      exact Nat.mod_mod_of_dvd _ ⟨256 ^ n, rfl⟩
    rw [bigEndian, bigEndian, hDiv, ih, hLow]

/-- Without a carry the other digits stay. -/
theorem bigEndian_succ_of_ne {n v : Nat} (h : UInt8.ofNat (v + 1) ≠ 0) :
    bigEndian (n + 1) (v + 1) = bigEndian n (v / 256) ++ [UInt8.ofNat (v + 1)] := by
  have hLow : (v + 1) % 256 ≠ 0 := fun hZero => h (UInt8.toNat_inj.mp (by simpa using hZero))
  have hDiv : (v + 1) / 256 = v / 256 := by omega
  rw [bigEndian, hDiv]

/-- A digit that becomes zero is carried. -/
theorem bigEndian_succ_of_eq {n v : Nat} (h : UInt8.ofNat (v + 1) = 0) :
    bigEndian (n + 1) (v + 1) = bigEndian n (v / 256 + 1) ++ [0] := by
  have hLow : (v + 1) % 256 = 0 := by simpa using congrArg UInt8.toNat h
  have hDiv : (v + 1) / 256 = v / 256 + 1 := by omega
  rw [bigEndian, hDiv, h]

-- ---------------------------------------------------------------------------
-- Streams
-- ---------------------------------------------------------------------------

/-- The bytes combined with those of a stream. -/
def xorStream (stream : Nat → UInt8) (bs : Bytes) : Bytes := bs.mapIdx fun i b => b ^^^ stream i

@[simp] theorem xorStream_nil (stream : Nat → UInt8) : xorStream stream [] = [] := rfl

@[simp] theorem length_xorStream (stream : Nat → UInt8) (bs : Bytes) :
    (xorStream stream bs).length = bs.length := List.length_mapIdx

/-- Each byte meets the byte of the stream at its own position. -/
theorem getElem?_xorStream (stream : Nat → UInt8) {bs : Bytes} {i : Nat} (hi : i < bs.length) :
    (xorStream stream bs)[i]? = some (bs[i] ^^^ stream i) := by
  rw [xorStream, List.getElem?_mapIdx, List.getElem?_eq_getElem hi]
  rfl

/-- The second part of a text meets the stream where the first has left it. -/
theorem xorStream_append (stream : Nat → UInt8) (bs cs : Bytes) :
    xorStream stream (bs ++ cs) =
      xorStream stream bs ++ xorStream (fun i => stream (bs.length + i)) cs := by
  rw [xorStream, List.mapIdx_append]
  simp only [Nat.add_comm]
  rfl

/-- **Involution.** Combining twice with one stream gives the bytes back. -/
theorem xorStream_xorStream (stream : Nat → UInt8) (bs : Bytes) :
    xorStream stream (xorStream stream bs) = bs := by
  refine List.ext_getElem? fun i => ?_
  rw [xorStream, xorStream, List.getElem?_mapIdx, List.getElem?_mapIdx, Option.map_map]
  rcases bs[i]? with _ | b
  · rfl
  · have hTwice : b ^^^ stream i ^^^ stream i = b := by
      rw [UInt8.xor_assoc, UInt8.xor_self, UInt8.xor_zero]
    exact congrArg some hTwice

end Sigchat.Lib.Ctr

import Sigchat.Model.Getrandom

/-!
# Every byte of a buffer is fresh

What the fill loops do is stated apart from them: fetch the words that cover
the buffer, one after the other, and write their bytes over it (`fetch`,
`writeCells`).

* `fillFromTrng_eq_fetch`            — the loop is that program;
* `fillBytesViaNext_eq_fillFromTrng` — and so is that of the other backend;
* `fillFromTrng_fresh`               — every byte is written once, with the byte
  of the TRNG stream at its position, and no refused request is passed over.
-/

namespace Sigchat.Results

open Sigchat.Lib
open Sigchat.Getrandom
open Sigchat.Getrandom02 (fillBytesViaNext)

-- ---------------------------------------------------------------------------
-- Words
-- ---------------------------------------------------------------------------

/-- What one request asks for. -/
inductive Word where
  | u32
  | u64
  deriving DecidableEq

def Word.count : Word → UInt32
  | .u32 => 1
  | .u64 => 2

/-- The bytes of a word, from the two values of its answer. -/
def Word.bytes (e : Endian) : Word → UInt32 → UInt32 → Bytes
  | .u32, trng, _ => u32ToNeBytes e trng
  | .u64, lo, hi => u64ToNeBytes e (lo.toUInt64 ||| hi.toUInt64 <<< 32)

def Word.size : Word → Nat
  | .u32 => 4
  | .u64 => 8

def Word.request (conn : UInt32) (w : Word) : TrngReq := .getTrng conn w.count

/-- The words that cover `n` bytes: a tail of up to four takes a short one. -/
def wordsFor (n : Nat) : List Word :=
  List.replicate (n / 8) .u64 ++
    if 4 < n % 8 then [.u64] else if 0 < n % 8 then [.u32] else []

theorem wordsFor_add_eight {n : Nat} (hn : 8 ≤ n) : wordsFor n = .u64 :: wordsFor (n - 8) := by
  have hDiv : n / 8 = (n - 8) / 8 + 1 := by omega
  have hMod : n % 8 = (n - 8) % 8 := by omega
  rw [wordsFor, wordsFor, hDiv, hMod, List.replicate_succ, List.cons_append]

/-- The last bytes take one word, of the smaller size if that is enough. -/
theorem wordsFor_tail {n : Nat} (hn : ¬8 ≤ n) :
    wordsFor n = if 4 < n then [.u64] else if 0 < n then [.u32] else [] := by
  have hDiv : n / 8 = 0 := by omega
  have hMod : n % 8 = n := by omega
  rw [wordsFor, hDiv, hMod, List.replicate_zero, List.nil_append]

theorem Word.length_bytes (e : Endian) (w : Word) (a b : UInt32) :
    (w.bytes e a b).length = w.size := by
  cases e <;> cases w <;> rfl

/-- The words cover the bytes, and no more than three bytes are left over. -/
theorem size_wordsFor (n : Nat) :
    n ≤ ((wordsFor n).map Word.size).sum ∧ ((wordsFor n).map Word.size).sum < n + 4 := by
  rw [wordsFor, List.map_append, List.map_replicate, List.sum_append_nat, List.sum_replicate_nat]
  have hFull : n / 8 * Word.u64.size = n - n % 8 := by
    show n / 8 * 8 = n - n % 8
    omega
  rw [hFull]
  split
  · show n ≤ n - n % 8 + 8 ∧ n - n % 8 + 8 < n + 4
    omega
  · split
    · show n ≤ n - n % 8 + 4 ∧ n - n % 8 + 4 < n + 4
      omega
    · show n ≤ n - n % 8 + 0 ∧ n - n % 8 + 0 < n + 4
      omega

-- ---------------------------------------------------------------------------
-- Fetch and overwrite
-- ---------------------------------------------------------------------------

variable (e : Endian) (conn : UInt32)

/-- The bytes of the words, asked for one after the other. -/
def fetch : List Word → Prog TrngResp (Except Panic Bytes)
  | [] => .done (.ok [])
  | w :: ws => do
    match ← blockingScalar conn w.count (w.bytes e) with
    | .error p => return .error p
    | .ok bytes => return (← fetch ws).map (bytes ++ ·)

/-- One word is one request. -/
theorem fetch_singleton (w : Word) :
    fetch e conn [w] = blockingScalar conn w.count (w.bytes e) := by
  refine congrArg (Prog.call (TrngReq.getTrng conn w.count)) (funext fun answer => ?_)
  cases answer with
  | failed => rfl
  | scalar2 a b =>
    exact congrArg (fun bytes => Prog.done (Except.ok bytes)) (List.append_nil (w.bytes e a b))
  | other => rfl

/-- The buffer with the first bytes written over it. -/
def writeCells (buf : List Cell) (bytes : Bytes) : List Cell := List.zipWith Cell.write buf bytes

/-- The first eight cells and the others are written one after the other. -/
theorem writeCells_append {buf : List Cell} {bytes : Bytes} (rest : Bytes)
    (hLen : (buf.take 8).length = bytes.length) :
    List.zipWith Cell.write (buf.take 8) bytes ++ writeCells (buf.drop 8) rest =
      writeCells buf (bytes ++ rest) := by
  rw [writeCells, ← List.zipWith_append hLen, List.take_append_drop]
  rfl

/-- Bytes beyond the buffer are not written. -/
theorem writeCells_take (buf : List Cell) (bytes : Bytes) :
    List.zipWith Cell.write buf (bytes.take buf.length) = writeCells buf bytes := by
  induction buf generalizing bytes with
  | nil => simp [writeCells]
  | cons c cs ih =>
    cases bytes with
    | nil => rfl
    | cons b bs =>
      rw [List.length_cons, List.take_succ_cons, List.zipWith_cons_cons, ih]
      rfl

theorem copyFromSlice_eq {dst : List Cell} {src : Bytes} (hLen : dst.length = src.length) :
    copyFromSlice dst src = .ok (List.zipWith Cell.write dst src) := if_pos hLen

theorem copyFromSlice_take {dst : List Cell} {bytes : Bytes} (hLen : dst.length ≤ bytes.length) :
    copyFromSlice dst (bytes.take dst.length) = .ok (writeCells dst bytes) := by
  rw [copyFromSlice_eq (by rw [List.length_take]; omega), writeCells_take]

/-- Programs that start with the same request agree if they go on alike. -/
theorem blockingScalar_congr {α β γ : Type} {count : UInt32} {f : UInt32 → UInt32 → α}
    {g : UInt32 → UInt32 → β} {k : Except Panic α → Prog TrngResp γ}
    {k' : Except Panic β → Prog TrngResp γ} (hOk : ∀ a b, k (.ok (f a b)) = k' (.ok (g a b)))
    (hError : ∀ p, k (.error p) = k' (.error p)) :
    (blockingScalar conn count f >>= k) = (blockingScalar conn count g >>= k') := by
  refine congrArg (Prog.call (TrngReq.getTrng conn count)) (funext fun answer => ?_)
  cases answer with
  | failed => exact hError _
  | scalar2 a b => exact hOk a b
  | other => exact hError _

/-- **The loop** fetches its words and writes them, by induction on the chunks.
-/
theorem fillFromTrng_eq_fetch (buf : List Cell) :
    fillFromTrng e conn buf =
      do return (← fetch e conn (wordsFor buf.length)).map (writeCells buf) := by
  induction buf using fillFromTrng.induct with
  | case1 left hLen rest ih =>
    -- a full chunk takes all of the word
    have hChunk (a b : UInt32) : (left.take 8).length = (Word.u64.bytes e a b).length := by
      rw [List.length_take, Word.length_bytes]
      exact Nat.min_eq_left hLen
    have hRest : fillFromTrng e conn (left.drop 8) =
        do return (← fetch e conn (wordsFor (left.length - 8))).map (writeCells (left.drop 8)) := by
      rw [← List.length_drop]
      exact ih
    rw [fillFromTrng, if_pos hLen, wordsFor_add_eight hLen, fetch, bind_assoc]
    refine blockingScalar_congr conn (fun a b => ?_) fun p => rfl
    have hCopy := copyFromSlice_eq (hChunk a b)
    rw [Word.bytes] at hCopy
    simp only [hCopy, hRest, bind_assoc, pure_bind]
    refine congrArg (fetch e conn (wordsFor (left.length - 8)) >>= ·) (funext fun r => ?_)
    rcases r with p | bytes
    · rfl
    · exact congrArg (fun cells => Prog.done (Except.ok cells)) (writeCells_append _ (hChunk a b))
  -- the last bytes take the first of a long word,
  | case2 left hLen n hTail =>
    rw [fillFromTrng, if_neg hLen, if_pos hTail, wordsFor_tail hLen, if_pos hTail, fetch_singleton]
    refine blockingScalar_congr conn (fun a b => ?_) fun p => rfl
    have hFits : left.length ≤ (Word.u64.bytes e a b).length := by
      rw [Word.length_bytes]
      exact Nat.le_of_not_le hLen
    exact congrArg Prog.done (copyFromSlice_take hFits)
  -- or of a short one
  | case3 left hLen n hTail hShort =>
    rw [fillFromTrng, if_neg hLen, if_neg hTail, if_pos hShort, wordsFor_tail hLen, if_neg hTail,
      if_pos hShort, fetch_singleton]
    refine blockingScalar_congr conn (fun a b => ?_) fun p => rfl
    have hFits : left.length ≤ (Word.u32.bytes e a b).length := by
      rw [Word.length_bytes]
      exact Nat.le_of_not_lt hTail
    exact congrArg Prog.done (copyFromSlice_take hFits)
  | case4 left hLen n hTail hShort =>
    have hNil : left = [] := List.eq_nil_of_length_eq_zero (Nat.eq_zero_of_not_pos hShort)
    rw [fillFromTrng, if_neg hLen, if_neg hTail, if_neg hShort, hNil]
    rfl

/-- The two backends step alike. -/
theorem fillBytesViaNext_eq_fillFromTrng (buf : List Cell) :
    fillBytesViaNext e conn buf = fillFromTrng e conn buf := by
  induction buf using fillFromTrng.induct with
  -- the two loops take the same branches
  | case1 left hLen rest ih =>
    have hRest : fillBytesViaNext e conn (left.drop 8) = fillFromTrng e conn (left.drop 8) := ih
    rw [fillBytesViaNext, fillFromTrng, if_pos hLen, if_pos hLen]
    simp only [hRest]
    rfl
  | case2 left hLen n hTail =>
    rw [fillBytesViaNext, fillFromTrng, if_neg hLen, if_neg hLen, if_pos hTail, if_pos hTail]
    rfl
  | case3 left hLen n hTail hShort =>
    rw [fillBytesViaNext, fillFromTrng, if_neg hLen, if_neg hLen, if_neg hTail, if_neg hTail,
      if_pos hShort, if_pos hShort]
    rfl
  | case4 left hLen n hTail hShort =>
    rw [fillBytesViaNext, fillFromTrng, if_neg hLen, if_neg hLen, if_neg hTail, if_neg hTail,
      if_neg hShort, if_neg hShort]

-- ---------------------------------------------------------------------------
-- Runs
-- ---------------------------------------------------------------------------

/-- The `i`-th request is answered by `answers i`. -/
def answering (answers : Nat → Answer) : Env TrngReq Outcome := fun i _ => ⟨none, answers i⟩

/-- The `i`-th request is answered by two values. -/
def answeringWords (trng : Nat → UInt32 × UInt32) : Env TrngReq Outcome :=
  answering fun i => .scalar2 (trng i).1 (trng i).2

/-- The bytes of the words, in the order of the answers. -/
def streamBytes (ws : List Word) (trng : Nat → UInt32 × UInt32) : Bytes :=
  (ws.mapIdx fun i w => w.bytes e (trng i).1 (trng i).2).flatten

theorem streamBytes_cons (w : Word) (ws : List Word) (trng : Nat → UInt32 × UInt32) :
    streamBytes e (w :: ws) trng =
      w.bytes e (trng 0).1 (trng 0).2 ++ streamBytes e ws fun i => trng (i + 1) := by
  rw [streamBytes, List.mapIdx_cons, List.flatten_cons]
  rfl

/-- There are as many bytes as the words have. -/
theorem length_streamBytes (ws : List Word) (trng : Nat → UInt32 × UInt32) :
    (streamBytes e ws trng).length = (ws.map Word.size).sum := by
  induction ws generalizing trng with
  | nil => rfl
  | cons w ws ih =>
    rw [streamBytes_cons, List.length_append, Word.length_bytes, ih, List.map_cons, List.sum_cons]

/-- Where every request is granted the bytes are those of the stream. -/
theorem run_fetch (ws : List Word) (trng : Nat → UInt32 × UInt32) (s : List TrngReq) :
    (fetch e conn ws).run serveTrng (answeringWords trng) s =
      (.ok (streamBytes e ws trng), s ++ ws.map (Word.request conn)) := by
  induction ws generalizing trng s with
  | nil => rw [List.map_nil, List.append_nil]; rfl
  | cons w ws ih =>
    have hRest := ih (fun i => trng (i + 1)) (s ++ [w.request conn])
    rw [streamBytes_cons, List.map_cons, List.append_cons]
    show ((fetch e conn ws >>= fun r => pure (r.map (w.bytes e (trng 0).1 (trng 0).2 ++ ·))).run
      serveTrng (answeringWords fun i => trng (i + 1)) (s ++ [w.request conn])) = _
    rw [Prog.run_bind, hRest]
    rfl

/-- One answer that is not two values and no bytes are returned. -/
theorem fetch_ok_iff (ws : List Word) (answers : Nat → Answer) (s : List TrngReq) :
    (∃ bytes, ((fetch e conn ws).run serveTrng (answering answers) s).1 = .ok bytes) ↔
      ∀ i < ws.length, ∃ a b, answers i = .scalar2 a b := by
  induction ws generalizing answers s with
  | nil => exact ⟨fun _ i hi => absurd hi (Nat.not_lt_zero i), fun _ => ⟨[], rfl⟩⟩
  | cons w ws ih =>
    rw [List.length_cons, Nat.forall_lt_succ_left, ← ih _ (s ++ [w.request conn])]
    cases hFirst : answers 0 with
    -- a request that fails ends it, and so does an answer of another kind
    | failed =>
      have hRun : ((fetch e conn (w :: ws)).run serveTrng (answering answers) s).1 =
          .error .ipcFailed := by
        simp [fetch, blockingScalar, serveTrng, answering, hFirst]
      simp [hRun]
    | scalar2 a b =>
      have hRun : ((fetch e conn (w :: ws)).run serveTrng (answering answers) s).1 =
          ((fetch e conn ws).run serveTrng (answering fun i => answers (i + 1))
            (s ++ [w.request conn])).1.map (w.bytes e a b ++ ·) := by
        simp [fetch, blockingScalar, serveTrng, answering, hFirst, Prog.run_bind]
        rfl
      rw [hRun, exists_map_ok]
      exact ⟨fun h => ⟨⟨a, b, rfl⟩, h⟩, fun h => h.2⟩
    | other =>
      have hRun : ((fetch e conn (w :: ws)).run serveTrng (answering answers) s).1 =
          .error .unexpectedResponse := by
        simp [fetch, blockingScalar, serveTrng, answering, hFirst]
      simp [hRun]

/-- Every cell is written once more, if there is a byte for each. -/
theorem map_writes_writeCells {buf : List Cell} {bytes : Bytes}
    (hCover : buf.length ≤ bytes.length) :
    (writeCells buf bytes).map Cell.writes = buf.map (·.writes + 1) := by
  induction buf generalizing bytes with
  | nil => rw [writeCells, List.zipWith_nil_left]; rfl
  | cons c cs ih =>
    rcases bytes with _ | ⟨b, bs⟩
    · exact absurd hCover (Nat.not_succ_le_zero _)
    · exact congrArg (_ :: ·) (ih (Nat.le_of_succ_le_succ hCover))

/-- The cells hold the bytes at their positions. -/
theorem map_value_writeCells (buf : List Cell) (bytes : Bytes) :
    (writeCells buf bytes).map Cell.value = bytes.take buf.length := by
  induction buf generalizing bytes with
  | nil => rw [writeCells, List.zipWith_nil_left]; rfl
  | cons c cs ih =>
    rcases bytes with _ | ⟨b, bs⟩
    · rfl
    · exact congrArg (b :: ·) (ih bs)

/-- **Every byte is fresh.** Whatever the buffer held, each of its bytes is
written once, with the byte of the TRNG stream at its position; the words cover
the buffer with less than one short word to spare. An answer that is not two
values is fatal, so no byte is left behind. The other backend does the same. -/
theorem fillFromTrng_fresh (buf : List Cell) :
    (∀ trng : Nat → UInt32 × UInt32, ∃ out,
      (fillFromTrng e conn buf).run serveTrng (answeringWords trng) [] =
        (.ok out, (wordsFor buf.length).map (Word.request conn)) ∧
      out.map Cell.writes = buf.map (·.writes + 1) ∧
      out.map Cell.value = (streamBytes e (wordsFor buf.length) trng).take buf.length) ∧
    (∀ answers, (∃ out, ((fillFromTrng e conn buf).run serveTrng (answering answers) []).1 =
        .ok out) ↔ ∀ i < (wordsFor buf.length).length, ∃ a b, answers i = .scalar2 a b) ∧
    (buf.length ≤ ((wordsFor buf.length).map Word.size).sum ∧
      ((wordsFor buf.length).map Word.size).sum < buf.length + 4) ∧
    fillBytesViaNext e conn buf = fillFromTrng e conn buf := by
  refine ⟨fun trng => ?_, fun answers => ?_, size_wordsFor _,
    fillBytesViaNext_eq_fillFromTrng e conn buf⟩
  · have hCover : buf.length ≤ (streamBytes e (wordsFor buf.length) trng).length := by
      rw [length_streamBytes]
      exact (size_wordsFor _).1
    refine ⟨writeCells buf (streamBytes e (wordsFor buf.length) trng), ?_,
      map_writes_writeCells hCover, map_value_writeCells _ _⟩
    rw [fillFromTrng_eq_fetch, Prog.run_bind, run_fetch]
    rfl
  · rw [fillFromTrng_eq_fetch, Prog.run_bind, ← fetch_ok_iff e conn _ _ []]
    exact exists_map_ok

end Sigchat.Results

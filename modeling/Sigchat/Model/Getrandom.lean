import Sigchat.Lib.Request
import Sigchat.Lib.Text

/-!
# The entropy backend

`getrandom_xous.rs`, and `imports/getrandom-02`, which it is written after: a
buffer is filled from the TRNG server by blocking scalars, each of which answers
with one or two 32-bit values. From 64 bytes on, the latter lends the server a
page.

A slice is the list of its bytes, each with the number of times it has been
written (`Cell`). A function that fills a slice returns its new contents; a
panic ends it. `usize` has 32 bits on the target.
-/

namespace Sigchat.Getrandom

open Sigchat.Lib

-- ---------------------------------------------------------------------------
-- Words and slices
-- ---------------------------------------------------------------------------

inductive Endian where
  | little
  | big
  deriving DecidableEq

/-- The order of bytes in memory, given from the least significant on. -/
def Endian.order : Endian → Bytes → Bytes
  | .little, bytes => bytes
  | .big, bytes => bytes.reverse

/-- `u32::to_ne_bytes`. -/
def u32ToNeBytes (e : Endian) (w : UInt32) : Bytes :=
  e.order [w.toUInt8, (w >>> 8).toUInt8, (w >>> 16).toUInt8, (w >>> 24).toUInt8]

/-- `u64::to_ne_bytes`. -/
def u64ToNeBytes (e : Endian) (w : UInt64) : Bytes :=
  e.order [w.toUInt8, (w >>> 8).toUInt8, (w >>> 16).toUInt8, (w >>> 24).toUInt8,
    (w >>> 32).toUInt8, (w >>> 40).toUInt8, (w >>> 48).toUInt8, (w >>> 56).toUInt8]

/-- A byte of a buffer. -/
structure Cell where
  value : UInt8
  writes : Nat
  deriving DecidableEq

def Cell.write (c : Cell) (value : UInt8) : Cell := ⟨value, c.writes + 1⟩

inductive Panic where
  | noConnection
  | ipcFailed
  | unexpectedResponse
  | lengthMismatch (dst src : Nat)
  deriving DecidableEq

/-- `<[u8]>::copy_from_slice`. -/
def copyFromSlice (dst : List Cell) (src : Bytes) : Except Panic (List Cell) :=
  if dst.length = src.length then .ok (List.zipWith Cell.write dst src)
  else .error (.lengthMismatch dst.length src.length)

-- ---------------------------------------------------------------------------
-- The TRNG server
-- ---------------------------------------------------------------------------

inductive TrngReq where
  /-- Look the server up under its name. -/
  | connect
  /-- A blocking scalar with opcode `GetTrng`: how many values are wanted. -/
  | getTrng (conn count : UInt32)
  deriving DecidableEq

/-- The answer to a blocking scalar. -/
inductive Answer where
  /-- `send_message` fails. -/
  | failed
  | scalar2 (a b : UInt32)
  /-- Any other `xous::Result`. -/
  | other
  deriving DecidableEq

abbrev TrngResp : TrngReq → Type
  | .connect => Option UInt32
  | .getTrng _ _ => Answer

/-- What either request is answered. -/
structure Outcome where
  connection : Option UInt32
  answer : Answer

/-- The server's state is the requests it has served. -/
def serveTrng : Server TrngResp (List TrngReq) Outcome
  | o, .connect, s => (o.connection, s ++ [.connect])
  | o, .getTrng conn count, s => (o.answer, s ++ [.getTrng conn count])

/-- One blocking scalar; anything but two values is fatal. -/
def blockingScalar {α : Type} (conn count : UInt32) (f : UInt32 → UInt32 → α) :
    Prog TrngResp (Except Panic α) :=
  .call (.getTrng conn count) fun
    | .scalar2 a b => .done (.ok (f a b))
    | .failed => .done (.error .ipcFailed)
    | .other => .done (.error .unexpectedResponse)

-- ---------------------------------------------------------------------------
-- getrandom 0.3
-- ---------------------------------------------------------------------------

variable (e : Endian) (conn : UInt32)

def nextU32 : Prog TrngResp (Except Panic UInt32) := blockingScalar conn 1 fun trng _ => trng

def nextU64 : Prog TrngResp (Except Panic UInt64) :=
  blockingScalar conn 2 fun lo hi => lo.toUInt64 ||| hi.toUInt64 <<< 32

def fillFromTrng (left : List Cell) : Prog TrngResp (Except Panic (List Cell)) :=
  if 8 ≤ left.length then do
    -- `split_at_mut`
    let chunk := left.take 8
    let rest := left.drop 8
    match ← nextU64 conn with
    | .error p => return .error p
    | .ok word =>
    match copyFromSlice chunk (u64ToNeBytes e word) with
    | .error p => return .error p
    | .ok chunk => return (← fillFromTrng rest).map (chunk ++ ·)
  else
    let n := left.length
    if 4 < n then do
      match ← nextU64 conn with
      | .error p => return .error p
      | .ok word => return copyFromSlice left ((u64ToNeBytes e word).take n)
    else if 0 < n then do
      match ← nextU32 conn with
      | .error p => return .error p
      | .ok word => return copyFromSlice left ((u32ToNeBytes e word).take n)
    else return .ok left
termination_by left.length
decreasing_by
  rw [List.length_drop]
  omega

/-- `TRNG_CONN` is zero until the first call. -/
def ensureTrngConn (trngConn : UInt32) : Prog TrngResp (Except Panic UInt32) :=
  if trngConn = 0 then
    .call .connect fun
      | none => .done (.error .noConnection)
      | some conn => .done (.ok conn)
  else .done (.ok trngConn)

end Sigchat.Getrandom

-- ---------------------------------------------------------------------------
-- getrandom 0.2
-- ---------------------------------------------------------------------------

namespace Sigchat.Getrandom02

open Sigchat.Lib
open Sigchat.Getrandom

variable (e : Endian) (conn : UInt32)

def nextU32 : Prog TrngResp (Except Panic UInt32) := blockingScalar conn 1 fun trng _ => trng

def nextU64 : Prog TrngResp (Except Panic UInt64) :=
  blockingScalar conn 2 fun lo hi => lo.toUInt64 ||| hi.toUInt64 <<< 32

/-- Buffers of less than 64 bytes are filled by this. -/
def fillBytesViaNext (left : List Cell) : Prog TrngResp (Except Panic (List Cell)) :=
  if 8 ≤ left.length then do
    let l := left.take 8
    let r := left.drop 8
    match ← nextU64 conn with
    | .error p => return .error p
    | .ok word =>
    let chunk := u64ToNeBytes e word
    match copyFromSlice l chunk with
    | .error p => return .error p
    | .ok l => return (← fillBytesViaNext r).map (l ++ ·)
  else
    let n := left.length
    if 4 < n then do
      match ← nextU64 conn with
      | .error p => return .error p
      | .ok word =>
      let chunk := u64ToNeBytes e word
      return copyFromSlice left (chunk.take n)
    else if 0 < n then do
      match ← nextU32 conn with
      | .error p => return .error p
      | .ok word =>
      let chunk := u32ToNeBytes e word
      return copyFromSlice left (chunk.take n)
    else return .ok left
termination_by left.length
decreasing_by
  rw [List.length_drop]
  omega

/-- The page that is lent for a large buffer. -/
structure TrngBuf where
  data : Vector UInt32 1020
  len : UInt16

def TrngBuf.zeros (len : UInt16) : TrngBuf := ⟨Vector.replicate 1020 0, len⟩

/-- The memory of the page, byte by byte. -/
def TrngBuf.bytes (buf : TrngBuf) : Bytes := buf.data.toList.flatMap (u32ToNeBytes e)

inductive FillReq where
  | trng (r : TrngReq)
  /-- `lend_mut` with opcode `FillTrng`. -/
  | lendMut (conn : UInt32) (buf : TrngBuf)

/-- The answer is the page after it has come back. -/
abbrev FillResp : FillReq → Type
  | .trng r => TrngResp r
  | .lendMut _ _ => Option TrngBuf

inductive FillPanic where
  | trng (p : Panic)
  | lendFailed
  /-- `data` is longer than the page. -/
  | tooLong
  /-- The server has changed the length. -/
  | wrongLength
  /-- The end of a slice is beyond the page. -/
  | outOfRange

def onTrng {α : Type} (p : Prog TrngResp (Except Panic α)) : Prog FillResp (Except FillPanic α) :=
  p.interp (fun r => .call (.trng r) .done) >>= fun r => .done (r.mapError .trng)

/-- `fill_buf` for a slice of `n` words, all of which it overwrites. -/
def fillBuf (n : Nat) : Prog FillResp (Except FillPanic (List UInt32)) :=
  if n ≤ 1020 then
    .call (.lendMut conn (.zeros n.toUInt16)) fun
      | none => .done (.error .lendFailed)
      | some buf =>
        if buf.len.toNat = n then .done (.ok (buf.data.toList.take n))
        else .done (.error .wrongLength)
  else .done (.error .tooLong)

/-- The end of a large buffer, less than a chunk; the length that comes back is
not looked at. -/
def fillRemainder (remainder : List Cell) : Prog FillResp (Except FillPanic (List Cell)) :=
  if remainder.length ≠ 0 then
    let len := if remainder.length % 4 = 0 then remainder.length / 4 else 1 + remainder.length / 4
    .call (.lendMut conn (.zeros len.toUInt16)) fun
      | none => .done (.error .lendFailed)
      | some buf =>
        let retU8 := buf.bytes e
        if remainder.length ≤ retU8.length then
          .done ((copyFromSlice remainder (retU8.take remainder.length)).mapError .trng)
        else .done (.error .outOfRange)
  else .done (.ok remainder)

/-- The chunks of 4096 bytes, each seen as words, and the remainder. -/
def fillChunks (dest : List Cell) : Prog FillResp (Except FillPanic (List Cell)) :=
  if 4096 ≤ dest.length then do
    let chunk := dest.take 4096
    match ← fillBuf conn (chunk.length / 4) with
    | .error p => return .error p
    | .ok words =>
      let chunk := List.zipWith Cell.write chunk (words.flatMap (u32ToNeBytes e))
      return (← fillChunks (dest.drop 4096)).map (chunk ++ ·)
  else fillRemainder e conn dest
termination_by dest.length
decreasing_by
  rw [List.length_drop]
  omega

def fillBytes (dest : List Cell) : Prog FillResp (Except FillPanic (List Cell)) :=
  if dest.length < 64 then onTrng (fillBytesViaNext e conn dest) else fillChunks e conn dest

/-- `getrandom_inner`: the buffer and `TRNG_CONN` afterwards. -/
def getrandomInner (trngConn : UInt32) (dest : List Cell) :
    Prog FillResp (Except FillPanic (List Cell × UInt32)) :=
  if dest.length = 0 then return .ok (dest, trngConn)
  else do
    match ← onTrng (ensureTrngConn trngConn) with
    | .error p => return .error p
    | .ok conn => return (← fillBytes e conn dest).map fun dest => (dest, conn)

end Sigchat.Getrandom02

import Sigchat.Results.Entropy

/-!
# Buffers of any length

What `getrandom_inner` does on every run, by the length of its buffer: nothing,
blocking scalars, one lent page, or a panic. A page holds 1020 words, so the
chunks of 4096 bytes never fit, and a remainder of more than 4080 bytes asks for
more than there is.

* `fillBytes_shows_iff`      — what a buffer is filled with, and when;
* `getrandomInner_shows_iff` — with the connection, and what holds of every run.
-/

namespace Sigchat.Results.LargeEntropy

open Sigchat.Lib
open Sigchat.Getrandom
open Sigchat.Getrandom02

/-- A request and its answer. -/
abbrev Event := Sigma FillResp

def seen (r : FillReq) (x : FillResp r) : List Event := [⟨r, x⟩]

-- ---------------------------------------------------------------------------
-- Scalars
-- ---------------------------------------------------------------------------

variable (e : Endian) (conn : UInt32)

/-- A program over scalars shows the same where pages are lent too. -/
theorem onTrng_shows {α : Type} {p : Prog TrngResp (Except Panic α)} {es : List Event} {a : α} :
    (onTrng p).Shows seen es (.ok a) ↔
      p.Shows (fun r x => [(⟨.trng r, x⟩ : Event)]) es (.ok a) := by
  -- Lifting the requests changes their names and nothing else of the exchange.
  have hInterp (r : Except Panic α) :
      (p.interp fun r => (.call (.trng r) .done : Prog FillResp (TrngResp r))).Shows seen es r ↔
        p.Shows (fun r x => [(⟨.trng r, x⟩ : Event)]) es r := by
    induction p generalizing es with
    | done b => exact Iff.rfl
    | call r k ih =>
      constructor
      · rintro ⟨x, es', rfl, h⟩
        exact ⟨x, es', rfl, (ih x).mp h⟩
      · rintro ⟨x, es', rfl, h⟩
        exact ⟨x, es', rfl, (ih x).mpr h⟩
  rw [onTrng, Prog.shows_bind, ← hInterp]
  constructor
  -- A panic of the lifted program ends the whole with a panic, which is not the result
  -- here.
  · rintro ⟨r, es₁, es₂, rfl, hFirst, rfl, hEnd⟩
    rw [List.append_nil]
    rcases r with p | b
    · cases hEnd
    · rw [Except.ok.inj hEnd]
      exact hFirst
  · intro h
    exact ⟨.ok a, es, [], (List.append_nil es).symm, h, rfl, rfl⟩

/-- The scalars of the words, with the two values of each answer. -/
def scalars (ws : List Word) (xs : List (UInt32 × UInt32)) : List Event :=
  List.zipWith (fun w x => ⟨.trng (w.request conn), Answer.scalar2 x.1 x.2⟩) ws xs

/-- The bytes of the words, from these values. -/
def wordBytes (ws : List Word) (xs : List (UInt32 × UInt32)) : Bytes :=
  (List.zipWith (fun w x => w.bytes e x.1 x.2) ws xs).flatten

/-- A call that returns has been answered with two words. -/
theorem blockingScalar_shows {α : Type} {count : UInt32} {f : UInt32 → UInt32 → α}
    {es : List Event} {a : α} :
    (blockingScalar conn count f).Shows (fun r x => [(⟨.trng r, x⟩ : Event)]) es (.ok a) ↔
      ∃ x y, es = [⟨.trng (.getTrng conn count), Answer.scalar2 x y⟩] ∧ a = f x y := by
  constructor
  · rintro ⟨x, es', rfl, hRest⟩
    cases x with
    | failed => cases hRest.2
    | other => cases hRest.2
    | scalar2 x y =>
      obtain ⟨rfl, hEnd⟩ := hRest
      exact ⟨x, y, rfl, Except.ok.inj hEnd⟩
  · rintro ⟨x, y, rfl, rfl⟩
    exact ⟨.scalar2 x y, [], rfl, rfl, rfl⟩

/-- The words are asked for one after the other, and each answer gives the bytes
of its word. -/
theorem fetch_shows {ws : List Word} {es : List Event} {bytes : Bytes} :
    (fetch e conn ws).Shows (fun r x => [(⟨.trng r, x⟩ : Event)]) es (.ok bytes) ↔
      ∃ xs, xs.length = ws.length ∧ es = scalars conn ws xs ∧ bytes = wordBytes e ws xs := by
  -- One word at a time.
  induction ws generalizing es bytes with
  | nil =>
    constructor
    · rintro ⟨rfl, hEnd⟩
      exact ⟨[], rfl, rfl, Except.ok.inj hEnd⟩
    · rintro ⟨xs, -, rfl, rfl⟩
      exact ⟨rfl, rfl⟩
  | cons w ws ih =>
    rw [fetch, Prog.shows_bind]
    constructor
    · rintro ⟨r, es₁, es₂, rfl, hFirst, hRest⟩
      rcases r with p | first
      · cases hRest.2
      obtain ⟨x, y, rfl, rfl⟩ := (blockingScalar_shows conn).mp hFirst
      obtain ⟨r, es₁, es₂, rfl, hOthers, rfl, hEnd⟩ := Prog.shows_bind.mp hRest
      rcases r with p | others
      · cases hEnd
      obtain ⟨xs, hLen, rfl, rfl⟩ := ih.mp hOthers
      obtain rfl := Except.ok.inj hEnd
      refine ⟨(x, y) :: xs, congrArg Nat.succ hLen, ?_, rfl⟩
      rw [List.append_nil]
      rfl
    · rintro ⟨xs, hLen, rfl, rfl⟩
      rcases xs with _ | ⟨⟨x, y⟩, xs⟩
      · cases hLen
      refine ⟨.ok (w.bytes e x y), _, scalars conn ws xs, rfl,
        (blockingScalar_shows conn).mpr ⟨x, y, rfl, rfl⟩, Prog.shows_bind.mpr ?_⟩
      exact ⟨.ok (wordBytes e ws xs), _, [], (List.append_nil _).symm,
        ih.mpr ⟨xs, Nat.succ.inj hLen, rfl, rfl⟩, rfl, rfl⟩

/-- One answer a word gives as many bytes as the words hold. -/
theorem length_wordBytes {ws : List Word} {xs : List (UInt32 × UInt32)}
    (hLen : xs.length = ws.length) : (wordBytes e ws xs).length = (ws.map Word.size).sum := by
  induction ws generalizing xs with
  | nil => rfl
  | cons w ws ih =>
    rcases xs with _ | ⟨x, xs⟩
    · cases hLen
    have hRest := ih (Nat.succ.inj hLen)
    show (w.bytes e x.1 x.2 ++ wordBytes e ws xs).length = _
    rw [List.length_append, Word.length_bytes, hRest, List.map_cons, List.sum_cons]

-- ---------------------------------------------------------------------------
-- Pages
-- ---------------------------------------------------------------------------

/-- A page has 1020 words. -/
theorem length_page (buf : TrngBuf) : (buf.bytes e).length = 4080 := by
  have hWord : ∀ w : UInt32, (u32ToNeBytes e w).length = 4 := by
    intro w
    cases e <;> rfl
  have hAll (ws : List UInt32) : (ws.flatMap (u32ToNeBytes e)).length = 4 * ws.length := by
    induction ws with
    | nil => rfl
    | cons w ws ih =>
      rw [List.flatMap_cons, List.length_append, hWord, ih, List.length_cons]
      omega
  rw [TrngBuf.bytes, hAll, Vector.length_toList]

/-- The page that asks for `n` bytes. -/
def pageFor (n : Nat) : FillReq := .lendMut conn (.zeros ((n + 3) / 4).toUInt16)

/-- What does not fit a page panics after the page has been lent; what fits
takes its first bytes. -/
theorem fillRemainder_shows {dest out : List Cell} {es : List Event} (hPos : dest.length ≠ 0) :
    (fillRemainder e conn dest).Shows seen es (.ok out) ↔
      dest.length ≤ 4080 ∧ ∃ buf : TrngBuf,
        es = [⟨pageFor conn dest.length, some buf⟩] ∧ out = writeCells dest (buf.bytes e) := by
  -- The number of words asked for, rounded up.
  have hWords : (if dest.length % 4 = 0 then dest.length / 4 else 1 + dest.length / 4) =
      (dest.length + 3) / 4 := by
    split_ifs <;> omega
  rw [fillRemainder, if_pos hPos]
  dsimp only
  rw [hWords]
  constructor
  · rintro ⟨x, es', rfl, hRest⟩
    rcases x with _ | buf
    · cases hRest.2
    by_cases hFits : dest.length ≤ 4080
    · have hCover : dest.length ≤ (buf.bytes e).length := by rwa [length_page]
      dsimp only at hRest
      rw [if_pos hCover, copyFromSlice_take hCover] at hRest
      obtain ⟨rfl, hEnd⟩ := hRest
      exact ⟨hFits, buf, rfl, Except.ok.inj hEnd⟩
    · have hShort : ¬dest.length ≤ (buf.bytes e).length := by rwa [length_page]
      dsimp only at hRest
      rw [if_neg hShort] at hRest
      cases hRest.2
  · rintro ⟨hFits, buf, rfl, rfl⟩
    have hCover : dest.length ≤ (buf.bytes e).length := by rwa [length_page]
    refine ⟨some buf, [], rfl, ?_⟩
    dsimp only
    rw [if_pos hCover, copyFromSlice_take hCover]
    exact ⟨rfl, rfl⟩

/-- A chunk of 4096 bytes does not fit a page, so no page is lent for it. -/
theorem fillChunks_long {dest : List Cell} (hLong : 4096 ≤ dest.length) :
    fillChunks e conn dest = .done (.error .tooLong) := by
  have hChunk : (dest.take 4096).length / 4 = 1024 := by
    rw [List.length_take, Nat.min_eq_left hLong]
  rw [fillChunks, if_pos hLong]
  dsimp only
  rw [hChunk, fillBuf, if_neg (by decide)]
  rfl

-- ---------------------------------------------------------------------------
-- A buffer
-- ---------------------------------------------------------------------------

/-- The requests for a buffer of `n` bytes. -/
def requestsFor (n : Nat) : List FillReq :=
  if n < 64 then (wordsFor n).map fun w => .trng (w.request conn) else [pageFor conn n]

/-- The server does what it is asked. -/
inductive Granted : Event → Prop where
  | scalar (conn count a b : UInt32) : Granted ⟨.trng (.getTrng conn count), Answer.scalar2 a b⟩
  | page (conn : UInt32) (buf buf' : TrngBuf) : Granted ⟨.lendMut conn buf, some buf'⟩

/-- The bytes of an answer. -/
def bytesOf : Event → Bytes
  | ⟨.trng (.getTrng _ count), Answer.scalar2 a b⟩ =>
    if count = 2 then u64ToNeBytes e (a.toUInt64 ||| b.toUInt64 <<< 32) else u32ToNeBytes e a
  | ⟨.lendMut _ _, some buf⟩ => buf.bytes e
  | _ => []

/-- The buffer is filled with the bytes of the answers, in their order. -/
structure Filled (dest : List Cell) (es : List Event) (out : List Cell) : Prop where
  fits : dest.length ≤ 4080
  asked : es.map Sigma.fst = requestsFor conn dest.length
  granted : ∀ event ∈ es, Granted event
  written : out = writeCells dest (es.flatMap (bytesOf e))

theorem bytesOf_scalar (w : Word) (a b : UInt32) :
    bytesOf e ⟨.trng (w.request conn), Answer.scalar2 a b⟩ = w.bytes e a b := by
  cases w <;> rfl

theorem bytes_scalars {ws : List Word} {xs : List (UInt32 × UInt32)} :
    (scalars conn ws xs).flatMap (bytesOf e) = wordBytes e ws xs := by
  induction ws generalizing xs with
  | nil => rfl
  | cons w ws ih =>
    rcases xs with _ | ⟨x, xs⟩
    · rfl
    have hFirst := bytesOf_scalar e conn w x.1 x.2
    have hRest : (scalars conn ws xs).flatMap (bytesOf e) = wordBytes e ws xs := ih
    show bytesOf e _ ++ (scalars conn ws xs).flatMap (bytesOf e) = w.bytes e x.1 x.2 ++ _
    rw [hFirst, hRest]
    rfl

/-- Scalars that are granted are answered by two values each. -/
theorem exists_scalars_iff {ws : List Word} {es : List Event} :
    (∃ xs, xs.length = ws.length ∧ es = scalars conn ws xs) ↔
      es.map Sigma.fst = ws.map (fun w => FillReq.trng (w.request conn)) ∧
        ∀ event ∈ es, Granted event := by
  induction ws generalizing es with
  | nil =>
    constructor
    · rintro ⟨xs, -, rfl⟩
      exact ⟨rfl, List.forall_mem_nil _⟩
    · rintro ⟨hAsked, -⟩
      exact ⟨[], rfl, List.map_eq_nil_iff.mp hAsked⟩
  | cons w ws ih =>
    constructor
    · rintro ⟨xs, hLen, rfl⟩
      rcases xs with _ | ⟨x, xs⟩
      · cases hLen
      obtain ⟨hAsked, hGranted⟩ := ih.mp ⟨xs, Nat.succ.inj hLen, rfl⟩
      exact ⟨congrArg (_ :: ·) hAsked,
        List.forall_mem_cons.mpr ⟨.scalar conn w.count x.1 x.2, hGranted⟩⟩
    · rintro ⟨hAsked, hGranted⟩
      obtain ⟨event, es, rfl, hFirst, hOthers⟩ := List.map_eq_cons_iff.mp hAsked
      obtain ⟨hHead, hTail⟩ := List.forall_mem_cons.mp hGranted
      obtain ⟨xs, hLen, rfl⟩ := ih.mpr ⟨hOthers, hTail⟩
      -- The answer to a word is two scalars, never a page.
      cases hHead with
      | scalar conn' count a b =>
        obtain ⟨rfl, rfl⟩ := TrngReq.getTrng.inj (FillReq.trng.inj hFirst)
        exact ⟨(a, b) :: xs, congrArg Nat.succ hLen, rfl⟩
      | page conn' buf buf' => cases hFirst

/-- **What a buffer is filled with**, on every run that returns. -/
theorem fillBytes_shows_iff {dest out : List Cell} {es : List Event} :
    (fillBytes e conn dest).Shows seen es (.ok out) ↔ Filled e conn dest es out := by
  by_cases hSmall : dest.length < 64
  -- Below 64 bytes word by word, from 4096 on a panic, and in between one page.
  · rw [fillBytes, if_pos hSmall, onTrng_shows, fillBytesViaNext_eq_fillFromTrng,
      fillFromTrng_eq_fetch, Prog.shows_bind]
    constructor
    · rintro ⟨r, es₁, es₂, rfl, hFetch, rfl, hEnd⟩
      rcases r with p | bytes
      · cases hEnd
      obtain ⟨xs, hLen, rfl, rfl⟩ := (fetch_shows e conn).mp hFetch
      obtain ⟨hAsked, hGranted⟩ := (exists_scalars_iff conn).mp ⟨xs, hLen, rfl⟩
      rw [List.append_nil]
      refine ⟨by omega, ?_, hGranted, ?_⟩
      · rw [requestsFor, if_pos hSmall]
        exact hAsked
      · rw [bytes_scalars]
        exact Except.ok.inj hEnd
    · rintro ⟨-, hAsked, hGranted, rfl⟩
      rw [requestsFor, if_pos hSmall] at hAsked
      obtain ⟨xs, hLen, rfl⟩ := (exists_scalars_iff conn).mpr ⟨hAsked, hGranted⟩
      rw [bytes_scalars]
      exact ⟨.ok (wordBytes e (wordsFor dest.length) xs), _, [], (List.append_nil _).symm,
        (fetch_shows e conn).mpr ⟨xs, hLen, rfl, rfl⟩, rfl, rfl⟩
  · rw [fillBytes, if_neg hSmall]
    by_cases hLong : 4096 ≤ dest.length
    · rw [fillChunks_long e conn hLong]
      refine iff_of_false (fun h => by cases h.2) fun h => ?_
      have hFits := h.fits
      omega
    · rw [fillChunks, if_neg hLong, fillRemainder_shows e conn (by omega)]
      constructor
      · rintro ⟨hFits, buf, rfl, rfl⟩
        refine ⟨hFits, ?_, ?_, ?_⟩
        · rw [requestsFor, if_neg hSmall]
          rfl
        · exact List.forall_mem_singleton.mpr (.page conn _ buf)
        · rw [List.flatMap_singleton]
          rfl
      · rintro ⟨hFits, hAsked, hGranted, rfl⟩
        rw [requestsFor, if_neg hSmall] at hAsked
        obtain ⟨event, rfl, hFirst⟩ := List.map_eq_singleton_iff.mp hAsked
        cases hGranted event List.mem_cons_self with
        | scalar conn' count a b => cases hFirst
        | page conn' buf buf' =>
          obtain ⟨rfl, rfl⟩ := FillReq.lendMut.inj hFirst
          refine ⟨hFits, buf', rfl, ?_⟩
          rw [List.flatMap_singleton]
          rfl

variable {e conn}

/-- The answers cover the buffer. -/
theorem Filled.cover {dest out : List Cell} {es : List Event} (h : Filled e conn dest es out) :
    dest.length ≤ (es.flatMap (bytesOf e)).length := by
  obtain ⟨hFits, hAsked, hGranted, -⟩ := h
  unfold requestsFor at hAsked
  split_ifs at hAsked with hSmall
  · obtain ⟨xs, hLen, rfl⟩ := (exists_scalars_iff conn).mpr ⟨hAsked, hGranted⟩
    rw [bytes_scalars, length_wordBytes e hLen]
    exact (size_wordsFor _).1
  · obtain ⟨event, rfl, hFirst⟩ := List.map_eq_singleton_iff.mp hAsked
    cases hGranted event List.mem_cons_self with
    | scalar conn' count a b => cases hFirst
    | page conn' buf buf' =>
      have hPage : bytesOf e ⟨.lendMut conn' buf, some buf'⟩ = buf'.bytes e := rfl
      rw [List.flatMap_singleton, hPage, length_page]
      exact hFits

-- ---------------------------------------------------------------------------
-- With the connection
-- ---------------------------------------------------------------------------

/-- The connection is looked up once, by its name. -/
def Connects (trngConn : UInt32) (es : List Event) (conn : UInt32) : Prop :=
  if trngConn = 0 then es = [⟨.trng .connect, some conn⟩] else es = [] ∧ conn = trngConn

/-- A connection is opened exactly if there is none yet. -/
theorem ensureTrngConn_shows {trngConn conn : UInt32} {es : List Event} :
    (onTrng (ensureTrngConn trngConn)).Shows seen es (.ok conn) ↔ Connects trngConn es conn := by
  rw [onTrng_shows]
  unfold ensureTrngConn Connects
  by_cases hConn : trngConn = 0
  · rw [if_pos hConn, if_pos hConn]
    constructor
    · rintro ⟨x, es', rfl, hRest⟩
      rcases x with _ | x
      · cases hRest.2
      · obtain ⟨rfl, hEnd⟩ := hRest
        rw [Except.ok.inj hEnd]
        rfl
    · rintro rfl
      exact ⟨some conn, [], rfl, rfl, rfl⟩
  · rw [if_neg hConn, if_neg hConn]
    exact and_congr_right fun _ => ⟨fun h => Except.ok.inj h, fun h => congrArg Except.ok h⟩

/-- A run that returns, with what the buffer and `TRNG_CONN` are then. -/
def Returns (e : Endian) (trngConn : UInt32) (dest : List Cell) (es : List Event)
    (out : List Cell) (conn : UInt32) : Prop :=
  if dest = [] then es = [] ∧ out = [] ∧ conn = trngConn
  else ∃ es₁ es₂, es = es₁ ++ es₂ ∧ Connects trngConn es₁ conn ∧ Filled e conn dest es₂ out

/-- What a request for bytes returns, whatever the server has answered. -/
theorem getrandomInner_shows_iff {trngConn conn : UInt32} {dest out : List Cell}
    {es : List Event} :
    (getrandomInner e trngConn dest).Shows seen es (.ok (out, conn)) ↔
      Returns e trngConn dest es out conn := by
  unfold getrandomInner Returns
  -- An empty buffer asks for nothing, not even for a connection.
  by_cases hEmpty : dest = []
  · subst hEmpty
    rw [if_pos List.length_nil, if_pos rfl]
    refine and_congr_right fun _ => ⟨fun h => Prod.mk.inj (Except.ok.inj h), ?_⟩
    rintro ⟨rfl, rfl⟩
    rfl
  · have hLength : dest.length ≠ 0 := fun h => hEmpty (List.eq_nil_of_length_eq_zero h)
    rw [if_neg hLength, if_neg hEmpty, Prog.shows_bind]
    constructor
    · rintro ⟨r, es₁, es₂, rfl, hConnect, hRest⟩
      rcases r with p | conn'
      · cases hRest.2
      obtain ⟨r, es₂, es₃, rfl, hFill, rfl, hEnd⟩ := Prog.shows_bind.mp hRest
      rcases r with p | filled
      · cases hEnd
      obtain ⟨rfl, rfl⟩ := Prod.mk.inj (Except.ok.inj hEnd)
      refine ⟨es₁, es₂, ?_, ensureTrngConn_shows.mp hConnect, (fillBytes_shows_iff e _).mp hFill⟩
      rw [List.append_nil]
    · rintro ⟨es₁, es₂, rfl, hConnect, hFilled⟩
      refine ⟨.ok conn, es₁, es₂, rfl, ensureTrngConn_shows.mpr hConnect, Prog.shows_bind.mpr ?_⟩
      exact ⟨.ok out, es₂, [], (List.append_nil _).symm,
        (fillBytes_shows_iff e conn).mpr hFilled, rfl, rfl⟩

/-- On looking up the connection there are no bytes. -/
theorem Connects.bytes {trngConn conn : UInt32} {es : List Event}
    (h : Connects trngConn es conn) : es.flatMap (bytesOf e) = [] := by
  unfold Connects at h
  split_ifs at h
  · rw [h]
    rfl
  · rw [h.1]
    rfl

/-- Opening the connection is the only request made for it. -/
theorem all_ensureTrngConn (trngConn : UInt32) :
    (onTrng (ensureTrngConn trngConn)).All (· = .trng .connect) := by
  unfold ensureTrngConn
  split_ifs
  · exact ⟨rfl, fun x => by cases x <;> trivial⟩
  · trivial

/-- A long buffer is filled by no run, and none asks for bytes. -/
theorem long_asks_nothing {trngConn : UInt32} {dest : List Cell} (hLong : 4096 ≤ dest.length)
    {es : List Event} {r : Except FillPanic (List Cell × UInt32)}
    (h : (getrandomInner e trngConn dest).Shows seen es r) :
    ∀ event ∈ es, event.1 = .trng .connect := by
  have hSmall : ¬dest.length < 64 := by omega
  have hPos : dest.length ≠ 0 := by omega
  -- The panic comes before the first chunk.
  have hNone (conn : UInt32) : fillBytes e conn dest = .done (.error .tooLong) := by
    rw [fillBytes, if_neg hSmall, fillChunks_long e conn hLong]
  have hConnect {es : List Event} {r : Except FillPanic UInt32}
      (h : (onTrng (ensureTrngConn trngConn)).Shows seen es r) :
      ∀ event ∈ es, event.1 = .trng .connect := by
    refine h.forall_mem (fun r hr x event hMem => ?_) (all_ensureTrngConn trngConn)
    rw [List.mem_singleton.mp hMem]
    exact hr
  unfold getrandomInner at h
  rw [if_neg hPos, Prog.shows_bind] at h
  obtain ⟨r, es₁, es₂, rfl, hFirst, hRest⟩ := h
  have hNil : es₂ = [] := by
    rcases r with p | conn
    · exact hRest.1
    · dsimp only at hRest
      rw [hNone] at hRest
      exact hRest.1
  rw [hNil, List.append_nil]
  exact hConnect hFirst

/-- **Buffers of any length.** A run returns exactly if the buffer has at most
4080 bytes and each request is granted; every byte has then been written once,
with the byte of the answers at its position. From 4096 bytes on no bytes are
asked for at all. -/
theorem getrandom_any_length (e : Endian) (trngConn : UInt32) (dest : List Cell) :
    (∀ es out conn, (getrandomInner e trngConn dest).Shows seen es (.ok (out, conn)) ↔
      Returns e trngConn dest es out conn) ∧
    (∀ es out conn, Returns e trngConn dest es out conn →
      dest.length ≤ 4080 ∧ out.map Cell.writes = dest.map (·.writes + 1) ∧
        out.map Cell.value = (es.flatMap (bytesOf e)).take dest.length) ∧
    (4096 ≤ dest.length → ∀ es r, (getrandomInner e trngConn dest).Shows seen es r →
      ∀ event ∈ es, event.1 = .trng .connect) := by
  refine ⟨fun es out conn => getrandomInner_shows_iff, fun es out conn h => ?_,
    fun hLong es r h => long_asks_nothing hLong h⟩
  unfold Returns at h
  split_ifs at h with hEmpty
  · obtain ⟨rfl, rfl, -⟩ := h
    subst hEmpty
    exact ⟨Nat.zero_le _, rfl, rfl⟩
  · obtain ⟨es₁, es₂, rfl, hConnect, hFilled⟩ := h
    have hCover := hFilled.cover
    rw [List.flatMap_append, hConnect.bytes, List.nil_append, hFilled.written]
    exact ⟨hFilled.fits, map_writes_writeCells hCover, map_value_writeCells _ _⟩

end Sigchat.Results.LargeEntropy

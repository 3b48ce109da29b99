import Sigchat.Lib.Request
import Sigchat.Lib.Text

/-!
# PDDB, the key-value server

Every persisted record lives in PDDB, a map from (dictionary, key) to bytes
that executes one request at a time. A request is served, transfers fewer
bytes than asked for, or fails and changes nothing; which of these happens is
the environment's choice (`Outcome`).

`write_all` of the standard library is modelled with its loop, so that every
prefix of a record is a state another thread, or the next boot, can see.
`read_to_end` is one request to a client that has the key to itself, and a loop
of reads (`inPieces`) where other threads are served in between; alone, the loop
answers as the request does (`exists_run_inPieces`).

The lemmas of the last section say what each helper does under every outcome;
the stores cite them and never look at the requests again.
-/

namespace Sigchat.Pddb

open Sigchat.Lib

-- ---------------------------------------------------------------------------
-- Errors and outcomes
-- ---------------------------------------------------------------------------

/-- The `std::io::ErrorKind`s the program tells apart. `Interrupted` is absent:
the standard library retries such a request, and it has changed nothing. -/
inductive ErrorKind where
  | notFound
  | invalidData
  | writeZero
  | wouldBlock
  | timedOut
  | other
  deriving DecidableEq, Repr

structure IoError where
  kind : ErrorKind
  msg : String
  deriving DecidableEq, Repr

/-- `Error::from(kind)` shows the description of the kind. -/
def IoError.ofKind (kind : ErrorKind) : IoError :=
  ⟨kind, match kind with
    | .notFound => "entity not found"
    | .invalidData => "invalid data"
    | .writeZero => "write zero"
    | .wouldBlock => "operation would block"
    | .timedOut => "timed out"
    | .other => "other error"⟩

/-- A failure of a request. `NotFound` is PDDB's answer for a key that is
absent, so it is not the kind of any failure. -/
structure Fault where
  err : IoError
  kind_ne : err.kind ≠ .notFound

inductive Outcome where
  | served
  /-- At most `n` bytes are transferred by a read or a write. -/
  | short (n : Nat)
  | failed (f : Fault)

/-- How many of `len` bytes a request transfers. -/
def Outcome.limit : Outcome → Nat → Nat
  | .short n, len => min n len
  | _, len => len

/-- No more is transferred than was asked for. -/
theorem Outcome.limit_le (o : Outcome) (len : Nat) : o.limit len ≤ len := by
  cases o with
  | short n => exact Nat.min_le_right n len
  | served => exact Nat.le_refl _
  | failed f => exact Nat.le_refl _

/-- The request did not fail and made progress. -/
def Outcome.Succeeds : Outcome → Prop
  | .served => True
  | .short n => 0 < n
  | .failed _ => False

/-- A request that makes progress transfers something. -/
theorem Outcome.Succeeds.limit_pos {o : Outcome} (h : o.Succeeds) {len : Nat} (hLen : 0 < len) :
    0 < o.limit len := by
  cases o with
  | served => exact hLen
  | short n => exact Nat.lt_min.mpr ⟨h, hLen⟩
  | failed f => exact h.elim

-- ---------------------------------------------------------------------------
-- Requests
-- ---------------------------------------------------------------------------

/-- The requests the program issues. `get` always creates the dictionary, and
the key only when `createKey` is set. -/
inductive Req where
  | deleteKey (dict key : String)
  | get (dict key : String) (createKey : Bool)
  | read (dict key : String) (pos len : Nat)
  /-- The reads of `read_to_end` taken together, as if none were served between
  them. -/
  | readToEnd (dict key : String)
  /-- One of these reads: some bytes from `pos` on, and none only at the end. -/
  | readMore (dict key : String) (pos : Nat)
  | write (dict key : String) (pos : Nat) (data : Bytes)
  | sync
  | deleteDict (dict : String)

abbrev Ans : Req → Type
  | .read .. => Bytes
  | .readToEnd .. => Bytes
  | .readMore .. => Bytes
  | .write .. => Nat
  | _ => Unit

abbrev Resp (r : Req) : Type := Except IoError (Ans r)

/-- The request reads or changes this key. -/
def Req.Touches (dict key : String) : Req → Prop
  | .deleteKey d k => d = dict ∧ k = key
  | .get d k _ => d = dict ∧ k = key
  | .read d k _ _ => d = dict ∧ k = key
  | .readToEnd d k => d = dict ∧ k = key
  | .readMore d k _ => d = dict ∧ k = key
  | .write d k _ _ => d = dict ∧ k = key
  | .sync => False
  | .deleteDict d => d = dict

instance (dict key : String) : (r : Req) → Decidable (r.Touches dict key)
  | .sync => isFalse id
  | .deleteDict d => inferInstanceAs (Decidable (d = dict))
  | .deleteKey d k | .get d k _ | .read d k _ _ | .readToEnd d k | .readMore d k _
  | .write d k _ _ =>
    inferInstanceAs (Decidable (d = dict ∧ k = key))

-- ---------------------------------------------------------------------------
-- The server
-- ---------------------------------------------------------------------------

abbrev Disk := String → String → Option Bytes

def Disk.set (s : Disk) (dict key : String) (v : Option Bytes) : Disk := fun d k =>
  if d = dict ∧ k = key then v else s d k

@[simp] theorem Disk.set_same (s : Disk) (d k : String) (v : Option Bytes) :
    s.set d k v d k = v := if_pos ⟨rfl, rfl⟩

theorem Disk.set_other (s : Disk) {d k d' k' : String} (v : Option Bytes)
    (h : ¬(d' = d ∧ k' = k)) : s.set d k v d' k' = s d' k' := if_neg h

@[simp] theorem Disk.set_set (s : Disk) (d k : String) (v w : Option Bytes) :
    (s.set d k v).set d k w = s.set d k w := by
  funext d' k'
  unfold Disk.set
  split <;> rfl

@[simp] theorem Disk.set_self (s : Disk) (d k : String) : s.set d k (s d k) = s := by
  funext d' k'
  unfold Disk.set
  split
  · rename_i h
    rw [h.1, h.2]
  · rfl

/-- Write `data` at position `pos` of a key's content. -/
def overlay (old : Bytes) (pos : Nat) (data : Bytes) : Bytes :=
  (old ++ List.replicate (pos - old.length) 0).take pos ++ data ++ old.drop (pos + data.length)

/-- PDDB's answer for an absent key. -/
def keyNotFound : IoError := IoError.ofKind .notFound

/-- The answer through a handle whose key has been deleted since. -/
def staleHandle : IoError := IoError.ofKind .other

def perform (o : Outcome) : (r : Req) → Disk → Resp r × Disk
  | .deleteKey d k, s =>
    match s d k with
    | none => (.error keyNotFound, s)
    | some _ => (.ok (), s.set d k none)
  | .get d k createKey, s =>
    match s d k with
    | some _ => (.ok (), s)
    | none => if createKey then (.ok (), s.set d k (some [])) else (.error keyNotFound, s)
  | .read d k pos len, s =>
    match s d k with
    | none => (.error staleHandle, s)
    | some bs => (.ok ((bs.drop pos).take (o.limit len)), s)
  | .readToEnd d k, s =>
    match s d k with
    | none => (.error staleHandle, s)
    | some bs => (.ok bs, s)
  | .readMore d k pos, s =>
    match s d k with
    | none => (.error staleHandle, s)
    | some bs => (.ok ((bs.drop pos).take (max 1 (o.limit (bs.length - pos)))), s)
  | .write d k pos data, s =>
    match s d k with
    | none => (.error staleHandle, s)
    | some bs =>
      let n := o.limit data.length
      (.ok n, s.set d k (some (overlay bs pos (data.take n))))
  | .sync, s => (.ok (), s)
  | .deleteDict d, s => (.ok (), fun d' k => if d' = d then none else s d' k)

def serve : Server Resp Disk Outcome
  | .failed f, _, s => (.error f.err, s)
  | o, r, s => perform o r s

/-- **Frame.** A request leaves every key it does not touch as it is. -/
theorem serve_frame {r : Req} {d k : String} (h : ¬r.Touches d k) (o : Outcome) (s : Disk) :
    (serve o r s).2 d k = s d k := by
  cases o with
  | failed f => rfl
  | served | short n =>
    cases r with
    | deleteKey d' k' =>
      simp only [serve, perform]
      cases s d' k' with
      | none => rfl
      | some v => exact Disk.set_other s _ fun hk => h ⟨hk.1.symm, hk.2.symm⟩
    | get d' k' createKey =>
      simp only [serve, perform]
      cases s d' k' with
      | some v => rfl
      | none =>
        cases createKey with
        | false => rfl
        | true => exact Disk.set_other s _ fun hk => h ⟨hk.1.symm, hk.2.symm⟩
    -- reads change nothing
    | read d' k' pos len =>
      simp only [serve, perform]
      cases s d' k' <;> rfl
    | readToEnd d' k' =>
      simp only [serve, perform]
      cases s d' k' <;> rfl
    | readMore d' k' pos =>
      simp only [serve, perform]
      cases s d' k' <;> rfl
    | write d' k' pos data =>
      simp only [serve, perform]
      cases s d' k' with
      | none => rfl
      | some v => exact Disk.set_other s _ fun hk => h ⟨hk.1.symm, hk.2.symm⟩
    | sync => rfl
    | deleteDict d' => exact if_neg fun hk => h hk.symm

/-- **Locality.** What a request answers and leaves in a key it touches depends
on that key only. -/
theorem serve_local {r : Req} {d k : String} (h : r.Touches d k) (o : Outcome) {s s' : Disk}
    (hSame : s d k = s' d k) :
    (serve o r s).1 = (serve o r s').1 ∧ (serve o r s).2 d k = (serve o r s').2 d k := by
  cases o with
  | failed f => exact ⟨rfl, hSame⟩
  | served | short n =>
    cases r with
    | sync => exact h.elim
    | deleteDict d' =>
      refine ⟨rfl, ?_⟩
      simp only [serve, perform, Eq.symm (h : d' = d), if_true]
    | get d' k' createKey =>
      obtain ⟨rfl, rfl⟩ := h
      simp only [serve, perform, hSame]
      cases hs' : s' d' k' <;> cases createKey <;> simp [hSame, hs']
    -- a request on the key answers by its content
    | _ =>
      obtain ⟨rfl, rfl⟩ := h
      simp only [serve, perform, hSame]
      split <;> simp [*]

-- ---------------------------------------------------------------------------
-- Operations of the client library
-- ---------------------------------------------------------------------------

/-- `read_to_end` once `buf` has been read. Each read but the last adds a byte to
a vector, which holds fewer than `2 ^ 31` of them on the target; `fuel` bounds
the reads. -/
def readToEndLoop (dict key : String) : Nat → Bytes → Prog Resp (Except IoError Bytes)
  | 0, _ => .done (.error (IoError.ofKind .other))
  | fuel + 1, buf =>
    .call (.readMore dict key buf.length) fun
      | .error e => .done (.error e)
      | .ok [] => .done (.ok buf)
      | .ok (b :: bs) => readToEndLoop dict key fuel (buf ++ b :: bs)

/-- The requests as they are issued one by one: `read_to_end` is its loop. -/
def inPieces : (r : Req) → Prog Resp (Resp r)
  | .readToEnd dict key => readToEndLoop dict key (2 ^ 31) []
  | r => .request r

/-- `write_all` from position `pos` on; `fuel` bounds the bytes left. -/
def writeAllLoop (dict key : String) : Nat → Nat → Bytes → Prog Resp (Except IoError Unit)
  | _, _, [] => .done (.ok ())
  | 0, _, _ :: _ => .done (.error (IoError.ofKind .writeZero))
  | fuel + 1, pos, b :: bs =>
    .call (.write dict key pos (b :: bs)) fun
      | .error e => .done (.error e)
      | .ok 0 => .done (.error ⟨.writeZero, "failed to write whole buffer"⟩)
      | .ok (n + 1) => writeAllLoop dict key fuel (pos + (n + 1)) ((b :: bs).drop (n + 1))

def writeAll (dict key : String) (data : Bytes) : Prog Resp (Except IoError Unit) :=
  writeAllLoop dict key data.length 0 data

/-- Write a record to an open key and sync; a failure of the sync is ignored. -/
def writeRecord {ε : Type} (writeErr : IoError → ε) (dict key : String) (data : Bytes) :
    Prog Resp (Except ε Unit) := do
  match ← writeAll dict key data with
  | .error e => .done (.error (writeErr e))
  | .ok () => .call .sync fun _ => .done (.ok ())

/-- Open a key for writing, creating it if it is absent, and write it. -/
def createRecord {ε : Type} (getErr writeErr : IoError → ε) (dict key : String) (data : Bytes) :
    Prog Resp (Except ε Unit) :=
  .call (.get dict key true) fun
    | .error e => .done (.error (getErr e))
    | .ok () => writeRecord writeErr dict key data

/-- The way records are replaced everywhere: delete the key so that nothing of
a longer old value remains (a failure is ignored), create it, write it. -/
def overwrite {ε : Type} (getErr writeErr : IoError → ε) (dict key : String) (data : Bytes) :
    Prog Resp (Except ε Unit) :=
  .call (.deleteKey dict key) fun _ => createRecord getErr writeErr dict key data

/-- The requests of `write_all` are writes to the key. -/
theorem all_writeAll {P : Req → Prop} {d k : String} (hP : ∀ pos data, P (.write d k pos data))
    (data : Bytes) : (writeAll d k data).All P := by
  have hLoop (fuel : Nat) : ∀ pos bs, (writeAllLoop d k fuel pos bs).All P := by
    induction fuel with
    | zero => intro pos bs; cases bs <;> trivial
    | succ fuel ih =>
      intro pos bs
      cases bs with
      | nil => trivial
      | cons b bs =>
        refine ⟨hP _ _, fun x => ?_⟩
        match x with
        | .error e => trivial
        | .ok 0 => trivial
        | .ok (n + 1) => exact ih _ _
  exact hLoop _ _ _

/-- The requests of an overwrite. -/
theorem all_overwrite {P : Req → Prop} {ε : Type} {getErr writeErr : IoError → ε} {d k : String}
    (hDelete : P (.deleteKey d k)) (hGet : P (.get d k true))
    (hWrite : ∀ pos data, P (.write d k pos data)) (hSync : P .sync) (data : Bytes) :
    (overwrite getErr writeErr d k data).All P := by
  refine ⟨hDelete, fun _ => ⟨hGet, fun x => ?_⟩⟩
  cases x with
  | error e => trivial
  | ok _ =>
    refine (all_writeAll hWrite data).bind fun x => ?_
    cases x with
    | error e => trivial
    | ok _ => exact ⟨hSync, fun _ => trivial⟩

-- ---------------------------------------------------------------------------
-- The read loop
-- ---------------------------------------------------------------------------

section ReadLoop

variable {d k : String}

/-- What one read of the loop answers. It changes nothing. -/
theorem serve_readMore (o : Outcome) (s : Disk) (d k : String) (pos : Nat) :
    (∃ f, o = .failed f ∧ serve o (.readMore d k pos) s = (.error f.err, s)) ∨
    (s d k = none ∧ serve o (.readMore d k pos) s = (.error staleHandle, s)) ∨
    ∃ bs n, s d k = some bs ∧ 0 < n ∧
      serve o (.readMore d k pos) s = (.ok ((bs.drop pos).take n), s) := by
  have hAnswer (o : Outcome) :
      (s d k = none ∧ perform o (.readMore d k pos) s = (.error staleHandle, s)) ∨
      ∃ bs n, s d k = some bs ∧ 0 < n ∧
        perform o (.readMore d k pos) s = (.ok ((bs.drop pos).take n), s) := by
    cases h : s d k with
    | none => exact .inl ⟨rfl, by simp only [perform, h]⟩
    | some bs =>
      exact .inr ⟨bs, max 1 (o.limit (bs.length - pos)), rfl, by omega,
        by simp only [perform, h]⟩
  cases o with
  | failed f => exact .inl ⟨f, rfl, rfl⟩
  | served => exact .inr (hAnswer .served)
  | short n => exact .inr (hAnswer (.short n))

theorem readMore_disk (o : Outcome) (s : Disk) (d k : String) (pos : Nat) :
    (serve o (.readMore d k pos) s).2 = s := by
  rcases serve_readMore o s d k pos with ⟨f, -, hs⟩ | ⟨-, hs⟩ | ⟨bs, n, -, -, hs⟩ <;> rw [hs]

/-- The requests of `read_to_end` are reads of the key. -/
theorem all_readToEndLoop {P : Req → Prop} (hP : ∀ pos, P (.readMore d k pos)) (fuel : Nat)
    (buf : Bytes) : (readToEndLoop d k fuel buf).All P := by
  induction fuel generalizing buf with
  | zero => trivial
  | succ fuel ih =>
    refine ⟨hP _, fun x => ?_⟩
    match x with
    | .error e => trivial
    | .ok [] => trivial
    | .ok (b :: bs) => exact ih _

/-- What the requests satisfy their pieces do, if the reads of a record do. -/
theorem all_inPieces {P : Req → Prop} (hPieces : ∀ d k pos, P (.readMore d k pos)) {r : Req}
    (hr : P r) : (inPieces r).All P := by
  cases r with
  | readToEnd d k => exact all_readToEndLoop (hPieces d k) _ _
  | _ => exact ⟨hr, fun _ => trivial⟩

/-- Where a read of the loop gets nothing, all has been read. -/
theorem drop_eq_nil_of_take {bs : Bytes} {pos n : Nat} (hn : 0 < n)
    (h : (bs.drop pos).take n = []) : bs.drop pos = [] :=
  (List.take_eq_nil_iff.mp h).resolve_left hn.ne'

/-- What it gets follows what has been read of the same content. -/
theorem take_append_piece {bs piece : Bytes} {pos n : Nat} (hpos : pos ≤ bs.length)
    (h : (bs.drop pos).take n = piece) :
    bs.take pos ++ piece = bs.take (pos + piece.length) ∧ pos + piece.length ≤ bs.length := by
  have hLen : piece.length = min n (bs.length - pos) := by
    rw [← h, List.length_take, List.length_drop]
  refine ⟨?_, by omega⟩
  rw [List.take_add, ← h, List.length_take, List.take_eq_take_min (i := n)]

/-- Alone on the disk, the loop answers as the one request does. -/
theorem exists_run_readToEndLoop {bs : Bytes} {s : Disk} (h : s d k = some bs) (fuel : Nat)
    {pos : Nat} (hpos : pos ≤ bs.length) (env : Env Req Outcome) :
    ∃ o, (readToEndLoop d k fuel (bs.take pos)).run serve env s =
      serve o (.readToEnd d k) s := by
  induction fuel generalizing pos env with
  | zero => exact ⟨.failed ⟨IoError.ofKind .other, by decide⟩, rfl⟩
  | succ fuel ih =>
    have hLen : (bs.take pos).length = pos := List.length_take_of_le hpos
    rw [readToEndLoop, Prog.run_call, hLen]
    -- the read fails, finds no key, or gets the next bytes
    rcases serve_readMore (env 0 (.readMore d k pos)) s d k pos with
      ⟨f, -, hs⟩ | ⟨hNone, -⟩ | ⟨bs', n, hSome, hn, hs⟩
    · rw [hs]
      exact ⟨.failed f, rfl⟩
    · exact absurd (hNone.symm.trans h) (Option.some_ne_none bs).symm
    · obtain rfl : bs' = bs := Option.some.inj (hSome.symm.trans h)
      rw [hs]
      rcases hPiece : (bs'.drop pos).take n with _ | ⟨b, piece⟩
      · -- the end: nothing is left of the content
        have hAll : bs'.take pos = bs' :=
          List.take_of_length_le (List.drop_eq_nil_iff.mp (drop_eq_nil_of_take hn hPiece))
        exact ⟨.served, by simp only [Prog.run_done, hAll, serve, perform, h]⟩
      · obtain ⟨hNext, hBound⟩ := take_append_piece hpos hPiece
        dsimp only
        rw [hNext]
        exact ih hBound env.tail

/-- The first read finds that there is no key. -/
theorem exists_run_readToEndLoop_absent {s : Disk} (h : s d k = none) (fuel : Nat)
    (env : Env Req Outcome) :
    ∃ o, (readToEndLoop d k (fuel + 1) []).run serve env s = serve o (.readToEnd d k) s := by
  rw [readToEndLoop, Prog.run_call]
  rcases serve_readMore (env 0 (.readMore d k 0)) s d k 0 with
    ⟨f, -, hs⟩ | ⟨-, hs⟩ | ⟨bs, -, hSome, -⟩
  · rw [List.length_nil, hs]
    exact ⟨.failed f, rfl⟩
  · rw [List.length_nil, hs]
    exact ⟨.served, by simp only [Prog.run_done, serve, perform, h]⟩
  · exact absurd (h.symm.trans hSome) (Option.some_ne_none bs).symm

/-- **One by one.** A client that has the disk to itself ends in pieces as it
ends under some outcomes of its requests. -/
theorem exists_run_inPieces {α : Type} (p : Prog Resp α) (env : Env Req Outcome) (s : Disk) :
    ∃ env', (p.interp inPieces).run serve env s = p.run serve env' s := by
  refine Prog.exists_run_interp (fun r env s => ?_) p env s
  cases r with
  | readToEnd d k =>
    rcases h : s d k with _ | bs
    · exact exists_run_readToEndLoop_absent h (2 ^ 31 - 1) env
    · exact exists_run_readToEndLoop h (2 ^ 31) (Nat.zero_le _) env
  | _ => exact ⟨env 0 _, rfl⟩

end ReadLoop

-- ---------------------------------------------------------------------------
-- The write loop
-- ---------------------------------------------------------------------------

/-- The content of a key holding `old` once the first `n` bytes of `new` have
been written over it. -/
def torn (new old : Bytes) (n : Nat) : Bytes := new.take n ++ old.drop n

@[simp] theorem torn_zero (new old : Bytes) : torn new old 0 = old := rfl

theorem torn_length (new old : Bytes) : torn new old new.length = new ++ old.drop new.length := by
  rw [torn, List.take_length]

@[simp] theorem torn_nil (new : Bytes) (n : Nat) : torn new [] n = new.take n := by
  rw [torn, List.drop_nil, List.append_nil]

/-- Writing the next bytes of `new` where the first have been written. -/
theorem overlay_torn {new old : Bytes} {pos n : Nat} (hpos : pos + n ≤ new.length) :
    overlay (torn new old pos) pos ((new.drop pos).take n) = torn new old (pos + n) := by
  have hTake : (new.take pos).length = pos := by
    rw [List.length_take]
    omega
  have hData : ((new.drop pos).take n).length = n := by
    rw [List.length_take, List.length_drop]
    omega
  -- nothing is filled up with zeros, since the position is not behind the end
  have hFront : (torn new old pos ++ List.replicate (pos - (torn new old pos).length) 0).take pos
      = new.take pos := by
    rw [torn, List.append_assoc, List.take_append_of_le_length (by omega), List.take_of_length_le]
    omega
  have hBack : (torn new old pos).drop (pos + n) = old.drop (pos + n) := by
    rw [torn, List.drop_append, List.drop_eq_nil_of_le (by omega), hTake, List.drop_drop,
      List.nil_append]
    congr 1
    omega
  rw [overlay, hFront, hData, hBack, torn, List.take_add]

/-- The first write goes over the old content. -/
theorem overlay_zero (new old : Bytes) (n : Nat) (hn : n ≤ new.length) :
    overlay old 0 (new.take n) = torn new old n := by
  have h : overlay (torn new old 0) 0 ((new.drop 0).take n) = torn new old (0 + n) :=
    overlay_torn (by omega)
  simpa using h

section WriteLoop

variable {adm : Req → Outcome → Prop} {d k : String} {new old : Bytes}

/-- What one write request of the loop does to a key that is present. -/
theorem serve_write {o : Outcome} {s : Disk} {bs : Bytes} (h : s d k = some bs) (pos : Nat)
    (data : Bytes) :
    (∃ f, o = .failed f ∧ serve o (.write d k pos data) s = (.error f.err, s)) ∨
    serve o (.write d k pos data) s =
      (.ok (o.limit data.length),
        s.set d k (some (overlay bs pos (data.take (o.limit data.length))))) := by
  cases o with
  | failed f => exact .inl ⟨f, rfl, rfl⟩
  | served => exact .inr (by simp only [serve, perform, h])
  | short n => exact .inr (by simp only [serve, perform, h])

/-- The same of a key that holds the first `pos` bytes of `new` over `old`, where
the loop writes the rest: some more of them are there, or none. -/
theorem serve_write_torn (o : Outcome) (base : Disk) {pos : Nat} (hpos : pos ≤ new.length) :
    (∃ f, o = .failed f ∧ serve o (.write d k pos (new.drop pos))
      (base.set d k (some (torn new old pos))) =
        (.error f.err, base.set d k (some (torn new old pos)))) ∨
    ∃ n, n = o.limit (new.length - pos) ∧ pos + n ≤ new.length ∧
      serve o (.write d k pos (new.drop pos)) (base.set d k (some (torn new old pos))) =
        (.ok n, base.set d k (some (torn new old (pos + n)))) := by
  rcases serve_write (o := o) (Disk.set_same base d k _) pos (new.drop pos) with ⟨f, rfl, hs⟩ | hs
  · exact .inl ⟨f, rfl, hs⟩
  · have hLimit := o.limit_le (new.length - pos)
    have hSum : pos + o.limit (new.length - pos) ≤ new.length := by omega
    refine .inr ⟨_, rfl, hSum, ?_⟩
    rw [hs, List.length_drop, overlay_torn hSum, Disk.set_set]

/-- **The loop, at every point.** While it runs over a key that holds `old`
under the first `pos` bytes of `new`, the key holds such a mix. -/
theorem always_writeAllLoop {I : Disk → Prop} (base : Disk)
    (hI : ∀ n, n ≤ new.length → I (base.set d k (some (torn new old n))))
    (fuel : Nat) {pos : Nat} (hpos : pos ≤ new.length) :
    (writeAllLoop d k fuel pos (new.drop pos)).always serve adm I
      (base.set d k (some (torn new old pos))) := by
  induction fuel generalizing pos with
  | zero =>
    cases hd : new.drop pos <;> exact hI pos hpos
  | succ fuel ih =>
    cases hd : new.drop pos with
    | nil => exact hI pos hpos
    | cons b bs =>
      simp only [writeAllLoop, Prog.always_call]
      refine ⟨hI pos hpos, fun o _ => ?_⟩
      rw [← hd]
      -- the write fails, or transfers some more bytes
      rcases serve_write_torn o base hpos with ⟨f, -, hs⟩ | ⟨n, -, hn, hs⟩
      · rw [hs]
        exact hI pos hpos
      · rw [hs]
        cases n with
        | zero => exact hI pos hpos
        | succ n =>
          simp only [List.drop_drop]
          exact ih hn

/-- The loop's end: `Ok` means that all of `new` is there. -/
theorem wp_writeAllLoop (base : Disk) {fuel : Nat} {pos : Nat} (hpos : pos ≤ new.length) :
    (writeAllLoop d k fuel pos (new.drop pos)).wp serve adm
      (fun r s' => ∃ n, n ≤ new.length ∧ (r = .ok () → n = new.length) ∧
        s' = base.set d k (some (torn new old n)))
      (base.set d k (some (torn new old pos))) := by
  induction fuel generalizing pos with
  | zero =>
    cases hd : new.drop pos with
    | nil => exact ⟨pos, hpos, fun _ => by have := List.drop_eq_nil_iff.mp hd; omega, rfl⟩
    -- (the fuel is never used up, but nothing depends on it)
    | cons b bs => exact ⟨pos, hpos, fun h => by simp at h, rfl⟩
  | succ fuel ih =>
    cases hd : new.drop pos with
    | nil => exact ⟨pos, hpos, fun _ => by have := List.drop_eq_nil_iff.mp hd; omega, rfl⟩
    | cons b bs =>
      simp only [writeAllLoop, Prog.wp_call]
      intro o _
      rw [← hd]
      rcases serve_write_torn o base hpos with ⟨f, -, hs⟩ | ⟨n, -, hn, hs⟩
      · rw [hs]
        exact ⟨pos, hpos, fun h => by simp at h, rfl⟩
      · rw [hs]
        cases n with
        | zero => exact ⟨pos, hpos, fun h => by simp at h, rfl⟩
        | succ n =>
          simp only [List.drop_drop]
          exact ih hn

/-- When no request on the key fails the loop ends with `Ok`. -/
theorem wp_writeAllLoop_ok (hAdm : ∀ r o, r.Touches d k → adm r o → o.Succeeds) (base : Disk)
    {fuel pos : Nat} (hpos : pos ≤ new.length) (hfuel : new.length - pos ≤ fuel) :
    (writeAllLoop d k fuel pos (new.drop pos)).wp serve adm (fun r _ => r = .ok ())
      (base.set d k (some (torn new old pos))) := by
  induction fuel generalizing pos with
  | zero =>
    rw [List.drop_eq_nil_of_le (by omega)]
    rfl
  | succ fuel ih =>
    cases hd : new.drop pos with
    | nil => rfl
    | cons b bs =>
      have hlt : pos < new.length := by
        have := congrArg List.length hd
        rw [List.length_drop, List.length_cons] at this
        omega
      simp only [writeAllLoop, Prog.wp_call]
      intro o ho
      have hOk := hAdm (.write d k pos (b :: bs)) o ⟨rfl, rfl⟩ ho
      rw [← hd]
      rcases serve_write_torn o base hpos with ⟨f, rfl, -⟩ | ⟨n, hLimit, hn, hs⟩
      · exact hOk.elim
      -- it makes progress, so the fuel suffices for the rest
      · have hProgress := hOk.limit_pos (Nat.sub_pos_of_lt hlt)
        rw [hs]
        cases n with
        | zero => omega
        | succ n =>
          simp only [List.drop_drop]
          exact ih hn (by omega)

end WriteLoop

-- ---------------------------------------------------------------------------
-- Replacing a record
-- ---------------------------------------------------------------------------

/-- What a key that held `old` can be seen to hold while `new` is written over
it: the old content, nothing, the first bytes of the new content, or, where the
delete request has failed, these over the old content. -/
inductive Seen (deleteFailed : Prop) (old : Option Bytes) (new : Bytes) : Option Bytes → Prop where
  | untouched : Seen deleteFailed old new old
  | absent : Seen deleteFailed old new none
  | fresh {n : Nat} : n ≤ new.length → Seen deleteFailed old new (some (new.take n))
  | over {v : Bytes} {n : Nat} : deleteFailed → old = some v → n ≤ new.length →
      Seen deleteFailed old new (some (torn new v n))

section Overwrite

variable {adm : Req → Outcome → Prop} {ε : Type} {getErr writeErr : IoError → ε} {d k : String}
  {new : Bytes} {s : Disk}

/-- The delete request leaves the key absent, unless it fails. -/
theorem serve_deleteKey (o : Outcome) (s : Disk) (d k : String) :
    (∃ f, o = .failed f ∧ (serve o (.deleteKey d k) s).2 = s) ∨
    (serve o (.deleteKey d k) s).2 = s.set d k none := by
  cases o with
  | failed f => exact .inl ⟨f, rfl, rfl⟩
  | served | short n =>
    right
    cases h : s d k with
    | none =>
      have hSelf := Disk.set_self s d k
      rw [h] at hSelf
      simp only [serve, perform, h, hSelf]
    | some v => simp only [serve, perform, h]

/-- Opening for writing creates an absent key, unless it fails. -/
theorem serve_create (o : Outcome) (s : Disk) (d k : String) :
    (∃ f, o = .failed f ∧ serve o (.get d k true) s = (.error f.err, s)) ∨
    serve o (.get d k true) s = (.ok (), s.set d k (some ((s d k).getD []))) := by
  cases o with
  | failed f => exact .inl ⟨f, rfl, rfl⟩
  | served | short n =>
    right
    cases h : s d k with
    | none => simp only [serve, perform, h, if_true, Option.getD_none]
    | some v =>
      have hSelf := Disk.set_self s d k
      rw [h] at hSelf
      simp only [serve, perform, h, Option.getD_some, hSelf]

/-- Synchronising changes no key. -/
theorem serve_sync (o : Outcome) (s : Disk) : (serve o .sync s).2 = s := by
  cases o <;> rfl

/-- Every point of writing a record to an open key. -/
theorem always_writeRecord {I : Disk → Prop} {v : Bytes}
    (hI : ∀ n, n ≤ new.length → I (s.set d k (some (torn new v n)))) :
    (writeRecord writeErr d k new).always serve adm I (s.set d k (some v)) := by
  refine Prog.always_bind (always_writeAllLoop s hI _ (Nat.zero_le _)) ?_
  refine Prog.wp_mono (fun r s' h => ?_) (wp_writeAllLoop s (Nat.zero_le _))
  obtain ⟨n, hn, -, rfl⟩ := h
  cases r with
  | error e => exact hI n hn
  | ok _ =>
    refine ⟨hI n hn, fun o _ => ?_⟩
    rw [serve_sync]
    exact hI n hn

/-- The end of writing a record: `Ok` means that all of it is there. -/
theorem wp_writeRecord {v : Bytes} :
    (writeRecord writeErr d k new).wp serve adm
      (fun r s' => ∃ n, n ≤ new.length ∧ (r = .ok () → n = new.length) ∧
        s' = s.set d k (some (torn new v n)))
      (s.set d k (some v)) := by
  refine Prog.wp_bind.mpr (Prog.wp_mono (fun r s' h => ?_) (wp_writeAllLoop s (Nat.zero_le _)))
  obtain ⟨n, hn, hEnd, rfl⟩ := h
  cases r with
  | error e => exact ⟨n, hn, fun h => by simp at h, rfl⟩
  | ok _ =>
    intro o _
    rw [serve_sync]
    exact ⟨n, hn, fun _ => hEnd rfl, rfl⟩

/-- Without failures it ends with `Ok`. -/
theorem wp_writeRecord_ok (hAdm : ∀ r o, r.Touches d k → adm r o → o.Succeeds) {v : Bytes} :
    (writeRecord writeErr d k new).wp serve adm (fun r _ => r = .ok ())
      (s.set d k (some v)) := by
  refine Prog.wp_bind.mpr (Prog.wp_mono (fun r s' h => ?_)
    (wp_writeAllLoop_ok hAdm s (Nat.zero_le _) (Nat.le_refl _)))
  subst h
  exact fun _ _ => rfl

/-- Every point of the part that follows the delete request. -/
theorem always_createRecord {I : Disk → Prop} (hs : I s)
    (hI : ∀ n, n ≤ new.length → I (s.set d k (some (torn new ((s d k).getD []) n)))) :
    (createRecord getErr writeErr d k new).always serve adm I s := by
  refine ⟨hs, fun o _ => ?_⟩
  rcases serve_create o s d k with ⟨f, -, hGet⟩ | hGet
  · rw [hGet]
    exact hs
  · rw [hGet]
    exact always_writeRecord hI

/-- Its end: `Ok` means that all of `new` has been written. -/
theorem wp_createRecord :
    (createRecord getErr writeErr d k new).wp serve adm
      (fun r s' => (∃ e, r = .error e ∧ s' = s) ∨
        ∃ n, n ≤ new.length ∧ (r = .ok () → n = new.length) ∧
          s' = s.set d k (some (torn new ((s d k).getD []) n))) s := by
  intro o _
  rcases serve_create o s d k with ⟨f, -, hGet⟩ | hGet
  · rw [hGet]
    exact .inl ⟨_, rfl, rfl⟩
  · rw [hGet]
    exact Prog.wp_mono (fun r s' h => .inr h) wp_writeRecord

/-- **The points of an overwrite.** Whatever fails, and wherever it is cut or
observed, the key is in one of the `Seen` states and no other key has changed. -/
theorem seen_after_overwrite (n : Nat) (env : Env Req Outcome) :
    ∃ c, Seen (∃ f, env 0 (.deleteKey d k) = .failed f) (s d k) new c ∧
      (overwrite getErr writeErr d k new).after serve n env s = s.set d k c := by
  cases n with
  | zero => exact ⟨s d k, .untouched, (Disk.set_self s d k).symm⟩
  | succ n =>
    refine Prog.always_after_any (I := fun s' => ∃ c, Seen _ (s d k) new c ∧ s' = s.set d k c) ?_
      env.tail n
    rcases serve_deleteKey (env 0 (.deleteKey d k)) s d k with ⟨f, hFail, hDel⟩ | hDel
    · -- the old content is still there
      rw [hDel]
      refine always_createRecord ⟨s d k, .untouched, (Disk.set_self s d k).symm⟩ fun n hn => ?_
      refine ⟨_, ?_, rfl⟩
      rcases Option.eq_none_or_eq_some (s d k) with hOld | ⟨v, hOld⟩
      · rw [hOld, Option.getD_none, torn_nil]
        exact .fresh hn
      · rw [hOld, Option.getD_some]
        exact .over ⟨f, hFail⟩ rfl hn
    · rw [hDel]
      refine always_createRecord ⟨none, .absent, rfl⟩ fun n hn => ?_
      rw [Disk.set_same, Disk.set_set, Option.getD_none, torn_nil]
      exact ⟨_, .fresh hn, rfl⟩

/-- What the part after the delete request makes of an `Ok` answer. -/
theorem createRecord_end {o : Outcome} {r : Except ε Unit} {s' : Disk}
    (h : (∃ e, r = .error e ∧ s' = (serve o (.deleteKey d k) s).2) ∨
      ∃ n, n ≤ new.length ∧ (r = .ok () → n = new.length) ∧
        s' = (serve o (.deleteKey d k) s).2.set d k
          (some (torn new (((serve o (.deleteKey d k) s).2 d k).getD []) n))) :
    ∃ c, s' = s.set d k c ∧ (r = .ok () → ∃ v, c = some (torn new v new.length) ∧
      (v = [] ∨ s d k = some v ∧ ∃ f, o = .failed f)) := by
  rcases serve_deleteKey o s d k with ⟨f, rfl, hDel⟩ | hDel
  · rw [hDel] at h
    rcases h with ⟨e, rfl, rfl⟩ | ⟨n, hn, hEnd, rfl⟩
    · exact ⟨s' d k, (Disk.set_self s' d k).symm, fun h => by simp at h⟩
    · refine ⟨_, rfl, fun hr => ⟨_, by rw [hEnd hr], ?_⟩⟩
      rcases Option.eq_none_or_eq_some (s d k) with hOld | ⟨v, hOld⟩
      · exact .inl (by rw [hOld, Option.getD_none])
      · exact .inr ⟨by rw [hOld, Option.getD_some], f, rfl⟩
  · rw [hDel] at h
    rcases h with ⟨e, rfl, rfl⟩ | ⟨n, hn, hEnd, rfl⟩
    · exact ⟨none, rfl, fun h => by simp at h⟩
    · rw [Disk.set_same, Disk.set_set]
      exact ⟨_, rfl, fun hr => ⟨[], by rw [hEnd hr, Option.getD_none], .inl rfl⟩⟩

/-- **The end of an overwrite.** `Ok` means that the new record is there in
full, with the rest of a longer old one behind it if the delete request has
failed. An error leaves a state that differs in this key at most. -/
theorem overwrite_end (env : Env Req Outcome) :
    ∃ c, ((overwrite getErr writeErr d k new).run serve env s).2 = s.set d k c ∧
      (((overwrite getErr writeErr d k new).run serve env s).1 = .ok () →
        ∃ v, c = some (torn new v new.length) ∧
          (v = [] ∨ s d k = some v ∧ ∃ f, env 0 (.deleteKey d k) = .failed f)) :=
  createRecord_end (Prog.wp_run_any wp_createRecord env.tail)

/-- The end of an older, longer content that a failed delete request leaves
behind the new one. -/
def leftBehind (o : Outcome) (old : Option Bytes) (new : Bytes) : Bytes :=
  match o with
  | .failed _ => (old.getD []).drop new.length
  | _ => []

/-- What the part after the delete request leaves when it answers `Ok`. -/
theorem createRecord_run_ok {env : Env Req Outcome}
    (h : ((createRecord getErr writeErr d k new).run serve env s).1 = .ok ()) :
    ((createRecord getErr writeErr d k new).run serve env s).2 =
      s.set d k (some (new ++ ((s d k).getD []).drop new.length)) := by
  have hEnd := Prog.wp_run_any
    (wp_createRecord : (createRecord getErr writeErr d k new).wp serve _ _ s) env
  rcases hEnd with ⟨e, hErr, -⟩ | ⟨n, -, hAll, hState⟩
  · exact nomatch hErr.symm.trans h
  · rw [hState, hAll h, torn_length]

/-- What an overwrite that answers `Ok` leaves, given the outcome of its delete
request. -/
theorem overwrite_run_ok {env : Env Req Outcome}
    (h : ((overwrite getErr writeErr d k new).run serve env s).1 = .ok ()) :
    ((overwrite getErr writeErr d k new).run serve env s).2 =
      s.set d k (some (new ++ leftBehind (env 0 (.deleteKey d k)) (s d k) new)) := by
  refine (createRecord_run_ok h).trans ?_
  rcases serve_deleteKey (env 0 (.deleteKey d k)) s d k with ⟨f, hFail, hDel⟩ | hDel
  · rw [hDel, hFail, leftBehind]
  · rw [hDel, Disk.set_same, Disk.set_set, Option.getD_none, List.drop_nil]
    rcases ho : env 0 (.deleteKey d k) with _ | n | f
    · rfl
    · rfl
    · -- then there was nothing to delete
      rw [ho] at hDel
      have hNone : s d k = none := by
        rw [show s = s.set d k none from hDel, Disk.set_same]
      rw [leftBehind, hNone, Option.getD_none, List.drop_nil]

/-- The same as a rule. -/
theorem wp_overwrite :
    (overwrite getErr writeErr d k new).wp serve adm
      (fun r s' => ∃ c, s' = s.set d k c ∧ (r = .ok () → ∃ v,
        c = some (torn new v new.length) ∧
          (v = [] ∨ s d k = some v ∧ ∃ f, adm (.deleteKey d k) (.failed f)))) s := by
  intro o ho
  refine Prog.wp_mono (fun r s' h => ?_) wp_createRecord
  obtain ⟨c, hc, hEnd⟩ := createRecord_end h
  refine ⟨c, hc, fun hr => ?_⟩
  obtain ⟨v, hv, hOld⟩ := hEnd hr
  refine ⟨v, hv, hOld.imp id fun ⟨hs, f, hf⟩ => ⟨hs, f, hf ▸ ho⟩⟩

/-- Without failures an overwrite stores the record. -/
theorem wp_overwrite_ok (hAdm : ∀ r o, r.Touches d k → adm r o → o.Succeeds) :
    (overwrite getErr writeErr d k new).wp serve adm
      (fun r s' => r = .ok () ∧ s' = s.set d k (some new)) s := by
  have hOk : (overwrite getErr writeErr d k new).wp serve adm (fun r _ => r = .ok ()) s := by
    simp only [overwrite, createRecord, Prog.wp_call]
    intro o₁ ho₁ o₂ ho₂
    rcases serve_deleteKey o₁ s d k with ⟨f, rfl, -⟩ | hDel
    · exact (hAdm (.deleteKey d k) _ ⟨rfl, rfl⟩ ho₁).elim
    · rw [hDel]
      rcases serve_create o₂ (s.set d k none) d k with ⟨f, rfl, -⟩ | hGet
      · exact (hAdm (.get d k true) _ ⟨rfl, rfl⟩ ho₂).elim
      · rw [hGet, Disk.set_same, Disk.set_set]
        exact wp_writeRecord_ok hAdm
  refine Prog.wp_mono (fun r s' h => ?_) (Prog.wp_and hOk wp_overwrite)
  obtain ⟨rfl, c, rfl, hEnd⟩ := h
  obtain ⟨v, rfl, rfl | ⟨-, f, hf⟩⟩ := hEnd rfl
  · exact ⟨rfl, by rw [torn_nil, List.take_length]⟩
  · exact (hAdm (.deleteKey d k) _ ⟨rfl, rfl⟩ hf).elim

end Overwrite

end Sigchat.Pddb

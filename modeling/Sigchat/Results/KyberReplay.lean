import Sigchat.Model.Stores

/-!
# Last-resort Kyber prekeys: no replay

A marking of a triple (kyber id, signed-prekey id, base key) is accepted by
writing its marker, and refused when the marker is there. Under every pattern
of failing requests a marker, once written, stays: `wp_mark` is the step,
`wp_script_once` the run.

* `kyber_mark_once` — at most one marking of a triple is accepted, the first
  one is when no request fails, and no marking touches a record.
-/

namespace Sigchat.Results

open Sigchat.Lib
open Sigchat.Pddb
open Sigchat.Signal
open Sigchat.Stores
open PddbKyberPreKeyStore (dedupKey)

variable {L : Libsignal}

/-- The marker of a triple is in the dictionary, be it empty or torn. -/
def Marked (key : String) (s : Disk) : Prop := s kyberPreKeyDict key ≠ none

/-- An accepted marking, in the answers of a run. -/
def accepted (k e : UInt32) (b : L.PublicKey) : Sigma (RecordOp.Resp (L := L)) :=
  ⟨.markKyberPreKeyUsed k e b, .ok ()⟩

/-- Only a marking of a triple works on a marker. -/
theorem eq_mark_of_recordKey {k e : UInt32} {b : L.PublicKey} {op : RecordOp L}
    (h : (kyberPreKeyDict, dedupKey k e b) = recordKey op) :
    ∃ k' e' b', op = .markKyberPreKeyUsed k' e' b' ∧ dedupKey k e b = dedupKey k' e' b' := by
  cases op with
  | markKyberPreKeyUsed k' e' b' => exact ⟨k', e', b', rfl, congrArg Prod.snd h⟩
  | getKyberPreKey id => exact absurd (congrArg Prod.snd h) (dedupKey_ne_idKey _ _ _ _)
  | saveKyberPreKey id r => exact absurd (congrArg Prod.snd h) (dedupKey_ne_idKey _ _ _ _)
  | _ => exact absurd (congrArg Prod.fst h) (by simp [recordKey]; decide)

section Steps

variable {adm : Req → Outcome → Prop} {s : Disk}

/-- **One marking, whatever fails.** On a marked triple it is refused and
changes nothing; where it is accepted the triple is marked. -/
theorem wp_mark (k e : UInt32) (b : L.PublicKey) :
    (handleRecord (.markKyberPreKeyUsed k e b)).wp serve adm
      (fun r s' => (Marked (dedupKey k e b) s → r ≠ .ok () ∧ s' = s) ∧
        (r = .ok () → Marked (dedupKey k e b) s')) s := by
  refine Prog.wp_bind.mpr (Prog.wp_mono (fun r s' hr => ?_) wp_pddbReadBinary)
  obtain ⟨rfl, -, hMissing⟩ := hr
  cases r with
  | ok bs => exact ⟨fun _ => ⟨by simp, rfl⟩, fun h => by simp at h⟩
  | error err =>
    by_cases hk : err.kind = .notFound
    · -- PDDB says that there is no marker, so there is none
      have hAbsent : ¬Marked (dedupKey k e b) s' := fun hm => hm (hMissing err rfl hk)
      simp only [hk, if_true]
      refine Prog.wp_bind.mpr (Prog.wp_mono (fun r s'' hr => ?_) wp_overwrite)
      obtain ⟨c, rfl, hEnd⟩ := hr
      cases r with
      | error e => exact ⟨fun hm => absurd hm hAbsent, fun h => by simp at h⟩
      | ok _ =>
        obtain ⟨v, rfl, -⟩ := hEnd rfl
        refine ⟨fun hm => absurd hm hAbsent, fun _ => ?_⟩
        simp [Marked, kyberPreKeyStore]
    · simp only [hk, if_false]
      exact ⟨fun _ => ⟨by simp, rfl⟩, fun h => by simp at h⟩

/-- The same step seen from one triple: a marker stays, no second marking is
accepted, and an accepted one leaves a marker. -/
theorem wp_step (k e : UInt32) (b : L.PublicKey) (op : RecordOp L) :
    (handleRecord op).wp serve adm
      (fun r s' => (Marked (dedupKey k e b) s →
          Marked (dedupKey k e b) s' ∧ (⟨op, r⟩ : Sigma RecordOp.Resp) ≠ accepted k e b) ∧
        ((⟨op, r⟩ : Sigma RecordOp.Resp) = accepted k e b → Marked (dedupKey k e b) s')) s := by
  -- Only an operation on the same marker can change it.
  by_cases hKey : (kyberPreKeyDict, dedupKey k e b) = recordKey op
  · obtain ⟨k', e', b', rfl, hSame⟩ := eq_mark_of_recordKey hKey
    refine Prog.wp_mono (fun r s' hr => ?_) (wp_mark k' e' b')
    rw [← hSame] at hr
    obtain ⟨hRefused, hAccepted⟩ := hr
    refine ⟨fun hm => ?_, fun h => ?_⟩
    · obtain ⟨hNotOk, rfl⟩ := hRefused hm
      exact ⟨hm, fun h => hNotOk (by cases h; rfl)⟩
    · exact hAccepted (by cases h; rfl)
  · have hFrame : (handleRecord op).wp serve adm
        (fun _ s' => s' kyberPreKeyDict (dedupKey k e b) = s kyberPreKeyDict (dedupKey k e b)) s :=
      Prog.wp_of_all (fun r hr o s' hs' => (serve_frame hr o s').trans hs')
        (all_handleRecord_other op hKey) rfl
    refine Prog.wp_mono (fun r s' hs' => ?_) hFrame
    -- Another operation is not the mark, or it would be about this marker.
    have hOther : (⟨op, r⟩ : Sigma RecordOp.Resp) ≠ accepted k e b := by
      intro h
      cases h
      exact hKey rfl
    refine ⟨fun hm => ⟨?_, hOther⟩, fun h => absurd h hOther⟩
    rwa [Marked, hs']

-- ---------------------------------------------------------------------------
-- Runs
-- ---------------------------------------------------------------------------

/-- Once a triple is marked no marking of it is accepted any more. -/
theorem wp_script_marked (k e : UInt32) (b : L.PublicKey) (ops : List (RecordOp L))
    (hMarked : Marked (dedupKey k e b) s) :
    ((Prog.script ops).interp handleRecord).wp serve adm
      (fun answers _ => accepted k e b ∉ answers) s := by
  induction ops generalizing s with
  | nil => exact List.not_mem_nil
  | cons op ops ih =>
    rw [Prog.wp_interp_script_cons]
    refine Prog.wp_mono (fun r s' hr => ?_) (wp_step k e b op)
    obtain ⟨hMarked', hNot⟩ := hr.1 hMarked
    refine Prog.wp_mono (fun answers s'' hRest => ?_) (ih hMarked')
    rw [List.mem_cons, not_or]
    exact ⟨hNot.symm, hRest⟩

/-- **At most once.** No run accepts two markings of a triple. -/
theorem wp_script_once (k e : UInt32) (b : L.PublicKey) (ops : List (RecordOp L)) :
    ((Prog.script ops).interp handleRecord).wp serve adm
      (fun answers _ => answers.Pairwise fun x y => ¬(x = accepted k e b ∧ y = accepted k e b))
      s := by
  induction ops generalizing s with
  | nil => exact List.Pairwise.nil
  | cons op ops ih =>
    rw [Prog.wp_interp_script_cons]
    refine Prog.wp_mono (fun r s' hr => ?_) (wp_step k e b op)
    by_cases hFirst : (⟨op, r⟩ : Sigma RecordOp.Resp) = accepted k e b
    · -- accepted here, so never again
      refine Prog.wp_mono (fun answers s'' h => ?_)
        (Prog.wp_and ih (wp_script_marked k e b ops (hr.2 hFirst)))
      refine List.Pairwise.cons (fun y hy hBoth => h.2 ?_) h.1
      exact hBoth.2 ▸ hy
    · refine Prog.wp_mono (fun answers s'' h => ?_) ih
      exact List.Pairwise.cons (fun y _ hBoth => hFirst hBoth.1) h

/-- Operations other than a marking of this triple leave it unmarked. -/
theorem wp_script_unmarked (hSer : Function.Injective L.publicKeySerialize) (k e : UInt32)
    (b : L.PublicKey) (ops : List (RecordOp L))
    (hOther : ∀ op ∈ ops, op ≠ .markKyberPreKeyUsed k e b)
    (hUnmarked : ¬Marked (dedupKey k e b) s) :
    ((Prog.script ops).interp handleRecord).wp serve adm
      (fun _ s' => ¬Marked (dedupKey k e b) s') s := by
  -- Operation by operation: none of them is the one that sets the marker.
  induction ops generalizing s with
  | nil => exact hUnmarked
  | cons op ops ih =>
    rw [Prog.wp_interp_script_cons]
    have hKey : (kyberPreKeyDict, dedupKey k e b) ≠ recordKey op := by
      intro hKey
      obtain ⟨k', e', b', rfl, hSame⟩ := eq_mark_of_recordKey hKey
      obtain ⟨rfl, rfl, rfl⟩ := dedupKey_injective hSer hSame
      exact hOther _ List.mem_cons_self rfl
    have hFrame : (handleRecord op).wp serve adm (fun _ s' => ¬Marked (dedupKey k e b) s') s :=
      Prog.wp_of_all
        (fun r hr o s' hs' => by rwa [Marked, serve_frame hr o s'])
        (all_handleRecord_other op hKey) hUnmarked
    exact Prog.wp_mono
      (fun r s' hs' => ih (fun o ho => hOther o (List.mem_cons_of_mem _ ho)) hs') hFrame

/-- Without failures a marking of an unmarked triple is accepted. -/
theorem wp_mark_accepted (hAdm : ∀ r o, adm r o → o.Succeeds) (k e : UInt32) (b : L.PublicKey)
    (hUnmarked : ¬Marked (dedupKey k e b) s) :
    (handleRecord (.markKyberPreKeyUsed k e b)).wp serve adm (fun r _ => r = .ok ()) s := by
  have hNone : s kyberPreKeyDict (dedupKey k e b) = none := not_not.mp hUnmarked
  refine Prog.wp_bind.mpr (Prog.wp_mono (fun r s' hr => ?_) (wp_pddbReadBinary_ok hAdm))
  obtain ⟨rfl, rfl⟩ := hr
  simp only [kyberPreKeyStore, hNone, keyNotFound, IoError.ofKind, if_true]
  refine Prog.wp_bind.mpr (Prog.wp_mono (fun r s'' hr => ?_)
    (wp_overwrite_ok fun r o _ ho => hAdm r o ho))
  obtain ⟨rfl, rfl⟩ := hr
  exact rfl

end Steps

/-- **Replay protection.** Whatever requests fail, a run accepts at most one
marking of a triple. When none fails, the first marking of a triple is
accepted, whatever ran before it. At no point of a marking, failed or not, has
a Kyber prekey record changed. -/
theorem kyber_mark_once (hSer : Function.Injective L.publicKeySerialize) (k e : UInt32)
    (b : L.PublicKey) :
    (∀ (ops : List (RecordOp L)) (env : Env Req Outcome) (s : Disk),
      (((Prog.script ops).interp handleRecord).run serve env s).1.Pairwise
        fun x y => ¬(x = accepted k e b ∧ y = accepted k e b)) ∧
    (∀ (ops : List (RecordOp L)) (env : Env Req Outcome) (s : Disk),
      (∀ i r, (env i r).Succeeds) → s kyberPreKeyDict (dedupKey k e b) = none →
      (∀ op ∈ ops, op ≠ .markKyberPreKeyUsed k e b) →
      ((do
        let _ ← (Prog.script ops).interp handleRecord
        handleRecord (.markKyberPreKeyUsed k e b)).run serve env s).1 = .ok ()) ∧
    (∀ (env : Env Req Outcome) (s : Disk) (n : Nat) (id : UInt32),
      (handleRecord (.markKyberPreKeyUsed k e b)).after serve n env s kyberPreKeyDict (idKey id) =
        s kyberPreKeyDict (idKey id)) := by
  refine ⟨fun ops env s => ?_, fun ops env s hEnv hNone hOther => ?_, fun env s n id => ?_⟩
  · have hRun := Prog.wp_run_any (wp_script_once (s := s) k e b ops) env
    exact hRun
  · have hAdm : ∀ (r : Req) (o : Outcome), o.Succeeds → o.Succeeds := fun _ _ ho => ho
    have hUnmarked : ¬Marked (dedupKey k e b) s := fun hm => hm hNone
    have hRun := Prog.wp_run (Prog.wp_bind.mpr (Prog.wp_mono
      (fun _ s' hs' => wp_mark_accepted hAdm k e b hs')
      (wp_script_unmarked hSer k e b ops hOther hUnmarked))) hEnv
    exact hRun
  · have hKey : (kyberPreKeyDict, idKey id) ≠ recordKey (.markKyberPreKeyUsed k e b) :=
      fun h => dedupKey_ne_idKey k e id b (congrArg Prod.snd h).symm
    have hAlways : (handleRecord (.markKyberPreKeyUsed k e b)).always serve (fun _ _ => True)
        (fun s' => s' kyberPreKeyDict (idKey id) = s kyberPreKeyDict (idKey id)) s :=
      Prog.always_of_all (fun r hr o s' hs' => (serve_frame hr o s').trans hs')
        (all_handleRecord_other _ hKey) rfl
    exact Prog.always_after_any hAlways env n

/-- The first marking of a triple after one of another triple. -/
theorem kyber_mark_once_plain :
    ((do
      let _ ← (Prog.script [RecordOp.markKyberPreKeyUsed (L := .plain) 1 2 [3]]).interp handleRecord
      handleRecord (RecordOp.markKyberPreKeyUsed (L := .plain) 1 23 [])).run serve
        (fun _ _ => .served) fun _ _ => none).1 = .ok () :=
  (kyber_mark_once (L := .plain) (fun _ _ h => h) 1 23 []).2.1 _ _ _ (fun _ _ => trivial) rfl
    fun op hop => by
      rw [List.mem_singleton.mp hop]
      intro h
      injection h with _ _ hKey
      exact absurd hKey (show ([3] : Bytes) ≠ [] by decide)

end Sigchat.Results

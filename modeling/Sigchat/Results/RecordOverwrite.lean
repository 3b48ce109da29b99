import Sigchat.Model.Outgoing

/-!
# Overwriting a persisted record

A record is replaced by deleting its key, creating it and writing it. Between
these requests the key is absent, empty or holds a prefix; a reader takes an
absent identity for one never seen and trusts any key.

* `overwrite_not_atomic` — a point where neither value is there, and the trust
  decision it leads to;
* `overwrite_points` — what can be there instead, at every point and under
  every pattern of failures, and when a third identity key is trusted.
-/

namespace Sigchat.Results

open Sigchat.Lib
open Sigchat.Pddb
open Sigchat.Signal
open Sigchat.Stores
open Sigchat.Outgoing

variable {L : Libsignal}

def peer1 : ProtocolAddress := ⟨"peer", .first⟩

/-- The overwrite of an identity key of `peer1`, cut after the delete request. -/
def cutOverwrite : Disk :=
  (pddbWriteBinary identityDict (addressKey peer1) [2]).after serve 1 (fun _ _ => .served)
    (Disk.set (fun _ _ => none) identityDict (addressKey peer1) (some [1]))

/-- At that point no record is there, and any third key is trusted. -/
theorem overwrite_not_atomic :
    (¬∀ (d k : String) (v w : Bytes) (env : Env Req Outcome) (n : Nat) (s : Disk),
      s d k = some v →
        (pddbWriteBinary d k w).after serve n env s d k = some v ∨
        (pddbWriteBinary d k w).after serve n env s d k = some w) ∧
    ((identityStore.isTrustedIdentity (L := .plain) peer1 [3] .receiving).runAll serve .served
      cutOverwrite).1 = .ok true := by
  refine ⟨fun h => ?_, by decide⟩
  have hCut := h identityDict (addressKey peer1) [1] [2] (fun _ _ => .served) 1
    (Disk.set (fun _ _ => none) identityDict (addressKey peer1) (some [1])) (Disk.set_same _ _ _ _)
  revert hCut
  decide

/-- A lookup that trusts a key has found no record, or one that decodes to it. -/
theorem wp_isTrustedIdentity {adm : Req → Outcome → Prop} {a : ProtocolAddress}
    {i : L.IdentityKey} {dir : Direction} {s : Disk} :
    (identityStore.isTrustedIdentity a i dir).wp serve adm
      (fun r _ => r = .ok true → s identityDict (addressKey a) = none ∨
        ∃ bs, s identityDict (addressKey a) = some bs ∧ L.identityKeyDecode bs = .ok i) s := by
  refine Prog.wp_mono (fun r s' h hTrue => ?_) wp_readRecord
  obtain ⟨-, ⟨bs, hbs, rfl⟩ | ⟨hNone, -⟩ | ⟨e, rfl⟩⟩ := h
  · right
    refine ⟨bs, hbs, ?_⟩
    cases hd : L.identityKeyDecode bs with
    | error e => simp [hd, Except.map] at hTrue
    | ok j =>
      have hj : j = i := by simpa [hd, Except.map] using hTrue
      rw [hj]
  · exact .inl hNone
  · simp at hTrue

/-- What `p` does to a key on its way to replacing its content by `new`. -/
def OverwritePoints {ε : Type} (p : Prog Resp (Except ε Unit)) (d k : String) (new : Bytes) :
    Prop :=
  ∀ (env : Env Req Outcome) (s : Disk),
    (∀ n, ∃ c, Seen (∃ f, env 0 (.deleteKey d k) = .failed f) (s d k) new c ∧
      p.after serve n env s = s.set d k c) ∧
    ((p.run serve env s).1 = .ok () → ∃ v,
      (p.run serve env s).2 = s.set d k (some (new ++ v.drop new.length)) ∧
        (v = [] ∨ s d k = some v ∧ ∃ f, env 0 (.deleteKey d k) = .failed f))

/-- Every point of an overwrite is one of those listed. -/
theorem overwrite_overwritePoints {ε : Type} (getErr writeErr : IoError → ε) (d k : String)
    (new : Bytes) : OverwritePoints (overwrite getErr writeErr d k new) d k new := by
  intro env s
  refine ⟨fun n => seen_after_overwrite n env, fun hOk => ?_⟩
  obtain ⟨c, hc, hEnd⟩ : ∃ c, ((overwrite getErr writeErr d k new).run serve env s).2 =
      s.set d k c ∧ _ := overwrite_end env
  obtain ⟨v, rfl, hOld⟩ := hEnd hOk
  rw [torn_length] at hc
  exact ⟨v, hc, hOld⟩

/-- **Overwrites.** At every point of `pddb_write_binary` and of
`set_current_recipient`, whatever fails, no other key has changed and the key
holds its old content, nothing, a prefix of the new content, or, only if the
delete request has failed, a prefix of the new content over the old one; after
`Ok` the new content is there, with the rest of a longer old one behind it only
if the delete request has failed. So while an identity key is overwritten, a
third key is trusted only where the record is absent or a torn record decodes
to that key. -/
theorem overwrite_points :
    (∀ d k new, OverwritePoints (pddbWriteBinary d k new) d k new) ∧
    (∀ a, OverwritePoints (setCurrentRecipient a) dialogueDict defaultPeerKey
      (utf8 (peerJson a))) ∧
    (∀ (L : Libsignal), (∀ i, L.identityKeyDecode (L.identityKeySerialize i) = .ok i) →
      ∀ (a : ProtocolAddress) (old new third : L.IdentityKey) (dir : Direction)
        (env env' : Env Req Outcome) (n : Nat) (s s' : Disk),
      s identityDict (addressKey a) = some (L.identityKeySerialize old) →
      third ≠ old → third ≠ new →
      s' = (pddbWriteBinary identityDict (addressKey a) (L.identityKeySerialize new)).after
        serve n env s →
      ((identityStore.isTrustedIdentity a third dir).run serve env' s').1 = .ok true →
      s' identityDict (addressKey a) = none ∨
        ∃ bs, s' identityDict (addressKey a) = some bs ∧
          Seen (∃ f, env 0 (.deleteKey identityDict (addressKey a)) = .failed f)
            (some (L.identityKeySerialize old)) (L.identityKeySerialize new) (some bs) ∧
          bs ≠ L.identityKeySerialize old ∧ bs ≠ L.identityKeySerialize new ∧
          L.identityKeyDecode bs = .ok third) := by
  refine ⟨fun d k new => overwrite_overwritePoints id id d k new,
    fun a => overwrite_overwritePoints _ _ dialogueDict defaultPeerKey _, ?_⟩
  intro L hDecode a old new third dir env env' n s s' hs hOld hNew hs' hTrue
  -- A yes means no record or one that decodes to the key, and at such a point it is one of
  -- the torn ones.
  refine (Prog.wp_run_any wp_isTrustedIdentity env' hTrue).imp id fun ⟨bs, hbs, hThird⟩ => ?_
  obtain ⟨c, hSeen, hPoint⟩ := (overwrite_overwritePoints id id identityDict (addressKey a)
    (L.identityKeySerialize new) env s).1 n
  have hc : c = some bs := by
    rw [← hbs, hs']
    exact ((congrFun (congrFun hPoint _) _).trans (Disk.set_same _ _ _ _)).symm
  rw [hs, hc] at hSeen
  refine ⟨bs, hbs, hSeen, ?_, ?_, hThird⟩
  · rintro rfl
    rw [hDecode old] at hThird
    exact hOld (Except.ok.inj hThird).symm
  · rintro rfl
    rw [hDecode new] at hThird
    exact hNew (Except.ok.inj hThird).symm

/-- The theorem at the point of the counterexample. -/
theorem overwrite_points_cut :
    cutOverwrite identityDict (addressKey peer1) = none ∨
      ∃ bs, cutOverwrite identityDict (addressKey peer1) = some bs ∧
        Seen (∃ f, Outcome.served = .failed f) (some [1]) [2] (some bs) ∧
        bs ≠ [1] ∧ bs ≠ [2] ∧ Libsignal.plain.identityKeyDecode bs = .ok [3] :=
  overwrite_points.2.2 .plain Libsignal.plain_lawful.identityKey peer1 [1] [2] [3] .receiving
    (fun _ _ => .served) (fun _ _ => .served) 1
    (Disk.set (fun _ _ => none) identityDict (addressKey peer1) (some [1])) cutOverwrite
    (Disk.set_same _ _ _ _) (show ([3] : Bytes) ≠ [1] by decide)
    (show ([3] : Bytes) ≠ [2] by decide) rfl (by decide)

end Sigchat.Results

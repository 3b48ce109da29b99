import Sigchat.Results.Threads

/-!
# What a device keeps

Posting and receiving write sessions, identities, markers of used prekeys and
the default recipient; they remove one-time prekeys. The account and the prekeys
that are never used up stay as linking has left them, so the device that starts
tomorrow is the one that was linked.

* `guarded_sameKeys` — the store methods keep these records;
* `run_same`         — what reads them only is answered as before;
* `device_survives`  — the device is the same after every run of the process.
-/

namespace Sigchat.Results

open Sigchat.Lib
open Sigchat.Pddb
open Sigchat.Signal
open Sigchat.Stores
open Sigchat.Accounts
open Sigchat.Outgoing
open Sigchat.MainWs
open Sigchat.App

variable {U : UrlCrate} {L : Libsignal} {P : Protocol L}

-- ---------------------------------------------------------------------------
-- The records
-- ---------------------------------------------------------------------------

/-- The account and the prekeys that are never used up are as in `s₀`. -/
structure SameKeys (s₀ s : Disk) : Prop where
  account : ∀ k, s accountDict k = s₀ accountDict k
  signedPreKey : ∀ k, s signedPreKeyDict k = s₀ signedPreKeyDict k
  kyberPreKey : ∀ id, s kyberPreKeyDict (idKey id) = s₀ kyberPreKeyDict (idKey id)

theorem SameKeys.refl (s : Disk) : SameKeys s s := ⟨fun _ => rfl, fun _ => rfl, fun _ => rfl⟩

/-- The three kinds of records by their keys. -/
theorem sameKeys_iff {s₀ s : Disk} : SameKeys s₀ s ↔ ∀ d k, IsKept d k → s d k = s₀ d k := by
  constructor
  · rintro ⟨hAccount, hSigned, hKyber⟩ d k (rfl | rfl | ⟨rfl, id, rfl⟩)
    · exact hAccount k
    · exact hSigned k
    · exact hKyber id
  · intro h
    exact ⟨fun k => h _ k (.inl rfl), fun k => h _ k (.inr (.inl rfl)),
      fun id => h _ _ (.inr (.inr ⟨rfl, id, rfl⟩))⟩

/-- A request that touches none of them. -/
theorem SameKeys.frame {s₀ s : Disk} (h : SameKeys s₀ s) {r : Req}
    (hr : ∀ d k, IsKept d k → ¬r.Touches d k) (o : Outcome) : SameKeys s₀ (serve o r s).2 :=
  sameKeys_iff.mpr fun d k hKept =>
    (serve_frame (hr d k hKept) o s).trans (sameKeys_iff.mp h d k hKept)

/-- A request that reads one of them. -/
inductive ReadsKept : Req → Prop where
  | get {d k : String} (hKept : IsKept d k) : ReadsKept (.get d k false)
  | read {d k : String} (hKept : IsKept d k) (pos len : Nat) : ReadsKept (.read d k pos len)
  | readToEnd {d k : String} (hKept : IsKept d k) : ReadsKept (.readToEnd d k)

theorem ReadsKept.of_readsAccount {r : Req} (h : ReadsAccount r) : ReadsKept r := by
  cases h with
  | get k => exact .get (.inl rfl)
  | read k pos len => exact .read (.inl rfl) pos len
  | readToEnd k => exact .readToEnd (.inl rfl)

theorem ReadsKept.serve {r : Req} (h : ReadsKept r) (o : Outcome) (s : Disk) :
    (serve o r s).2 = s := by
  cases o with
  | failed f => rfl
  | served | short n => cases h <;> simp only [Pddb.serve, perform] <;> split <;> rfl

theorem ReadsKept.setUpReq {r : Req} (h : ReadsKept r) : SetUpReq r := by
  intro d k hTouches
  cases h with
  | get hKept => exact hTouches.1 ▸ hTouches.2 ▸ hKept
  | read hKept => exact hTouches.1 ▸ hTouches.2 ▸ hKept
  | readToEnd hKept => exact hTouches.1 ▸ hTouches.2 ▸ hKept

/-- One request on these records: the answer is the same, and they stay equal. -/
theorem SameKeys.serve {r : Req} (hr : SetUpReq r) (o : Outcome) {s₀ s : Disk}
    (h : SameKeys s₀ s) :
    (serve o r s).1 = (serve o r s₀).1 ∧ SameKeys (serve o r s₀).2 (serve o r s).2 := by
  refine ⟨?_, sameKeys_iff.mpr fun d k hKept => ?_⟩
  · by_cases hTouches : ∃ d k, r.Touches d k
    · obtain ⟨d, k, hTouches⟩ := hTouches
      exact (serve_local hTouches o (sameKeys_iff.mp h d k (hr d k hTouches))).1
    · -- only the sync touches nothing
      cases r with
      | sync => cases o <;> rfl
      | deleteDict d => exact absurd ⟨d, "", rfl⟩ hTouches
      | _ => exact absurd ⟨_, _, rfl, rfl⟩ hTouches
  · have hSame := sameKeys_iff.mp h d k hKept
    by_cases hTouches : r.Touches d k
    · exact (serve_local hTouches o hSame).2
    · rw [serve_frame hTouches, serve_frame hTouches, hSame]

/-- **Locality.** A program on these records only is answered as before, and
fails as before. -/
theorem run_same {α : Type} {p : Prog Resp α} (hp : p.All SetUpReq) {s₀ s : Disk}
    (h : SameKeys s₀ s) (env : Env Req Outcome) :
    (p.run serve env s).1 = (p.run serve env s₀).1 := by
  induction p generalizing env s₀ s with
  | done a => rfl
  | call r k ih =>
    obtain ⟨hAnswer, hSame⟩ := h.serve hp.1 (env 0 r)
    rw [Prog.run_call, Prog.run_call, hAnswer]
    exact ih _ (hp.2 _) hSame env.tail

theorem all_readRecord_kept {α : Type} {d k : String} {decode : Bytes → SignalResult α}
    {missing : SignalResult α} (hKept : IsKept d k) :
    (readRecord d k decode missing).All ReadsKept :=
  all_readRecord (.get hKept) (.readToEnd hKept)

-- ---------------------------------------------------------------------------
-- The store methods
-- ---------------------------------------------------------------------------

section Guarded

variable {s₀ : Disk}

theorem undisturbed_readsKept {α : Type} {I : Disk → Prop} {p : Prog Resp α}
    (hp : p.All ReadsKept) : Undisturbed I (fun _ => True) p :=
  undisturbed_of_all (fun r hr o s hs => by rw [hr.serve]; exact hs) hp

/-- An operation on a record that is not among them. -/
theorem undisturbed_unkept (op : RecordOp L)
    (h : ¬IsKept (recordKey op).1 (recordKey op).2) :
    Undisturbed (SameKeys s₀) (fun _ => True) (handleRecord op) := by
  refine undisturbed_of_all (fun r hr o s hs => hs.frame (fun d k hKept => ?_) o)
    (all_handleRecord op)
  refine About.not_touches hr fun hEq => h ?_
  rw [← (Prod.mk.inj hEq).1, ← (Prod.mk.inj hEq).2]
  exact hKept

/-- The other dictionaries have none of these keys. -/
theorem not_isKept_of_dict {d k : String}
    (h : d = identityDict ∨ d = preKeyDict ∨ d = sessionDict ∨ d = dialogueDict) :
    ¬IsKept d k := by
  have hDicts : ∀ d ∈ [identityDict, preKeyDict, sessionDict, dialogueDict],
      d ≠ accountDict ∧ d ≠ signedPreKeyDict ∧ d ≠ kyberPreKeyDict := by decide +kernel
  obtain ⟨hAccount, hSigned, hKyber⟩ := hDicts d (by simpa using h)
  rintro (hd | hd | ⟨hd, -⟩)
  · exact hAccount hd
  · exact hSigned hd
  · exact hKyber hd

/-- No marker of a used prekey is the record of one. -/
theorem not_isKept_marker (k e : UInt32) (b : L.PublicKey) :
    ¬IsKept kyberPreKeyDict (PddbKyberPreKeyStore.dedupKey k e b) := by
  have hDicts : kyberPreKeyDict ≠ accountDict ∧ kyberPreKeyDict ≠ signedPreKeyDict := by
    decide +kernel
  rintro (hd | hd | ⟨-, id, hId⟩)
  · exact hDicts.1 hd
  · exact hDicts.2 hd
  · exact dedupKey_ne_idKey k e id b hId

/-- **The store methods** keep the account and these prekeys, as far as the
rules allow them. -/
theorem guarded_sameKeys : Guarded (L := L) (SameKeys s₀) fun _ => True where
  nothing := trivial
  delivery r hr o s hs :=
    hs.frame (fun d k hKept => hr.not_touches fun hEq => by
      have hDict := (Prod.mk.inj hEq).1
      exact not_isKept_of_dict (.inr (.inr (.inr hDict))) hKept) o
  handle _ op _ hAllowed := by
    have hIdentity (k : String) : ¬IsKept identityDict k := not_isKept_of_dict (.inl rfl)
    have hPre (k : String) : ¬IsKept preKeyDict k := not_isKept_of_dict (.inr (.inl rfl))
    have hSession (k : String) : ¬IsKept sessionDict k :=
      not_isKept_of_dict (.inr (.inr (.inl rfl)))
    -- the store methods that read these records, and those that are about others
    match op with
    | .account op =>
      exact undisturbed_readsKept ((all_handle_account op).mono fun _ => .of_readsAccount)
    | .record (.saveIdentity a i) => exact undisturbed_unkept (.saveIdentity a i) (hIdentity _)
    | .record (.isTrustedIdentity a i dir) =>
      exact undisturbed_unkept (.isTrustedIdentity a i dir) (hIdentity _)
    | .record (.getIdentity a) => exact undisturbed_unkept (.getIdentity a) (hIdentity _)
    | .record (.getPreKey id) => exact undisturbed_unkept (.getPreKey id) (hPre _)
    | .record (.removePreKey id) => exact undisturbed_unkept (.removePreKey id) (hPre _)
    | .record (.getSignedPreKey id) =>
      exact undisturbed_readsKept (all_readRecord_kept (.inr (.inl rfl)))
    | .record (.getKyberPreKey id) =>
      exact undisturbed_readsKept (all_readRecord_kept (.inr (.inr ⟨rfl, id, rfl⟩)))
    | .record (.markKyberPreKeyUsed k e b) =>
      exact undisturbed_unkept (.markKyberPreKeyUsed k e b) (not_isKept_marker k e b)
    | .record (.loadSession a) => exact undisturbed_unkept (.loadSession a) (hSession _)
    | .record (.storeSession a r) => exact undisturbed_unkept (.storeSession a r) (hSession _)

end Guarded

-- ---------------------------------------------------------------------------
-- Every run
-- ---------------------------------------------------------------------------

/-- Everything but the set-up of an account: posting, receiving, and loading the
account that is there. -/
def Work.Everyday : Work U P → Prop
  | .setUp .new _ _ => True
  | .setUp .. => False
  | .post .. | .dispatch .. => True

/-- Two disks hold the same device: whatever fails, it loads the same manager,
connects with the same answer and manager, whatever the user and the network do,
receives and sends under the same address, and answers libsignal with the same
keys. -/
structure SameDevice (U : UrlCrate) (L : Libsignal) (s₀ s : Disk) : Prop where
  manager : ∀ env, ((SigChat.new : Prog Resp (Except App.Panic (SigChat U))).run serve env s).1 =
    (SigChat.new.run serve env s₀).1
  connect : ∀ (t : Turn U L) (c : SigChat U) env,
    ((c.connect t).run serve env s).1 = ((c.connect t).run serve env s₀).1
  address : ∀ env, (localProtocolAddress.run serve env s).1 =
    (localProtocolAddress.run serve env s₀).1
  account : ∀ (op : AccountOp) env, ((handle (L := L) (.account op)).run serve env s).1 =
    ((handle (L := L) (.account op)).run serve env s₀).1
  signedPreKey : ∀ id env, ((handleRecord (L := L) (.getSignedPreKey id)).run serve env s).1 =
    ((handleRecord (L := L) (.getSignedPreKey id)).run serve env s₀).1
  kyberPreKey : ∀ id env, ((handleRecord (L := L) (.getKyberPreKey id)).run serve env s).1 =
    ((handleRecord (L := L) (.getKyberPreKey id)).run serve env s₀).1

/-- `SigChat::new` reads the account. -/
theorem all_sigChatNew :
    (SigChat.new : Prog Resp (Except App.Panic (SigChat U))).All ReadsAccount := by
  refine all_read.bind fun r => ?_
  cases r with
  | error p => trivial
  | ok r =>
    dsimp only
    split <;> trivial

/-- **The same records are the same device.** -/
theorem SameKeys.device {s₀ s : Disk} (h : SameKeys s₀ s) : SameDevice U L s₀ s where
  manager := run_same (all_sigChatNew.mono fun _ => .of_readsAccount) h
  connect t c := run_same (all_connect t c) h
  address := run_same (all_localProtocolAddress.mono fun _ => .of_readsAccount) h
  account op := run_same ((all_handle_account op).mono fun _ => .of_readsAccount) h
  signedPreKey _ :=
    run_same ((all_readRecord_kept (.inr (.inl rfl))).mono fun _ => ReadsKept.setUpReq) h
  kyberPreKey id :=
    run_same ((all_readRecord_kept (.inr (.inr ⟨rfl, id, rfl⟩))).mono fun _ => ReadsKept.setUpReq) h

/-- What posting, receiving and loading leave of the records, however many starts
there are. -/
theorem everyday_sameKeys (hP : KeepsRules P) {ι : Type} [DecidableEq ι]
    {starts : List (Start ι U P)}
    (hEveryday : ∀ b ∈ starts, ∀ i, ∀ w ∈ b.threads i, w.Everyday) (a : MainWs.App) :
    SameKeys a.disk (afterStarts starts a).disk := by
  refine threads_invariant (fun b hb i w hw => ?_) (SameKeys.refl a.disk)
  have hGuarded : Guarded (L := L) (SameKeys a.disk) fun _ => True := guarded_sameKeys
  have hKind := hEveryday b hb i w hw
  match w with
  | .post text ts now rng => exact stable_post hGuarded hP text ts now rng
  | .dispatch body localAddr rng =>
    exact (stable_dispatch hGuarded hP body localAddr rng).then fun _ => trivial
  | .setUp .new t c =>
    have hNew : Undisturbed (SameKeys a.disk) (fun _ => True)
        (SigChat.new : Prog Resp (Except App.Panic (SigChat U))) :=
      undisturbed_readsAccount all_sigChatNew
    have hProg : Undisturbed (SameKeys a.disk) (fun _ => True) (Operation.new.prog t c) :=
      hNew.then fun _ _ => trivial
    exact hProg.onPddb.then fun _ => trivial
  -- the other operations are not everyday work
  | .setUp .connect _ _ => exact hKind.elim
  | .setUp (.accountLink _) _ _ => exact hKind.elim
  | .setUp (.accountRegister _) _ _ => exact hKind.elim

/-- **The device survives.** After any number of starts, on each of which threads
post, receive and load the account, interleaved in any way, with any requests
failing and the process stopped at any point, the disk holds the same device. -/
theorem device_survives (hP : KeepsRules P) {ι : Type} [DecidableEq ι]
    {starts : List (Start ι U P)}
    (hEveryday : ∀ b ∈ starts, ∀ i, ∀ w ∈ b.threads i, w.Everyday) (a : MainWs.App) :
    SameDevice U L a.disk (afterStarts starts a).disk :=
  (everyday_sameKeys hP hEveryday a).device

/-- Two starts of a linked device with a session with `bob`. -/
def twoStarts : List (Start Thread .plain Protocol.plain) :=
  [{ threads := fun thread =>
      if thread = .ui then [.setUp .new LoadedManager.registering ⟨none⟩, .post "hi" 5 0 ()]
      else [.dispatch (ordinaryEnvelope "bob" [7]) me ()]
     env := fun _ i _ => if i = 3 then .failed ⟨IoError.ofKind .invalidData, by decide⟩ else .served
     sched := List.replicate 9 .ui ++ List.replicate 5 .mainWs ++ List.replicate 4 .ui },
    { threads := fun _ => [.setUp .new LoadedManager.registering ⟨none⟩]
      env := fun _ _ _ => .served
      sched := List.replicate 9 .ui }]

/-- The example with two starts does everyday work only. -/
theorem everyday_twoStarts : ∀ b ∈ twoStarts, ∀ i, ∀ w ∈ b.threads i, w.Everyday := by
  intro b hb i w hw
  simp only [twoStarts, List.mem_cons, List.not_mem_nil, or_false] at hb
  rcases hb with rfl | rfl
  · dsimp only at hw
    cases i with
    | ui =>
      rw [if_pos rfl] at hw
      simp only [List.mem_cons, List.not_mem_nil, or_false] at hw
      rcases hw with rfl | rfl <;> trivial
    | mainWs =>
      rw [if_neg (by decide), List.mem_singleton] at hw
      subst hw
      trivial
  · simp only [List.mem_singleton] at hw
    subst hw
    trivial

/-- The theorem for them. -/
theorem device_survives_two :
    SameDevice .plain .plain linkedApp.disk (afterStarts twoStarts linkedApp).disk :=
  device_survives keepsRules_plain everyday_twoStarts linkedApp

end Sigchat.Results

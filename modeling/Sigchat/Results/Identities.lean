import Sigchat.Results.Threads

/-!
# Identities on first use

The first identity key of a peer is trusted and stored. From then on the store
calls no other key of the peer trusted, so libsignal, which saves only what it
has been told is trusted, comes to save the stored key only, and `save_identity`
writes nothing for it. Nothing else touches the identities: deleting the account
or linking it anew keeps them.

* `undisturbed_pddbReadBinary` — what is read, in however many pieces, of a
  record that stays as it is;
* `guarded_pinned`             — the store methods keep a stored identity;
* `identity_pinned`            — it is kept by every run of the process, and no
  other key is trusted.
-/

namespace Sigchat.Results

open Sigchat.Lib
open Sigchat.Pddb
open Sigchat.Signal
open Sigchat.Stores
open Sigchat.Accounts
open Sigchat.Outgoing
open Sigchat.MainWs
open Sigchat.App

variable {U : UrlCrate} {L : Libsignal} {P : Protocol L}

/-- The stored identity of a peer. -/
def Pinned (peer : ProtocolAddress) (record : Bytes) (s : Disk) : Prop :=
  s identityDict (addressKey peer) = some record

/-- No key of the peer but this one has been called trusted. -/
def TrustsOnly (peer : ProtocolAddress) (key : L.IdentityKey)
    (trusted : List (ProtocolAddress × L.IdentityKey)) : Prop :=
  ∀ other, (peer, other) ∈ trusted → other = key

-- ---------------------------------------------------------------------------
-- Records that stay
-- ---------------------------------------------------------------------------

section Reading

variable {d k : String} {bs : Bytes}

/-- The loop of reads, once it has read the first bytes of a record that stays as
it is. -/
theorem stable_readToEndLoop (fuel : Nat) {pos : Nat} (hpos : pos ≤ bs.length) :
    (readToEndLoop d k fuel (bs.take pos)).Stable serve (fun s => s d k = some bs)
      fun r => r = .ok bs ∨ ∃ e : IoError, r = .error e ∧ e.kind ≠ .notFound := by
  induction fuel generalizing pos with
  | zero => exact .inr ⟨_, rfl, by decide⟩
  | succ fuel ih =>
    have hLen : (bs.take pos).length = pos := List.length_take_of_le hpos
    rw [readToEndLoop, hLen]
    intro s hs o
    rcases serve_readMore o s d k pos with
      ⟨f, -, hServe⟩ | ⟨hNone, -⟩ | ⟨bs', n, hSome, hn, hServe⟩
    · rw [hServe]
      exact ⟨hs, .inr ⟨f.err, rfl, f.kind_ne⟩⟩
    -- The record is kept whoever is served in between, so each read finds it.
    · exact absurd (hNone.symm.trans hs) (Option.some_ne_none bs).symm
    · obtain rfl : bs' = bs := Option.some.inj (hSome.symm.trans hs)
      rw [hServe]
      refine ⟨hs, ?_⟩
      rcases hPiece : (bs'.drop pos).take n with _ | ⟨b, piece⟩
      · -- the end of the record
        exact .inl (congrArg Except.ok (List.take_of_length_le
          (List.drop_eq_nil_iff.mp (drop_eq_nil_of_take hn hPiece))))
      · obtain ⟨hNext, hBound⟩ := take_append_piece hpos hPiece
        dsimp only
        rw [hNext]
        exact ih hBound

/-- A record that stays as it is, whoever is served in between, is read as it
is, or a request fails; it is never missing. -/
theorem undisturbed_pddbReadBinary :
    Undisturbed (fun s => s d k = some bs)
      (fun r => r = .ok bs ∨ ∃ e : IoError, r = .error e ∧ e.kind ≠ .notFound)
      (pddbReadBinary d k) := by
  rw [Undisturbed, interp_pddbReadBinary]
  intro s hs o
  cases o with
  | failed f => exact ⟨hs, .inr ⟨f.err, rfl, f.kind_ne⟩⟩
  | served | short n =>
    simp only [serve, perform, hs]
    exact ⟨trivial, stable_readToEndLoop (2 ^ 31) (Nat.zero_le _)⟩

/-- So a lookup decodes it or fails. -/
theorem undisturbed_readRecord {α : Type} {decode : Bytes → SignalResult α}
    {missing : SignalResult α} :
    Undisturbed (fun s => s d k = some bs) (fun r => r = decode bs ∨ ∃ e, r = .error e)
      (readRecord d k decode missing) := by
  refine undisturbed_pddbReadBinary.then fun r hr => ?_
  rcases hr with rfl | ⟨e, rfl, hKind⟩
  · exact .inl rfl
  · simp only [hKind, if_false]
    exact .inr ⟨_, rfl⟩

/-- Operations on other records. -/
theorem undisturbed_other (op : RecordOp L) (h : (d, k) ≠ recordKey op) :
    Undisturbed (fun s => s d k = some bs) (fun _ => True) (handleRecord op) :=
  undisturbed_of_all (fun _ hr o s hs => (serve_frame hr o s).trans hs)
    (all_handleRecord_other op h)

end Reading

-- ---------------------------------------------------------------------------
-- The identity store
-- ---------------------------------------------------------------------------

section Guarded

variable {peer : ProtocolAddress} {record : Bytes} {key : L.IdentityKey}

/-- **Trust.** While an identity is stored, no other key is trusted. -/
theorem undisturbed_isTrusted (hKey : L.identityKeyDecode record = .ok key)
    (other : L.IdentityKey) (dir : Direction) :
    Undisturbed (Pinned peer record) (fun r => r = .ok true → other = key)
      (identityStore.isTrustedIdentity peer other dir) := by
  refine Prog.stable_mono (fun r hr hTrue => ?_) undisturbed_readRecord
  rcases hr with rfl | ⟨e, rfl⟩
  · rw [hKey] at hTrue
    exact (of_decide_eq_true (Except.ok.inj hTrue)).symm
  · exact nomatch hTrue

/-- **Saving** the stored key writes nothing. -/
theorem undisturbed_saveStored (hKey : L.identityKeyDecode record = .ok key) :
    Undisturbed (Pinned peer record) (fun _ => True) (identityStore.saveIdentity peer key) := by
  refine undisturbed_pddbReadBinary.then fun r hr => ?_
  rcases hr with rfl | ⟨e, rfl, hKind⟩
  · simp only [hKey, if_true]
    trivial
  · simp only [hKind, if_false]
    trivial

theorem not_identity_of_ne {address : ProtocolAddress} (h : address ≠ peer) :
    (identityDict, addressKey peer) ≠ (identityDict, addressKey address) := fun hEq =>
  h (addressKey_injective (Prod.mk.inj hEq).2).symm

/-- The dictionary of the identities is none of the other dictionaries that the
threads write to. -/
theorem dicts_ne_identity : identityDict ≠ preKeyDict ∧ identityDict ≠ signedPreKeyDict ∧
    identityDict ≠ kyberPreKeyDict ∧ identityDict ≠ sessionDict ∧ identityDict ≠ dialogueDict ∧
    identityDict ≠ accountDict := by decide +kernel

/-- An operation that neither saves nor checks an identity teaches nothing. -/
theorem undisturbed_elsewhere {op : RecordOp L} {w : List (ProtocolAddress × L.IdentityKey)}
    (hDict : (recordKey op).1 ≠ identityDict) (hw : TrustsOnly peer key w)
    (hLearn : ∀ x, storeRules.learn w (.record op) x = w) :
    Undisturbed (Pinned peer record)
      (fun x => TrustsOnly peer key (storeRules.learn w (.record op) x)) (handleRecord op) := by
  have hOther : (identityDict, addressKey peer) ≠ recordKey op := fun hEq =>
    hDict (congrArg Prod.fst hEq).symm
  refine Prog.stable_mono (fun x _ => ?_) (undisturbed_other _ hOther)
  rw [hLearn x]
  exact hw

/-- **The store methods** keep a stored identity, as far as the rules allow
them, and call no other key of the peer trusted. -/
theorem guarded_pinned (hKey : L.identityKeyDecode record = .ok key) :
    Guarded (Pinned peer record) (TrustsOnly peer key) where
  nothing := fun _ h => absurd h List.not_mem_nil
  delivery r hr o s hs :=
    (serve_frame (hr.not_touches fun hEq =>
      dicts_ne_identity.2.2.2.2.1 (Prod.mk.inj hEq).1) o s).trans hs
  handle w op hw hAllowed := by
    obtain ⟨hPre, hSigned, hKyber, hSession, -, -⟩ := dicts_ne_identity
    -- One case per store operation; only the three about identities reach the dictionary,
    -- and of those only the ones for this peer reach its key.
    match op with
    | .account op =>
      exact Prog.stable_mono (fun _ _ => hw) (undisturbed_readsAccount (all_handle_account op))
    | .record (.saveIdentity address identity) =>
      refine Prog.stable_mono (Q := fun _ => True) (fun _ _ => hw) ?_
      by_cases hPeer : address = peer
      · subst hPeer
        obtain rfl := hw identity hAllowed
        exact undisturbed_saveStored hKey
      · exact undisturbed_other (.saveIdentity address identity) (not_identity_of_ne hPeer)
    | .record (.isTrustedIdentity address identity dir) =>
      -- A key is learnt only when `is_trusted_identity` has said yes to it.
      have hLearnt {x : SignalResult Bool}
          (hx : x = .ok true → address = peer → identity = key) :
          TrustsOnly peer key
            (storeRules.learn w (.record (.isTrustedIdentity address identity dir)) x) := by
        match x with
        | .error e => exact hw
        | .ok false => exact hw
        | .ok true =>
          intro other hMem
          rcases List.mem_cons.mp hMem with hEq | hOld
          · obtain ⟨rfl, rfl⟩ := Prod.mk.inj hEq
            exact hx rfl rfl
          · exact hw other hOld
      by_cases hPeer : address = peer
      · subst hPeer
        exact Prog.stable_mono (fun x hx => hLearnt fun hTrue _ => hx hTrue)
          (undisturbed_isTrusted hKey identity dir)
      · exact Prog.stable_mono (fun x _ => hLearnt fun _ hEq => absurd hEq hPeer)
          (undisturbed_other (.isTrustedIdentity address identity dir)
            (not_identity_of_ne hPeer))
    | .record (.getIdentity address) =>
      refine Prog.stable_mono (Q := fun _ => True) (fun _ _ => hw) ?_
      by_cases hPeer : address = peer
      · subst hPeer
        exact Prog.stable_mono (fun _ _ => trivial) undisturbed_readRecord
      · exact undisturbed_other (.getIdentity address) (not_identity_of_ne hPeer)
    | .record (.getPreKey id) => exact undisturbed_elsewhere hPre.symm hw fun _ => rfl
    | .record (.removePreKey id) => exact undisturbed_elsewhere hPre.symm hw fun _ => rfl
    | .record (.getSignedPreKey id) => exact undisturbed_elsewhere hSigned.symm hw fun _ => rfl
    | .record (.getKyberPreKey id) => exact undisturbed_elsewhere hKyber.symm hw fun _ => rfl
    | .record (.markKyberPreKeyUsed k e b) =>
      exact undisturbed_elsewhere hKyber.symm hw fun _ => rfl
    | .record (.loadSession address) => exact undisturbed_elsewhere hSession.symm hw fun _ => rfl
    | .record (.storeSession address r) =>
      exact undisturbed_elsewhere hSession.symm hw fun _ => rfl

/-- The requests that prepare the store before libsignal runs leave the record
where it is. -/
theorem pinned_setUp {r : Req} (hr : SetUpReq r) (o : Outcome) {s : Disk}
    (hs : Pinned peer record s) : Pinned peer record (serve o r s).2 := by
  obtain ⟨-, hSigned, hKyber, -, -, hAccount⟩ := dicts_ne_identity
  refine (serve_frame (fun hTouches => ?_) o s).trans hs
  rcases hr.dict hTouches with h | h | h
  · exact hAccount h
  · exact hSigned h
  · exact hKyber h

end Guarded

-- ---------------------------------------------------------------------------
-- Every run
-- ---------------------------------------------------------------------------

/-- **A stored identity is final.** Once the record of a peer's identity is
there, it is there after every run: threads that post, receive, link the device,
register it and delete the account are interleaved in any way, requests fail as
they may, and the process is restarted at any point. At no time is another key
of the peer trusted, even if others are served while the store is asked. -/
theorem identity_pinned (hP : KeepsRules P) {ι : Type} [DecidableEq ι]
    (starts : List (Start ι U P)) (a : MainWs.App) {peer : ProtocolAddress} {record : Bytes}
    {key : L.IdentityKey} (hStored : Pinned peer record a.disk)
    (hKey : L.identityKeyDecode record = .ok key) :
    Pinned peer record (afterStarts starts a).disk ∧
      ∀ other dir, Undisturbed (Pinned peer record) (fun r => r = .ok true → other = key)
        (identityStore.isTrustedIdentity peer other dir) := by
  have hGuarded : Guarded (Pinned peer record) (TrustsOnly peer key) := guarded_pinned hKey
  refine ⟨threads_invariant (fun b _ i w _ => ?_) hStored, undisturbed_isTrusted hKey⟩
  cases w with
  | post text ts now rng => exact stable_post hGuarded hP text ts now rng
  | dispatch body localAddr rng =>
    exact (stable_dispatch hGuarded hP body localAddr rng).then fun _ => trivial
  | setUp op t c =>
    have hSetUp : AppUndisturbed (Pinned peer record) (onPddb (op.prog t c)) :=
      stable_setUp t c (fun _ hr o _ hs => pinned_setUp hr o hs) op
    exact hSetUp.then fun _ => trivial

/-- Decrypt a message that starts with the identity key of its sender. -/
def checkedDecrypt (msg : Bytes) (remote : ProtocolAddress) : Call .plain Bytes :=
  .call (.record (.isTrustedIdentity remote (msg.take 1) .receiving)) fun
    | .ok true => .call (.record (.saveIdentity remote (msg.take 1))) fun
      | .ok _ => .done (.ok msg)
      | .error e => .done (.error e)
    | .ok false => .done (.error (.other "untrusted identity"))
    | .error e => .done (.error e)

/-- A protocol that checks identities when it decrypts. -/
def Protocol.checking : Protocol .plain :=
  { Protocol.plain with
    messageDecryptSignal := fun (msg : Bytes) remote _ => checkedDecrypt msg remote
    messageDecryptPrekey := fun (msg : Bytes) remote _ _ => checkedDecrypt msg remote }

/-- The protocol that asks before it decrypts saves an identity only after it
was told that it is trusted. -/
theorem follows_checkedDecrypt (msg : Bytes) (remote : ProtocolAddress) :
    (checkedDecrypt msg remote).Follows storeRules [] := by
  refine ⟨trivial, fun x => ?_⟩
  match x with
  | .error e => trivial
  | .ok false => trivial
  | .ok true =>
    refine ⟨List.mem_singleton_self _, fun x => ?_⟩
    cases x <;> trivial

/-- The protocol that checks keeps the rules and does save identities, so the
hypotheses have an instance that uses them. -/
theorem keepsRules_checking : KeepsRules Protocol.checking where
  encrypt _ _ _ _ _ := follows_plainCall _ _ _
  decryptSignal msg remote _ := follows_checkedDecrypt msg remote
  decryptPrekey msg remote _ _ := follows_checkedDecrypt msg remote
  unsealSender _ := trivial

/-- The identity of `bob` is `[5]`. -/
def knowsBob : MainWs.App where
  disk := linkedApp.disk.set identityDict (addressKey bob) (some [5])
  posts := []
  redraws := 0

/-- Two messages in the name of `bob`, of which one has another key, while the
user posts; then a start on which the app loads its account. -/
def strangersKey : List (Start Thread .plain Protocol.checking) :=
  [{ threads := fun
      | .ui => [.post "hi" 5 0 ()]
      | .mainWs => [.dispatch (ordinaryEnvelope "bob" [6]) me (),
          .dispatch (ordinaryEnvelope "bob" [5]) me ()]
     env := fun _ _ _ => .served
     sched := List.replicate 3 .mainWs ++ List.replicate 9 .ui ++ List.replicate 9 .mainWs },
    { threads := fun _ => [.setUp .new LoadedManager.registering ⟨none⟩]
      env := fun _ _ _ => .served
      sched := List.replicate 9 .ui }]

/-- The theorem for them. -/
theorem identity_pinned_bob : Pinned bob [5] (afterStarts strangersKey knowsBob).disk := by
  have hStored : Pinned bob [5] knowsBob.disk := by
    unfold Pinned knowsBob
    exact Disk.set_same linkedApp.disk identityDict (addressKey bob) (some [5])
  have hKey : Libsignal.plain.identityKeyDecode [5] = .ok ([5] : Bytes) := rfl
  exact (identity_pinned keepsRules_checking strangersKey knowsBob hStored hKey).1

end Sigchat.Results

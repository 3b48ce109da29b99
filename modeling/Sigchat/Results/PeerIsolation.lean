import Sigchat.Results.ChatTranscript
import Sigchat.Results.Threads

/-!
# Peers do not meet

Sessions and identities are stored under the address of a peer, and libsignal
writes those of the peer it is called for. So the records of a peer are out of
reach of all others: whatever envelopes they send, and whatever the user posts,
links or restarts in between, the records change only through an envelope whose
sender the peer is, or once a post has read the peer as the default recipient.

The recipient has to be watched where it is read, not on the disk: the record is
read in pieces, and when it changes between two of them the text that a post
gets has never been on the disk.

* `all_handle_spares`   — the store methods write for one peer at most;
* `all_dispatch_spares` — receiving from someone else;
* `follows_post`        — posting, until it reads the peer as the recipient;
* `peer_isolated`       — every run of the process.
-/

namespace Sigchat.Results.PeerIsolation

open Sigchat.Lib
open Sigchat.Pddb
open Sigchat.Signal
open Sigchat.Stores
open Sigchat.Protos
open Sigchat.Accounts (UrlCrate)
open Sigchat.Outgoing
open Sigchat.MainWs
open Sigchat.Results.ChatTranscript (Calls unsealedCall dispatchEnvelope_unsealed
  type_of_sealed)

variable {U : UrlCrate} {L : Libsignal} {P : Protocol L} {peer : ProtocolAddress}

-- ---------------------------------------------------------------------------
-- The records of a peer
-- ---------------------------------------------------------------------------

/-- Where there is a record for each peer. -/
def peerDicts : List String := [sessionDict, identityDict]

/-- The session and the identity of the peer are as in `s₀`. -/
def SamePeer (peer : ProtocolAddress) (s₀ s : Disk) : Prop :=
  ∀ d ∈ peerDicts, s d (addressKey peer) = s₀ d (addressKey peer)

/-- The text names the peer as the recipient. -/
def Names (peer : ProtocolAddress) (text : Bytes) : Prop :=
  (fromUtf8 text).map parsePeerJson = some (.ok peer)

instance (peer : ProtocolAddress) : DecidablePred (Names peer) := fun text =>
  inferInstanceAs (Decidable ((fromUtf8 text).map parsePeerJson = some (.ok peer)))

/-- The peer whose records an operation writes. -/
def writesFor : StoreOp L → Option ProtocolAddress
  | .record (.saveIdentity address _) => some address
  | .record (.storeSession address _) => some address
  | _ => none

/-- The operation writes no records, or those of the peer `remote`. -/
def WritesAtMost (remote : ProtocolAddress) (op : StoreOp L) : Prop :=
  ∀ address, writesFor op = some address → address = remote

theorem WritesAtMost.of_none {remote : ProtocolAddress} {op : StoreOp L} (h : writesFor op = none) :
    WritesAtMost remote op :=
  fun address hEq => absurd (hEq.symm.trans h) (Option.some_ne_none address)

theorem WritesAtMost.ne {remote : ProtocolAddress} {op : StoreOp L} (h : WritesAtMost remote op)
    (hRemote : remote ≠ peer) : writesFor op ≠ some peer :=
  fun hEq => hRemote (h peer hEq).symm

/-- libsignal writes the records of the peer it is called for; to unseal a
message it writes none. -/
structure KeepsPeersApart (P : Protocol L) : Prop where
  encrypt : ∀ msg remote localAddr now rng,
    (P.messageEncrypt msg remote localAddr now rng).All (WritesAtMost remote)
  decryptSignal : ∀ msg remote rng,
    (P.messageDecryptSignal msg remote rng).All (WritesAtMost remote)
  decryptPrekey : ∀ msg remote localAddr rng,
    (P.messageDecryptPrekey msg remote localAddr rng).All (WritesAtMost remote)
  unsealSender : ∀ content, (P.sealedSenderDecryptToUsmc content).All fun op => writesFor op = none

-- ---------------------------------------------------------------------------
-- Requests
-- ---------------------------------------------------------------------------

/-- The request leaves the records of the peer as they are. -/
def Spares (peer : ProtocolAddress) (r : Req) : Prop :=
  ∀ d ∈ peerDicts, ∀ o s, (serve o r s).2 d (addressKey peer) = s d (addressKey peer)

theorem Spares.keeps {r : Req} (h : Spares peer r) (o : Outcome) {s₀ s : Disk}
    (hs : SamePeer peer s₀ s) : SamePeer peer s₀ (serve o r s).2 :=
  fun d hd => (h d hd o s).trans (hs d hd)

theorem Spares.of_not_touches {r : Req} (h : ∀ d ∈ peerDicts, ¬r.Touches d (addressKey peer)) :
    Spares peer r := fun d hd o s => serve_frame (h d hd) o s

theorem Spares.of_reads {r : Req} (h : ∀ o s, (serve o r s).2 = s) : Spares peer r :=
  fun _ _ o s => congrFun (congrFun (h o s) _) _

theorem Spares.of_readsAccount {r : Req} (h : ReadsAccount r) : Spares peer r := .of_reads h.serve

/-- Opening a key that is not to be created changes nothing. -/
theorem serve_get (o : Outcome) (s : Disk) (d k : String) :
    (serve o (.get d k false) s).2 = s := by
  cases o with
  | failed f => rfl
  | served | short n =>
    simp only [serve, perform]
    split <;> rfl

/-- Reading changes nothing. -/
theorem serve_readToEnd (o : Outcome) (s : Disk) (d k : String) :
    (serve o (.readToEnd d k) s).2 = s := by
  cases o with
  | failed f => rfl
  | served | short n =>
    simp only [serve, perform]
    split <;> rfl

theorem spares_readMore (d k : String) (pos : Nat) : Spares peer (.readMore d k pos) :=
  .of_reads fun o s => readMore_disk o s d k pos

theorem spares_get (d k : String) : Spares peer (.get d k false) :=
  .of_reads fun o s => serve_get o s d k

theorem spares_readToEnd (d k : String) : Spares peer (.readToEnd d k) :=
  .of_reads fun o s => serve_readToEnd o s d k

theorem dicts_not_peer : preKeyDict ∉ peerDicts ∧ signedPreKeyDict ∉ peerDicts ∧
    kyberPreKeyDict ∉ peerDicts ∧ dialogueDict ∉ peerDicts ∧ accountDict ∉ peerDicts := by
  decide +kernel

/-- A request on a record in another dictionary. -/
theorem Spares.of_about {d k : String} (h : d ∉ peerDicts) {r : Req} (hr : About d k r) :
    Spares peer r :=
  .of_not_touches fun _ hd => hr.not_touches fun hEq => h ((Prod.mk.inj hEq).1 ▸ hd)

/-- A request on a record of another peer. -/
theorem Spares.of_other {address : ProtocolAddress} (h : address ≠ peer) {d : String} {r : Req}
    (hr : About d (addressKey address) r) : Spares peer r :=
  .of_not_touches fun _ _ => hr.not_touches fun hEq =>
    h (addressKey_injective (Prod.mk.inj hEq).2).symm

/-- The requests that prepare a store method spare every peer. -/
theorem Spares.of_setUp {r : Req} (hr : SetUpReq r) : Spares peer r :=
  .of_not_touches fun d hd hTouches => by
    obtain ⟨-, hSigned, hKyber, -, hAccount⟩ := dicts_not_peer
    rcases hr.dict hTouches with rfl | rfl | rfl
    · exact hAccount hd
    · exact hSigned hd
    · exact hKyber hd

-- ---------------------------------------------------------------------------
-- Operations
-- ---------------------------------------------------------------------------

theorem all_readRecord_spares {α : Type} {d k : String} {decode : Bytes → SignalResult α}
    {missing : SignalResult α} : (readRecord d k decode missing).All (Spares peer) :=
  all_readRecord (spares_get d k) (spares_readToEnd d k)

/-- **The store methods** write for one peer at most. -/
theorem all_handle_spares {op : StoreOp L} (h : writesFor op ≠ some peer) :
    (handle op).All (Spares peer) := by
  have hElsewhere (op : RecordOp L) (hDict : (recordKey op).1 ∉ peerDicts) :
      (handleRecord op).All (Spares peer) :=
    (all_handleRecord op).mono fun _ => .of_about hDict
  obtain ⟨hPre, hSigned, hKyber, -, -⟩ := dicts_not_peer
  -- Only saving an identity and storing a session write a record of a peer.
  match op with
  | .account op => exact (all_handle_account op).mono fun _ => .of_readsAccount
  | .record (.saveIdentity address identity) =>
    exact (all_handleRecord (.saveIdentity address identity)).mono fun _ =>
      .of_other fun hEq => h (congrArg some hEq)
  | .record (.storeSession address record) =>
    exact (all_handleRecord (.storeSession address record)).mono fun _ =>
      .of_other fun hEq => h (congrArg some hEq)
  -- these read a record of a peer
  | .record (.isTrustedIdentity _ _ _) => exact all_readRecord_spares
  | .record (.getIdentity _) => exact all_readRecord_spares
  | .record (.loadSession _) => exact all_readRecord_spares
  -- these are about prekeys
  | .record (.getPreKey id) => exact hElsewhere (.getPreKey id) hPre
  | .record (.savePreKey id r) => exact hElsewhere (.savePreKey id r) hPre
  | .record (.removePreKey id) => exact hElsewhere (.removePreKey id) hPre
  | .record (.getSignedPreKey id) => exact hElsewhere (.getSignedPreKey id) hSigned
  | .record (.saveSignedPreKey id r) => exact hElsewhere (.saveSignedPreKey id r) hSigned
  | .record (.getKyberPreKey id) => exact hElsewhere (.getKyberPreKey id) hKyber
  | .record (.saveKyberPreKey id r) => exact hElsewhere (.saveKyberPreKey id r) hKyber
  | .record (.markKyberPreKeyUsed k e b) => exact hElsewhere (.markKyberPreKeyUsed k e b) hKyber

/-- A call for another peer. -/
theorem all_interp_spares {α : Type} {remote : ProtocolAddress} (hRemote : remote ≠ peer)
    {p : Prog (StoreOp.Resp (L := L)) α} (hp : p.All (WritesAtMost remote)) :
    (p.interp handle).All (Spares peer) :=
  hp.interp_of fun _ hr => all_handle_spares (hr.ne hRemote)

-- ---------------------------------------------------------------------------
-- Receiving
-- ---------------------------------------------------------------------------

/-- The peer is a sender of the envelope: libsignal may be called to decrypt it
as a message of the peer. -/
def SentBy (P : Protocol L) (body : Bytes) (localAddr peer : ProtocolAddress) : Prop :=
  ∃ e call, EnvelopeProto.decode body = some e ∧ Calls P e localAddr peer call

/-- A request of the application that leaves the records of the peer as they
are. -/
def AppSpares (peer : ProtocolAddress) : AppReq → Prop
  | .pddb r => Spares peer r
  | _ => True

theorem all_onPddb_spares {α : Type} {p : Prog Resp α} (hp : p.All (Spares peer)) :
    (onPddb p).All (AppSpares peer) := all_onPddb_of hp fun _ hr => hr

theorem AppSpares.of_deliveryReq {r : AppReq} (hr : DeliveryReq r) : AppSpares peer r := by
  cases r with
  | pddb r => exact Spares.of_about dicts_not_peer.2.2.2.1 hr
  | postAdd author ts body => trivial
  | redraw => trivial

/-- The call that decrypts a sealed message is for the sender it is returned
with. -/
theorem KeepsPeersApart.sealedCall (hP : KeepsPeersApart P) {usmc : P.Usmc}
    {localAddr addr : ProtocolAddress} {ts : UInt64} {rng : P.Rng} {call : Call L Bytes}
    (h : sealedCall P usmc localAddr ts rng = some (addr, call)) :
    call.All (WritesAtMost addr) := by
  obtain ⟨remote, -, hInner⟩ := Option.bind_eq_some_iff.mp h
  obtain ⟨inner, hCall, hPair⟩ := Option.bind_eq_some_iff.mp hInner
  obtain ⟨rfl, rfl⟩ := Prod.mk.inj (Option.some.inj hPair)
  unfold innerCall at hCall
  dsimp only at hCall
  split at hCall
  · obtain ⟨msg, -, rfl⟩ := Option.map_eq_some_iff.mp hCall
    exact hP.decryptPrekey msg remote localAddr rng
  · obtain ⟨msg, -, rfl⟩ := Option.map_eq_some_iff.mp hCall
    exact hP.decryptSignal msg remote rng
  · cases hCall

/-- The call that decrypts any other message is for the sender that the envelope
names. -/
theorem unsealedCall_cases {e : EnvelopeProto} {content : Bytes}
    {localAddr addr : ProtocolAddress} {rng : P.Rng} {call : Call L Bytes}
    (h : unsealedCall P e content localAddr rng = some (addr, call)) :
    addr.name = e.sourceServiceId.getD "" ∧
      ((∃ msg, call = P.messageDecryptPrekey msg addr localAddr rng) ∨
        ∃ msg, call = P.messageDecryptSignal msg addr rng) := by
  obtain ⟨dev, -, hCall⟩ := Option.bind_eq_some_iff.mp h
  dsimp only at hCall
  split at hCall
  · obtain ⟨msg, -, hPair⟩ := Option.map_eq_some_iff.mp hCall
    obtain ⟨rfl, rfl⟩ := Prod.mk.inj hPair
    exact ⟨rfl, .inl ⟨msg, rfl⟩⟩
  · split at hCall
    · obtain ⟨msg, -, hPair⟩ := Option.map_eq_some_iff.mp hCall
      obtain ⟨rfl, rfl⟩ := Prod.mk.inj hPair
      exact ⟨rfl, .inr ⟨msg, rfl⟩⟩
    · cases hCall

/-- An unsealed envelope makes libsignal work for the address it names. -/
theorem KeepsPeersApart.unsealedCall (hP : KeepsPeersApart P) {e : EnvelopeProto} {content : Bytes}
    {localAddr addr : ProtocolAddress} {rng : P.Rng} {call : Call L Bytes}
    (h : unsealedCall P e content localAddr rng = some (addr, call)) :
    call.All (WritesAtMost addr) := by
  obtain ⟨-, ⟨msg, rfl⟩ | ⟨msg, rfl⟩⟩ := unsealedCall_cases h
  · exact hP.decryptPrekey msg addr localAddr rng
  · exact hP.decryptSignal msg addr rng

/-- An envelope that names its sender is from no one else. -/
theorem not_sentBy_of_name {body : Bytes} {e : EnvelopeProto} {localAddr : ProtocolAddress}
    (hDecode : EnvelopeProto.decode body = some e)
    (hType : e.type.getD 0 ≠ envelopeUnidentifiedSender)
    (hName : e.sourceServiceId.getD "" ≠ peer.name) : ¬SentBy P body localAddr peer := by
  rintro ⟨e', call, hDecode', hCalls⟩
  obtain rfl := Option.some.inj (hDecode.symm.trans hDecode')
  cases hCalls with
  | sealed hSealed => exact hType hSealed
  | unsealed _ _ hCall => exact hName (unsealedCall_cases hCall).1.symm

/-- Decrypting for another address and delivering spares the peer. -/
theorem all_decryptAndDeliver_spares {ts : UInt64}
    {c : Option (ProtocolAddress × Call L Bytes)}
    (h : ∀ addr call, c = some (addr, call) → addr ≠ peer ∧ call.All (WritesAtMost addr)) :
    (decryptAndDeliver ts c).All (AppSpares peer) := by
  rcases c with _ | ⟨addr, call⟩
  · trivial
  · obtain ⟨hAddr, hCall⟩ := h addr call rfl
    refine (all_onPddb_spares (all_interp_spares hAddr hCall)).bind fun x => ?_
    cases x with
    | error e => trivial
    | ok plaintext => exact (all_deliverContent plaintext addr ts).mono fun _ => .of_deliveryReq

/-- **Receiving** from someone else. -/
theorem all_dispatch_spares (hP : KeepsPeersApart P) {body : Bytes} {localAddr : ProtocolAddress}
    (h : ¬SentBy P body localAddr peer) (rng : P.Rng) :
    (dispatchEnvelope P body localAddr rng).All (AppSpares peer) := by
  rcases hDecode : EnvelopeProto.decode body with _ | e
  · rw [dispatchEnvelope, decryptEnvelope, hDecode]
    trivial
  rcases hContent : e.content with _ | content
  · rw [dispatchEnvelope, decryptEnvelope, hDecode]
    dsimp only
    rw [hContent]
    trivial
  have hOther {addr : ProtocolAddress} {call : Call L Bytes}
      (hCalls : Calls P e localAddr addr call) : addr ≠ peer := by
    rintro rfl
    exact h ⟨e, call, hDecode, hCalls⟩
  -- A sealed envelope names its sender only once it is unsealed; an unsealed one names it
  -- in the header.
  by_cases hType : e.type.getD 0 = envelopeUnidentifiedSender
  · rw [dispatchEnvelope_sealed P hDecode (type_of_sealed hType) hContent]
    have hUnseal : ((P.sealedSenderDecryptToUsmc content).interp handle).All (Spares peer) :=
      (hP.unsealSender content).interp_of fun op hOp =>
        all_handle_spares fun hEq => Option.some_ne_none peer (hEq.symm.trans hOp)
    -- The sender is the one that unsealing can really end with.
    have hEnds : (onStores (P.sealedSenderDecryptToUsmc content)).Yields
        (P.sealedSenderDecryptToUsmc content).MayEnd :=
      Prog.yields_of_mayEnd fun _ hEnd => Prog.mayEnd_of_interp (Prog.mayEnd_of_interp hEnd)
    refine (all_onPddb_spares hUnseal).bind_of_yields hEnds fun r hEnd => ?_
    refine all_decryptAndDeliver_spares fun addr call hCall => ?_
    obtain ⟨usmc, hUsmc, hSealed⟩ := Option.bind_eq_some_iff.mp hCall
    rw [ok_of_toOption hUsmc] at hEnd
    exact ⟨hOther (.sealed hType hContent hEnd hSealed), hP.sealedCall hSealed⟩
  · rw [dispatchEnvelope_unsealed P hDecode hType hContent]
    exact all_decryptAndDeliver_spares fun addr call hCall =>
      ⟨hOther (.unsealed hType hContent hCall), hP.unsealedCall hCall⟩

-- ---------------------------------------------------------------------------
-- Posting
-- ---------------------------------------------------------------------------

/-- What a thread has read of the default recipient: the reading that is under way,
and the texts of those that have ended. -/
structure Reading where
  buf : Bytes
  texts : List Bytes

/-- One more answer. -/
def Reading.hear (w : Reading) : (r : AppReq) → AppResp r → Reading
  | .pddb (.readMore d k pos), .ok bs =>
    if d = dialogueDict ∧ k = defaultPeerKey then
      if bs = [] then ⟨[], w.buf.take pos :: w.texts⟩ else ⟨w.buf.take pos ++ bs, w.texts⟩
    else w
  | _, _ => w

/-- The texts of the default recipient that a thread has read. -/
def recipientTexts (es : List (Sigma AppResp)) : List Bytes :=
  (es.foldl (fun w e => w.hear e.1 e.2) (⟨[], []⟩ : Reading)).texts

def Reading.Names (peer : ProtocolAddress) (w : Reading) : Prop :=
  ∃ text ∈ w.texts, PeerIsolation.Names peer text

/-- Until it has read the peer as the default recipient, a thread leaves the
records of the peer as they are. -/
def recipientRules (peer : ProtocolAddress) : Discipline AppResp Reading where
  allows w r := w.Names peer ∨ AppSpares peer r
  learn := Reading.hear

theorem learn_piece (w : Reading) (pos : Nat) (b : UInt8) (bs : Bytes) :
    (recipientRules peer).learn w (.pddb (.readMore dialogueDict defaultPeerKey pos))
      (.ok (b :: bs)) = ⟨w.buf.take pos ++ b :: bs, w.texts⟩ := rfl

/-- At the end of the record the text is complete, and known from then on. -/
theorem learn_end (w : Reading) (pos : Nat) :
    (recipientRules peer).learn w (.pddb (.readMore dialogueDict defaultPeerKey pos))
      (.ok []) = ⟨[], w.buf.take pos :: w.texts⟩ := rfl

/-- What has been read is not forgotten. -/
theorem Reading.Names.hear {w : Reading} (h : w.Names peer) (r : AppReq) (x : AppResp r) :
    (w.hear r x).Names peer := by
  obtain ⟨text, hText, hNames⟩ := h
  refine ⟨text, ?_, hNames⟩
  unfold Reading.hear
  split
  · split
    · split
      · exact List.mem_cons_of_mem _ hText
      · exact hText
    · exact hText
  · exact hText

/-- Work that spares the peer keeps the rules and has nothing to learn. -/
theorem follows_of_spares {α : Type} {p : Prog AppResp α} (hp : p.All (AppSpares peer))
    (w : Reading) : (p.interp appInPieces).Follows (recipientRules peer) w :=
  Prog.follows_of_all (fun _ _ hr => Or.inr hr)
    (hp.interp_of fun _ hr => all_appInPieces (P := AppSpares peer) spares_readMore hr) w

/-- From then on a thread is free. -/
theorem follows_of_named {α : Type} (p : Prog AppResp α) {w : Reading} (h : w.Names peer) :
    p.Follows (recipientRules peer) w := by
  have hAllows : ∀ w r, w.Names peer → (recipientRules peer).allows w r := fun _ _ => Or.inl
  have hFree : ∀ w r x, w.Names peer → ((recipientRules peer).learn w r x).Names peer :=
    fun _ r x h => h.hear r x
  exact Prog.follows_of_free hFree hAllows p h

/-- The loop that reads the default recipient, once it has read `buf`. -/
theorem follows_readToEndLoop (fuel : Nat) {buf : Bytes} {w : Reading}
    (hBuf : w.buf.take buf.length = buf) :
    (onPddb (readToEndLoop dialogueDict defaultPeerKey fuel buf)).FollowsTo (recipientRules peer)
      (fun w r => ∀ text, r = .ok text → text ∈ w.texts) w := by
  -- Read after read: the buffer of the loop is the one the rules keep.
  induction fuel generalizing buf w with
  | zero =>
    intro text h
    cases h
  | succ fuel ih =>
    refine ⟨.inr (spares_readMore _ _ _), fun x => ?_⟩
    match x with
    | .error e =>
      intro text h
      cases h
    | .ok [] =>
      intro text hText
      obtain rfl := Except.ok.inj hText
      rw [learn_end, hBuf]
      exact List.mem_cons_self
    | .ok (b :: bs) =>
      refine ih ?_
      rw [learn_piece, hBuf]
      exact List.take_length

/-- **The recipient**, read in pieces: if it is the peer, then a text has been read
that names the peer. -/
theorem follows_currentRecipient (w : Reading) :
    ((onPddb currentRecipient).interp appInPieces).FollowsTo (recipientRules peer)
      (fun w r => r = .ok peer → w.Names peer) w := by
  -- The name comes from a text that has been read to its end.
  have hText : (onPddb ((pddbGetString dialogueDict defaultPeerKey).interp inPieces)).FollowsTo
      (recipientRules peer)
      (fun w r => r.map parsePeerJson = some (.ok peer) → w.Names peer) w := by
    rw [interp_pddbGetString]
    refine ⟨.inr (spares_get _ _), fun x => ?_⟩
    rcases x with e | _
    · intro h
      cases h
    · have hLoop : (onPddb (readToEndLoop dialogueDict defaultPeerKey (2 ^ 31) [])).FollowsTo
          (recipientRules peer) (fun w r => ∀ text, r = .ok text → text ∈ w.texts) w :=
        follows_readToEndLoop _ rfl
      show (onPddb (readToEndLoop dialogueDict defaultPeerKey (2 ^ 31) [] >>= _)).FollowsTo _ _ w
      rw [onPddb, Prog.interp_bind]
      refine hLoop.bind fun w r hr hNames => ?_
      rcases r with e | text
      · cases hNames
      · exact ⟨text, hr text rfl, hNames⟩
  rw [onPddb_inPieces, currentRecipient, Prog.interp_bind, onPddb, Prog.interp_bind]
  refine hText.bind fun w r hr => ?_
  rcases r with _ | text
  · intro h
    cases h
  · exact fun h => hr (congrArg some h)

/-- Encrypting for another recipient spares the peer. -/
theorem KeepsPeersApart.buildEncryptedMessage (hP : KeepsPeersApart P)
    {recipient : ProtocolAddress} (hRecipient : recipient ≠ peer) (text : String) (ts : UInt64)
    (now : Nat) (rng : P.Rng) :
    (buildEncryptedMessage P text ts recipient now rng).All (Spares peer) := by
  refine (all_localProtocolAddress.mono fun _ => .of_readsAccount).bind fun r => ?_
  rcases r with e | localAddr
  · trivial
  refine all_interp_spares hRecipient ?_
  refine ⟨.of_none rfl, fun x => ?_⟩
  rcases x with e | record
  · trivial
  rcases record with _ | record
  · trivial
  dsimp only
  split
  · trivial
  · refine (hP.encrypt _ recipient localAddr now rng).bind fun x => ?_
    cases x <;> trivial

/-- **Posting**, until it reads the peer as the recipient. -/
theorem follows_post (hP : KeepsPeersApart P) (text : String) (ts : UInt64) (now : Nat)
    (rng : P.Rng) (w : Reading) :
    ((App.post P text ts now rng).interp appInPieces).Follows (recipientRules peer) w := by
  -- the echo and the redraw do not touch PDDB
  refine ⟨.inr trivial, fun _ => ⟨.inr trivial, fun _ => ?_⟩⟩
  show (Prog.interp appInPieces (onPddb currentRecipient >>= _)).Follows (recipientRules peer) w
  rw [Prog.interp_bind]
  refine (follows_currentRecipient w).bind fun w r hr => ?_
  rcases r with e | recipient
  · trivial
  · by_cases hRecipient : recipient = peer
    · -- the post is to the peer, and a text has been read that says so
      exact follows_of_named _ (hr (congrArg Except.ok hRecipient))
    · have hBuild := all_onPddb_spares (hP.buildEncryptedMessage hRecipient text ts now rng)
      exact follows_of_spares (hBuild.bind fun _ => Prog.all_done _ ()) w

-- ---------------------------------------------------------------------------
-- Every run
-- ---------------------------------------------------------------------------

/-- The work is an envelope of which the peer is a sender. -/
def IsFrom (peer : ProtocolAddress) : Work U P → Prop
  | .dispatch body localAddr _ => SentBy P body localAddr peer
  | _ => False

/-- A request of the application that spares the peer leaves its records as they
were at first. -/
theorem AppSpares.keeps {r : AppReq} (h : AppSpares peer r) (o : Outcome) {s₀ : Disk}
    {a : MainWs.App} (ha : SamePeer peer s₀ a.disk) :
    SamePeer peer s₀ (appServe o r a).2.disk := by
  cases r with
  | pddb r => exact Spares.keeps h o ha
  | postAdd author ts body => exact ha
  | redraw => exact ha

/-- Work that is not from the peer keeps the rules, whatever it has learnt
before. -/
theorem follows_work (hP : KeepsPeersApart P) {w : Work U P} (h : ¬IsFrom peer w)
    (known : Reading) : (w.prog.interp appInPieces).Follows (recipientRules peer) known := by
  cases w with
  | post text ts now rng => exact follows_post hP text ts now rng known
  | dispatch body localAddr rng =>
    exact follows_of_spares ((all_dispatch_spares hP h rng).bind fun _ => Prog.all_done _ ()) known
  | setUp op t c =>
    have hSetUp : (onPddb (op.prog t c)).All (AppSpares peer) :=
      all_onPddb_spares ((all_operation t c op).mono fun _ => Spares.of_setUp)
    exact follows_of_spares (hSetUp.bind fun _ => Prog.all_done _ ()) known

/-- **Peers do not meet.** Threads post, receive, link the device, register it
and delete the account, interleaved in any way, requests fail as they may, and
the process is restarted at any point. If none of the envelopes is from the
peer, and no thread has read a text that names the peer as the default
recipient, then the session and the identity of the peer are as at the
beginning. -/
theorem peer_isolated (hP : KeepsPeersApart P) {ι : Type} [DecidableEq ι]
    {starts : List (Start ι U P)} {a : MainWs.App}
    (hEnvelopes : ∀ b ∈ starts, ∀ i, ∀ w ∈ b.threads i, ¬IsFrom peer w)
    (hRecipient : ∀ tr ∈ threadAnswers starts a, ∀ i, ∀ text ∈ recipientTexts (shownBy i tr),
      ¬Names peer text) :
    SamePeer peer a.disk (afterStarts starts a).disk := by
  have hKeep : ∀ (w : Reading) r, ¬w.Names peer → (recipientRules peer).allows w r →
      ∀ o b, SamePeer peer a.disk b.disk → SamePeer peer a.disk (appServe o r b).2.disk :=
    fun w r hBound hAllowed o b hb => (hAllowed.resolve_left hBound).keeps o hb
  exact threads_follow (I := fun b : MainWs.App => SamePeer peer a.disk b.disk) hKeep
    (fun w r x h => Reading.Names.hear h r x)
    (fun b hb i w hw => follows_work hP (hEnvelopes b hb i w hw)) ⟨[], []⟩
    (fun tr hTr i ⟨text, hText, hNames⟩ => hRecipient tr hTr i text hText hNames)
    fun _ _ => rfl

/-- The plain protocol writes for the address it was called for. -/
theorem all_plainCall {α : Type} (remote : ProtocolAddress) (mark : UInt8) (result : α) :
    (plainCall remote mark result).All (WritesAtMost remote) := by
  refine ⟨.of_none rfl, fun x => ?_⟩
  cases x with
  | error e => trivial
  | ok record =>
    refine ⟨fun _ hWrites => (Option.some.inj hWrites).symm, fun x => ?_⟩
    cases x <;> trivial

/-- The plain protocol keeps peers apart. -/
theorem keepsPeersApart_plain : KeepsPeersApart Protocol.plain where
  encrypt _ remote _ _ _ := all_plainCall remote _ _
  decryptSignal _ remote _ := all_plainCall remote _ _
  decryptPrekey _ remote _ _ := all_plainCall remote _ _
  unsealSender _ := trivial

def carol : ProtocolAddress := ⟨"carol", .first⟩

/-- There is a session with `carol`, and the default recipient is `bob`. -/
def knowsCarol : MainWs.App where
  disk := (linkedApp.disk.set sessionDict (addressKey carol) (some [3])).set dialogueDict
    defaultPeerKey (some (utf8 (peerJson bob)))
  posts := []
  redraws := 0

def helloFromMallory : Bytes := ordinaryEnvelope "mallory" (messageContent "hello" 7)

/-- While a post reads the recipient, `mallory` sends a message and becomes the
default recipient; the user posts again after a restart. -/
def strangerWrites : List (Start Thread .plain Protocol.plain) :=
  [{ threads := fun thread =>
      if thread = .ui then [.post "hi" 5 0 ()] else [.dispatch helloFromMallory me ()]
     env := fun thread i _ => if thread = .ui ∧ i = 3 then .short 10 else .served
     sched := List.replicate 4 .ui ++ List.replicate 20 .mainWs ++ List.replicate 12 .ui },
    { threads := fun thread => if thread = .ui then [.post "again" 6 0 ()] else []
      env := fun _ _ _ => .served
      sched := List.replicate 12 .ui }]

/-- Nothing in the example comes from carol. -/
theorem not_from_carol : ∀ b ∈ strangerWrites, ∀ i, ∀ w ∈ b.threads i, ¬IsFrom carol w := by
  have hHeader : (EnvelopeProto.decode helloFromMallory).map
      (fun e => (e.type, e.sourceServiceId)) = some (some 1, some "mallory") := by decide +kernel
  obtain ⟨e, hDecode, hPair⟩ := Option.map_eq_some_iff.mp hHeader
  obtain ⟨hType, hName⟩ := Prod.mk.inj hPair
  have hMallory : ¬SentBy Protocol.plain helloFromMallory me carol :=
    not_sentBy_of_name hDecode (by rw [hType]; decide) (by rw [hName]; decide)
  intro b hb i w hw
  simp only [strangerWrites, List.mem_cons, List.not_mem_nil, or_false] at hb
  rcases hb with rfl | rfl
  · dsimp only at hw
    split at hw
    · rw [List.mem_singleton.mp hw]
      exact id
    · rw [List.mem_singleton.mp hw]
      exact hMallory
  · dsimp only at hw
    split at hw
    · rw [List.mem_singleton.mp hw]
      exact id
    · exact absurd hw List.not_mem_nil

/-- The theorem for them: the session with `carol` is as it was. -/
theorem peer_isolated_carol :
    SamePeer carol knowsCarol.disk (afterStarts strangerWrites knowsCarol).disk := by
  have hRecipient : ∀ tr ∈ threadAnswers strangerWrites knowsCarol, ∀ i,
      ∀ text ∈ recipientTexts (shownBy i tr), ¬Names carol text := by
    decide +kernel
  exact peer_isolated keepsPeersApart_plain not_from_carol hRecipient

/-- The first of the posts goes to someone who has never been the recipient on the
disk: the text begins as that of `bob` and ends as that of `mallory`. -/
example : ((threadAnswers strangerWrites knowsCarol).head?.map fun tr =>
    (recipientTexts (shownBy .ui tr)).map fun text => (fromUtf8 text).map parsePeerJson) =
      some [some (.ok ⟨"ballory", .first⟩)] := by
  decide +kernel

end Sigchat.Results.PeerIsolation

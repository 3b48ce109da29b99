import Sigchat.Lib.Interleave
import Sigchat.Results.SyncTranscript

/-!
# Sending and receiving on one session

The UI thread encrypts while the receive thread decrypts. Both load the
session of a peer, compute the next one and store it, over handles of their
own and without a lock.

* `session_update_lost` — a schedule after which one of the two updates is
  lost;
* `calls_serializable` — schedules on which no call comes to a session while
  another is at work on it are as good as serial ones.
-/

namespace Sigchat.Results

open Sigchat.Lib
open Sigchat.Pddb
open Sigchat.Signal
open Sigchat.Stores
open Sigchat.Outgoing
open Sigchat.MainWs

variable {L : Libsignal}

-- ---------------------------------------------------------------------------
-- The calls
-- ---------------------------------------------------------------------------

/-- Load the session, compute the next one from it and store that. -/
def loadComputeStore {α : Type} (remote : ProtocolAddress)
    (compute : Option L.session.Record → SignalResult (L.session.Record × α)) : Call L α :=
  .call (.record (.loadSession remote)) fun
    | .error e => .done (.error e)
    | .ok record =>
      match compute record with
      | .error e => .done (.error e)
      | .ok (record', x) =>
        .call (.record (.storeSession remote record')) fun
          | .error e => .done (.error e)
          | .ok () => .done (.ok x)

/-- libsignal's calls work on the session in this way; unsealing a sender only
reads the account. -/
structure LoadsAndStores (P : Protocol L) : Prop where
  encrypt : ∀ msg remote localAddr now rng, ∃ compute,
    P.messageEncrypt msg remote localAddr now rng = loadComputeStore remote compute
  decryptSignal : ∀ msg remote rng, ∃ compute,
    P.messageDecryptSignal msg remote rng = loadComputeStore remote compute
  decryptPrekey : ∀ msg remote localAddr rng, ∃ compute,
    P.messageDecryptPrekey msg remote localAddr rng = loadComputeStore remote compute
  unsealSender : ∀ content,
    (P.sealedSenderDecryptToUsmc content).All fun op => ∃ read, op = .account read

/-- A call of `build_encrypted_message` on the UI thread, or of
`dispatch_envelope` on the receive thread. -/
inductive AppCall (P : Protocol L) where
  | encrypt (text : String) (timestampMs : UInt64) (recipient : ProtocolAddress) (now : Nat)
      (rng : P.Rng)
  | dispatch (body : Bytes) (localAddr : ProtocolAddress) (rng : P.Rng)

def AppCall.prog {P : Protocol L} : AppCall P → Prog AppResp Unit
  | .encrypt text timestampMs recipient now rng =>
    onPddb (buildEncryptedMessage P text timestampMs recipient now rng) >>= fun _ => .done ()
  | .dispatch body localAddr rng => dispatchEnvelope P body localAddr rng >>= fun _ => .done ()

/-- Calls that run at once, each with the outcomes of its requests. -/
def running {P : Protocol L} {ι : Type} (calls : ι → AppCall P) (env : ι → Env AppReq Outcome)
    (i : ι) : Running AppResp Outcome := ⟨(calls i).prog, env i⟩

/-- The stored session of a peer. -/
def sessionOf (addr : ProtocolAddress) (a : App) : Option Bytes :=
  a.disk sessionDict (addressKey addr)

/-- The requests on it. -/
def OnSession (addr : ProtocolAddress) : AppReq → Prop
  | .pddb r => r.Touches sessionDict (addressKey addr)
  | _ => False

instance (addr : ProtocolAddress) : DecidablePred (OnSession addr)
  | .pddb r => inferInstanceAs (Decidable (r.Touches sessionDict (addressKey addr)))
  | .postAdd .. | .redraw => isFalse id

/-- The record of a session is a part of the disk of its own. -/
theorem isPart_session (addr : ProtocolAddress) :
    IsPart appServe (sessionOf addr) (OnSession addr) where
  frame {r} h o a := by
    cases r with
    | pddb r => exact serve_frame h o a.disk
    | _ => rfl
  answer {r} h o a b hSame := by
    cases r with
    | pddb r => exact (serve_local h o hSame).1
    | _ => exact h.elim
  change {r} h o a b hSame := by
    cases r with
    | pddb r => exact (serve_local h o hSame).2
    | _ => exact h.elim

-- ---------------------------------------------------------------------------
-- A lost update
-- ---------------------------------------------------------------------------

/-- One call on each thread. -/
inductive Thread where
  | ui
  | mainWs
  deriving DecidableEq

instance : Fintype Thread := ⟨{.ui, .mainWs}, fun t => by cases t <;> decide⟩

/-- A linked device with a session with `bob`. -/
def linkedApp : App where
  disk := Disk.set (Disk.set (Disk.set (fun _ _ => none) accountDict aciServiceIdKey
    (some (utf8 "me"))) accountDict deviceIdKey (some (utf8 "1"))) sessionDict "bob.1" (some [0])
  posts := []
  redraws := 0

def bob : ProtocolAddress := ⟨"bob", .first⟩

/-- A message to `bob` and one from him. -/
def crossing : Thread → AppCall Protocol.plain
  | .ui => .encrypt "hi" 5 bob 0 ()
  | .mainWs => .dispatch (ordinaryEnvelope "bob" [7]) me ()

/-- The plain protocol loads a session once and stores it once. -/
theorem plain_loadsAndStores : LoadsAndStores Protocol.plain := by
  have hPlain {α : Type} (remote : ProtocolAddress) (mark : UInt8) (x : α) :
      (plainCall remote mark x : Call .plain α) =
        loadComputeStore remote fun record => .ok (plainRatchet record mark, x) := by
    unfold plainCall loadComputeStore
    congr 1
    funext answer
    cases answer with
    | error e => rfl
    | ok record =>
      dsimp only
      congr 1
      funext stored
      cases stored <;> rfl
  exact ⟨fun _ _ _ _ _ => ⟨_, hPlain _ _ _⟩, fun _ _ _ => ⟨_, hPlain _ _ _⟩,
    fun _ _ _ _ => ⟨_, hPlain _ _ _⟩, fun _ => trivial⟩

/-- The orders of the two calls. -/
theorem order_cases {order : List Thread} (hNodup : order.Nodup) (hAll : ∀ t, t ∈ order) :
    order = [.ui, .mainWs] ∨ order = [.mainWs, .ui] := by
  have hPerm : order.Perm [.ui, .mainWs] :=
    (List.perm_ext_iff_of_nodup hNodup (by decide)).mpr fun t => by cases t <;> simp [hAll]
  obtain ⟨first, second, rfl⟩ := List.length_eq_two.mp hPerm.length_eq
  cases first <;> cases second <;> simp at hNodup ⊢

/-- **A lost update.** Receiving between the load and the store of a sending
call leaves a session that no order of the two calls does. -/
theorem session_update_lost :
    ¬∀ (P : Protocol .plain), LoadsAndStores P →
      ∀ (calls : Thread → AppCall P) (env : Thread → Env AppReq Outcome) (addr : ProtocolAddress)
        (sched : List Thread) (a : App),
      (∀ t, ((execute appServe sched (running calls env) a).1 t).ended = true) →
      ∃ order : List Thread, order.Nodup ∧ (∀ t, t ∈ order) ∧
        sessionOf addr (serial appServe (OnSession addr) order (running calls env) a).1 =
          sessionOf addr (execute appServe sched (running calls env) a).2 := by
  intro h
  obtain ⟨order, hNodup, hAll, hSame⟩ := h .plain plain_loadsAndStores crossing
    (fun _ _ _ => .served) bob
    (List.replicate 8 .ui ++ List.replicate 6 .mainWs ++ List.replicate 4 .ui) linkedApp
    (by decide +kernel)
  rcases order_cases hNodup hAll with rfl | rfl
  · exact absurd hSame (by decide +kernel)
  · exact absurd hSame (by decide +kernel)

-- ---------------------------------------------------------------------------
-- Requests of the calls
-- ---------------------------------------------------------------------------

/-- A request that reads the account. -/
inductive ReadsAccount : Req → Prop where
  | get (k : String) : ReadsAccount (.get accountDict k false)
  | read (k : String) (pos len : Nat) : ReadsAccount (.read accountDict k pos len)
  | readToEnd (k : String) : ReadsAccount (.readToEnd accountDict k)

theorem ReadsAccount.touches {r : Req} (h : ReadsAccount r) : ∃ k, r.Touches accountDict k := by
  cases h <;> exact ⟨_, rfl, rfl⟩

/-- A request that reads the account changes nothing. -/
theorem ReadsAccount.serve {r : Req} (h : ReadsAccount r) (o : Outcome) (s : Disk) :
    (serve o r s).2 = s := by
  cases o with
  | failed f => rfl
  | served | short n => cases h <;> simp only [Pddb.serve, perform] <;> split <;> rfl

/-- A request that reads the account or is about the session of a peer. -/
def SessionReq (remote : ProtocolAddress) (r : Req) : Prop :=
  ReadsAccount r ∨ About sessionDict (addressKey remote) r

/-- A request of the delivery of a message. -/
def DeliveryReq : AppReq → Prop
  | .pddb r => About dialogueDict defaultPeerKey r
  | _ => True

/-- Reading a text of the account only reads it. -/
theorem all_readAccountString (key : String) :
    (readAccountString accountDict key).All ReadsAccount := by
  refine ⟨.get key, fun x => ?_⟩
  cases x with
  | error e => trivial
  | ok _ =>
    refine ⟨.read key 0 256, fun x => ?_⟩
    cases x <;> trivial

/-- `pddb_get_string` on the account dictionary only reads it. -/
theorem all_pddbGetString (key : String) : (pddbGetString accountDict key).All ReadsAccount := by
  refine ⟨.get key, fun x => ?_⟩
  cases x with
  | error e => trivial
  | ok _ =>
    refine ⟨.readToEnd key, fun x => ?_⟩
    cases x <;> trivial

theorem all_localProtocolAddress : localProtocolAddress.All ReadsAccount := by
  refine (all_pddbGetString _).bind fun x => ?_
  cases x with
  | none => trivial
  | some aci =>
    refine (all_pddbGetString _).bind fun x => ?_
    cases x <;> trivial

/-- The store operations on the account only read it. -/
theorem all_handle_account (op : AccountOp) :
    (handle (L := L) (.account op)).All ReadsAccount := by
  -- The key pair is two texts, the registration id is one.
  cases op with
  | getIdentityKeyPair =>
    refine (all_readAccountString _).bind fun x => ?_
    cases x with
    | none => trivial
    | some priv =>
      refine (all_readAccountString _).bind fun x => ?_
      cases x with
      | none => trivial
      | some pub =>
        dsimp only
        split
        · trivial
        · split <;> trivial
  | getLocalRegistrationId =>
    refine (all_readAccountString _).bind fun x => ?_
    split <;> trivial

theorem all_loadSession (remote : ProtocolAddress) :
    (handleRecord (L := L) (.loadSession remote)).All (SessionReq remote) :=
  (all_handleRecord (.loadSession remote)).mono fun _ => .inr

theorem all_storeSession (remote : ProtocolAddress) (record : L.session.Record) :
    (handleRecord (.storeSession remote record)).All (SessionReq remote) :=
  (all_handleRecord (.storeSession remote record)).mono fun _ => .inr

/-- Load, compute and store are about the record of one session. -/
theorem all_loadComputeStore {α : Type} (remote : ProtocolAddress)
    (compute : Option L.session.Record → SignalResult (L.session.Record × α)) :
    ((loadComputeStore remote compute).interp handle).All (SessionReq remote) := by
  refine (all_loadSession remote).bind fun x => ?_
  cases x with
  | error e => trivial
  | ok record =>
    dsimp only
    split
    · trivial
    · refine (all_storeSession remote _).bind fun x => ?_
      cases x <;> trivial

/-- Encrypting reads the account and works on the recipient's session. -/
theorem all_buildEncryptedMessage {P : Protocol L} (hP : LoadsAndStores P) (text : String)
    (timestampMs : UInt64) (recipient : ProtocolAddress) (now : Nat) (rng : P.Rng) :
    (buildEncryptedMessage P text timestampMs recipient now rng).All (SessionReq recipient) := by
  refine (all_localProtocolAddress.mono fun _ => .inl).bind fun x => ?_
  cases x with
  | error e => trivial
  | ok localAddr =>
    refine (all_loadSession recipient).bind fun x => ?_
    -- Without a session there is nothing to encrypt with.
    match x with
    | .error e => trivial
    | .ok none => trivial
    | .ok (some record) =>
      dsimp only
      split
      · trivial
      · obtain ⟨compute, hCompute⟩ := hP.encrypt
          (signalPad (messageContent text timestampMs)) recipient localAddr now rng
        rw [hCompute, Prog.interp_bind]
        refine (all_loadComputeStore recipient compute).bind fun x => ?_
        cases x <;> trivial

theorem all_onPddb_of {α : Type} {p : Prog Resp α} {P : Req → Prop} {Q : AppReq → Prop}
    (hp : p.All P) (hPQ : ∀ r, P r → Q (.pddb r)) : (onPddb p).All Q :=
  hp.interp_of fun r hr => ⟨hPQ r hr, fun _ => trivial⟩

/-- Delivering a message writes to the dialogues and the chat. -/
theorem all_deliverDataMessage (dm : Protos.DataMessageProto) (author : String)
    (serverTs : UInt64) :
    (deliverDataMessage dm author serverTs).All DeliveryReq := by
  unfold deliverDataMessage
  by_cases hBody : dm.body.getD "" = ""
  · simp only [hBody, if_true]
    trivial
  · simp only [hBody, if_false]
    exact ⟨trivial, fun _ => trivial⟩

theorem all_deliverSyncMessage (sync : Protos.SyncMessageProto) (serverTs : UInt64) :
    (deliverSyncMessage sync serverTs).All DeliveryReq := by
  unfold deliverSyncMessage
  split
  · trivial
  · dsimp only
    split
    · trivial
    · split
      · trivial
      · split
        · trivial
        · exact ⟨trivial, fun _ => trivial⟩

theorem all_deliverMessage (content : Protos.ContentProto) (remoteAddr : ProtocolAddress)
    (serverTs : UInt64) : (deliverMessage content remoteAddr serverTs).All DeliveryReq := by
  have hRecipient : (setCurrentRecipient remoteAddr).All (About dialogueDict defaultPeerKey) :=
    all_overwrite .deleteKey (.get true) .write .sync _
  unfold deliverMessage
  split
  · refine (all_deliverDataMessage _ _ _).bind fun delivered => ?_
    cases delivered with
    | true => exact (all_onPddb_of hRecipient fun _ => id).bind fun _ => trivial
    | false => trivial
  · exact all_deliverSyncMessage _ _
  · trivial

/-- Delivering what was decrypted writes to the dialogues and the chat. -/
theorem all_deliverContent (plaintext : Bytes) (remoteAddr : ProtocolAddress) (serverTs : UInt64) :
    (deliverContent plaintext remoteAddr serverTs).All DeliveryReq := by
  unfold deliverContent
  split
  · trivial
  · refine (all_deliverMessage _ _ _).bind fun delivered => ?_
    match delivered with
    | .error p => trivial
    | .ok true => exact ⟨trivial, fun _ => trivial⟩
    | .ok false => trivial

-- ---------------------------------------------------------------------------
-- Locality of the calls
-- ---------------------------------------------------------------------------

/-- The account is as it was. -/
def AccountIs (account : String → Option Bytes) (a : App) : Prop :=
  ∀ k, a.disk accountDict k = account k

section Calls

variable (account : String → Option Bytes) (addr : ProtocolAddress)

/-- A program that keeps the account and is local to the session of `addr`. -/
def Fair {α : Type} (p : Prog AppResp α) : Prop :=
  p.All (Keeps appServe (AccountIs account)) ∧
    p.Local appServe (sessionOf addr) (OnSession addr) (AccountIs account)

variable {account addr} {α β : Type}

theorem keeps_readsAccount {r : Req} (h : ReadsAccount r) :
    Keeps appServe (AccountIs account) (.pddb r) := fun o a hAccount k => by
  show (serve o r a.disk).2 accountDict k = _
  rw [h.serve]
  exact hAccount k

theorem keeps_about {d k : String} (hDict : accountDict ≠ d) {r : Req} (h : About d k r) :
    Keeps appServe (AccountIs account) (.pddb r) := fun o a hAccount k' =>
  (serve_frame (h.not_touches fun hEq => hDict (Prod.mk.inj hEq).1) o a.disk).trans (hAccount k')

theorem keeps_sessionReq {remote : ProtocolAddress} {r : Req} (h : SessionReq remote r) :
    Keeps appServe (AccountIs account) (.pddb r) :=
  h.elim keeps_readsAccount (keeps_about (by decide +kernel))

theorem keeps_deliveryReq {r : AppReq} (h : DeliveryReq r) :
    Keeps appServe (AccountIs account) r := by
  cases r with
  | pddb r => exact keeps_about (by decide +kernel) h
  | _ => exact fun o a hAccount => hAccount

theorem off_deliveryReq {r : AppReq} (h : DeliveryReq r) : ¬OnSession addr r := by
  cases r with
  | pddb r =>
    have hDict : sessionDict ≠ dialogueDict := by decide +kernel
    exact About.not_touches h fun hEq => hDict (Prod.mk.inj hEq).1
  | _ => exact id

/-- With the account fixed, what is read from it is fixed. -/
theorem steady_readsAccount {r : Req} (h : ReadsAccount r) :
    Steady appServe (OnSession addr) (AccountIs account) (.pddb r) := by
  obtain ⟨k, hTouches⟩ := h.touches
  exact .inr fun o a b ha hb => (serve_local hTouches o ((ha k).trans (hb k).symm)).1

/-- While the account stays the same, a request of session work is answered by
the session's record alone. -/
theorem steady_sessionReq {r : Req} (h : SessionReq addr r) :
    Steady appServe (OnSession addr) (AccountIs account) (.pddb r) := by
  rcases h with hReads | hAbout
  · exact steady_readsAccount hReads
  · cases hAbout with
    | sync => exact .inr fun o _ _ _ _ => by cases o <;> rfl
    | _ => exact .inl ⟨rfl, rfl⟩

/-- Work on the session of another address touches this one not at all. -/
theorem off_sessionReq {remote : ProtocolAddress} (hOther : addressKey addr ≠ addressKey remote)
    {r : Req} (h : SessionReq remote r) : ¬OnSession addr (.pddb r) := by
  rcases h with hReads | hAbout
  · have hDict : accountDict ≠ sessionDict := by decide +kernel
    cases hReads <;> exact fun hTouches => hDict hTouches.1
  · exact hAbout.not_touches fun hEq => hOther (Prod.mk.inj hEq).2

theorem fair_done (x : α) : Fair account addr (.done x) := ⟨trivial, Prog.local_done x⟩

/-- A program on the session of one peer. -/
theorem fair_session {p : Prog Resp α} {remote : ProtocolAddress} (hp : p.All (SessionReq remote)) :
    Fair account addr (onPddb p) := by
  refine ⟨all_onPddb_of hp fun _ => keeps_sessionReq, ?_⟩
  by_cases hSame : addressKey addr = addressKey remote
  · obtain rfl := addressKey_injective hSame
    exact Prog.local_of_steady (isPart_session addr) (all_onPddb_of hp fun _ => steady_sessionReq)
  · exact Prog.local_of_off (all_onPddb_of hp fun _ => off_sessionReq hSame)

/-- What is read from the account may decide what comes next. -/
theorem fair_account_bind {p : Prog Resp α} {f : α → Prog AppResp β} (hp : p.All ReadsAccount)
    (hf : ∀ x, Fair account addr (f x)) : Fair account addr (onPddb p >>= f) :=
  ⟨(all_onPddb_of hp fun _ => keeps_readsAccount).bind fun x => (hf x).1,
    Prog.local_bind (isPart_session addr) (all_onPddb_of hp fun _ => steady_readsAccount)
      fun x => (hf x).2⟩

/-- Delivery may follow. -/
theorem Fair.bind_delivery {p : Prog AppResp α} {f : α → Prog AppResp β} (h : Fair account addr p)
    (hf : ∀ x, (f x).All DeliveryReq) : Fair account addr (p >>= f) :=
  ⟨h.1.bind fun x => (hf x).mono fun _ => keeps_deliveryReq,
    h.2.bind_off fun x => (hf x).mono fun _ => off_deliveryReq⟩

variable {P : Protocol L}

/-- Decrypting is fair, with whatever kind of envelope. -/
theorem fair_decryption (hP : LoadsAndStores P) :
    KeptByDecryption P fun _ => Fair account addr where
  done := fair_done
  map _ hp := hp.bind_delivery fun _ => trivial
  decryptPrekey msg remoteAddr localAddr rng := by
    obtain ⟨compute, hCompute⟩ := hP.decryptPrekey msg remoteAddr localAddr rng
    rw [hCompute]
    exact fair_session (all_loadComputeStore remoteAddr compute)
  decryptSignal msg remoteAddr rng := by
    obtain ⟨compute, hCompute⟩ := hP.decryptSignal msg remoteAddr rng
    rw [hCompute]
    exact fair_session (all_loadComputeStore remoteAddr compute)
  sealedSenderDecrypt content _ hf := by
    have hUnseal : ((P.sealedSenderDecryptToUsmc content).interp handle).All ReadsAccount :=
      (hP.unsealSender content).interp_of fun op hOp => by
        obtain ⟨read, rfl⟩ := hOp
        exact all_handle_account read
    exact fair_account_bind hUnseal hf

/-- **The calls** keep the account and are local to every session. -/
theorem fair_appCall (hP : LoadsAndStores P) (c : AppCall P) : Fair account addr c.prog := by
  cases c with
  | encrypt text timestampMs recipient now rng =>
    exact (fair_session (all_buildEncryptedMessage hP text timestampMs recipient now
      rng)).bind_delivery fun _ => trivial
  | dispatch body localAddr rng =>
    have hDispatch : Fair account addr (dispatchEnvelope P body localAddr rng) := by
      refine ((fair_decryption hP).envelope body localAddr rng).bind_delivery fun x => ?_
      cases x with
      | none => trivial
      | some d => exact all_deliverContent _ _ _
    exact hDispatch.bind_delivery fun _ => trivial

end Calls

-- ---------------------------------------------------------------------------
-- Serializable schedules
-- ---------------------------------------------------------------------------

/-- **Schedules that do not split a session's updates.** Any number of sending
and receiving calls run at once, those of one thread in sequence or not, and
requests fail as they may. If no call comes to the session of a peer while
another is at work on it, the session ends as in a serial execution of the
calls, in which all requests on it have the same answers: so each call starts
from what the one before it has stored. -/
theorem calls_serializable {P : Protocol L} (hP : LoadsAndStores P) {ι : Type} [DecidableEq ι]
    [Fintype ι] (calls : ι → AppCall P) (env : ι → Env AppReq Outcome) (addr : ProtocolAddress)
    (sched : List ι) (a : App)
    (hComplete : ∀ i, ((execute appServe sched (running calls env) a).1 i).ended = true)
    (hUnsplit : Unsplit ((history appServe (OnSession addr) sched (running calls env) a).map
      Prod.fst)) :
    ∃ order : List ι, order.Nodup ∧ (∀ i, i ∈ order) ∧
      sessionOf addr (serial appServe (OnSession addr) order (running calls env) a).1 =
        sessionOf addr (execute appServe sched (running calls env) a).2 ∧
      (serial appServe (OnSession addr) order (running calls env) a).2 =
        history appServe (OnSession addr) sched (running calls env) a := by
  have hFair (i : ι) : Fair (a.disk accountDict) addr (calls i).prog := fair_appCall hP (calls i)
  exact unsplit_serializable (isPart_session addr) (fun i => (hFair i).2) (fun i => (hFair i).1)
    (fun _ => rfl) hComplete hUnsplit

/-- The theorem for a schedule on which the account is read while a message is
received. -/
theorem calls_serializable_crossing :
    ∃ order : List Thread, order.Nodup ∧ (∀ t, t ∈ order) ∧
      sessionOf bob (serial appServe (OnSession bob) order
        (running crossing fun _ _ _ => .served) linkedApp).1 = some [0, 2, 1] := by
  obtain ⟨order, hNodup, hAll, hSame, -⟩ := calls_serializable plain_loadsAndStores crossing
    (fun _ _ _ => .served) bob
    (List.replicate 4 .ui ++ List.replicate 6 .mainWs ++ List.replicate 8 .ui) linkedApp
    (by decide +kernel) (by decide +kernel)
  refine ⟨order, hNodup, hAll, hSame.trans ?_⟩
  decide +kernel

end Sigchat.Results

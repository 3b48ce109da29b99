import Sigchat.Lib.Interference
import Sigchat.Model.SigChat
import Sigchat.Results.LoadedManager
import Sigchat.Results.Relink
import Sigchat.Results.SessionRace

/-!
# The threads of the process

The UI thread sets up accounts and posts, the receive worker dispatches
envelopes, and a restart drops whatever they are at. They share PDDB without a
lock, so an invariant of the stored records has to hold between any two
requests, and between any two reads of one record.

libsignal is trusted to keep to `storeRules`: it saves an identity only after
the store has called it trusted, and saves no prekeys.

* `stable_post`, `stable_dispatch` — posting and receiving are stable under an
  invariant that the store methods keep, as far as the rules allow them;
* `stable_setUp` — setting up an account is stable under an invariant of the
  other dictionaries;
* `threads_invariant` — what they keep holds of every run of the process;
* `threads_follow` — so does what they keep for as long as none of them has been
  told something.
-/

namespace Sigchat.Results

open Sigchat.Lib
open Sigchat.Pddb
open Sigchat.Signal
open Sigchat.Stores
open Sigchat.Accounts
open Sigchat.Outgoing
open Sigchat.MainWs
open Sigchat.App

variable {U : UrlCrate} {L : Libsignal}

-- ---------------------------------------------------------------------------
-- What threads do
-- ---------------------------------------------------------------------------

/-- One thing a thread of the process does. -/
inductive Work (U : UrlCrate) (P : Protocol L) where
  | post (text : String) (ts : UInt64) (now : Nat) (rng : P.Rng)
  | dispatch (body : Bytes) (localAddr : ProtocolAddress) (rng : P.Rng)
  | setUp (op : Operation U) (t : Turn U L) (c : SigChat U)

variable {P : Protocol L}

def Work.prog : Work U P → Prog AppResp Unit
  | .post text ts now rng => App.post P text ts now rng
  | .dispatch body localAddr rng => dispatchEnvelope P body localAddr rng >>= fun _ => .done ()
  | .setUp op t c => onPddb (op.prog t c) >>= fun _ => .done ()

/-- A thread does one thing after the other, and other threads are served between
any two of its requests. -/
def thread : List (Work U P) → Prog AppResp Unit
  | [] => .done ()
  | w :: ws => w.prog.interp appInPieces >>= fun _ => thread ws

/-- The threads of one start of the process, and whose requests are served. -/
structure Start (ι : Type) (U : UrlCrate) (P : Protocol L) where
  threads : ι → List (Work U P)
  env : ι → Env AppReq Outcome
  sched : List ι

def Start.session {ι : Type} (b : Start ι U P) : Session ι AppResp Outcome :=
  ⟨fun i => ⟨thread (b.threads i), b.env i⟩, b.sched⟩

/-- What a number of starts leaves, each stopped wherever its schedule ends. -/
def afterStarts {ι : Type} [DecidableEq ι] (starts : List (Start ι U P)) (a : App) : App :=
  boots appServe (starts.map Start.session) a

/-- What their threads are answered, start by start. -/
def threadAnswers {ι : Type} [DecidableEq ι] (starts : List (Start ι U P)) (a : App) :
    List (List (ι × Sigma AppResp)) :=
  bootTranscripts appServe answered (starts.map Start.session) a

-- ---------------------------------------------------------------------------
-- The rules of libsignal
-- ---------------------------------------------------------------------------

/-- Which store operations libsignal uses when it encrypts and decrypts; it
remembers what has been called trusted. -/
def storeRules : Discipline (StoreOp.Resp (L := L)) (List (ProtocolAddress × L.IdentityKey)) where
  allows trusted
    | .record (.saveIdentity address identity) => (address, identity) ∈ trusted
    | .record (.savePreKey ..) => False
    | .record (.saveSignedPreKey ..) => False
    | .record (.saveKyberPreKey ..) => False
    | _ => True
  learn trusted
    | .record (.isTrustedIdentity address identity _), .ok true => (address, identity) :: trusted
    | _, _ => trusted

/-- The protocol functions keep to the rules. -/
structure KeepsRules (P : Protocol L) : Prop where
  encrypt : ∀ msg remote localAddr now rng,
    (P.messageEncrypt msg remote localAddr now rng).Follows storeRules []
  decryptSignal : ∀ msg remote rng, (P.messageDecryptSignal msg remote rng).Follows storeRules []
  decryptPrekey : ∀ msg remote localAddr rng,
    (P.messageDecryptPrekey msg remote localAddr rng).Follows storeRules []
  unsealSender : ∀ content, (P.sealedSenderDecryptToUsmc content).Follows storeRules []

/-- Encrypting keeps the rules of the stores if libsignal does. -/
theorem KeepsRules.buildEncryptedMessage (hP : KeepsRules P) (text : String) (ts : UInt64)
    (recipient localAddr : ProtocolAddress) (now : Nat) (rng : P.Rng) :
    (buildEncryptedMessageWithStores P text ts recipient localAddr now rng).Follows
      storeRules [] := by
  refine ⟨trivial, fun x => ?_⟩
  match x with
  | .error e => trivial
  | .ok none => trivial
  | .ok (some record) =>
    dsimp only
    split
    · trivial
    · refine (hP.encrypt _ recipient localAddr now rng).bind fun w x => ?_
      cases x <;> trivial

/-- The plain protocol saves no identity, so it keeps them. -/
theorem follows_plainCall {α : Type} (remote : ProtocolAddress) (mark : UInt8) (result : α) :
    (plainCall remote mark result).Follows storeRules [] := by
  refine ⟨trivial, fun x => ?_⟩
  cases x with
  | error e => trivial
  | ok record =>
    refine ⟨trivial, fun x => ?_⟩
    cases x <;> trivial

/-- The plain protocol keeps the rules, as it saves no identity. -/
theorem keepsRules_plain : KeepsRules Protocol.plain where
  encrypt _ _ _ _ _ := follows_plainCall _ _ _
  decryptSignal _ _ _ := follows_plainCall _ _ _
  decryptPrekey _ _ _ _ := follows_plainCall _ _ _
  unsealSender _ := trivial

-- ---------------------------------------------------------------------------
-- Invariants of the stored records
-- ---------------------------------------------------------------------------

/-- A storage program under an invariant of the disk, between requests of any
other threads. -/
abbrev Undisturbed {α : Type} (I : Disk → Prop) (Q : α → Prop) (p : Prog Resp α) : Prop :=
  (p.interp inPieces).Stable serve I Q

/-- A program of the application. -/
abbrev AppUndisturbed {α : Type} (I : Disk → Prop) (p : Prog AppResp α) : Prop :=
  (p.interp appInPieces).Stable appServe (fun a => I a.disk) fun _ => True

section Undisturbed

variable {α β : Type} {I : Disk → Prop} {Q : α → Prop}

/-- Work after work is undisturbed if each part is. -/
theorem Undisturbed.then {Q' : β → Prop} {p : Prog Resp α} {f : α → Prog Resp β}
    (h : Undisturbed I Q p) (hf : ∀ a, Q a → Undisturbed I Q' (f a)) :
    Undisturbed I Q' (p >>= f) := by
  rw [Undisturbed, Prog.interp_bind]
  exact Prog.Stable.then h hf

theorem AppUndisturbed.then {p : Prog AppResp α} {f : α → Prog AppResp β}
    (h : AppUndisturbed I p) (hf : ∀ a, AppUndisturbed I (f a)) : AppUndisturbed I (p >>= f) := by
  rw [AppUndisturbed, Prog.interp_bind]
  exact Prog.Stable.then h fun a _ => hf a

/-- **Frame rule.** It is enough that the requests keep the invariant; the reads
that some of them consist of change nothing. -/
theorem undisturbed_of_all {P : Req → Prop} (hKeep : ∀ r, P r → ∀ o s, I s → I (serve o r s).2)
    {p : Prog Resp α} (hp : p.All P) : Undisturbed I (fun _ => True) p := by
  refine Prog.stable_of_all (P := fun r => ∀ o s, I s → I (serve o r s).2) (fun _ h => h) ?_
  refine hp.interp_of fun r hr => all_inPieces (fun d k pos o s hs => ?_) (hKeep r hr)
  rw [readMore_disk]
  exact hs

/-- The same of the application. -/
theorem appUndisturbed_of_all {P : AppReq → Prop}
    (hKeep : ∀ r, P r → ∀ o a, I a.disk → I (appServe o r a).2.disk) {p : Prog AppResp α}
    (hp : p.All P) : AppUndisturbed I p := by
  refine Prog.stable_of_all (P := fun r => ∀ o a, I a.disk → I (appServe o r a).2.disk)
    (fun _ h => h) ?_
  refine hp.interp_of fun r hr => all_appInPieces (fun d k pos o a ha => ?_) (hKeep r hr)
  rw [appServe, readMore_disk]
  exact ha

/-- Work on the PDDB is as stable for the application as it is on the disk. -/
theorem stable_onPddb {p : Prog Resp α} (h : p.Stable serve I Q) :
    (onPddb p).Stable appServe (fun a => I a.disk) Q := by
  induction p with
  | done a => exact h
  | call r k ih =>
    intro a ha o
    obtain ⟨hKept, hRest⟩ := h a.disk ha o
    exact ⟨hKept, ih _ hRest⟩

/-- Work that is undisturbed on the disk is undisturbed for the application. -/
theorem Undisturbed.onPddb {p : Prog Resp α} (h : Undisturbed I Q p) :
    AppUndisturbed I (onPddb p) := by
  rw [AppUndisturbed, onPddb_inPieces]
  exact stable_onPddb (Prog.stable_mono (fun _ _ => trivial) h)

end Undisturbed

/-- What an invariant `I` of the records has to do with the store methods: these
keep it as far as the rules allow them, and what is trusted is `Valid`. -/
structure Guarded (I : Disk → Prop) (Valid : List (ProtocolAddress × L.IdentityKey) → Prop) :
    Prop where
  nothing : Valid []
  handle : ∀ w (op : StoreOp L), Valid w → storeRules.allows w op →
    Undisturbed I (fun x => Valid (storeRules.learn w op x)) (Stores.handle op)
  delivery : ∀ r, About dialogueDict defaultPeerKey r → ∀ o s, I s → I (serve o r s).2

section Guarded

variable {I : Disk → Prop} {Valid : List (ProtocolAddress × L.IdentityKey) → Prop}

/-- **libsignal calls** that keep to the rules keep the invariant. -/
theorem Guarded.call (h : Guarded I Valid) {α : Type} {p : Prog (StoreOp.Resp (L := L)) α}
    (hp : p.Follows storeRules []) : Undisturbed I (fun _ => True) (p.interp Stores.handle) := by
  rw [Undisturbed, Prog.interp_interp]
  exact hp.stable_interp h.handle h.nothing

theorem Guarded.onStores (h : Guarded I Valid) {α : Type} {p : Prog (StoreOp.Resp (L := L)) α}
    (hp : p.Follows storeRules []) : AppUndisturbed I (onStores p) :=
  (h.call hp).onPddb

/-- Reading the account changes nothing. -/
theorem undisturbed_readsAccount {α : Type} {p : Prog Resp α} (hp : p.All ReadsAccount) :
    Undisturbed I (fun _ => True) p :=
  undisturbed_of_all (fun r hr o s hs => by rw [hr.serve]; exact hs) hp

/-- Delivery is undisturbed. -/
theorem Guarded.deliverContent (h : Guarded I Valid) (plaintext : Bytes)
    (remoteAddr : ProtocolAddress) (serverTs : UInt64) :
    AppUndisturbed I (deliverContent plaintext remoteAddr serverTs) := by
  refine appUndisturbed_of_all (fun r hr o a ha => ?_)
    (all_deliverContent plaintext remoteAddr serverTs)
  cases r with
  | pddb r => exact h.delivery r hr o a.disk ha
  | postAdd author ts body => exact ha
  | redraw => exact ha

/-- Decrypting is undisturbed, with whatever kind of envelope. -/
theorem Guarded.decryption (h : Guarded I Valid) (hP : KeepsRules P) :
    KeptByDecryption P fun _ => AppUndisturbed I where
  done _ := trivial
  map _ hp := hp.then fun _ => trivial
  decryptPrekey msg remoteAddr localAddr rng :=
    h.onStores (hP.decryptPrekey msg remoteAddr localAddr rng)
  decryptSignal msg remoteAddr rng := h.onStores (hP.decryptSignal msg remoteAddr rng)
  sealedSenderDecrypt content _ hf :=
    (h.onStores (hP.unsealSender content)).then hf

/-- **Receiving** keeps the invariant. -/
theorem stable_dispatch (h : Guarded I Valid) (hP : KeepsRules P) (body : Bytes)
    (localAddr : ProtocolAddress) (rng : P.Rng) :
    AppUndisturbed I (dispatchEnvelope P body localAddr rng) := by
  refine ((h.decryption hP).envelope body localAddr rng).then fun x => ?_
  cases x with
  | none => trivial
  | some d => exact h.deliverContent _ _ _

/-- Finding the recipient reads one key. -/
theorem all_currentRecipient : currentRecipient.All (About dialogueDict defaultPeerKey) := by
  refine Prog.All.bind (p := pddbGetString dialogueDict defaultPeerKey)
    ⟨.get false, fun x => ?_⟩ fun x => ?_
  · cases x with
    | error e => trivial
    | ok _ =>
      refine ⟨.readToEnd, fun x => ?_⟩
      cases x <;> trivial
  · cases x <;> trivial

/-- **Posting** keeps the invariant. -/
theorem stable_post (h : Guarded I Valid) (hP : KeepsRules P) (text : String) (ts : UInt64)
    (now : Nat) (rng : P.Rng) : AppUndisturbed I (App.post P text ts now rng) := by
  have hRecipient : Undisturbed I (fun _ => True) currentRecipient :=
    undisturbed_of_all (fun r hr o s hs => h.delivery r hr o s hs) all_currentRecipient
  -- Reading the own address, and then what libsignal does.
  have hBuild (recipient : ProtocolAddress) : Undisturbed I (fun _ => True)
      (buildEncryptedMessage P text ts recipient now rng) := by
    refine (undisturbed_readsAccount all_localProtocolAddress).then fun x _ => ?_
    cases x with
    | error e => trivial
    | ok localAddr => exact h.call (hP.buildEncryptedMessage text ts recipient localAddr now rng)
  -- the echo and the redraw do not touch PDDB
  refine fun a ha _ => ⟨ha, fun a ha _ => ⟨ha, ?_⟩⟩
  refine AppUndisturbed.then hRecipient.onPddb fun x => ?_
  cases x with
  | error e => trivial
  | ok recipient => exact (hBuild recipient).onPddb.then fun _ => trivial

end Guarded

-- ---------------------------------------------------------------------------
-- Setting up an account
-- ---------------------------------------------------------------------------

/-- The keys an account is set up in: its dictionary and the prekeys it uploads. -/
def IsKept (d k : String) : Prop :=
  d = accountDict ∨ d = signedPreKeyDict ∨ (d = kyberPreKeyDict ∧ ∃ id, k = idKey id)

/-- A request on these keys only. -/
def SetUpReq (r : Req) : Prop := ∀ d k, r.Touches d k → IsKept d k

/-- They are in three dictionaries. -/
theorem SetUpReq.dict {r : Req} (h : SetUpReq r) {d k : String} (hTouches : r.Touches d k) :
    d = accountDict ∨ d = signedPreKeyDict ∨ d = kyberPreKeyDict :=
  (h d k hTouches).imp_right (Or.imp_right And.left)

theorem SetUpReq.of_readsAccount {r : Req} (h : ReadsAccount r) : SetUpReq r := by
  intro d k hTouches
  cases h <;> exact .inl hTouches.1.symm

theorem SetUpReq.of_about {d k : String} (hKept : IsKept d k) {r : Req} (h : About d k r) :
    SetUpReq r := by
  intro d' k' hTouches
  cases h with
  | sync => exact hTouches.elim
  | _ => exact hTouches.1 ▸ hTouches.2 ▸ hKept

theorem setUpReq_set (k : Key) (value : Option String) :
    SetRequests SetUpReq accountDict k value :=
  ⟨.of_about (.inl rfl) .deleteKey, .of_about (.inl rfl) (.get true),
    fun _ _ => .of_about (.inl rfl) (.write _ _)⟩

theorem setUpReq_sync : SetUpReq .sync := fun _ _ h => h.elim

theorem all_getAll (ks : List Key) : (getAll accountDict ks).All ReadsAccount := by
  induction ks with
  | nil => trivial
  | cons k ks ih => exact (all_readAccountString _).bind fun _ => ih.bind fun _ => trivial

theorem all_read :
    (read accountDict : Prog Resp (Except Accounts.Panic (Except IoError (Account U)))).All
      ReadsAccount :=
  (all_getAll _).bind fun _ => trivial

/-- Storing the values of an account is setting up. -/
theorem all_setAll (kvs : List (Key × Option String)) :
    (setAll accountDict kvs).All SetUpReq := by
  induction kvs with
  | nil => trivial
  | cons kv kvs ih =>
    refine (all_set (setUpReq_set kv.1 kv.2) setUpReq_sync).bind fun r => ?_
    cases r with
    | error e => trivial
    | ok _ => exact ih

theorem all_new (host : U.Host) (se : ServiceEnvironment) :
    (Accounts.new accountDict host se).All SetUpReq := by
  refine (all_setAll _).bind fun r => ?_
  cases r with
  | error e => trivial
  | ok _ => exact all_read.mono fun _ => .of_readsAccount

/-- The account that is read is the one of the account dictionary. -/
theorem yields_read :
    (read accountDict : Prog Resp (Except Accounts.Panic (Except IoError (Account U)))).Yields
      fun r => ∀ a, r = .ok (.ok a) → a.pddbDict = accountDict :=
  (Prog.yields_of_forall (Q := fun _ => True) (fun _ => trivial) _).bind fun _ _ _ ha =>
    (ofTexts_eq_iff.mp ha).1

/-- The account that `new` ends with is over the dictionary it has filled. -/
theorem yields_new (host : U.Host) (se : ServiceEnvironment) :
    (Accounts.new accountDict host se).Yields fun r =>
      ∀ a, r = .ok (.ok a) → a.pddbDict = accountDict := by
  refine (Prog.yields_of_forall (Q := fun _ => True) (fun _ => trivial) _).bind fun r _ => ?_
  cases r with
  | error e => exact fun a ha => nomatch ha
  | ok _ => exact yields_read

/-- Saving the prekeys is setting up. -/
theorem all_saveToPddb_setUp (g : Prekeys L) : (saveToPddb g).All SetUpReq := by
  have hUnder {dict : String} (hDict : ∀ id, IsKept dict (idKey id)) (id : SignalResult UInt32)
      (bytes : SignalResult Bytes) :
      (saveUnder L dict id bytes).All SetUpReq := by
    unfold saveUnder
    rcases id with e | id
    · trivial
    rcases bytes with e | bs
    · trivial
    have hWrite : (writeRecord dict (idKey id) bs).All SetUpReq :=
      (all_writeRecord .deleteKey (.get true) .write .sync bs).mono fun _ =>
        .of_about (hDict id)
    exact hWrite.bind fun _ => trivial
  have hSigned (id : UInt32) : IsKept signedPreKeyDict (idKey id) := .inr (.inl rfl)
  have hKyber (id : UInt32) : IsKept kyberPreKeyDict (idKey id) := .inr (.inr ⟨rfl, id, rfl⟩)
  simp only [saveToPddb, saveSigned_under, saveKyber_under]
  refine (hUnder hSigned _ _).bind fun r => ?_
  rcases r with e | _
  · trivial
  refine (hUnder hSigned _ _).bind fun r => ?_
  rcases r with e | _
  · trivial
  refine (hUnder hKyber _ _).bind fun r => ?_
  rcases r with e | _
  · trivial
  exact hUnder hKyber _ _

/-- Saving a link is setting up. -/
theorem all_saveLinked {a : Account U} (hDict : a.pddbDict = accountDict) (msg : ProvisionMessage)
    (l : Linked L) : (a.saveLinked msg l).All SetUpReq := by
  have hValues := all_setValues hDict (settable_linkValues msg l)
    (fun kv _ => setUpReq_set kv.1 kv.2) setUpReq_sync
  refine hValues.bind fun r => ?_
  match r with
  | .error p => trivial
  | .ok (.error e, a') => trivial
  | .ok (.ok (), a') =>
    refine (all_saveToPddb_setUp l.generated).bind fun r => ?_
    cases r <;> trivial

/-- Linking is setting up. -/
theorem all_link {a : Account U} (hDict : a.pddbDict = accountDict) (S : LinkServices U L)
    (deviceName : String) (msg : ProvisionMessage) : (a.link S deviceName msg).All SetUpReq := by
  unfold Account.link
  split
  · trivial
  · split
    · trivial
    · exact all_saveLinked hDict msg _

section Operations

variable (t : Turn U L) (c : SigChat U)

/-- Setting up and then going on with an account is setting up if both are. -/
theorem all_onAccount {α β : Type} {Q : Except Accounts.Panic α → Prop}
    {p : Prog Resp (Except Accounts.Panic α)} {f : α → Prog Resp (Except App.Panic β)}
    (hp : p.All SetUpReq) (hq : p.Yields Q) (hf : ∀ a, Q (.ok a) → (f a).All SetUpReq) :
    (onAccount p f).All SetUpReq := by
  refine hp.bind_of_yields hq fun r hr => ?_
  cases r with
  | error e => trivial
  | ok a => exact hf a hr

theorem all_onRead {β : Type} {f : Except IoError (Account U) → Prog Resp (Except App.Panic β)}
    (hf : ∀ r, (f r).All SetUpReq) : (onAccount (read accountDict) f).All SetUpReq :=
  all_onAccount (all_read.mono fun _ => .of_readsAccount) yields_read fun r _ => hf r

/-- The manager's link is setting up. -/
theorem all_managerLink {m : Manager U} (hDict : m.account.pddbDict = accountDict)
    (name : String) : (m.link t name).All SetUpReq := by
  unfold Manager.link
  split
  · trivial
  · refine (all_link hDict t.services name _).bind fun r => ?_
    match r with
    | .error p => trivial
    | .ok (.ok result, account) => trivial
    | .ok (.error e, account) => trivial

/-- `account_link` makes no request but those of setting up. -/
theorem all_accountLink (config : Config U) : (SigChat.accountLink t config).All SetUpReq := by
  refine all_onAccount (all_new _ _) (yields_new _ _) fun r hDict => ?_
  cases r with
  | error e => trivial
  | ok account =>
    dsimp only
    split
    · trivial
    · rename_i manager hManager
      have hAccount : manager.account = account := LoadedManager.account_of_new hManager
      have hLink := all_managerLink t (m := manager) (by rw [hAccount]; exact hDict account rfl)
        (t.nameModal.getD "xous")
      refine all_onAccount hLink (Prog.yields_of_forall (Q := fun _ => True) (fun _ => trivial) _)
        fun r _ => ?_
      -- Linked, not linked, and failed, which deletes the dictionary.
      match r with
      | (.ok true, _) => exact all_onRead fun _ => trivial
      | (.ok false, _) => trivial
      | (.error e, _) =>
        refine ⟨?_, fun _ => trivial⟩
        exact fun d k hTouches => .inl hTouches.symm

theorem all_accountRegister (config : Config U) : (c.accountRegister t config).All SetUpReq := by
  unfold SigChat.accountRegister
  dsimp only
  split
  · split
    · trivial
    · refine all_onAccount (all_new _ _) (yields_new _ _) fun r hDict => ?_
      cases r with
      | error e => trivial
      | ok account =>
        have hNumber (number : String) : (account.setNumber number).All SetUpReq := by
          refine (all_accountSet (hDict account rfl) (setUpReq_set _ _) setUpReq_sync).bind
            fun r => ?_
          match r with
          | .error p => trivial
          | .ok (.error e, a') => trivial
          | .ok (.ok (), a') => trivial
        refine all_onAccount (hNumber _)
          (Prog.yields_of_forall (Q := fun _ => True) (fun _ => trivial) _) fun r _ => ?_
        match r with
        | (.error e, _) => trivial
        | (.ok (), _) => trivial
  · trivial

theorem all_onHost
    {f : Config U → Prog Resp (Except App.Panic (Except IoError (Account U) × SigChat U))}
    (hf : ∀ config, (f config).All SetUpReq) : (SigChat.onHost t c f).All SetUpReq := by
  unfold SigChat.onHost
  split
  · trivial
  · split
    · trivial
    · exact hf _
    · trivial

theorem all_accountSetup : (c.accountSetup t).All SetUpReq := by
  unfold SigChat.accountSetup
  split
  · trivial
  · split
    · trivial
    · split
      · trivial
      · exact all_onHost t c fun config => (all_accountLink t config).bind fun _ => trivial
      · exact all_onHost t c fun config => all_accountRegister t c config
      · trivial
      · trivial

/-- `connect` makes no request but those of setting up. -/
theorem all_connect : (c.connect t).All SetUpReq := by
  unfold SigChat.connect
  split
  · split
    · trivial
    · have hAccount : (c.connectAccount t).All SetUpReq := by
        refine all_onRead fun r => ?_
        split
        · trivial
        · exact all_accountSetup t c
      refine hAccount.bind fun r => ?_
      match r with
      | .error p => trivial
      | .ok (.error e, c') => trivial
      | .ok (.ok account, c') =>
        dsimp only
        split <;> trivial
  · trivial

/-- **Footprint.** Setting up an account touches its dictionary and those of the
prekeys it uploads. -/
theorem all_operation (op : Operation U) : (op.prog t c).All SetUpReq := by
  cases op with
  | new =>
    have hNew : (SigChat.new : Prog Resp (Except App.Panic (SigChat U))).All SetUpReq := by
      refine all_onRead fun r => ?_
      split <;> trivial
    exact hNew.bind fun _ => trivial
  | connect => exact (all_connect t c).bind fun _ => trivial
  | accountLink config => exact (all_accountLink t config).bind fun _ => trivial
  | accountRegister config => exact (all_accountRegister t c config).bind fun _ => trivial

/-- **Setting up an account** keeps an invariant of the other dictionaries. -/
theorem stable_setUp {I : Disk → Prop} (hKeep : ∀ r, SetUpReq r → ∀ o s, I s → I (serve o r s).2)
    (op : Operation U) : AppUndisturbed I (onPddb (op.prog t c)) :=
  (undisturbed_of_all hKeep (all_operation t c op)).onPddb

end Operations

-- ---------------------------------------------------------------------------
-- Runs of the process
-- ---------------------------------------------------------------------------

/-- A thread is undisturbed if all its work is. -/
theorem stable_thread {I : Disk → Prop} {ws : List (Work U P)}
    (h : ∀ w ∈ ws, AppUndisturbed I w.prog) :
    (thread ws).Stable appServe (fun a => I a.disk) fun _ => True := by
  induction ws with
  | nil => trivial
  | cons w ws ih =>
    obtain ⟨hFirst, hRest⟩ := List.forall_mem_cons.mp h
    exact Prog.Stable.then hFirst fun _ _ => ih hRest

/-- **Every run of the process** keeps what all its threads keep: in any
interleaving, whatever fails, and through restarts. -/
theorem threads_invariant {ι : Type} [DecidableEq ι] {I : Disk → Prop}
    {starts : List (Start ι U P)}
    (h : ∀ b ∈ starts, ∀ i, ∀ w ∈ b.threads i, AppUndisturbed I w.prog) {a : App}
    (ha : I a.disk) : I (afterStarts starts a).disk := by
  have hSessions : ∀ b ∈ starts.map Start.session, ∀ i,
      (b.pool i).prog.Stable appServe (fun a => I a.disk) fun _ => True := by
    intro b hb i
    obtain ⟨start, hStart, rfl⟩ := List.mem_map.mp hb
    exact stable_thread (h start hStart i)
  exact boots_invariant (I := fun a : App => I a.disk) hSessions ha

/-- A thread keeps rules that all its work keeps. -/
theorem follows_thread {κ : Type} {d : Discipline AppResp κ} {ws : List (Work U P)}
    (h : ∀ w ∈ ws, ∀ known, (w.prog.interp appInPieces).Follows d known) (known : κ) :
    (thread ws).Follows d known := by
  induction ws generalizing known with
  | nil => trivial
  | cons w ws ih =>
    obtain ⟨hFirst, hRest⟩ := List.forall_mem_cons.mp h
    exact (hFirst known).bind fun known' _ => ih hRest known'

/-- **Every run of the process** keeps what the threads keep by a discipline, if
none of them is told what sets it free. -/
theorem threads_follow {ι κ : Type} [DecidableEq ι] {d : Discipline AppResp κ} {I : App → Prop}
    {Free : κ → Prop} (hKeep : ∀ w r, ¬Free w → d.allows w r → ∀ o a, I a → I (appServe o r a).2)
    (hFree : ∀ w r x, Free w → Free (d.learn w r x)) {starts : List (Start ι U P)}
    (h : ∀ b ∈ starts, ∀ i, ∀ w ∈ b.threads i, ∀ known, (w.prog.interp appInPieces).Follows d known)
    (known : κ) {a : App}
    (hBound : ∀ tr ∈ threadAnswers starts a, ∀ i, ¬Free (d.heard known (shownBy i tr))) (ha : I a) :
    I (afterStarts starts a) := by
  have hSessions : ∀ b ∈ starts.map Start.session, ∀ i, (b.pool i).prog.Follows d known := by
    intro b hb i
    obtain ⟨start, hStart, rfl⟩ := List.mem_map.mp hb
    exact follows_thread (h start hStart i) known
  exact boots_follows hKeep hFree hSessions hBound ha

end Sigchat.Results

import Sigchat.Results.SessionRace
import Sigchat.Results.SyncTranscript

/-!
# The sealed-sender gate

An envelope of type 6 hides its sender. `dispatch_envelope` unseals it, checks
the certificate of the sender against the pinned roots at the envelope's server
timestamp, and only then decrypts the message for the address the certificate
names. A missing timestamp is taken for 0, at which no certificate has expired.

* `dispatchEnvelope_sealed` — the three stages: unsealing, the decryption call,
  delivery;
* `sealed_gate_iff`         — when the gate holds.
-/

namespace Sigchat.Results

open Sigchat.Lib
open Sigchat.Lib.Wire
open Sigchat.Pddb
open Sigchat.Signal
open Sigchat.Stores
open Sigchat.Protos
open Sigchat.MainWs

section SealedGate

variable {L : Libsignal} (P : Protocol L)

-- ---------------------------------------------------------------------------
-- The decryption call
-- ---------------------------------------------------------------------------

/-- The call that decrypts the message inside, if it parses. -/
def innerCall (usmc : P.Usmc) (remoteAddr localAddr : ProtocolAddress) (rng : P.Rng) :
    Option (Call L Bytes) :=
  let contents := (P.usmcContents usmc).toOption.getD []
  match P.usmcMsgType usmc with
  | .ok .preKey => (P.parsePreKeySignalMessage contents).toOption.map
      fun msg => P.messageDecryptPrekey msg remoteAddr localAddr rng
  | .ok .whisper => (P.parseSignalMessage contents).toOption.map
      fun msg => P.messageDecryptSignal msg remoteAddr rng
  | _ => none

/-- The call an unsealed message leads to when its certificate is checked at
time `ts`, and the address it is for. -/
def sealedCall (usmc : P.Usmc) (localAddr : ProtocolAddress) (ts : UInt64) (rng : P.Rng) :
    Option (ProtocolAddress × Call L Bytes) := do
  let remoteAddr ← sealedSender P usmc ts
  let call ← innerCall P usmc remoteAddr localAddr rng
  some (remoteAddr, call)

/-- Make the call and deliver what it decrypts. -/
def decryptAndDeliver (ts : UInt64) : Option (ProtocolAddress × Call L Bytes) →
    Prog AppResp (Except Panic Unit)
  | none => .done (.ok ())
  | some (remoteAddr, call) => do
    match ← onStores call with
    | .error _ => return .ok ()
    | .ok plaintext => deliverContent plaintext remoteAddr ts

/-- A sealed envelope, once its message is unsealed. -/
theorem decryptSealed_of_unsealed (content : Bytes) (localAddr : ProtocolAddress) (ts : UInt64)
    (rng : P.Rng) :
    (decryptSealed P content localAddr ts rng >>= fun plain =>
      match plain.map fun (plaintext, remoteAddr) => Decrypted.mk plaintext remoteAddr ts with
      | none => .done (.ok ())
      | some d => deliverContent d.plaintext d.remoteAddr d.serverTs) =
      onStores (P.sealedSenderDecryptToUsmc content) >>= fun r =>
        decryptAndDeliver ts (r.toOption.bind fun usmc => sealedCall P usmc localAddr ts rng) := by
  rw [decryptSealed, bind_assoc]
  refine bind_congr fun r => ?_
  rcases r with e | usmc
  · rfl
  show _ = decryptAndDeliver ts (sealedCall P usmc localAddr ts rng)
  rw [sealedCall]
  dsimp only
  -- A certificate that is refused ends it here.
  rcases sealedSender P usmc ts with _ | remoteAddr
  · rfl
  simp only [Option.bind_eq_bind, Option.bind_some, innerCall]
  rcases P.usmcMsgType usmc with e | type
  · rfl
  -- Two kinds of inner message are decrypted, the others are dropped.
  rcases type
  · simp only [decryptSignalMessage]
    rcases P.parseSignalMessage ((P.usmcContents usmc).toOption.getD []) with e | msg
    · rfl
    · simp only [bind_assoc]
      refine bind_congr fun r => ?_
      cases r <;> rfl
  · simp only [decryptPrekeyMessage]
    rcases P.parsePreKeySignalMessage ((P.usmcContents usmc).toOption.getD []) with e | msg
    · rfl
    · simp only [bind_assoc]
      refine bind_congr fun r => ?_
      cases r <;> rfl
  · rfl
  · rfl

/-- **The three stages.** A sealed envelope is unsealed, its message decrypted
by the call its certificate allows, and what it decrypts delivered. -/
theorem dispatchEnvelope_sealed {body content : Bytes} {e : EnvelopeProto}
    (hDecode : EnvelopeProto.decode body = some e) (hType : e.type = some 6)
    (hContent : e.content = some content) (localAddr : ProtocolAddress) (rng : P.Rng) :
    dispatchEnvelope P body localAddr rng =
      onStores (P.sealedSenderDecryptToUsmc content) >>= fun r =>
        decryptAndDeliver (e.serverTimestamp.getD 0) (r.toOption.bind fun usmc =>
          sealedCall P usmc localAddr (e.serverTimestamp.getD 0) rng) := by
  rw [← decryptSealed_of_unsealed, dispatchEnvelope, decryptEnvelope, hDecode]
  simp only [hType, hContent, Option.getD_some]
  rw [if_pos (show (6 : Int) = envelopeUnidentifiedSender from rfl), bind_assoc]
  rfl

-- ---------------------------------------------------------------------------
-- Certificates
-- ---------------------------------------------------------------------------

/-- What a sender certificate says: which key its chain verifies under, and when
it expires. -/
structure Certificates where
  Verifies : P.SenderCertificate → L.PublicKey → Prop
  expiration : P.SenderCertificate → Nat

/-- libsignal's check. -/
def Certificates.Checked (C : Certificates P) : Prop :=
  ∀ cert roots t, P.validateWithTrustRoots cert roots t = .ok true ↔
    (∃ root ∈ roots, C.Verifies cert root) ∧ t ≤ C.expiration cert

/-- Unsealing only reads the local account. -/
def UnsealsByReading : Prop :=
  ∀ content, (P.sealedSenderDecryptToUsmc content).All fun op => ∃ read, op = .account read

variable {P} (C : Certificates P)

/-- The certificate is for this address, and its chain verifies under a pinned
root. -/
structure CertifiedFor (cert : P.SenderCertificate) (addr : ProtocolAddress) : Prop where
  chain : ∃ root ∈ trustRoots L, C.Verifies cert root
  name : P.senderUuid cert = .ok addr.name
  deviceId : P.senderDeviceId cert = .ok addr.deviceId

/-- The sender is accepted exactly if the certificate is for it and has not
expired. -/
theorem sealedSender_eq_some_iff (hChecked : C.Checked) {usmc : P.Usmc} {ts : UInt64}
    {addr : ProtocolAddress} :
    sealedSender P usmc ts = some addr ↔
      ∃ cert, P.usmcSender usmc = .ok cert ∧ CertifiedFor C cert addr ∧
        ts.toNat ≤ C.expiration cert := by
  rw [sealedSender]
  rcases hCert : P.usmcSender usmc with e | cert
  · exact ⟨nofun, fun ⟨_, h, _⟩ => nomatch h⟩
  dsimp only
  have hAccept := hChecked cert (trustRoots L) ts.toNat
  -- The checks in the order of the source.
  constructor
  · intro h
    split at h
    · exact nomatch h
    · exact nomatch h
    · rename_i hValid
      obtain ⟨hChain, hTime⟩ := hAccept.mp hValid
      split at h
      · exact nomatch h
      · rename_i uuid hUuid
        split at h
        · exact nomatch h
        · rename_i dev hDev
          obtain rfl := Option.some.inj h
          exact ⟨cert, rfl, ⟨hChain, hUuid, hDev⟩, hTime⟩
  · rintro ⟨cert', hCert', hFor, hTime⟩
    obtain rfl := Except.ok.inj hCert'
    rw [hAccept.mpr ⟨hFor.chain, hTime⟩, hFor.name, hFor.deviceId]

-- ---------------------------------------------------------------------------
-- The stages of a run
-- ---------------------------------------------------------------------------

/-- Unsealing leaves the application as it is. -/
theorem run_unseal (hReads : UnsealsByReading P) (content : Bytes) (env : Env AppReq Outcome)
    (a : App) : ((onStores (P.sealedSenderDecryptToUsmc content)).run appServe env a).2 = a := by
  have hAll : ((P.sealedSenderDecryptToUsmc content).interp handle).All ReadsAccount := by
    refine (hReads content).interp_of fun op hOp => ?_
    obtain ⟨read, rfl⟩ := hOp
    exact all_handle_account read
  have hOn : (onStores (P.sealedSenderDecryptToUsmc content)).All
      fun r => ∃ q, r = .pddb q ∧ ReadsAccount q :=
    hAll.interp_of fun q hq => ⟨⟨q, rfl, hq⟩, fun _ => trivial⟩
  refine Prog.wp_run_any (Prog.wp_of_all (I := fun b => b = a) ?_ hOn rfl) env
  rintro r ⟨q, rfl, hq⟩ o b rfl
  show { b with disk := (serve o q b.disk).2 } = b
  rw [hq.serve]

/-- At most one post more. -/
def AtMostOnePost (a b : App) : Prop := b.posts = a.posts ∨ ∃ post, b.posts = a.posts ++ [post]

theorem AtMostOnePost.of_sameChat {a b c : App} (h : AtMostOnePost b c) (hSame : SameChat a b) :
    AtMostOnePost a c := by
  rw [AtMostOnePost, hSame.1] at h
  exact h

/-- A message posts once at most. -/
theorem wp_deliverMessage_posts {adm : AppReq → Outcome → Prop} (content : ContentProto)
    (remoteAddr : ProtocolAddress) (ts : UInt64) (a : App) :
    (deliverMessage content remoteAddr ts).wp appServe adm (fun _ b => AtMostOnePost a b) a := by
  unfold deliverMessage
  -- A data message, a transcript, or neither.
  split
  · rename_i dm _ _
    unfold deliverDataMessage
    dsimp only
    split
    · exact .inl rfl
    · intro o _
      -- recording the sender does not change the chat
      show Prog.wp appServe adm (onPddb (Outgoing.setCurrentRecipient remoteAddr) >>=
        fun _ => .done (Except.ok true : Except Panic Bool)) _ _
      refine Prog.wp_bind.mpr (Prog.wp_of_all (P := IsStorage)
        (I := fun b => AtMostOnePost a b) ?_ (all_onPddb _) (.inr ⟨_, rfl⟩))
      rintro r ⟨q, rfl⟩ o b hb
      exact hb
  · rename_i sync _ _
    refine Prog.wp_mono (fun r b h => ?_) (wp_deliverSyncMessage sync ts)
    split at h
    · exact .inl (congrArg App.posts h.2)
    · split at h
      · exact .inl (congrArg App.posts h.2)
      · obtain ⟨-, _, rfl⟩ := h
        exact .inr ⟨_, rfl⟩
  · exact .inl rfl

/-- Delivery adds at most one post. -/
theorem wp_deliverContent_posts {adm : AppReq → Outcome → Prop} (plaintext : Bytes)
    (remoteAddr : ProtocolAddress) (ts : UInt64) (a : App) :
    (deliverContent plaintext remoteAddr ts).wp appServe adm (fun _ b => AtMostOnePost a b) a := by
  unfold deliverContent
  split
  · exact .inl rfl
  · rename_i content _
    refine Prog.wp_bind.mpr (Prog.wp_mono (fun r b h => ?_)
      (wp_deliverMessage_posts content remoteAddr ts a))
    rcases r with p | (_ | _)
    · exact h
    · exact h
    · exact fun _ _ => h

/-- So do the later stages together. -/
theorem run_decryptAndDeliver_posts (ts : UInt64) (call : Option (ProtocolAddress × Call L Bytes))
    (env : Env AppReq Outcome) (a : App) :
    AtMostOnePost a ((decryptAndDeliver ts call).run appServe env a).2 := by
  rcases call with _ | ⟨remoteAddr, call⟩
  · exact .inl rfl
  · refine Prog.wp_run_any (Q := fun _ b => AtMostOnePost a b) (Prog.wp_bind.mpr ?_) env
    refine Prog.wp_mono (fun r b hSame => ?_) (Prog.wp_of_all (I := SameChat a)
      (fun r hr o b hb => appServe_storage hr o hb) (all_onPddb _) ⟨rfl, rfl⟩)
    rcases r with e | plaintext
    · exact .inl hSame.1
    · exact Prog.wp_mono (fun _ c hc => hc.of_sameChat hSame)
        (wp_deliverContent_posts plaintext remoteAddr ts b)

-- ---------------------------------------------------------------------------
-- The gate
-- ---------------------------------------------------------------------------

section Gate

variable (body : Bytes) (e : EnvelopeProto) (localAddr : ProtocolAddress) (rng : P.Rng)
  (env : Env AppReq Outcome) (a : App)

/-- What the envelope's content is unsealed to. -/
def unsealed : Option P.Usmc :=
  e.content.bind fun content =>
    ((onStores (P.sealedSenderDecryptToUsmc content)).run appServe env a).1.toOption

/-- The outcomes that are left for what follows the unsealing. -/
def envAfterUnsealing : Env AppReq Outcome :=
  match e.content with
  | none => env
  | some content => (onStores (P.sealedSenderDecryptToUsmc content)).left appServe env a

/-- The decryption call the envelope leads to. -/
def calledFor : Option (ProtocolAddress × Call L Bytes) :=
  (unsealed e env a).bind fun usmc =>
    sealedCall P usmc localAddr (e.serverTimestamp.getD 0) rng

/-- The gate: processing the envelope is unsealing it, making this one call and
delivering what it decrypts under its address. Decryption is called only under a
certificate that is valid at a timestamp of the envelope, and only for the
address it names; without a call nothing changes, and with it one post is added
at most; an expired certificate or a missing timestamp changes nothing. -/
structure Gate : Prop where
  made : (dispatchEnvelope P body localAddr rng).run appServe env a =
    (decryptAndDeliver (e.serverTimestamp.getD 0) (calledFor e localAddr rng env a)).run appServe
      (envAfterUnsealing (P := P) e env a) a
  call : ∀ addr call, calledFor e localAddr rng env a = some (addr, call) →
    ∃ ts usmc cert, e.serverTimestamp = some ts ∧ unsealed e env a = some usmc ∧
      P.usmcSender usmc = .ok cert ∧ CertifiedFor C cert addr ∧
      ts.toNat ≤ C.expiration cert ∧
      ((∃ msg, call = P.messageDecryptPrekey msg addr localAddr rng) ∨
        ∃ msg, call = P.messageDecryptSignal msg addr rng)
  noCall : calledFor e localAddr rng env a = none → processed P body localAddr rng env a = a
  onePost : AtMostOnePost a (processed P body localAddr rng env a)
  expired : ∀ ts usmc cert, e.serverTimestamp = some ts → unsealed e env a = some usmc →
    P.usmcSender usmc = .ok cert → C.expiration cert < ts.toNat →
      processed P body localAddr rng env a = a
  unstamped : e.serverTimestamp = none → processed P body localAddr rng env a = a

/-- The message inside is of a kind that is decrypted, and parses. -/
def InnerParses (usmc : P.Usmc) : Prop :=
  (P.usmcMsgType usmc = .ok .preKey ∧
    ∃ msg, P.parsePreKeySignalMessage ((P.usmcContents usmc).toOption.getD []) = .ok msg) ∨
  (P.usmcMsgType usmc = .ok .whisper ∧
    ∃ msg, P.parseSignalMessage ((P.usmcContents usmc).toOption.getD []) = .ok msg)

/-- A message with a certificate for some address, whenever it expired. -/
def Certified (usmc : P.Usmc) : Prop :=
  InnerParses usmc ∧ ∃ cert addr, P.usmcSender usmc = .ok cert ∧ CertifiedFor C cert addr

end Gate

/-- There is a call exactly if the inner message parses. -/
theorem innerCall_isSome_iff {usmc : P.Usmc} {addr localAddr : ProtocolAddress} {rng : P.Rng} :
    (∃ call, innerCall P usmc addr localAddr rng = some call) ↔ InnerParses usmc := by
  rw [innerCall, InnerParses]
  rcases P.usmcMsgType usmc with e | type
  · simp
  · rcases type
    · rcases P.parseSignalMessage ((P.usmcContents usmc).toOption.getD []) with e | msg <;>
        simp [Except.toOption]
    · rcases P.parsePreKeySignalMessage ((P.usmcContents usmc).toOption.getD []) with e | msg <;>
        simp [Except.toOption]
    · simp
    · simp

/-- The call is for the address, with the one or the other kind of message. -/
theorem innerCall_addr {usmc : P.Usmc} {addr localAddr : ProtocolAddress} {rng : P.Rng}
    {call : Call L Bytes} (h : innerCall P usmc addr localAddr rng = some call) :
    (∃ msg, call = P.messageDecryptPrekey msg addr localAddr rng) ∨
      ∃ msg, call = P.messageDecryptSignal msg addr rng := by
  rw [innerCall] at h
  split at h
  · obtain ⟨msg, -, hCall⟩ := Option.map_eq_some_iff.mp h
    exact .inl ⟨msg, hCall.symm⟩
  · obtain ⟨msg, -, hCall⟩ := Option.map_eq_some_iff.mp h
    exact .inr ⟨msg, hCall.symm⟩
  · exact nomatch h

/-- A certified message is decrypted exactly if its certificate has not expired
at the time it is checked. -/
theorem sealedCall_eq_some_iff (hChecked : C.Checked) {usmc : P.Usmc}
    {localAddr addr : ProtocolAddress} {ts : UInt64} {rng : P.Rng} {call : Call L Bytes} :
    sealedCall P usmc localAddr ts rng = some (addr, call) ↔
      (∃ cert, P.usmcSender usmc = .ok cert ∧ CertifiedFor C cert addr ∧
        ts.toNat ≤ C.expiration cert) ∧ innerCall P usmc addr localAddr rng = some call := by
  rw [← sealedSender_eq_some_iff C hChecked, sealedCall]
  simp only [Option.bind_eq_bind, Option.bind_eq_some_iff, Option.some.injEq, Prod.mk.injEq]
  constructor
  · rintro ⟨addr, hAddr, call, hCall, rfl, rfl⟩
    exact ⟨hAddr, hCall⟩
  · rintro ⟨hAddr, hCall⟩
    exact ⟨addr, hAddr, call, hCall, rfl, rfl⟩

/-- Libsignal is called for an address exactly if the envelope unseals to a
certificate for it that is still valid, with an inner message that parses. -/
theorem calledFor_eq_some_iff (hChecked : C.Checked) {e : EnvelopeProto}
    {localAddr addr : ProtocolAddress} {rng : P.Rng} {env : Env AppReq Outcome} {a : App}
    {call : Call L Bytes} :
    calledFor e localAddr rng env a = some (addr, call) ↔
      ∃ usmc, unsealed e env a = some usmc ∧
        (∃ cert, P.usmcSender usmc = .ok cert ∧ CertifiedFor C cert addr ∧
          (e.serverTimestamp.getD 0).toNat ≤ C.expiration cert) ∧
        innerCall P usmc addr localAddr rng = some call := by
  rw [calledFor, Option.bind_eq_some_iff]
  exact exists_congr fun usmc => and_congr_right fun _ => sealedCall_eq_some_iff C hChecked

/-- At time 0 no certificate has expired. -/
theorem calledFor_unstamped (hChecked : C.Checked) {e : EnvelopeProto}
    {localAddr : ProtocolAddress} {rng : P.Rng} {env : Env AppReq Outcome} {a : App}
    (hUnstamped : e.serverTimestamp = none) :
    calledFor e localAddr rng env a = none ↔
      ∀ usmc, unsealed e env a = some usmc → ¬Certified C usmc := by
  constructor
  · rintro hNone usmc hUnsealed ⟨hParses, cert, addr, hCert, hFor⟩
    obtain ⟨call, hCall⟩ := innerCall_isSome_iff.mpr hParses
    -- Without a timestamp the time is zero, at which no certificate has expired.
    have hTime : (e.serverTimestamp.getD 0).toNat ≤ C.expiration cert := by
      rw [hUnstamped]
      exact Nat.zero_le _
    have hCalled := (calledFor_eq_some_iff C hChecked).mpr
      ⟨usmc, hUnsealed, ⟨cert, hCert, hFor, hTime⟩, hCall⟩
    exact absurd (hNone.symm.trans hCalled) nofun
  · intro h
    rcases hCalled : calledFor e localAddr rng env a with _ | ⟨addr, call⟩
    · rfl
    · obtain ⟨usmc, hUnsealed, ⟨cert, hCert, hFor, -⟩, hInner⟩ :=
        (calledFor_eq_some_iff C hChecked).mp hCalled
      have hParses : InnerParses usmc := innerCall_isSome_iff.mp ⟨call, hInner⟩
      exact absurd ⟨hParses, cert, addr, hCert, hFor⟩ (h usmc hUnsealed)

/-- An expired certificate gives no call. -/
theorem calledFor_expired (hChecked : C.Checked) {e : EnvelopeProto}
    {localAddr : ProtocolAddress} {rng : P.Rng} {env : Env AppReq Outcome} {a : App} {ts : UInt64}
    {usmc : P.Usmc} {cert : P.SenderCertificate} (hTs : e.serverTimestamp = some ts)
    (hUnsealed : unsealed e env a = some usmc) (hCert : P.usmcSender usmc = .ok cert)
    (hTime : C.expiration cert < ts.toNat) : calledFor e localAddr rng env a = none := by
  rcases hCall : calledFor e localAddr rng env a with _ | ⟨addr, call⟩
  · rfl
  · obtain ⟨usmc', hUnsealed', ⟨cert', hCert', -, hTime'⟩, -⟩ :=
      (calledFor_eq_some_iff C hChecked).mp hCall
    obtain rfl := Option.some.inj (hUnsealed.symm.trans hUnsealed')
    obtain rfl := Except.ok.inj (hCert.symm.trans hCert')
    rw [hTs, Option.getD_some] at hTime'
    omega

section Gate

variable {body : Bytes} {e : EnvelopeProto} (hDecode : EnvelopeProto.decode body = some e)
  (hType : e.type = some 6) (hReads : UnsealsByReading P) (localAddr : ProtocolAddress)
  (rng : P.Rng) (env : Env AppReq Outcome) (a : App)

include hDecode hType hReads

/-- Processing the envelope is making the call and delivering what it decrypts,
once the envelope is unsealed. -/
theorem run_sealed :
    (dispatchEnvelope P body localAddr rng).run appServe env a =
      (decryptAndDeliver (e.serverTimestamp.getD 0) (calledFor e localAddr rng env a)).run appServe
        (envAfterUnsealing (P := P) e env a) a := by
  rcases hContent : e.content with _ | content
  · rw [dispatchEnvelope, decryptEnvelope, hDecode, calledFor, unsealed]
    simp only [hContent]
    rfl
  · -- unsealing leaves the application as it is, and the rest runs on what it leaves of `env`
    rw [dispatchEnvelope_sealed P hDecode hType hContent, Prog.run_bind, run_unseal hReads,
      calledFor, unsealed, envAfterUnsealing, hContent]
    rfl

/-- **The sealed-sender gate** holds exactly if the envelope carries a server
timestamp or is not certified: a missing timestamp lets expired certificates
pass. -/
theorem sealed_gate_iff (hChecked : C.Checked) :
    Gate C body e localAddr rng env a ↔
      (e.serverTimestamp = none → ∀ usmc, unsealed e env a = some usmc → ¬Certified C usmc) := by
  have hRun := run_sealed hDecode hType hReads localAddr rng env a
  -- What the envelope does is what is done with the call, if there is one.
  have hProcessed : processed P body localAddr rng env a =
      ((decryptAndDeliver (e.serverTimestamp.getD 0) (calledFor e localAddr rng env a)).run appServe
        (envAfterUnsealing (P := P) e env a) a).2 := congrArg Prod.snd hRun
  have hNoCall : calledFor e localAddr rng env a = none →
      processed P body localAddr rng env a = a := by
    intro hNone
    rw [hProcessed, hNone]
    rfl
  constructor
  · intro hGate hUnstamped
    have hNone : calledFor e localAddr rng env a = none := by
      rcases hCalled : calledFor e localAddr rng env a with _ | ⟨addr, call⟩
      · rfl
      · obtain ⟨ts, -, -, hTs, -⟩ := hGate.call addr call hCalled
        exact absurd (hUnstamped.symm.trans hTs) nofun
    exact (calledFor_unstamped C hChecked hUnstamped).mp hNone
  · intro h
    have hUnstamped (hNone : e.serverTimestamp = none) : calledFor e localAddr rng env a = none :=
      (calledFor_unstamped C hChecked hNone).mpr (h hNone)
    constructor
    case made => exact hRun
    case call =>
      intro addr call hCall
      obtain ⟨usmc, hUnsealed, ⟨cert, hCert, hFor, hTime⟩, hInner⟩ :=
        (calledFor_eq_some_iff C hChecked).mp hCall
      rcases hTs : e.serverTimestamp with _ | ts
      · exact absurd ((hUnstamped hTs).symm.trans hCall) nofun
      · rw [hTs] at hTime
        exact ⟨ts, usmc, cert, rfl, hUnsealed, hCert, hFor, hTime, innerCall_addr hInner⟩
    case noCall => exact hNoCall
    case onePost =>
      rw [hProcessed]
      exact run_decryptAndDeliver_posts _ _ _ a
    case expired =>
      exact fun ts usmc cert hTs hUnsealed hCert hTime =>
        hNoCall (calledFor_expired C hChecked hTs hUnsealed hCert hTime)
    case unstamped => exact fun hNone => hNoCall (hUnstamped hNone)

end Gate

end SealedGate

-- ---------------------------------------------------------------------------
-- An expired certificate
-- ---------------------------------------------------------------------------

/-- Every chain verifies, and every certificate expired a second after the
epoch. -/
def expiredProtocol : Protocol .plain where
  __ := Protocol.plain
  validateWithTrustRoots _ roots t := .ok (decide (roots ≠ [] ∧ t ≤ 1000))

def expiredCertificates : Certificates expiredProtocol := ⟨fun _ _ => True, fun _ => 1000⟩

/-- The example's certificates are checked by their time. -/
theorem expired_checked : expiredCertificates.Checked := by
  intro cert roots t
  show Except.ok (decide (roots ≠ [] ∧ t ≤ 1000)) = Except.ok true ↔
    (∃ root ∈ roots, True) ∧ t ≤ 1000
  rw [Except.ok.injEq, decide_eq_true_iff]
  refine and_congr_left fun _ => ⟨fun hRoots => ?_, ?_⟩
  · obtain ⟨root, hRoot⟩ := List.exists_mem_of_ne_nil roots hRoots
    exact ⟨root, hRoot, trivial⟩
  · rintro ⟨root, hRoot, -⟩
    exact List.ne_nil_of_mem hRoot

theorem expired_reads : UnsealsByReading expiredProtocol := fun _ => trivial

/-- A sealed envelope with a text, without or with a server timestamp. -/
def sealedEnvelope (ts : Option UInt64) : EnvelopeProto :=
  ⟨some 6, none, none, ts, some (Outgoing.messageContent "hi" 7)⟩

def sealedBody (ts : Option UInt64) : Bytes :=
  encodeFields (⟨1, .varint 6⟩ :: uint64Field 5 ts ++
    [⟨8, .bytes (Outgoing.messageContent "hi" 7)⟩])

/-- Without a timestamp the expired certificate passes: the text is decrypted
and shown. -/
theorem expired_certificate_accepted :
    EnvelopeProto.decode (sealedBody none) = some (sealedEnvelope none) ∧
      ¬Gate expiredCertificates (sealedBody none) (sealedEnvelope none) me ()
        (fun _ _ => .served) emptyApp := by
  refine ⟨by decide +kernel, fun hGate => ?_⟩
  have hPosts := congrArg App.posts (hGate.unstamped rfl)
  revert hPosts
  decide +kernel

/-- The theorem for an envelope whose timestamp is past the expiration. -/
theorem sealed_gate_iff_stamped :
    Gate expiredCertificates (sealedBody (some 2000)) (sealedEnvelope (some 2000)) me ()
      (fun _ _ => .served) emptyApp :=
  (sealed_gate_iff expiredCertificates (by decide +kernel) rfl expired_reads me ()
    (fun _ _ => .served) emptyApp expired_checked).mpr fun h => nomatch h

end Sigchat.Results

import Sigchat.Model.MainWs

/-!
# Sent-message transcripts and who sends them

A plaintext whose content is a sync message with a sent transcript is shown as
a message this device has sent. The receiver never compares its authenticated
sender with the local account.

* `wp_deliverContent_sync` — what the delivery of a sync message does;
* `forged_transcript` — a transcript from a stranger is shown;
* `sync_from_self_iff` — an envelope's sync message is without effect, or from
  the own account, exactly when it shows no transcript or is from there.
-/

namespace Sigchat.Results

open Sigchat.Lib
open Sigchat.Lib.Wire
open Sigchat.Pddb
open Sigchat.Signal
open Sigchat.Stores
open Sigchat.Protos
open Sigchat.MainWs

-- ---------------------------------------------------------------------------
-- Storage programs and the chat
-- ---------------------------------------------------------------------------

/-- A request to PDDB. -/
def IsStorage (r : AppReq) : Prop := ∃ q, r = .pddb q

theorem all_onPddb {α : Type} (p : Prog Resp α) : (onPddb p).All IsStorage := by
  refine Prog.All.interp (fun r => ?_) p
  exact ⟨⟨r, rfl⟩, fun _ => trivial⟩

/-- The chat is as it was. -/
def SameChat (a b : App) : Prop := b.posts = a.posts ∧ b.redraws = a.redraws

theorem appServe_storage {r : AppReq} (hr : IsStorage r) (o : Outcome) {a b : App}
    (h : SameChat a b) : SameChat a (appServe o r b).2 := by
  obtain ⟨q, rfl⟩ := hr
  exact h

section Decryption

variable {L : Libsignal} (P : Protocol L)

/-- Decryption only talks to PDDB. -/
theorem decryption_isStorage : KeptByDecryption P fun _ p => p.All IsStorage where
  done _ := trivial
  map _ hp := hp.bind fun _ => trivial
  decryptPrekey _ _ _ _ := all_onPddb _
  decryptSignal _ _ _ := all_onPddb _
  sealedSenderDecrypt _ _ hf := (all_onPddb _).bind hf

/-- So it leaves the chat as it is. -/
theorem decryptEnvelope_sameChat (body : Bytes) (localAddr : ProtocolAddress) (rng : P.Rng)
    (env : Env AppReq Outcome) (a : App) :
    SameChat a ((decryptEnvelope P body localAddr rng).run appServe env a).2 := by
  have hAll := (decryption_isStorage P).envelope body localAddr rng
  exact Prog.wp_run_any (Prog.wp_of_all (I := SameChat a)
    (fun r hr o b hb => appServe_storage hr o hb) hAll ⟨rfl, rfl⟩) env

end Decryption

-- ---------------------------------------------------------------------------
-- Delivery of a sync message
-- ---------------------------------------------------------------------------

/-- The plaintext takes the path of sync messages. -/
def IsSync (plaintext : Bytes) : Prop :=
  ∃ sync, ContentProto.decode (stripSignalPadding plaintext) = some ⟨none, some sync⟩

/-- Destination and body of the transcript a sync message asks to show. -/
def syncTranscript (sync : SyncMessageProto) : Option (String × String) := do
  let sent ← sync.sent
  let dm ← sent.message
  if dm.body.getD "" = "" then none
  else some (sent.destinationServiceId.getD "", dm.body.getD "")

/-- The same of a plaintext. -/
def sentTranscript (plaintext : Bytes) : Option (String × String) := do
  let content ← ContentProto.decode (stripSignalPadding plaintext)
  if content.dataMessage.isSome then none else content.syncMessage.bind syncTranscript

/-- A transcript whose destination can be cut is shown. -/
def shown (t : Option (String × String)) : Option (String × String) := do
  let (dest, body) ← t
  let pre ← destPrefix dest
  some ("\u2192" ++ pre, body)

section Delivery

variable {adm : AppReq → Outcome → Prop} {a : App}

/-- A transcript is posted under its destination, or panics where the
destination cannot be cut. -/
theorem wp_deliverSyncMessage (sync : SyncMessageProto) (serverTs : UInt64) :
    (deliverSyncMessage sync serverTs).wp appServe adm
      (fun r b => match syncTranscript sync with
        | none => r = .ok false ∧ b = a
        | some (dest, body) => match destPrefix dest with
          | none => (∃ p, r = .error p) ∧ b = a
          | some pre => r = .ok true ∧
            ∃ ts, b = { a with posts := a.posts ++ [⟨"\u2192" ++ pre, ts, body⟩] }) a := by
  unfold deliverSyncMessage syncTranscript
  -- A transcript needs a message with a text; everything else is passed over.
  cases hSent : sync.sent with
  | none => exact ⟨rfl, rfl⟩
  | some sent =>
    cases hMsg : sent.message with
    | none => simp [hMsg]
    | some dm =>
      simp only [hMsg, Option.bind_eq_bind, Option.bind_some]
      by_cases hBody : dm.body.getD "" = ""
      · simp [hBody]
      · simp only [if_neg hBody]
        cases hPre : destPrefix (sent.destinationServiceId.getD "") with
        | none => exact ⟨⟨_, rfl⟩, rfl⟩
        | some pre => exact fun _ _ => ⟨rfl, _, rfl⟩

/-- **Delivering a sync message.** It adds one post and redraws if its
transcript is shown, panics if the transcript's destination cannot be cut, and
does nothing otherwise. -/
theorem wp_deliverContent_sync {plaintext : Bytes} (hSync : IsSync plaintext)
    (remoteAddr : ProtocolAddress) (serverTs : UInt64) :
    (deliverContent plaintext remoteAddr serverTs).wp appServe adm
      (fun r b => match shown (sentTranscript plaintext) with
        | none => SameChat a b ∧ (r = .ok () ↔ sentTranscript plaintext = none)
        | some (author, body) => r = .ok () ∧ b.redraws = a.redraws + 1 ∧
          ∃ ts, b.posts = a.posts ++ [⟨author, ts, body⟩]) a := by
  obtain ⟨sync, hDecode⟩ := hSync
  have hTranscript : sentTranscript plaintext = syncTranscript sync := by
    simp [sentTranscript, hDecode]
  simp only [deliverContent, hDecode, deliverMessage]
  refine Prog.wp_bind.mpr (Prog.wp_mono (fun r b h => ?_) (wp_deliverSyncMessage sync serverTs))
  rw [hTranscript, shown]
  cases hT : syncTranscript sync with
  | none =>
    rw [hT] at h
    obtain ⟨rfl, rfl⟩ := h
    exact ⟨⟨rfl, rfl⟩, by simp⟩
  | some t =>
    obtain ⟨dest, body⟩ := t
    simp only [hT, Option.bind_eq_bind, Option.bind_some] at h ⊢
    -- The prefix is cut out of the destination by bytes.
    cases hPre : destPrefix dest with
    | none =>
      rw [hPre] at h
      obtain ⟨⟨p, rfl⟩, rfl⟩ := h
      exact ⟨⟨rfl, rfl⟩, by simp⟩
    | some pre =>
      rw [hPre] at h
      obtain ⟨rfl, ts, rfl⟩ := h
      exact fun _ _ => ⟨rfl, rfl, ts, rfl⟩

end Delivery

-- ---------------------------------------------------------------------------
-- Whole envelopes
-- ---------------------------------------------------------------------------

/-- A transcript is shown for sync messages only. -/
theorem isSync_of_shown {plaintext : Bytes} {t : String × String}
    (h : shown (sentTranscript plaintext) = some t) : IsSync plaintext := by
  unfold sentTranscript at h
  cases hDecode : ContentProto.decode (stripSignalPadding plaintext) with
  | none => simp [hDecode, shown] at h
  | some content =>
    obtain ⟨dataMessage, syncMessage⟩ := content
    cases dataMessage with
    | some dm => simp [hDecode, shown] at h
    | none =>
      cases syncMessage with
      | none => simp [hDecode, shown] at h
      | some sync => exact ⟨sync, hDecode⟩

section Envelopes

variable {L : Libsignal} (P : Protocol L) (body : Bytes) (localAddr : ProtocolAddress)
  (rng : P.Rng) (env : Env AppReq Outcome) (a : App)

/-- Plaintext and authenticated sender of the envelope, if it decrypts. -/
def decrypted : Option Decrypted :=
  ((decryptEnvelope P body localAddr rng).run appServe env a).1

/-- The application once the envelope has been processed. -/
def processed : App := ((dispatchEnvelope P body localAddr rng).run appServe env a).2

/-- A sync message that adds a post or redraws is from the local account. -/
def SyncFromSelf : Prop :=
  ∀ d, decrypted P body localAddr rng env a = some d → IsSync d.plaintext →
    ¬SameChat a (processed P body localAddr rng env a) → d.remoteAddr.name = localAddr.name

/-- Processing a decrypted envelope is delivering its plaintext. -/
theorem processed_eq {d : Decrypted} (hd : decrypted P body localAddr rng env a = some d) :
    ∃ (env' : Env AppReq Outcome) (b : App), SameChat a b ∧
      processed P body localAddr rng env a =
        ((deliverContent d.plaintext d.remoteAddr d.serverTs).run appServe env' b).2 := by
  refine ⟨(decryptEnvelope P body localAddr rng).left appServe env a, _,
    decryptEnvelope_sameChat P body localAddr rng env a, ?_⟩
  rw [decrypted] at hd
  rw [processed, dispatchEnvelope, Prog.run_bind, hd]

/-- **Whose transcripts are shown.** The sync message of an envelope is without
effect unless it is from the local account, exactly when it is from there or
shows no transcript. -/
theorem sync_from_self_iff :
    SyncFromSelf P body localAddr rng env a ↔
      ∀ d, decrypted P body localAddr rng env a = some d →
        d.remoteAddr.name = localAddr.name ∨ shown (sentTranscript d.plaintext) = none := by
  -- What is shown is shown without a look at the sender.
  constructor
  · intro h d hd
    by_cases hShown : shown (sentTranscript d.plaintext) = none
    · exact .inr hShown
    · obtain ⟨⟨author, text⟩, hT⟩ := Option.ne_none_iff_exists'.mp hShown
      refine .inl (h d hd (isSync_of_shown hT) fun hSame => ?_)
      obtain ⟨env', b, hb, hEq⟩ := processed_eq P body localAddr rng env a hd
      have hRun := Prog.wp_run_any (wp_deliverContent_sync (a := b) (isSync_of_shown hT)
        d.remoteAddr d.serverTs) env'
      rw [hT] at hRun
      -- the redraw counter has moved
      have hRedraws := hSame.2
      rw [hEq, hRun.2.1, hb.2] at hRedraws
      omega
  · intro h d hd hSync hChanged
    refine (h d hd).resolve_right fun hNone => hChanged ?_
    obtain ⟨env', b, hb, hEq⟩ := processed_eq P body localAddr rng env a hd
    have hRun := Prog.wp_run_any (wp_deliverContent_sync (a := b) hSync d.remoteAddr d.serverTs)
      env'
    rw [hNone] at hRun
    rw [hEq]
    exact ⟨hRun.1.1.trans hb.1, hRun.1.2.trans hb.2⟩

end Envelopes

-- ---------------------------------------------------------------------------
-- A stranger's transcript
-- ---------------------------------------------------------------------------

/-- Content with a sent transcript. -/
def transcriptContent (dest body : String) : Bytes :=
  encodeFields [⟨2, .bytes (encodeFields [⟨1, .bytes (encodeFields
    [⟨1, .bytes (utf8 dest)⟩, ⟨3, .bytes (encodeFields [⟨1, .bytes (utf8 body)⟩])⟩])⟩])⟩]

/-- An ordinary envelope. -/
def ordinaryEnvelope (source : String) (content : Bytes) : Bytes :=
  encodeFields [⟨1, .varint 1⟩, ⟨2, .bytes (utf8 source)⟩, ⟨8, .bytes content⟩]

def emptyApp : App := ⟨fun _ _ => none, [], 0⟩

/-- The local address `me.1`. -/
def me : ProtocolAddress := ⟨"me", .first⟩

/-- A transcript from `mallory` is shown as a message sent by this device. -/
theorem forged_transcript :
    ¬SyncFromSelf .plain (ordinaryEnvelope "mallory" (transcriptContent "bob" "hi")) me ()
      (fun _ _ => .served) emptyApp := by
  intro h
  have hName := h ⟨transcriptContent "bob" "hi", ⟨"mallory", .first⟩, 0⟩
    (by decide) ⟨⟨some ⟨some "bob", none, some ⟨some "hi", none⟩⟩⟩, by decide⟩
    fun hSame => absurd hSame.2 (by decide)
  exact absurd hName (by decide)

end Sigchat.Results

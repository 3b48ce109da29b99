import Sigchat.Results.SyncTranscript

/-!
# The receive loop under arbitrary server traffic

libsignal, PDDB, the clock, the websocket and the frames it delivers are
arbitrary. What a round does is said once per stage (`wp_poll`,
`handleRequest_run`, `wp_deliverContent_panic`); `Good` is the invariant the
rounds keep.

* `multibyte_destination_panics` — a transcript that kills the worker;
* `runSession_good_iff` — a session never panics, ends only for the three
  reasons it may and answers exactly the requests it has read, exactly when no
  round decrypts such a transcript.
-/

namespace Sigchat.Results

open Sigchat.Lib
open Sigchat.Lib.Wire
open Sigchat.Pddb
open Sigchat.Signal
open Sigchat.Stores
open Sigchat.Protos
open Sigchat.MainWs

-- ---------------------------------------------------------------------------
-- Frames on the wire
-- ---------------------------------------------------------------------------

/-- The response a sent frame holds. -/
def sentResponse : WireEvent → Option WsMessageProto
  | .sent (.binary raw) _ =>
    (WsMessageProto.decode raw).filter fun m => m.type = some wsTypeResponse
  | _ => none

/-- The request a received frame holds. -/
def receivedRequest : WireEvent → Option WsRequestProto
  | .received (.ok (.binary raw)) => frameRequest raw
  | _ => none

/-- The responses attempted are the acknowledgements of the requests received,
one each and in order. -/
def Answered (wire : List WireEvent) : Prop :=
  wire.filterMap sentResponse =
    (wire.filterMap receivedRequest).map fun req => MainWs.ack (req.id.getD 0) 200

/-- The event is neither a request nor a response. -/
def Neutral (e : WireEvent) : Prop := sentResponse e = none ∧ receivedRequest e = none

/-- The event that made the loop end. -/
def ExitEvent : Exit → WireEvent → Prop
  | .pingFailed, e => ∃ err, e = .sent (.ping []) (.error err)
  | .appKeepaliveFailed, e => ∃ id err, e = .sent (.binary (appKeepalive id).encode) (.error err)
  | .closed, e => e = .received (.ok .close)
  | .readError, e => ∃ err, isTimeout err = false ∧ e = .received (.error err)

/-- An acknowledgement is short enough for a frame. -/
theorem length_encode_ack (id : UInt64) : (MainWs.ack id 200).encode.length < 2 ^ 64 := by
  have hId := length_encodeField_varint 1 id.toNat
  have hStatus := length_encodeField_varint 2 200
  have hMessage := length_encodeField_bytes 3 (utf8 "OK")
  have hType := length_encodeField_varint 1 2
  have hResponse := length_encodeField_bytes 3 (encodeFields
    [⟨1, .varint id.toNat⟩, ⟨2, .varint 200⟩, ⟨3, .bytes (utf8 "OK")⟩])
  have hEq : (MainWs.ack id 200).encode = encodeFields [⟨1, .varint 2⟩, ⟨3, .bytes (encodeFields
    [⟨1, .varint id.toNat⟩, ⟨2, .varint 200⟩, ⟨3, .bytes (utf8 "OK")⟩])⟩] := rfl
  have hOk : (utf8 "OK").length = 2 := by decide
  have hNil : (encodeFields []).length = 0 := rfl
  simp only [length_encodeFields_cons] at hResponse
  rw [hEq, length_encodeFields_cons, length_encodeFields_cons]
  omega

theorem decode_ack (id : UInt64) :
    WsMessageProto.decode (MainWs.ack id 200).encode = some (MainWs.ack id 200) := by
  refine WsMessageProto.decode_encode (fun v hv => ?_) (length_encode_ack id)
  obtain rfl : wsTypeResponse = v := Option.some.inj hv
  exact ⟨by decide, by decide⟩

theorem length_encode_appKeepalive (id : UInt64) : (appKeepalive id).encode.length < 2 ^ 64 := by
  have hVerb := length_encodeField_bytes 1 (utf8 "GET")
  have hPath := length_encodeField_bytes 2 (utf8 appKeepalivePath)
  have hId := length_encodeField_varint 4 id.toNat
  have hType := length_encodeField_varint 1 1
  have hRequest := length_encodeField_bytes 2 (encodeFields
    [⟨1, .bytes (utf8 "GET")⟩, ⟨2, .bytes (utf8 appKeepalivePath)⟩, ⟨4, .varint id.toNat⟩])
  have hEq : (appKeepalive id).encode = encodeFields [⟨1, .varint 1⟩, ⟨2, .bytes (encodeFields
    [⟨1, .bytes (utf8 "GET")⟩, ⟨2, .bytes (utf8 appKeepalivePath)⟩, ⟨4, .varint id.toNat⟩])⟩] := rfl
  have hGet : (utf8 "GET").length = 3 := by decide
  have hKeepalive : (utf8 appKeepalivePath).length = 13 := by decide
  have hNil : (encodeFields []).length = 0 := rfl
  simp only [length_encodeFields_cons] at hRequest
  rw [hEq, length_encodeFields_cons, length_encodeFields_cons]
  omega

theorem decode_appKeepalive (id : UInt64) :
    WsMessageProto.decode (appKeepalive id).encode = some (appKeepalive id) := by
  refine WsMessageProto.decode_encode (fun v hv => ?_) (length_encode_appKeepalive id)
  obtain rfl : wsTypeRequest = v := Option.some.inj hv
  exact ⟨by decide, by decide⟩

/-- In the trace an acknowledgement is a response to its request. -/
theorem sentResponse_ack (id : UInt64) (result : Except WsError Unit) :
    sentResponse (.sent (.binary (MainWs.ack id 200).encode) result) =
      some (MainWs.ack id 200) := by
  simp only [sentResponse, decode_ack]
  rfl

theorem neutral_ping (p : Bytes) (result : Except WsError Unit) :
    Neutral (.sent (.ping p) result) :=
  ⟨rfl, rfl⟩

theorem neutral_appKeepalive (id : UInt64) (result : Except WsError Unit) :
    Neutral (.sent (.binary (appKeepalive id).encode) result) := by
  refine ⟨?_, rfl⟩
  simp only [sentResponse, decode_appKeepalive]
  rfl

-- ---------------------------------------------------------------------------
-- The log of a session
-- ---------------------------------------------------------------------------

/-- Only neutral events have been added to the log. -/
def NeutralStep (w w' : List WireEvent) : Prop := ∃ es, w' = w ++ es ∧ ∀ e ∈ es, Neutral e

theorem NeutralStep.refl (w : List WireEvent) : NeutralStep w w :=
  ⟨[], (List.append_nil w).symm, by simp⟩

/-- One neutral event more. -/
theorem NeutralStep.snoc {w w' : List WireEvent} {e : WireEvent} (h : NeutralStep w w')
    (he : Neutral e) : NeutralStep w (w' ++ [e]) := by
  obtain ⟨es, rfl, hes⟩ := h
  refine ⟨es ++ [e], List.append_assoc .., List.forall_mem_append.mpr ⟨hes, ?_⟩⟩
  intro e' he'
  rw [List.mem_singleton.mp he']
  exact he

theorem NeutralStep.trans {w₁ w₂ w₃ : List WireEvent} (h : NeutralStep w₁ w₂)
    (h' : NeutralStep w₂ w₃) : NeutralStep w₁ w₃ := by
  obtain ⟨es, rfl, hes⟩ := h
  obtain ⟨es', rfl, hes'⟩ := h'
  exact ⟨es ++ es', List.append_assoc .., List.forall_mem_append.mpr ⟨hes, hes'⟩⟩

/-- Neutral events leave every request answered. -/
theorem Answered.neutral {w w' : List WireEvent} (hw : Answered w) (h : NeutralStep w w') :
    Answered w' := by
  obtain ⟨es, rfl, hes⟩ := h
  have hSent : es.filterMap sentResponse = [] :=
    List.filterMap_eq_nil_iff.mpr fun e he => (hes e he).1
  have hReceived : es.filterMap receivedRequest = [] :=
    List.filterMap_eq_nil_iff.mpr fun e he => (hes e he).2
  rw [Answered, List.filterMap_append, List.filterMap_append, hSent, hReceived,
    List.append_nil, List.append_nil]
  exact hw

/-- A request that is acknowledged right away leaves every request answered. -/
theorem Answered.request {w : List WireEvent} (hw : Answered w) {raw : Bytes} {req : WsRequestProto}
    (hReq : frameRequest raw = some req) (result : Except WsError Unit) :
    Answered (w ++ [.received (.ok (.binary raw))] ++
      [.sent (.binary (MainWs.ack (req.id.getD 0) 200).encode) result]) := by
  have hReceived : receivedRequest (.received (.ok (.binary raw))) = some req := hReq
  have hAck := sentResponse_ack (req.id.getD 0) result
  have hNoResponse : sentResponse (.received (.ok (.binary raw))) = none := rfl
  have hNoRequest : receivedRequest
    (.sent (.binary (MainWs.ack (req.id.getD 0) 200).encode) result) = none := rfl
  rw [Answered] at hw ⊢
  simp only [List.filterMap_append, List.filterMap_cons, List.filterMap_nil, List.map_append,
    List.map_cons, List.map_nil, List.append_nil, hw, hAck, hReceived, hNoResponse, hNoRequest]

/-- The last event is the one the loop may end for. -/
def ExitedBy (x : Exit) (w : List WireEvent) : Prop := ∃ e, w.getLast? = some e ∧ ExitEvent x e

theorem exitedBy_snoc {x : Exit} {w : List WireEvent} {e : WireEvent} (he : ExitEvent x e) :
    ExitedBy x (w ++ [e]) := ⟨e, List.getLast?_concat .., he⟩

-- ---------------------------------------------------------------------------
-- Up to the request
-- ---------------------------------------------------------------------------

section Poll

variable {adm : SessReq → SessOutcome → Prop}

/-- What a keepalive stage does to the log. -/
def KeepalivePost (s : Sess) (r : Except Exit SessionVars) (s' : Sess) : Prop :=
  NeutralStep s.wire s'.wire ∧ ∀ x, r = .error x → ExitedBy x s'.wire

/-- The ping is neutral, and ends the session only if it cannot be sent. -/
theorem wp_sendPing (v : SessionVars) (s : Sess) :
    (sendPing v).wp sessServe adm (KeepalivePost s) s := by
  intro o _
  dsimp only [sessServe]
  split
  · intro o _
    dsimp only [sessServe]
    cases hSend : o.send with
    | ok _ =>
      intro o' _
      exact ⟨(NeutralStep.refl _).snoc (neutral_ping _ _), nofun⟩
    | error err =>
      refine ⟨(NeutralStep.refl _).snoc (neutral_ping _ _), ?_⟩
      rintro x ⟨⟩
      exact exitedBy_snoc ⟨err, rfl⟩
  · exact ⟨NeutralStep.refl _, nofun⟩

/-- The keepalive request is neutral too, and ends the session only if it cannot
be sent. -/
theorem wp_sendAppKeepalive (v : SessionVars) (s : Sess) :
    (sendAppKeepalive v).wp sessServe adm (KeepalivePost s) s := by
  intro o _
  dsimp only [sessServe]
  split
  · intro o _
    dsimp only [sessServe]
    cases hSend : o.send with
    | ok _ =>
      intro o' _
      exact ⟨(NeutralStep.refl _).snoc (neutral_appKeepalive _ _), nofun⟩
    | error err =>
      refine ⟨(NeutralStep.refl _).snoc (neutral_appKeepalive _ _), ?_⟩
      rintro x ⟨⟩
      exact exitedBy_snoc ⟨_, err, rfl⟩
  · exact ⟨NeutralStep.refl _, nofun⟩

/-- What a round has done to the log once the next frame is read. -/
def PollPost (s : Sess) : Poll → Sess → Prop
  | .exit x, s' => NeutralStep s.wire s'.wire ∧ ExitedBy x s'.wire
  | .next _, s' => NeutralStep s.wire s'.wire
  | .request _ req, s' => ∃ w raw, NeutralStep s.wire w ∧ frameRequest raw = some req ∧
      s'.wire = w ++ [.received (.ok (.binary raw))]

/-- A poll is neutral, unless it reads a request, which then is the last event.
-/
theorem wp_poll (v : SessionVars) (s : Sess) : (poll v).wp sessServe adm (PollPost s) s := by
  refine Prog.wp_bind.mpr (Prog.wp_mono (fun r s₁ h₁ => ?_) (wp_sendPing v s))
  cases r with
  | error x => exact ⟨h₁.1, h₁.2 x rfl⟩
  | ok v =>
    refine Prog.wp_bind.mpr (Prog.wp_mono (fun r s₂ h₂ => ?_) (wp_sendAppKeepalive v s₁))
    have hStep := h₁.1.trans h₂.1
    cases r with
    | error x => exact ⟨hStep, h₂.2 x rfl⟩
    | ok v =>
      intro o _
      dsimp only [sessServe]
      -- Every kind of read but a request is neutral; a timeout goes on and other errors end
      -- the session.
      cases hRead : o.read with
      | error err =>
        have hErr : Neutral (.received (.error err)) := ⟨rfl, rfl⟩
        cases hTimeout : isTimeout err with
        | true =>
          simp only [hTimeout, if_true]
          exact hStep.snoc hErr
        | false =>
          simp only [hTimeout, Bool.false_eq_true, if_false]
          exact ⟨hStep.snoc hErr, exitedBy_snoc ⟨err, hTimeout, rfl⟩⟩
      | ok m =>
        cases m with
        | binary raw =>
          cases hReq : frameRequest raw with
          | none =>
            simp only [hReq]
            exact hStep.snoc ⟨rfl, hReq⟩
          | some req =>
            simp only [hReq]
            exact ⟨s₂.wire, raw, hStep, hReq, rfl⟩
        | close => exact ⟨hStep.snoc ⟨rfl, rfl⟩, exitedBy_snoc rfl⟩
        | text t => exact hStep.snoc ⟨rfl, rfl⟩
        | ping p => exact hStep.snoc ⟨rfl, rfl⟩
        | pong p => exact hStep.snoc ⟨rfl, rfl⟩
        | frame => exact hStep.snoc ⟨rfl, rfl⟩

end Poll

-- ---------------------------------------------------------------------------
-- Delivery and its panic
-- ---------------------------------------------------------------------------

/-- The plaintext asks to show a transcript whose destination cannot be cut. -/
def Uncuttable (plaintext : Bytes) : Prop :=
  ∃ t, sentTranscript plaintext = some t ∧ destPrefix t.1 = none

/-- A transcript cannot be cut exactly if there is one that is not shown. -/
theorem uncuttable_iff {plaintext : Bytes} :
    Uncuttable plaintext ↔
      sentTranscript plaintext ≠ none ∧ shown (sentTranscript plaintext) = none := by
  unfold Uncuttable shown
  cases sentTranscript plaintext with
  | none => simp
  | some t => cases hPre : destPrefix t.1 <;> simp [hPre]

/-- Content without a sync message asks for no transcript. -/
theorem sentTranscript_of_data {plaintext : Bytes} {content : ContentProto}
    (hDecode : ContentProto.decode (stripSignalPadding plaintext) = some content)
    (hData : content.dataMessage.isSome ∨ content.syncMessage = none) :
    sentTranscript plaintext = none := by
  rcases hData with hData | hSync
  · simp [sentTranscript, hDecode, hData]
  · simp [sentTranscript, hDecode, hSync]

/-- **Delivery panics** on such a plaintext and on no other. -/
theorem wp_deliverContent_panic {adm : AppReq → Outcome → Prop} (plaintext : Bytes)
    (remoteAddr : ProtocolAddress) (serverTs : UInt64) (a : App) :
    (deliverContent plaintext remoteAddr serverTs).wp appServe adm
      (fun r _ => r = .ok () ↔ ¬Uncuttable plaintext) a := by
  -- Only a transcript is cut; a message and anything else is delivered without.
  cases hDecode : ContentProto.decode (stripSignalPadding plaintext) with
  | none =>
    have hNone : sentTranscript plaintext = none := by simp [sentTranscript, hDecode]
    simp only [deliverContent, hDecode]
    simp [Uncuttable, hNone]
  | some content =>
    obtain ⟨dataMessage, syncMessage⟩ := content
    cases dataMessage with
    | some dm =>
      have hSafe : ¬Uncuttable plaintext := by
        simp [Uncuttable, sentTranscript_of_data hDecode (.inl rfl)]
      simp only [deliverContent, hDecode, deliverMessage, hSafe, not_false_eq_true, iff_true]
      refine Prog.wp_bind.mpr (Prog.wp_bind.mpr (Prog.wp_mono (fun r b _ => ?_) Prog.wp_true))
      cases r with
      | false => exact rfl
      | true =>
        refine Prog.wp_bind.mpr (Prog.wp_mono (fun _ b _ => ?_) Prog.wp_true)
        exact fun _ _ => rfl
    | none =>
      cases syncMessage with
      | some sync =>
        refine Prog.wp_mono (fun r b h => ?_)
          (wp_deliverContent_sync ⟨sync, hDecode⟩ remoteAddr serverTs)
        rw [uncuttable_iff]
        cases hShown : shown (sentTranscript plaintext) with
        | none =>
          rw [hShown] at h
          simpa using h.2
        | some t =>
          rw [hShown] at h
          simpa using h.1
      | none =>
        have hNone := sentTranscript_of_data hDecode (.inr rfl)
        simp only [deliverContent, hDecode, deliverMessage]
        simp [Uncuttable, hNone]

-- ---------------------------------------------------------------------------
-- One request
-- ---------------------------------------------------------------------------

/-- Delivery and decryption stay off the websocket. -/
theorem wp_onApp {α : Type} {adm : SessReq → SessOutcome → Prop} {p : Prog AppResp α}
    {Q : α → App → Prop} {s : Sess} (h : p.wp appServe (fun _ _ => True) Q s.app) :
    (onApp p).wp sessServe adm (fun x s' => Q x s'.app ∧ s'.wire = s.wire) s := by
  induction p generalizing s with
  | done x => exact ⟨h, rfl⟩
  | call r k ih =>
    intro o _
    exact ih _ (s := { s with app := (appServe o.pddb r s.app).2 }) (h o.pddb trivial)

section Rounds

variable {L : Libsignal} (P : Protocol L) (localAddr : ProtocolAddress)

/-- The plaintext a request's envelope decrypts to, with its sender. -/
def requestDecrypted (req : WsRequestProto) (rng : P.Rng) (env : Env SessReq SessOutcome)
    (s : Sess) : Option Decrypted :=
  (requestEnvelope req).bind fun body =>
    ((onApp (decryptEnvelope P body localAddr rng)).run sessServe env s).1

/-- No transcript with an uncuttable destination has been decrypted. -/
def Deliverable (d : Option Decrypted) : Prop := ∀ x, d = some x → ¬Uncuttable x.plaintext

/-- Dispatching panics exactly if what was decrypted cannot be delivered, and
sends nothing. -/
theorem dispatchEnvelope_run (body : Bytes) (rng : P.Rng) (env : Env SessReq SessOutcome)
    (s : Sess) :
    (((onApp (dispatchEnvelope P body localAddr rng)).run sessServe env s).1 = .ok () ↔
      Deliverable ((onApp (decryptEnvelope P body localAddr rng)).run sessServe env s).1) ∧
    ((onApp (dispatchEnvelope P body localAddr rng)).run sessServe env s).2.wire = s.wire := by
  have hWire := (Prog.wp_run_any (wp_onApp (s := s) (p := decryptEnvelope P body localAddr rng)
    Prog.wp_true) env).2
  rw [onApp, dispatchEnvelope, Prog.interp_bind, Prog.run_bind]
  rw [onApp] at hWire ⊢
  cases hPlain : ((decryptEnvelope P body localAddr rng).interp fun r =>
      Prog.request (SessReq.app r)).run sessServe env s with
  | mk d s₁ =>
    rw [hPlain] at hWire
    cases d with
    | none => exact ⟨⟨fun _ _ h => absurd h.symm (Option.some_ne_none _), fun _ => rfl⟩, hWire⟩
    | some d =>
      have hDeliver := Prog.wp_run_any (wp_onApp (s := s₁)
        (wp_deliverContent_panic d.plaintext d.remoteAddr d.serverTs s₁.app))
        (((decryptEnvelope P body localAddr rng).interp fun r =>
          Prog.request (SessReq.app r)).left sessServe env s)
      refine ⟨hDeliver.1.trans ⟨fun h x hx => ?_, fun h => h d rfl⟩, hDeliver.2.trans hWire⟩
      rw [← Option.some.inj hx]
      exact h

/-- **One request.** It panics exactly if it decrypts such a transcript, and
otherwise sends its acknowledgement and nothing else. -/
theorem handleRequest_run (req : WsRequestProto) (rng : P.Rng) (env : Env SessReq SessOutcome)
    (s : Sess) :
    (((handleRequest P req localAddr rng).run sessServe env s).1 = .ok () ↔
      Deliverable (requestDecrypted P localAddr req rng env s)) ∧
    (((handleRequest P req localAddr rng).run sessServe env s).1 = .ok () →
      ∃ result, ((handleRequest P req localAddr rng).run sessServe env s).2.wire =
        s.wire ++ [.sent (.binary (MainWs.ack (req.id.getD 0) 200).encode) result]) := by
  unfold handleRequest requestDecrypted
  cases hBody : requestEnvelope req with
  | none => exact ⟨⟨fun _ => nofun, fun _ => rfl⟩, fun _ => ⟨_, rfl⟩⟩
  | some body =>
    obtain ⟨hPanic, hWire⟩ := dispatchEnvelope_run P localAddr body rng env s
    simp only [Prog.run_bind, Option.bind_some]
    cases hDispatch : (onApp (dispatchEnvelope P body localAddr rng)).run sessServe env s with
    | mk r s₁ =>
      rw [hDispatch] at hPanic hWire
      cases r with
      | error p => exact ⟨⟨nofun, fun h => absurd (hPanic.mpr h) nofun⟩, nofun⟩
      | ok _ => exact ⟨⟨fun _ => hPanic.mp rfl, fun _ => rfl⟩, fun _ => ⟨_, by rw [← hWire]; rfl⟩⟩

-- ---------------------------------------------------------------------------
-- Rounds and sessions
-- ---------------------------------------------------------------------------

/-- The plaintext a round decrypts, with its sender. -/
def roundDecrypted (e : RoundEnv P) (v : SessionVars) (s : Sess) : Option Decrypted :=
  match (poll v).run sessServe e.env s with
  | (.request _ req, s') =>
    requestDecrypted P localAddr req e.rng ((poll v).left sessServe e.env s) s'
  | _ => none

/-- What may be said of a session that has got this far: it has not panicked,
if it has ended its last event is why, and the requests it has read are
answered. -/
def Good : Flow × Sess → Prop
  | (.panic _, _) => False
  | (.exit x, s) => ExitedBy x s.wire ∧ Answered s.wire
  | (.next _, s) => Answered s.wire

theorem not_good_of_panic {out : Flow × Sess} {p : Panic} (h : out.1 = .panic p) : ¬Good out := by
  obtain ⟨flow, s⟩ := out
  obtain rfl : flow = .panic p := h
  exact id

/-- Either everything could be delivered and the outcome is good, or not and
the loop has panicked. -/
def GoodOrPanic (deliverable : Prop) (out : Flow × Sess) : Prop :=
  (deliverable ∧ Good out) ∨ (¬deliverable ∧ ∃ p, out.1 = .panic p)

/-- **One round.** -/
theorem round_goodOrPanic (e : RoundEnv P) (v : SessionVars) {s : Sess}
    (hAnswered : Answered s.wire) :
    GoodOrPanic (Deliverable (roundDecrypted P localAddr e v s))
      ((MainWs.round P localAddr e.rng v).run sessServe e.env s) := by
  have hPoll := Prog.wp_run_any (wp_poll v s) e.env
  unfold roundDecrypted MainWs.round
  rw [Prog.run_bind]
  cases hRun : (poll v).run sessServe e.env s with
  | mk r s₁ =>
    rw [hRun] at hPoll
    -- Only a round that has read a request dispatches anything.
    cases r with
    | exit x => exact .inl ⟨nofun, hPoll.2, hAnswered.neutral hPoll.1⟩
    | next v' => exact .inl ⟨nofun, hAnswered.neutral hPoll⟩
    | request v' req =>
      obtain ⟨w, raw, hStep, hReq, hWire⟩ := hPoll
      obtain ⟨hPanic, hAck⟩ :=
        handleRequest_run P localAddr req e.rng ((poll v).left sessServe e.env s) s₁
      dsimp only
      rw [Prog.run_bind, ← hPanic]
      cases hHandle : (handleRequest P req localAddr e.rng).run sessServe
          ((poll v).left sessServe e.env s) s₁ with
      | mk h s₂ =>
        rw [hHandle] at hAck
        cases h with
        | error p => exact .inr ⟨nofun, p, rfl⟩
        | ok _ =>
          obtain ⟨result, hWire₂⟩ := hAck rfl
          refine .inl ⟨rfl, ?_⟩
          show Answered s₂.wire
          rw [hWire₂, hWire]
          exact (hAnswered.neutral hStep).request hReq result

/-- No round of the session decrypts a plaintext it cannot deliver. -/
def AllDeliverable : List (RoundEnv P) → SessionVars → Sess → Prop
  | [], _, _ => True
  | e :: es, v, s =>
    Deliverable (roundDecrypted P localAddr e v s) ∧
      match (MainWs.round P localAddr e.rng v).run sessServe e.env s with
      | (.next v', s') => AllDeliverable es v' s'
      | _ => True

/-- The session ends well, or with the panic of the first envelope that cannot
be delivered. -/
theorem sessionLoop_goodOrPanic (rounds : List (RoundEnv P)) (v : SessionVars) {s : Sess}
    (hAnswered : Answered s.wire) :
    GoodOrPanic (AllDeliverable P localAddr rounds v s)
      (sessionLoop P localAddr rounds v s) := by
  -- Round after round, with every request answered so far.
  induction rounds generalizing v s with
  | nil => exact .inl ⟨trivial, hAnswered⟩
  | cons e es ih =>
    have hRound := round_goodOrPanic P localAddr e v hAnswered
    rw [sessionLoop, AllDeliverable]
    cases hRun : (MainWs.round P localAddr e.rng v).run sessServe e.env s with
    | mk r s' =>
      rw [hRun] at hRound
      cases r with
      | exit x =>
        rcases hRound with ⟨hDeliverable, hGood⟩ | ⟨_, p, hp⟩
        · exact .inl ⟨⟨hDeliverable, trivial⟩, hGood⟩
        · exact absurd hp nofun
      | panic p =>
        rcases hRound with ⟨_, hGood⟩ | ⟨hNot, _⟩
        · exact hGood.elim
        · exact .inr ⟨fun h => hNot h.1, p, rfl⟩
      | next v' =>
        rcases hRound with ⟨hDeliverable, hGood⟩ | ⟨_, p, hp⟩
        · rcases ih v' hGood with ⟨hRest, hEnd⟩ | ⟨hRest, hEnd⟩
          · exact .inl ⟨⟨hDeliverable, hRest⟩, hEnd⟩
          · exact .inr ⟨fun h => hRest h.2, hEnd⟩
        · exact absurd hp nofun

/-- **The receive loop.** Whatever the server sends and however storage and
libsignal answer, the session is good after any number of rounds exactly if no
round decrypts a transcript whose destination cannot be cut. -/
theorem runSession_good_iff (pingClock keepaliveClock : Nat) (rounds : List (RoundEnv P))
    (a : App) :
    Good (runSession P localAddr pingClock keepaliveClock rounds ⟨a, [], false⟩) ↔
      AllDeliverable P localAddr rounds (sessionStart pingClock keepaliveClock) ⟨a, [], false⟩ := by
  obtain ⟨hAll, hGood⟩ | ⟨hNot, p, hp⟩ := sessionLoop_goodOrPanic P localAddr rounds
    (sessionStart pingClock keepaliveClock) (s := ⟨a, [], false⟩) rfl
  · exact ⟨fun _ => hAll, fun _ => hGood⟩
  · exact ⟨fun hGood => absurd hGood (not_good_of_panic hp), fun h => absurd h hNot⟩

end Rounds

-- ---------------------------------------------------------------------------
-- A transcript that kills the worker
-- ---------------------------------------------------------------------------

/-- A server request that delivers an envelope. -/
def messageRequest (envelope : Bytes) : WsMessageProto where
  type := some wsTypeRequest
  request := some ⟨some "PUT", some "/api/v1/message", some envelope, some 7, []⟩
  response := none

/-- A round in which storage works and the message is read. -/
def readRound (m : WsMessageProto) : RoundEnv Protocol.plain :=
  ⟨(), fun _ _ => ⟨.served, 0, .ok (), .ok (.binary m.encode)⟩⟩

/-- Seven letters and one character of two bytes: byte index 8 is inside it. -/
theorem multibyte_destination_panics :
    ¬Good (runSession .plain me 0 0
      [readRound (messageRequest (ordinaryEnvelope "mallory" (transcriptContent "aaaaaaaé" "hi")))]
      ⟨emptyApp, [], false⟩) := by
  have hPanic : (runSession .plain me 0 0
      [readRound (messageRequest (ordinaryEnvelope "mallory" (transcriptContent "aaaaaaaé" "hi")))]
      ⟨emptyApp, [], false⟩).1 = .panic (.notCharBoundary "aaaaaaaé" 8) := by decide +kernel
  exact not_good_of_panic hPanic

end Sigchat.Results

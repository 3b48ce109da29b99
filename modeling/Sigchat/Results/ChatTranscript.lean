import Sigchat.Lib.Transcript
import Sigchat.Results.MainLoop
import Sigchat.Results.SealedGate

/-!
# Where the posts in the chat are from

The UI thread and the receive worker add posts to one chat, between each other's
requests. Every post can be traced back: it echoes a text that has been entered,
or it directly follows, in what the worker does, the frame that carries it. Its
text is what libsignal may decrypt the frame's envelope to; its author is the
address libsignal is called for, or, for a message that another device of the
user has sent, an arrow and the beginning of the destination.

* `dispatchEnvelope_shows` — what an envelope adds to the chat;
* `worker_explained`       — what the worker's thread does;
* `chat_explained`         — every interleaving of the two threads.
-/

namespace Sigchat.Results.ChatTranscript

open Sigchat.Lib
open Sigchat.Pddb
open Sigchat.Signal
open Sigchat.Stores
open Sigchat.Protos
open Sigchat.Accounts (UrlCrate)
open Sigchat.MainWs
open Sigchat.Process (Connected Message)
open Sigchat.Results.MainLoop (chat onPddb_shows posted wrappedMain_posts)

variable {U : UrlCrate} {L : Libsignal} {P : Protocol L}

-- ---------------------------------------------------------------------------
-- Contents
-- ---------------------------------------------------------------------------

/-- The post for a message that another device of the user has sent. -/
def syncPost (sync : SyncMessageProto) (serverTs : UInt64) : Option Post := do
  let sent ← sync.sent
  let dm ← sent.message
  if dm.body.getD "" = "" then none
  else
    (destPrefix (sent.destinationServiceId.getD "")).map fun pre =>
      ⟨"\u2192" ++ pre, dm.timestamp.getD (sent.timestamp.getD serverTs), dm.body.getD ""⟩

/-- The post for a content. -/
def contentPost (content : ContentProto) (author : String) (serverTs : UInt64) : Option Post :=
  match content.dataMessage, content.syncMessage with
  | some dm, _ =>
    if dm.body.getD "" = "" then none
    else some ⟨author, dm.timestamp.getD serverTs, dm.body.getD ""⟩
  | none, some sync => syncPost sync serverTs
  | none, none => none

/-- What is shown of a message that another device has sent. -/
theorem deliverSyncMessage_shows {sync : SyncMessageProto} {serverTs : UInt64} {es : List Post}
    {r : Except MainWs.Panic Bool} (h : (deliverSyncMessage sync serverTs).Shows chat es r) :
    es = (syncPost sync serverTs).toList := by
  unfold deliverSyncMessage at h
  unfold syncPost
  rcases hSent : sync.sent with _ | sent
  · rw [hSent] at h
    exact h.1
  rw [hSent] at h
  dsimp only at h
  rw [Option.bind_eq_bind, Option.bind_some]
  rcases hMessage : sent.message with _ | dm
  · rw [hMessage] at h
    exact h.1
  rw [hMessage] at h
  dsimp only at h
  rw [Option.bind_eq_bind, Option.bind_some]
  by_cases hEmpty : dm.body.getD "" = ""
  · rw [if_pos hEmpty] at h ⊢
    exact h.1
  rw [if_neg hEmpty] at h ⊢
  -- (cutting the destination may panic)
  rcases hPrefix : destPrefix (sent.destinationServiceId.getD "") with _ | pre
  · rw [hPrefix] at h
    exact h.1
  · rw [hPrefix] at h
    obtain ⟨x, es', rfl, rfl, -⟩ := h
    rfl

/-- What is shown of a message of either kind. -/
theorem deliverMessage_shows {content : ContentProto} {remoteAddr : ProtocolAddress}
    {serverTs : UInt64} {es : List Post} {r : Except MainWs.Panic Bool}
    (h : (deliverMessage content remoteAddr serverTs).Shows chat es r) :
    es = (contentPost content remoteAddr.name serverTs).toList := by
  unfold deliverMessage at h
  unfold contentPost
  rcases hData : content.dataMessage with _ | dm
  · rcases hSync : content.syncMessage with _ | sync
    · rw [hData, hSync] at h
      exact h.1
    · rw [hData, hSync] at h
      exact deliverSyncMessage_shows h
  · rw [hData] at h
    obtain ⟨added, es₁, es₂, rfl, hAdded, hRest⟩ := Prog.shows_bind.mp h
    unfold deliverDataMessage at hAdded
    dsimp only at hAdded ⊢
    by_cases hEmpty : dm.body.getD "" = ""
    · rw [if_pos hEmpty] at hAdded ⊢
      obtain ⟨rfl, rfl⟩ := hAdded
      exact hRest.1
    · rw [if_neg hEmpty] at hAdded ⊢
      obtain ⟨x, es', rfl, rfl, rfl⟩ := hAdded
      -- recording the sender shows nothing
      obtain ⟨y, es₃, es₄, rfl, hRecord, rfl, -⟩ := Prog.shows_bind.mp hRest
      rw [onPddb_shows hRecord]
      rfl

/-- What a plaintext says, if it says anything. -/
def plaintextPost (plaintext : Bytes) (author : String) (serverTs : UInt64) : Option Post :=
  (ContentProto.decode (stripSignalPadding plaintext)).bind fun content =>
    contentPost content author serverTs

/-- What is shown of a plaintext. -/
theorem deliverContent_shows {plaintext : Bytes} {remoteAddr : ProtocolAddress}
    {serverTs : UInt64} {es : List Post} {r : Except MainWs.Panic Unit}
    (h : (deliverContent plaintext remoteAddr serverTs).Shows chat es r) :
    es = (plaintextPost plaintext remoteAddr.name serverTs).toList := by
  unfold deliverContent at h
  unfold plaintextPost
  split at h
  · rename_i hDecode
    rw [hDecode]
    exact h.1
  · rename_i content hDecode
    rw [hDecode, Option.bind_some]
    obtain ⟨added, es₁, es₂, rfl, hMessage, hRest⟩ := Prog.shows_bind.mp h
    rw [deliverMessage_shows hMessage]
    -- the redraw that follows a post adds no other
    have hNone : es₂ = [] := by
      rcases added with p | (_ | _)
      · exact hRest.1
      · exact hRest.1
      · obtain ⟨x, es', rfl, rfl, -⟩ := hRest
        rfl
    rw [hNone, List.append_nil]

-- ---------------------------------------------------------------------------
-- Envelopes
-- ---------------------------------------------------------------------------

variable (P)

/-- The call that decrypts an envelope which names its sender, and the address
it is for. -/
def unsealedCall (e : EnvelopeProto) (content : Bytes) (localAddr : ProtocolAddress)
    (rng : P.Rng) : Option (ProtocolAddress × Call L Bytes) := do
  let dev ← DeviceId.new (e.sourceDevice.getD 1).toNat
  let addr : ProtocolAddress := ⟨e.sourceServiceId.getD "", dev⟩
  if e.type.getD 0 = envelopePrekeyBundle then
    (P.parsePreKeySignalMessage content).toOption.map fun msg =>
      (addr, P.messageDecryptPrekey msg addr localAddr rng)
  else if e.type.getD 0 = envelopeCiphertext then
    (P.parseSignalMessage content).toOption.map fun msg =>
      (addr, P.messageDecryptSignal msg addr rng)
  else none

/-- The envelope names the sender: one call, and the delivery of what it
returns. -/
theorem dispatchEnvelope_unsealed {body content : Bytes} {e : EnvelopeProto}
    (hDecode : EnvelopeProto.decode body = some e)
    (hType : e.type.getD 0 ≠ envelopeUnidentifiedSender) (hContent : e.content = some content)
    (localAddr : ProtocolAddress) (rng : P.Rng) :
    dispatchEnvelope P body localAddr rng =
      decryptAndDeliver (e.serverTimestamp.getD 0) (unsealedCall P e content localAddr rng) := by
  rw [dispatchEnvelope, decryptEnvelope, hDecode]
  dsimp only
  rw [hContent]
  dsimp only
  rw [if_neg hType, bind_assoc, unsealedCall, decryptUnsealed]
  -- without a device there is no address to decrypt for
  rcases DeviceId.new (e.sourceDevice.getD 1).toNat with _ | dev
  · rfl
  dsimp only [Option.bind_eq_bind, Option.bind_some]
  split
  · rw [decryptPrekeyMessage]
    rcases P.parsePreKeySignalMessage content with error | msg
    · rfl
    · simp only [bind_assoc]
      refine bind_congr fun r => ?_
      cases r <;> rfl
  · split
    · rw [decryptSignalMessage]
      rcases P.parseSignalMessage content with error | msg
      · rfl
      · simp only [bind_assoc]
        refine bind_congr fun r => ?_
        cases r <;> rfl
    · rfl

variable {P}

/-- The type of a sealed envelope is not the default. -/
theorem type_of_sealed {e : EnvelopeProto} (h : e.type.getD 0 = envelopeUnidentifiedSender) :
    e.type = some 6 := by
  rcases hType : e.type with _ | code
  · rw [hType] at h
    exact absurd h (by decide)
  · rw [hType] at h
    exact congrArg some h

/-- libsignal is called to decrypt an envelope, for this address. -/
inductive Calls (P : Protocol L) (e : EnvelopeProto) (localAddr : ProtocolAddress) :
    ProtocolAddress → Call L Bytes → Prop
  | sealed {content : Bytes} {usmc : P.Usmc} {addr : ProtocolAddress} {call : Call L Bytes}
      {rng : P.Rng} (hType : e.type.getD 0 = envelopeUnidentifiedSender)
      (hContent : e.content = some content)
      (hUnsealed : (P.sealedSenderDecryptToUsmc content).MayEnd (.ok usmc))
      (hCall : sealedCall P usmc localAddr (e.serverTimestamp.getD 0) rng = some (addr, call)) :
      Calls P e localAddr addr call
  | unsealed {content : Bytes} {addr : ProtocolAddress} {call : Call L Bytes} {rng : P.Rng}
      (hType : e.type.getD 0 ≠ envelopeUnidentifiedSender) (hContent : e.content = some content)
      (hCall : unsealedCall P e content localAddr rng = some (addr, call)) :
      Calls P e localAddr addr call

/-- An envelope carries a post: it is what the plaintext says that libsignal may
decrypt it to, under the address libsignal has been called for. -/
def Carries (P : Protocol L) (localAddr : ProtocolAddress) (body : Bytes) (p : Post) : Prop :=
  ∃ e addr call plaintext, EnvelopeProto.decode body = some e ∧ Calls P e localAddr addr call ∧
    call.MayEnd (.ok plaintext) ∧
    plaintextPost plaintext addr.name (e.serverTimestamp.getD 0) = some p

theorem mayEnd_of_onStores {α : Type} {call : Call L α} {es : List Post} {a : SignalResult α}
    (h : (onStores call).Shows chat es a) : es = [] ∧ call.MayEnd a :=
  ⟨onPddb_shows h, Prog.mayEnd_of_interp (Prog.mayEnd_of_interp h.mayEnd)⟩

/-- There is one post at most, of the plaintext that the call returns. -/
theorem decryptAndDeliver_shows {ts : UInt64} {c : Option (ProtocolAddress × Call L Bytes)}
    {es : List Post} {r : Except MainWs.Panic Unit}
    (h : (decryptAndDeliver ts c).Shows chat es r) :
    es = [] ∨ ∃ addr call plaintext p, c = some (addr, call) ∧ call.MayEnd (.ok plaintext) ∧
      plaintextPost plaintext addr.name ts = some p ∧ es = [p] := by
  rcases c with _ | ⟨addr, call⟩
  · exact .inl h.1
  · obtain ⟨x, es₁, es₂, rfl, hCall, hRest⟩ := Prog.shows_bind.mp h
    obtain ⟨rfl, hEnd⟩ := mayEnd_of_onStores hCall
    rcases x with e | plaintext
    · exact .inl hRest.1
    · have hPost := deliverContent_shows hRest
      rcases hSays : plaintextPost plaintext addr.name ts with _ | p
      · rw [hSays] at hPost
        exact .inl hPost
      · rw [hSays] at hPost
        exact .inr ⟨addr, call, plaintext, p, rfl, hEnd, hSays, hPost⟩

/-- **An envelope** adds nothing to the chat, or one post that it carries. -/
theorem dispatchEnvelope_shows {body : Bytes} {localAddr : ProtocolAddress} {rng : P.Rng}
    {es : List Post} {r : Except MainWs.Panic Unit}
    (h : (dispatchEnvelope P body localAddr rng).Shows chat es r) :
    es = [] ∨ ∃ p, Carries P localAddr body p ∧ es = [p] := by
  rcases hDecode : EnvelopeProto.decode body with _ | e
  · rw [dispatchEnvelope, decryptEnvelope, hDecode] at h
    exact .inl h.1
  rcases hContent : e.content with _ | content
  · rw [dispatchEnvelope, decryptEnvelope, hDecode] at h
    dsimp only at h
    rw [hContent] at h
    exact .inl h.1
  by_cases hType : e.type.getD 0 = envelopeUnidentifiedSender
  · rw [dispatchEnvelope_sealed P hDecode (type_of_sealed hType) hContent] at h
    -- a sealed message is decrypted for the sender that unsealing returns
    obtain ⟨unsealed, es₁, es₂, rfl, hUnseal, hRest⟩ := Prog.shows_bind.mp h
    obtain ⟨rfl, hEnd⟩ := mayEnd_of_onStores hUnseal
    rcases decryptAndDeliver_shows hRest with rfl | ⟨addr, call, plaintext, p, hCall, hRest⟩
    · exact .inl rfl
    · obtain ⟨hPlain, hPost, rfl⟩ := hRest
      obtain ⟨usmc, hUsmc, hCall⟩ := Option.bind_eq_some_iff.mp hCall
      rw [ok_of_toOption hUsmc] at hEnd
      exact .inr ⟨p, ⟨e, addr, call, plaintext, hDecode, .sealed hType hContent hEnd hCall, hPlain,
        hPost⟩, rfl⟩
  · rw [dispatchEnvelope_unsealed P hDecode hType hContent] at h
    rcases decryptAndDeliver_shows h with
      rfl | ⟨addr, call, plaintext, p, hCall, hPlain, hPost, rfl⟩
    · exact .inl rfl
    · exact .inr ⟨p, ⟨e, addr, call, plaintext, hDecode, .unsealed hType hContent hCall, hPlain,
        hPost⟩, rfl⟩

-- ---------------------------------------------------------------------------
-- The worker
-- ---------------------------------------------------------------------------

/-- What the threads show: frames, and posts. -/
inductive Event where
  | wire (e : WireEvent)
  | post (p : Post)

def Event.wire? : Event → Option WireEvent
  | .wire e => some e
  | .post _ => none

def Event.post? : Event → Option Post
  | .wire _ => none
  | .post p => some p

def events : (r : SessReq) → SessResp r → List Event
  | .send m, x => [.wire (.sent m x)]
  | .read, x => [.wire (.received x)]
  | .app (.postAdd author ts body), _ => [.post ⟨author, ts, body⟩]
  | _, _ => []

/-- What a program of the application shows are posts. -/
theorem onApp_shows {α : Type} {p : Prog AppResp α} {es : List Event} {a : α}
    (h : (onApp p).Shows events es a) : ∃ ps, p.Shows chat ps a ∧ es = ps.map .post := by
  induction p generalizing es with
  | done b => exact ⟨[], ⟨rfl, h.2⟩, h.1⟩
  | call r k ih =>
    obtain ⟨x, es', rfl, hRest⟩ := h
    obtain ⟨ps, hShows, rfl⟩ := ih x hRest
    have hEvents : events (.app r) x = (chat r x).map .post := by
      cases r <;> rfl
    exact ⟨chat r x ++ ps, ⟨x, ps, rfl, hShows⟩, by rw [hEvents, List.map_append]⟩

/-- A frame carries a post: it is a request with an envelope that does. -/
def FrameCarries (P : Protocol L) (localAddr : ProtocolAddress) (raw : Bytes) (p : Post) : Prop :=
  ∃ req body, frameRequest raw = some req ∧ requestEnvelope req = some body ∧
    Carries P localAddr body p

/-- Every post directly follows the frame that carries it. -/
inductive Explained (P : Protocol L) (localAddr : ProtocolAddress) : List Event → Prop
  | nil : Explained P localAddr []
  | wire (e : WireEvent) {es : List Event} (h : Explained P localAddr es) :
      Explained P localAddr (.wire e :: es)
  | post {raw : Bytes} {p : Post} {es : List Event} (hCarries : FrameCarries P localAddr raw p)
      (h : Explained P localAddr es) :
      Explained P localAddr (.wire (.received (.ok (.binary raw))) :: .post p :: es)

/-- What has been explained may be followed by more. -/
theorem Explained.append {localAddr : ProtocolAddress} {es es' : List Event}
    (h : Explained P localAddr es) (h' : Explained P localAddr es') :
    Explained P localAddr (es ++ es') := by
  induction h with
  | nil => exact h'
  | wire e h ih => exact .wire e ih
  | post hCarries h ih => exact .post hCarries ih

/-- The beginning of what has been explained is explained. -/
theorem Explained.of_prefix {localAddr : ProtocolAddress} {es es' : List Event}
    (h : Explained P localAddr es) (hPrefix : es' <+: es) : Explained P localAddr es' := by
  induction h generalizing es' with
  | nil =>
    rw [List.prefix_nil.mp hPrefix]
    exact .nil
  | wire e h ih =>
    rcases List.prefix_cons_iff.mp hPrefix with rfl | ⟨t, rfl, hTail⟩
    · exact .nil
    · exact .wire e (ih hTail)
  -- it may end between a frame and the post that the frame carries
  | post hCarries h ih =>
    rcases List.prefix_cons_iff.mp hPrefix with rfl | ⟨t, rfl, hTail⟩
    · exact .nil
    · rcases List.prefix_cons_iff.mp hTail with rfl | ⟨t', rfl, hTail'⟩
      · exact .wire _ .nil
      · exact .post hCarries (ih hTail')

/-- A request of the websocket or the clock. -/
def OnWire : SessReq → Prop
  | .app _ => False
  | _ => True

/-- A request of the connection shows what is on the wire. -/
theorem wire_of_onWire {r : SessReq} (hr : OnWire r) (x : SessResp r) :
    ∀ e ∈ events r x, ∃ w, e = .wire w := by
  intro e he
  match r with
  | .send m => exact ⟨_, List.mem_singleton.mp he⟩
  | .read => exact ⟨_, List.mem_singleton.mp he⟩
  | .elapsedMs => exact absurd he List.not_mem_nil
  | .close => exact absurd he List.not_mem_nil

/-- Frames without posts need no explanation. -/
theorem explained_of_wire {localAddr : ProtocolAddress} {es : List Event}
    (h : ∀ e ∈ es, ∃ w, e = .wire w) : Explained P localAddr es := by
  induction es with
  | nil => exact .nil
  | cons e es ih =>
    obtain ⟨⟨w, rfl⟩, hRest⟩ := List.forall_mem_cons.mp h
    exact .wire w (ih hRest)

/-- The pings are requests of the connection. -/
theorem all_sendPing (v : SessionVars) : (sendPing v).All OnWire := by
  refine ⟨trivial, fun now => ?_⟩
  dsimp only
  split
  · refine ⟨trivial, fun x => ?_⟩
    cases x with
    | ok u => exact ⟨trivial, fun _ => trivial⟩
    | error e => trivial
  · trivial

theorem all_sendAppKeepalive (v : SessionVars) : (sendAppKeepalive v).All OnWire := by
  refine ⟨trivial, fun now => ?_⟩
  dsimp only
  split
  · refine ⟨trivial, fun x => ?_⟩
    cases x with
    | ok u => exact ⟨trivial, fun _ => trivial⟩
    | error e => trivial
  · trivial

/-- What precedes the request that a round has to handle: it ends with the frame
the request is in. -/
theorem poll_shows {v : SessionVars} {es : List Event} {r : Poll}
    (h : (poll v).Shows events es r) : (∀ e ∈ es, ∃ w, e = .wire w) ∧
      ∀ v' req, r = .request v' req → ∃ es' raw,
        es = es' ++ [.wire (.received (.ok (.binary raw)))] ∧ frameRequest raw = some req := by
  obtain ⟨pinged, es₁, es₂, rfl, hPing, hRest⟩ := Prog.shows_bind.mp h
  have hFirst := hPing.forall_mem (fun r hr x => wire_of_onWire hr x) (all_sendPing v)
  -- a ping that cannot be sent ends the poll
  rcases pinged with e | v₁
  · obtain ⟨rfl, rfl⟩ := hRest
    exact ⟨by rwa [List.append_nil], fun _ _ hEq => by cases hEq⟩
  obtain ⟨checked, es₃, es₄, rfl, hCheck, hRead⟩ := Prog.shows_bind.mp hRest
  have hSecond := hCheck.forall_mem (fun r hr x => wire_of_onWire hr x) (all_sendAppKeepalive v₁)
  -- so does a keepalive
  rcases checked with e | v₂
  · obtain ⟨rfl, rfl⟩ := hRead
    refine ⟨List.forall_mem_append.mpr ⟨hFirst, by rwa [List.append_nil]⟩, fun _ _ hEq => ?_⟩
    cases hEq
  obtain ⟨x, es₅, rfl, hEnd⟩ := hRead
  -- reading the frame ends the poll
  have hPolled : es₅ = [] ∧ ∀ v' req, r = .request v' req →
      ∃ raw, x = .ok (.binary raw) ∧ frameRequest raw = some req := by
    rcases x with e | (t | raw | p | p | _ | _)
    case ok.binary =>
      dsimp only at hEnd
      obtain ⟨rfl, rfl⟩ := hEnd
      refine ⟨rfl, fun v' req hEq => ⟨raw, rfl, ?_⟩⟩
      split at hEq
      · rename_i req' hReq
        obtain ⟨-, rfl⟩ := Poll.request.inj hEq
        exact hReq
      · cases hEq
    case error =>
      dsimp only at hEnd
      obtain ⟨rfl, rfl⟩ := hEnd
      refine ⟨rfl, fun v' req hEq => ?_⟩
      split at hEq <;> cases hEq
    all_goals
      obtain ⟨rfl, rfl⟩ := hEnd
      exact ⟨rfl, fun _ _ hEq => by cases hEq⟩
  obtain ⟨rfl, hRequest⟩ := hPolled
  rw [List.append_nil]
  refine ⟨List.forall_mem_append.mpr ⟨hFirst, List.forall_mem_append.mpr ⟨hSecond, ?_⟩⟩,
    fun v' req hEq => ?_⟩
  · exact List.forall_mem_singleton.mpr ⟨_, rfl⟩
  · obtain ⟨raw, rfl, hFrame⟩ := hRequest v' req hEq
    exact ⟨es₁ ++ es₃, raw, (List.append_assoc ..).symm, hFrame⟩

theorem sendAck_shows {id : UInt64} {status : UInt32} {es : List Event} {u : Unit}
    (h : (sendAck id status).Shows events es u) : ∃ w, es = [.wire w] := by
  obtain ⟨x, es', rfl, rfl, -⟩ := h
  exact ⟨_, rfl⟩

/-- A request is handled, and then acknowledged. -/
theorem handleRequest_shows {req : WsRequestProto} {localAddr : ProtocolAddress} {rng : P.Rng}
    {es : List Event} {r : Except MainWs.Panic Unit}
    (h : (handleRequest P req localAddr rng).Shows events es r) :
    ∃ ps es', es = ps.map .post ++ es' ∧ (∀ e ∈ es', ∃ w, e = .wire w) ∧
      (ps = [] ∨ ∃ body p, requestEnvelope req = some body ∧ Carries P localAddr body p ∧
        ps = [p]) := by
  unfold handleRequest at h
  dsimp only at h
  rcases hBody : requestEnvelope req with _ | body
  -- a request without an envelope is acknowledged
  · rw [hBody] at h
    obtain ⟨u, es₁, es₂, rfl, hAck, rfl, -⟩ := Prog.shows_bind.mp h
    obtain ⟨w, rfl⟩ := sendAck_shows hAck
    exact ⟨[], _, rfl, List.forall_mem_singleton.mpr ⟨w, rfl⟩, .inl rfl⟩
  · rw [hBody] at h
    obtain ⟨d, es₁, es₂, rfl, hDispatch, hRest⟩ := Prog.shows_bind.mp h
    obtain ⟨ps, hShows, rfl⟩ := onApp_shows hDispatch
    have hPosts : ps = [] ∨ ∃ body' p, some body = some body' ∧ Carries P localAddr body' p ∧
        ps = [p] := by
      rcases dispatchEnvelope_shows hShows with hNone | ⟨p, hCarries, hOne⟩
      · exact .inl hNone
      · exact .inr ⟨body, p, rfl, hCarries, hOne⟩
    refine ⟨ps, es₂, rfl, ?_, hPosts⟩
    -- a panic leaves the request without an acknowledgement
    rcases d with p | u
    · rw [hRest.1]
      exact List.forall_mem_nil _
    · obtain ⟨u, es₁, es₂, rfl, hAck, rfl, -⟩ := Prog.shows_bind.mp hRest
      obtain ⟨w, rfl⟩ := sendAck_shows hAck
      exact List.forall_mem_singleton.mpr ⟨w, rfl⟩

/-- **One round.** -/
theorem round_explained {localAddr : ProtocolAddress} {rng : P.Rng} {v : SessionVars}
    {es : List Event} {r : Flow} (h : (round P localAddr rng v).Shows events es r) :
    Explained P localAddr es := by
  obtain ⟨polled, es₁, es₂, rfl, hPoll, hRest⟩ := Prog.shows_bind.mp h
  obtain ⟨hWire, hRequest⟩ := poll_shows hPoll
  cases polled with
  | exit e =>
    obtain ⟨x, es', rfl, rfl, -⟩ := hRest
    exact (explained_of_wire hWire).append .nil
  | next v' =>
    rw [hRest.1, List.append_nil]
    exact explained_of_wire hWire
  | request v' req =>
    -- the frame of the request was the last one of the poll
    obtain ⟨es', raw, rfl, hFrame⟩ := hRequest v' req rfl
    obtain ⟨handled, es₃, es₄, rfl, hHandle, hEnd⟩ := Prog.shows_bind.mp hRest
    have hNone : es₄ = [] := by
      cases handled with
      | error p => exact hEnd.1
      | ok u => exact hEnd.1
    obtain ⟨ps, es₅, rfl, hAck, hPosts⟩ := handleRequest_shows hHandle
    have hBefore : Explained P localAddr es' :=
      explained_of_wire fun e he => hWire e (List.mem_append_left _ he)
    rw [hNone, List.append_nil, List.append_assoc]
    refine hBefore.append ?_
    rcases hPosts with rfl | ⟨body, p, hBody, hCarries, rfl⟩
    · exact .wire _ (explained_of_wire hAck)
    · exact .post ⟨req, body, hFrame, hBody, hCarries⟩ (explained_of_wire hAck)

/-- **The rounds** of a session, by induction on them. -/
theorem receiving_explained {localAddr : ProtocolAddress} {rngs : List P.Rng} {v : SessionVars}
    {es : List Event} {r : Flow} (h : (Process.receiving P localAddr rngs v).Shows events es r) :
    Explained P localAddr es := by
  induction rngs generalizing v es with
  | nil =>
    rw [h.1]
    exact .nil
  | cons rng rngs ih =>
    obtain ⟨flow, es₁, es₂, rfl, hRound, hRest⟩ := Prog.shows_bind.mp h
    refine (round_explained hRound).append ?_
    cases flow with
    | next v' => exact ih hRest
    | exit e =>
      rw [hRest.1]
      exact .nil
    | panic p =>
      rw [hRest.1]
      exact .nil

/-- **The worker's thread.** -/
theorem worker_explained {localAddr : ProtocolAddress} {cs : List (Connected P)} {es : List Event}
    {u : Unit} (h : (Process.workerLoop P localAddr cs).Shows events es u) :
    Explained P localAddr es := by
  induction cs generalizing es with
  | nil =>
    rw [h.1]
    exact .nil
  | cons c cs ih =>
    obtain ⟨flow, es₁, es₂, rfl, hRounds, hRest⟩ := Prog.shows_bind.mp h
    refine (receiving_explained hRounds).append ?_
    cases flow with
    | exit e => exact ih hRest
    | next v' =>
      rw [hRest.1]
      exact .nil
    | panic p =>
      rw [hRest.1]
      exact .nil

-- ---------------------------------------------------------------------------
-- Both threads
-- ---------------------------------------------------------------------------

/-- The threads of the process, each with the outcomes of its requests. -/
def threads (v : Process.Visit U L) (ms : List (Message U P)) (localAddr : ProtocolAddress)
    (cs : List (Connected P)) (env : Thread → Env SessReq SessOutcome) (t : Thread) :
    Running SessResp SessOutcome :=
  ⟨if t = .ui then onApp (Process.wrappedMain v ms) >>= fun _ => .done ()
    else Process.workerLoop P localAddr cs, env t⟩

/-- Every request has answers. -/
theorem nonempty_sessResp (r : SessReq) : Nonempty (SessResp r) := by
  match r with
  | .elapsedMs => exact ⟨(0 : Nat)⟩
  | .send m => exact ⟨(.ok () : Except WsError Unit)⟩
  | .read => exact ⟨(.error .other : Except WsError Frame)⟩
  | .close => exact ⟨()⟩
  | .app (.postAdd ..) => exact ⟨()⟩
  | .app .redraw => exact ⟨()⟩
  | .app (.pddb r) => exact ⟨(serve .served r fun _ _ => none).1⟩

/-- The server keeps the posts that requests show. -/
theorem posts_logged (o : SessOutcome) (r : SessReq) (s : Sess) :
    (sessServe o r s).2.app.posts =
      s.app.posts ++ (events r (sessServe o r s).1).filterMap Event.post? := by
  match r with
  | .elapsedMs | .send m | .read | .close => exact (List.append_nil _).symm
  | .app (.postAdd ..) => rfl
  | .app .redraw | .app (.pddb r) => exact (List.append_nil _).symm

theorem wire_logged (o : SessOutcome) (r : SessReq) (s : Sess) :
    (sessServe o r s).2.wire =
      s.wire ++ (events r (sessServe o r s).1).filterMap Event.wire? := by
  match r with
  | .elapsedMs | .close => exact (List.append_nil _).symm
  | .send m | .read => rfl
  | .app (.postAdd ..) | .app .redraw | .app (.pddb r) => exact (List.append_nil _).symm

/-- **The chat, explained.** However the two threads are interleaved, whatever
their requests meet and wherever they have got: the posts that have been added
and the frames that have gone over the wire are one transcript of both, in which
the UI thread has echoed the first of the texts that were entered, in their
order, and every other post directly follows, in what the worker has done, the
frame that carries it. -/
theorem chat_explained (v : Process.Visit U L) (ms : List (Message U P))
    (localAddr : ProtocolAddress) (cs : List (Connected P))
    (env : Thread → Env SessReq SessOutcome) (sched : List Thread) (s : Sess) :
    ∃ tr : List (Thread × Event),
      (execute sessServe sched (threads v ms localAddr cs env) s).2.app.posts =
        s.app.posts ++ tr.filterMap (·.2.post?) ∧
      (execute sessServe sched (threads v ms localAddr cs env) s).2.wire =
        s.wire ++ tr.filterMap (·.2.wire?) ∧
      (∃ texts, texts <+: ms.flatMap posted ∧ shownBy .ui tr = texts.map .post) ∧
      Explained P localAddr (shownBy .mainWs tr) := by
  refine ⟨transcript sessServe events sched (threads v ms localAddr cs env) s,
    execute_log sessServe (fun s => s.app.posts) Event.post? posts_logged sched _ s,
    execute_log sessServe (fun s => s.wire) Event.wire? wire_logged sched _ s, ?_, ?_⟩
  -- the UI thread: what it has shown begins what `wrapped_main` may show
  · have hReaches := transcript_reaches sessServe events sched
      (threads v ms localAddr cs env) s .ui
    obtain ⟨rest, u, hShows⟩ := hReaches.exists_shows nonempty_sessResp
    obtain ⟨l, es₁, es₂, hEs, hMain, rfl, -⟩ := Prog.shows_bind.mp hShows
    obtain ⟨ps, hPosts, rfl⟩ := onApp_shows hMain
    obtain ⟨before, hBefore, rfl⟩ := wrappedMain_posts hPosts
    rw [List.append_nil] at hEs
    have hPrefix : shownBy .ui (transcript sessServe events sched (threads v ms localAddr cs env) s)
        <+: (ms.flatMap posted).map .post :=
      (List.prefix_append _ rest).trans (hEs ▸ (hBefore.flatMap posted).map Event.post)
    obtain ⟨texts, hTexts, hEq⟩ := List.prefix_map_iff.mp hPrefix
    exact ⟨texts, hTexts, hEq⟩
  · have hReaches := transcript_reaches sessServe events sched
      (threads v ms localAddr cs env) s .mainWs
    obtain ⟨rest, u, hShows⟩ := hReaches.exists_shows nonempty_sessResp
    exact Explained.of_prefix (worker_explained hShows) (List.prefix_append _ _)

end Sigchat.Results.ChatTranscript

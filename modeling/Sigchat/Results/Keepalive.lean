import Sigchat.Results.ReceiveLoop

/-!
# The keepalive of the application layer

A session is observed: the clock readings, the frames it sends and the results
it reads, iteration by iteration. An iteration checks whether the keepalive
request is due after its ping and before its read, by the last clock reading in
front of the request or the read; the time of a request is the reading after it.

## Results

* `round_sending`          — what one iteration does about the keepalive.
* `scheduled_later`        — from the second request on, requests are exactly
  55 seconds apart or more.
* `keepalive_schedule_iff` — the first request is sent in the first iteration if
  and only if the clock shows 55 seconds by then.
* `first_request_late`     — a session shortly after boot.
-/

namespace Sigchat.Results

open Sigchat.Lib
open Sigchat.Pddb
open Sigchat.Signal
open Sigchat.Protos
open Sigchat.MainWs

-- ---------------------------------------------------------------------------
-- Observations
-- ---------------------------------------------------------------------------

inductive SessEvent where
  | clock (ms : Nat)
  | sent (m : Frame) (result : Except WsError Unit)
  | received (result : Except WsError Frame)

def observe : (r : SessReq) → SessResp r → List SessEvent
  | .elapsedMs, ms => [.clock ms]
  | .send m, result => [.sent m result]
  | .read, result => [.received result]
  | .close, _ => []
  | .app _, _ => []

/-- The id of a request for `GET /v1/keepalive`. -/
def requestId (m : WsMessageProto) : Option UInt64 :=
  if m.type = some wsTypeRequest then
    m.request.bind fun req =>
      if req.verb = some "GET" ∧ req.path = some appKeepalivePath then req.id else none
  else none

/-- The id of the keepalive request an event sends. -/
def keepaliveId : SessEvent → Option UInt64
  | .sent (.binary raw) _ => (WsMessageProto.decode raw).bind requestId
  | _ => none

/-- The reading the check of an iteration is made by: the last one in front of
the request or of the read. -/
def checkedFrom : Option Nat → List SessEvent → Option Nat
  | _, [] => none
  | _, .clock ms :: t => checkedFrom (some ms) t
  | last, .sent m result :: t =>
    if (keepaliveId (.sent m result)).isSome then last else checkedFrom last t
  | last, .received _ :: _ => last

def checkedAt (t : List SessEvent) : Option Nat := checkedFrom none t

/-- The iteration sends a keepalive request. -/
def Sends (t : List SessEvent) : Prop := t.filterMap keepaliveId ≠ []

/-- It does so before it reads. -/
def SendsFirst (t : List SessEvent) : Prop :=
  ∃ before e after, t = before ++ e :: after ∧ (keepaliveId e).isSome ∧
    ∀ result, .received result ∉ before

/-- The time of the last keepalive request: the first reading after it. -/
structure LastSent where
  waiting : Bool
  at? : Option Nat

def LastSent.note (l : LastSent) : SessEvent → LastSent
  | .clock ms => if l.waiting then ⟨false, some ms⟩ else l
  | e => if (keepaliveId e).isSome then ⟨true, l.at?⟩ else l

def lastSent (es : List SessEvent) : LastSent := es.foldl LastSent.note ⟨false, none⟩

section Sessions

variable {L : Libsignal} (P : Protocol L) (localAddr : ProtocolAddress)

/-- What each iteration of a session shows. -/
def sessionTrace : List (RoundEnv P) → SessionVars → Sess → List (List SessEvent)
  | [], _, _ => []
  | e :: es, v, s =>
    (MainWs.round P localAddr e.rng v).trace sessServe observe e.env s ::
      match (MainWs.round P localAddr e.rng v).run sessServe e.env s with
      | (.next v', s') => sessionTrace es v' s'
      | _ => []

/-- **The schedule.** The first iteration sends a request before it reads; a
later one sends one exactly when 55 seconds have passed since the last; and the
`n`-th request carries id `n`. -/
structure Scheduled (trace : List (List SessEvent)) : Prop where
  first : ∀ t ∈ trace.head?, SendsFirst t
  later : ∀ before t after, trace = before ++ t :: after →
    ∀ last, (lastSent before.flatten).at? = some last →
      (Sends t ↔ ∃ ms, checkedAt t = some ms ∧ last + appKeepaliveMs ≤ ms)
  ids : ∃ n, trace.flatten.filterMap keepaliveId =
    (List.range' 1 n).map UInt64.ofNat

end Sessions

-- ---------------------------------------------------------------------------
-- Keepalive requests and other events
-- ---------------------------------------------------------------------------

/-- An application keepalive is recognised in the trace, with the id it was sent
under. -/
theorem keepaliveId_appKeepalive (id : UInt64) (result : Except WsError Unit) :
    keepaliveId (.sent (.binary (appKeepalive id).encode) result) = some id := by
  simp only [keepaliveId, decode_appKeepalive]
  rfl

/-- The acknowledgement of a request is not taken for a keepalive. -/
theorem keepaliveId_ack (id : UInt64) (result : Except WsError Unit) :
    keepaliveId (.sent (.binary (MainWs.ack id 200).encode) result) = none := by
  simp only [keepaliveId, decode_ack]
  rfl

/-- No keepalive request, and nothing that is read. -/
def Quiet (es : List SessEvent) : Prop :=
  ∀ e ∈ es, keepaliveId e = none ∧ ∀ result, e ≠ .received result

/-- What an iteration shows from its read on. -/
def FromRead (es : List SessEvent) : Prop :=
  ∃ result acks, es = .received result :: acks ∧
    ∀ e ∈ acks, keepaliveId e = none ∧ ∀ ms, e ≠ .clock ms

theorem Quiet.append {es es' : List SessEvent} (h : Quiet es) (h' : Quiet es') :
    Quiet (es ++ es') :=
  List.forall_mem_append.mpr ⟨h, h'⟩

theorem filterMap_of_none {es : List SessEvent} (h : ∀ e ∈ es, keepaliveId e = none) :
    es.filterMap keepaliveId = [] := List.filterMap_eq_nil_iff.mpr h

theorem Quiet.ids {es : List SessEvent} (h : Quiet es) : es.filterMap keepaliveId = [] :=
  filterMap_of_none fun e he => (h e he).1

/-- A read and the acknowledgements after it hold no keepalive. -/
theorem FromRead.quiet {es : List SessEvent} (h : FromRead es) :
    ∀ e ∈ es, keepaliveId e = none := by
  obtain ⟨result, acks, rfl, hAcks⟩ := h
  exact List.forall_mem_cons.mpr ⟨rfl, fun e he => (hAcks e he).1⟩

/-- A quiet stretch has clock readings but no read, so no check is found in it.
-/
theorem Quiet.checkedFrom {es : List SessEvent} (h : Quiet es) (last : Option Nat) :
    checkedFrom last es = none := by
  induction es generalizing last with
  | nil => rfl
  | cons e es ih =>
    obtain ⟨⟨hId, hRead⟩, hRest⟩ := List.forall_mem_cons.mp h
    cases e with
    | clock ms => exact ih hRest (some ms)
    | sent m result =>
      rw [Results.checkedFrom, hId]
      exact ih hRest last
    | received result => exact absurd rfl (hRead result)

/-- The check is the last clock reading before the read or the keepalive,
whatever came earlier in the stretch. -/
theorem Quiet.checkedFrom_append {es : List SessEvent} (h : Quiet es) (last : Option Nat) (ms : Nat)
    (t : List SessEvent) :
    Results.checkedFrom last (es ++ .clock ms :: t) = Results.checkedFrom (some ms) t := by
  induction es generalizing last with
  | nil => rfl
  | cons e es ih =>
    obtain ⟨⟨hId, hRead⟩, hRest⟩ := List.forall_mem_cons.mp h
    cases e with
    | clock ms' => exact ih hRest (some ms')
    | sent m result =>
      rw [List.cons_append, Results.checkedFrom, hId]
      exact ih hRest last
    | received result => exact absurd rfl (hRead result)

theorem FromRead.clock_quiet {es : List SessEvent} (h : FromRead es) (ms : Nat) :
    ∀ e ∈ .clock ms :: es, keepaliveId e = none :=
  List.forall_mem_cons.mpr ⟨rfl, h.quiet⟩

/-- At the read the clock reading that was carried along is the one of the
check. -/
theorem FromRead.checkedFrom {es : List SessEvent} (h : FromRead es) (last : Option Nat) :
    Results.checkedFrom last es = last := by
  obtain ⟨result, acks, rfl, -⟩ := h
  rfl

/-- At a keepalive the clock reading that was carried along is the one of the
check. -/
theorem checkedFrom_keepalive (last : Option Nat) (id : UInt64) (result : Except WsError Unit)
    (t : List SessEvent) :
    checkedFrom last (.sent (.binary (appKeepalive id).encode) result :: t) = last := by
  rw [checkedFrom, keepaliveId_appKeepalive]
  rfl

/-- Without a request, and with none waiting for its time, there is nothing to
note. -/
theorem foldl_note {es : List SessEvent} (h : ∀ e ∈ es, keepaliveId e = none) (at? : Option Nat) :
    es.foldl LastSent.note ⟨false, at?⟩ = ⟨false, at?⟩ := by
  induction es with
  | nil => rfl
  | cons e es ih =>
    obtain ⟨hId, hRest⟩ := List.forall_mem_cons.mp h
    have hNote : LastSent.note ⟨false, at?⟩ e = ⟨false, at?⟩ := by
      cases e with
      | clock ms => rfl
      | sent m result => rw [LastSent.note, hId]; rfl; nofun
      | received result => rfl
    rw [List.foldl_cons, hNote, ih hRest]

/-- After a keepalive the next clock reading is the time of its sending. -/
theorem note_keepalive (l : LastSent) (id : UInt64) (result : Except WsError Unit) :
    l.note (.sent (.binary (appKeepalive id).encode) result) = ⟨true, l.at?⟩ := by
  rw [LastSent.note, keepaliveId_appKeepalive]
  · rfl
  · exact fun _ h => nomatch h

/-- The time of the last keepalive is computed event by event, so it can be
carried over the rounds. -/
theorem lastSent_append (past t : List SessEvent) :
    lastSent (past ++ t) = t.foldl LastSent.note (lastSent past) := List.foldl_append

-- ---------------------------------------------------------------------------
-- One iteration
-- ---------------------------------------------------------------------------

/-- What an iteration that starts with the variables `v` does about the
keepalive, and those the next starts with: the ping stops it, or its check finds
the request due or not. -/
inductive Sending (v : SessionVars) : List SessEvent → Option SessionVars → Prop where
  | stopped {t : List SessEvent} (hQuiet : Quiet t) : Sending v t none
  | idle {before rest : List SessEvent} {ms : Nat} {next : Option SessionVars}
      (hBefore : Quiet before) (hEarly : ms < v.lastAppKeepaliveMs + appKeepaliveMs)
      (hRest : FromRead rest)
      (hNext : ∀ v' ∈ next,
        v'.lastAppKeepaliveMs = v.lastAppKeepaliveMs ∧ v'.nextRequestId = v.nextRequestId) :
      Sending v (before ++ .clock ms :: rest) next
  | failed {before : List SessEvent} {ms : Nat} {err : WsError} (hBefore : Quiet before)
      (hDue : v.lastAppKeepaliveMs + appKeepaliveMs ≤ ms) :
      Sending v (before ++ .clock ms ::
        [.sent (.binary (appKeepalive v.nextRequestId).encode) (.error err)]) none
  | sent {before rest : List SessEvent} {ms sentMs : Nat} {next : Option SessionVars}
      (hBefore : Quiet before) (hDue : v.lastAppKeepaliveMs + appKeepaliveMs ≤ ms)
      (hRest : FromRead rest)
      (hNext : ∀ v' ∈ next,
        v'.lastAppKeepaliveMs = sentMs ∧ v'.nextRequestId = v.nextRequestId + 1) :
      Sending v (before ++ .clock ms ::
        .sent (.binary (appKeepalive v.nextRequestId).encode) (.ok ()) ::
          .clock sentMs :: rest) next

/-- With a subtraction that saturates, the interval has passed exactly if the
clock has reached the last sending plus the interval. -/
theorem due_iff {now last : Nat} : appKeepaliveMs ≤ now - last ↔ last + appKeepaliveMs ≤ now := by
  unfold appKeepaliveMs
  omega

/-- The websocket ping shows no keepalive and leaves the keepalive's own
variables alone. -/
theorem sendPing_shows {v : SessionVars} {es : List SessEvent} {r : Except Exit SessionVars}
    (h : (sendPing v).Shows observe es r) :
    Quiet es ∧ ∀ v', r = .ok v' →
      v'.lastAppKeepaliveMs = v.lastAppKeepaliveMs ∧ v'.nextRequestId = v.nextRequestId := by
  obtain ⟨now, es', rfl, h⟩ := h
  dsimp only at h
  split at h
  · obtain ⟨result, es', rfl, h⟩ := h
    rcases result with err | u
    · obtain ⟨rfl, rfl⟩ := h
      refine ⟨?_, fun v' hv => nomatch hv⟩
      simp [Quiet, observe, keepaliveId]
    · obtain ⟨after, es', rfl, rfl, rfl⟩ := h
      refine ⟨?_, fun v' hv => ?_⟩
      · simp [Quiet, observe, keepaliveId]
      · obtain rfl := Except.ok.inj hv
        exact ⟨rfl, rfl⟩
  · obtain ⟨rfl, rfl⟩ := h
    refine ⟨?_, fun v' hv => ?_⟩
    · simp [Quiet, observe, keepaliveId]
    · obtain rfl := Except.ok.inj hv
      exact ⟨rfl, rfl⟩

/-- The check and what it leads to. -/
theorem sendAppKeepalive_shows {v : SessionVars} {es : List SessEvent}
    {r : Except Exit SessionVars} (h : (sendAppKeepalive v).Shows observe es r) :
    ∃ ms, (ms < v.lastAppKeepaliveMs + appKeepaliveMs ∧ es = [.clock ms] ∧ r = .ok v) ∨
      (v.lastAppKeepaliveMs + appKeepaliveMs ≤ ms ∧
        ((∃ err, es = [.clock ms,
            .sent (.binary (appKeepalive v.nextRequestId).encode) (.error err)] ∧
          r = .error .appKeepaliveFailed) ∨
        ∃ sentMs, es = [.clock ms,
            .sent (.binary (appKeepalive v.nextRequestId).encode) (.ok ()), .clock sentMs] ∧
          r = .ok { v with
            lastAppKeepaliveMs := sentMs
            nextRequestId := v.nextRequestId + 1 })) := by
  obtain ⟨ms, es', rfl, h⟩ := h
  refine ⟨ms, ?_⟩
  dsimp only at h
  split at h
  case isTrue hDue =>
    refine .inr ⟨due_iff.mp hDue, ?_⟩
    obtain ⟨result, es', rfl, h⟩ := h
    rcases result with err | u
    · obtain ⟨rfl, rfl⟩ := h
      exact .inl ⟨err, rfl, rfl⟩
    · obtain ⟨sentMs, es', rfl, rfl, rfl⟩ := h
      exact .inr ⟨sentMs, rfl, rfl⟩
  case isFalse hEarly =>
    obtain ⟨rfl, rfl⟩ := h
    rw [due_iff] at hEarly
    exact .inl ⟨Nat.lt_of_not_le hEarly, rfl, rfl⟩

/-- The variables the round goes on with. -/
def pollVars : Poll → Option SessionVars
  | .exit _ => none
  | .next v | .request v _ => some v

/-- What one poll shows: the ping, the check, the keepalive if it is due, and
the read if nothing has failed. -/
theorem poll_shows {v : SessionVars} {es : List SessEvent} {r : Poll}
    (h : (poll v).Shows observe es r) : Sending v es (pollVars r) := by
  obtain ⟨r₁, es₁, es', rfl, hPing, h⟩ := Prog.shows_bind.mp h
  obtain ⟨hQuiet, hPinged⟩ := sendPing_shows hPing
  rcases r₁ with e | v₁
  · obtain ⟨rfl, rfl⟩ := h
    rw [List.append_nil]
    exact .stopped hQuiet
  obtain ⟨hLast, hId⟩ := hPinged v₁ rfl
  obtain ⟨r₂, es₂, es', rfl, hCheck, hLater⟩ := Prog.shows_bind.mp h
  obtain ⟨ms, hChecked⟩ := sendAppKeepalive_shows hCheck
  rw [hLast, hId] at hChecked
  -- the read that follows a request that is not due, or has been sent
  have hRead : ∀ v₂, r₂ = .ok v₂ →
      ∃ result, es' = [.received result] ∧ ∀ v' ∈ pollVars r, v' = v₂ := by
    rintro v₂ rfl
    obtain ⟨result, es'', rfl, hEnd⟩ := hLater
    dsimp only at hEnd
    refine ⟨result, ?_⟩
    split at hEnd
    · obtain ⟨rfl, rfl⟩ := hEnd
      refine ⟨rfl, fun v' hv' => ?_⟩
      split at hv' <;> exact (Option.some.inj hv').symm
    · obtain ⟨rfl, rfl⟩ := hEnd
      exact ⟨rfl, fun v' hv' => nomatch hv'⟩
    · obtain ⟨rfl, rfl⟩ := hEnd
      exact ⟨rfl, fun v' hv' => (Option.some.inj hv').symm⟩
    · obtain ⟨rfl, rfl⟩ := hEnd
      refine ⟨rfl, fun v' hv' => ?_⟩
      split at hv'
      · exact (Option.some.inj hv').symm
      · exact nomatch hv'
  -- Not due, due and failed, due and sent: one constructor of `Sending` each.
  rcases hChecked with ⟨hEarly, rfl, rfl⟩ | ⟨hDue, ⟨err, rfl, rfl⟩ | ⟨sentMs, rfl, rfl⟩⟩
  · obtain ⟨result, rfl, hVars⟩ := hRead v₁ rfl
    refine .idle hQuiet hEarly ⟨result, [], rfl, fun _ h => nomatch h⟩ fun v' hv' => ?_
    rw [hVars v' hv']
    exact ⟨hLast, hId⟩
  · obtain ⟨rfl, rfl⟩ := hLater
    rw [List.append_nil]
    exact .failed hQuiet hDue
  · obtain ⟨result, rfl, hVars⟩ := hRead _ rfl
    refine .sent hQuiet hDue ⟨result, [], rfl, fun _ h => nomatch h⟩ fun v' hv' => ?_
    rw [hVars v' hv']
    exact ⟨rfl, rfl⟩

section Rounds

variable {L : Libsignal} {P : Protocol L} {localAddr : ProtocolAddress}

/-- Work on the PDDB and the chat shows nothing on the websocket. -/
theorem onApp_shows {α : Type} {p : Prog AppResp α} {es : List SessEvent} {a : α}
    (h : (onApp p).Shows observe es a) : es = [] := by
  have hApp : ∀ q, (Prog.request (.app q) : Prog SessResp _).All fun r => ∃ q, r = .app q :=
    fun q => ⟨⟨q, rfl⟩, fun _ => trivial⟩
  refine Prog.Shows.eq_nil (P := fun r => ∃ q, r = .app q) ?_ (Prog.All.interp hApp p) h
  rintro _ ⟨q, rfl⟩ x
  rfl

/-- A request is handled without the clock and without keepalive requests. -/
theorem handleRequest_shows {req : WsRequestProto} {rng : P.Rng} {es : List SessEvent}
    {r : Except Panic Unit} (h : (handleRequest P req localAddr rng).Shows observe es r) :
    ∀ e ∈ es, keepaliveId e = none ∧ ∀ ms, e ≠ .clock ms := by
  -- Both branches that go on end in the acknowledgement.
  have hAck : ∀ {es r}, (do sendAck (req.id.getD 0) 200; return .ok () :
      Prog SessResp (Except Panic Unit)).Shows observe es r →
      ∀ e ∈ es, keepaliveId e = none ∧ ∀ ms, e ≠ .clock ms := by
    rintro es r ⟨result, es', rfl, rfl, rfl⟩
    refine List.forall_mem_singleton.mpr ⟨keepaliveId_ack _ _, fun ms h => nomatch h⟩
  unfold handleRequest at h
  split at h
  · obtain ⟨d, es₁, es₂, rfl, hDispatch, h⟩ := Prog.shows_bind.mp h
    rw [onApp_shows hDispatch]
    rcases d with p | u
    · obtain ⟨rfl, rfl⟩ := h
      exact fun _ he => nomatch he
    · exact hAck h
  · exact hAck h

/-- What a round shows after its read belongs to the same constructor, as it
holds neither keepalives nor clock readings. -/
theorem Sending.append {v v' : SessionVars} {t es : List SessEvent} {next : Option SessionVars}
    (h : Sending v t (some v')) (hEs : ∀ e ∈ es, keepaliveId e = none ∧ ∀ ms, e ≠ .clock ms)
    (hNext : ∀ v'' ∈ next, v'' = v') : Sending v (t ++ es) next := by
  cases h with
  | idle hBefore hEarly hRest hKeeps =>
    obtain ⟨result, acks, rfl, hAcks⟩ := hRest
    rw [List.append_assoc]
    refine .idle hBefore hEarly ⟨result, acks ++ es, rfl, ?_⟩ fun v'' hv'' => ?_
    · exact List.forall_mem_append.mpr ⟨hAcks, hEs⟩
    · rw [hNext v'' hv'']
      exact hKeeps v' rfl
  | sent hBefore hDue hRest hKeeps =>
    obtain ⟨result, acks, rfl, hAcks⟩ := hRest
    rw [List.append_assoc]
    refine .sent hBefore hDue ⟨result, acks ++ es, rfl, ?_⟩ fun v'' hv'' => ?_
    · exact List.forall_mem_append.mpr ⟨hAcks, hEs⟩
    · rw [hNext v'' hv'']
      exact hKeeps v' rfl

/-- The variables the session goes on with. -/
def flowVars : Flow → Option SessionVars
  | .next v => some v
  | .exit _ | .panic _ => none

/-- **One iteration.** -/
theorem round_sending {v : SessionVars} {rng : P.Rng} {es : List SessEvent} {flow : Flow}
    (h : (MainWs.round P localAddr rng v).Shows observe es flow) :
    Sending v es (flowVars flow) := by
  obtain ⟨r, es₁, es₂, rfl, hPoll, h⟩ := Prog.shows_bind.mp h
  have hSending := poll_shows hPoll
  -- Only a request leaves something to show after the poll.
  cases r with
  | exit e =>
    obtain ⟨_, es', rfl, rfl, rfl⟩ := h
    rw [List.append_nil]
    exact hSending
  | next v' =>
    obtain ⟨rfl, rfl⟩ := h
    rw [List.append_nil]
    exact hSending
  | request v' req =>
    obtain ⟨handled, es₂, es₃, rfl, hHandle, h⟩ := Prog.shows_bind.mp h
    rcases handled with p | u
    · obtain ⟨rfl, rfl⟩ := h
      rw [List.append_nil]
      exact hSending.append (handleRequest_shows hHandle) fun _ h => nomatch h
    · obtain ⟨rfl, rfl⟩ := h
      rw [List.append_nil]
      exact hSending.append (handleRequest_shows hHandle) fun _ h => (Option.some.inj h).symm

end Rounds

-- ---------------------------------------------------------------------------
-- What is seen of it
-- ---------------------------------------------------------------------------

section Seen

variable {v v' : SessionVars} {t : List SessEvent} {next : Option SessionVars}

/-- The check found the request due. -/
def Due (v : SessionVars) (t : List SessEvent) : Prop :=
  ∃ ms, checkedAt t = some ms ∧ v.lastAppKeepaliveMs + appKeepaliveMs ≤ ms

/-- A request behind the reading of its check. -/
theorem sent_seen {before tail : List SessEvent} {ms : Nat} {id : UInt64}
    {result : Except WsError Unit} (hBefore : Quiet before)
    (hTail : ∀ e ∈ tail, keepaliveId e = none) (t : List SessEvent)
    (hShape : t = before ++ .clock ms :: .sent (.binary (appKeepalive id).encode) result :: tail) :
    checkedAt t = some ms ∧ t.filterMap keepaliveId = [id] ∧ SendsFirst t := by
  subst hShape
  have hId := keepaliveId_appKeepalive id result
  -- The clock reading of the check, the ids, and that nothing is read before the keepalive.
  refine ⟨?_, ?_, before ++ [.clock ms], .sent (.binary (appKeepalive id).encode) result, tail, ?_,
    ?_, fun result hMem => ?_⟩
  · rw [checkedAt, hBefore.checkedFrom_append, checkedFrom_keepalive]
  · rw [List.filterMap_append, hBefore.ids, List.nil_append, List.filterMap_cons_none rfl,
      List.filterMap_cons_some hId, filterMap_of_none hTail]
  · rw [List.append_assoc]
    rfl
  · rw [hId]
    rfl
  · rcases List.mem_append.mp hMem with hMem | hMem
    · exact (hBefore _ hMem).2 result rfl
    · cases List.mem_singleton.mp hMem

/-- An iteration sends its request if its check finds it due, and then before
the read. -/
theorem Sending.seen (h : Sending v t next) :
    (Due v t ∧ t.filterMap keepaliveId = [v.nextRequestId] ∧ SendsFirst t) ∨
      (¬ Due v t ∧ t.filterMap keepaliveId = []) := by
  cases h with
  | stopped hQuiet =>
    refine .inr ⟨?_, hQuiet.ids⟩
    rintro ⟨ms, hChecked, -⟩
    rw [checkedAt, hQuiet.checkedFrom] at hChecked
    cases hChecked
  | idle hBefore hEarly hRest hNext =>
    refine .inr ⟨?_, ?_⟩
    · rintro ⟨ms, hChecked, hDue⟩
      rw [checkedAt, hBefore.checkedFrom_append, hRest.checkedFrom] at hChecked
      obtain rfl := Option.some.inj hChecked
      omega
    · rw [List.filterMap_append, hBefore.ids, List.nil_append, List.filterMap_cons_none rfl]
      exact filterMap_of_none hRest.quiet
  | failed hBefore hDue =>
    obtain ⟨hChecked, hIds, hFirst⟩ := sent_seen hBefore (List.forall_mem_nil _) _ rfl
    exact .inl ⟨⟨_, hChecked, hDue⟩, hIds, hFirst⟩
  | sent hBefore hDue hRest hNext =>
    obtain ⟨hChecked, hIds, hFirst⟩ := sent_seen hBefore (hRest.clock_quiet _) _ rfl
    exact .inl ⟨⟨_, hChecked, hDue⟩, hIds, hFirst⟩

/-- A round sends a keepalive exactly if its check finds one due. -/
theorem Sending.sends_iff (h : Sending v t next) : Sends t ↔ Due v t := by
  unfold Sends
  obtain ⟨hDue, hIds, -⟩ | ⟨hNot, hIds⟩ := h.seen
  · rw [hIds]
    exact ⟨fun _ => hDue, fun _ => List.cons_ne_nil _ _⟩
  · rw [hIds]
    exact ⟨fun h => absurd rfl h, fun h => absurd h hNot⟩

/-- A round that sends a keepalive sends it before it reads. -/
theorem Sending.sendsFirst_iff (h : Sending v t next) : SendsFirst t ↔ Due v t := by
  obtain ⟨hDue, -, hFirst⟩ | ⟨hNot, hIds⟩ := h.seen
  · exact ⟨fun _ => hDue, fun _ => hFirst⟩
  · refine ⟨?_, fun h => absurd h hNot⟩
    rintro ⟨before, e, after, rfl, hId, -⟩
    have hNone := List.filterMap_eq_nil_iff.mp hIds e
      (List.mem_append_right before List.mem_cons_self)
    rw [hNone] at hId
    cases hId

/-- What has been seen of a session that has got to the variables `v`. -/
structure Past (past : List SessEvent) (v : SessionVars) : Prop where
  lastSent : lastSent past = ⟨false, none⟩ ∨ lastSent past = ⟨false, some v.lastAppKeepaliveMs⟩
  ids : ∃ n, past.filterMap keepaliveId = (List.range' 1 n).map UInt64.ofNat ∧
    v.nextRequestId = UInt64.ofNat (n + 1)

/-- **Step.** -/
theorem Past.step {past : List SessEvent} (hPast : Past past v) (h : Sending v t (some v')) :
    Past (past ++ t) v' := by
  obtain ⟨n, hIds, hNext⟩ := hPast.ids
  -- The session goes on only from a round that has sent nothing or has sent successfully.
  cases h with
  | @idle before rest ms _ hBefore hEarly hRest hKeeps =>
    obtain ⟨hLast, hId⟩ := hKeeps v' rfl
    have hNone := List.forall_mem_append.mpr
      ⟨fun e he => (hBefore e he).1, hRest.clock_quiet ms⟩
    refine ⟨?_, n, ?_, hId.trans hNext⟩
    · rw [lastSent_append, hLast]
      rcases hPast.lastSent with hNever | hAt
      · rw [hNever]
        exact .inl (foldl_note hNone none)
      · rw [hAt]
        exact .inr (foldl_note hNone _)
    · rw [List.filterMap_append, filterMap_of_none hNone, List.append_nil, hIds]
  | @sent before rest ms sentMs _ hBefore hDue hRest hKeeps =>
    obtain ⟨hLast, hId⟩ := hKeeps v' rfl
    -- The clock is read again after a sending, and that reading is what the session
    -- remembers.
    have hNote : ∀ at?, (before ++ .clock ms ::
        .sent (.binary (appKeepalive v.nextRequestId).encode) (.ok ()) :: .clock sentMs ::
          rest).foldl LastSent.note ⟨false, at?⟩ = ⟨false, some sentMs⟩ := by
      intro at?
      rw [List.foldl_append, foldl_note fun e he => (hBefore e he).1, List.foldl_cons,
        List.foldl_cons, note_keepalive]
      exact foldl_note hRest.quiet (some sentMs)
    obtain ⟨-, hSentIds, -⟩ := sent_seen hBefore (hRest.clock_quiet sentMs) _ rfl
    refine ⟨.inr ?_, n + 1, ?_, ?_⟩
    · rw [lastSent_append, hLast]
      rcases hPast.lastSent with hNever | hAt
      · rw [hNever, hNote]
      · rw [hAt, hNote]
    · rw [List.filterMap_append, hSentIds, hIds, hNext, List.range'_1_concat, List.map_append,
        Nat.add_comm 1 n]
      rfl
    · rw [hId, hNext]
      exact (UInt64.ofNat_add (n + 1) 1).symm

end Seen

-- ---------------------------------------------------------------------------
-- Sessions
-- ---------------------------------------------------------------------------

section Sessions

variable {L : Libsignal} {P : Protocol L} {localAddr : ProtocolAddress}

theorem trace_sending (localAddr : ProtocolAddress) (e : RoundEnv P) (v : SessionVars) (s : Sess) :
    Sending v ((MainWs.round P localAddr e.rng v).trace sessServe observe e.env s)
      (flowVars ((MainWs.round P localAddr e.rng v).run sessServe e.env s).1) :=
  round_sending (Prog.shows_run sessServe observe _ e.env s)

/-- **Run.** Of two requests that follow each other the second is sent in the
first iteration whose check finds 55 seconds gone. -/
theorem scheduled_later (rounds : List (RoundEnv P)) {v : SessionVars} {s : Sess}
    {past : List SessEvent} (hPast : Past past v) {before after : List (List SessEvent)}
    {t : List SessEvent} (hSplit : sessionTrace P localAddr rounds v s = before ++ t :: after)
    {last : Nat} (hLast : (lastSent (past ++ before.flatten)).at? = some last) :
    Sends t ↔ ∃ ms, checkedAt t = some ms ∧ last + appKeepaliveMs ≤ ms := by
  -- Over the rounds; the invariant says what the past has sent and that the session's
  -- variables agree with it.
  induction rounds generalizing v s past before with
  | nil => exact absurd hSplit.symm (List.append_ne_nil_of_right_ne_nil _ (List.cons_ne_nil _ _))
  | cons e es ih =>
    have hSending := trace_sending localAddr e v s
    rw [sessionTrace] at hSplit
    cases before with
    | nil =>
      obtain ⟨rfl, -⟩ := List.cons.inj hSplit
      rw [hSending.sends_iff, Due]
      rw [List.flatten_nil, List.append_nil] at hLast
      rcases hPast.lastSent with hNever | hAt
      · rw [hNever] at hLast
        cases hLast
      · rw [hAt] at hLast
        rw [Option.some.inj hLast]
    | cons t₀ before =>
      obtain ⟨rfl, hTail⟩ := List.cons.inj hSplit
      rw [List.flatten_cons, ← List.append_assoc] at hLast
      split at hTail
      case h_1 v' s' hRun =>
        rw [hRun] at hSending
        exact ih (hPast.step hSending) hTail hLast
      case h_2 =>
        exact absurd hTail.symm (List.append_ne_nil_of_right_ne_nil _ (List.cons_ne_nil _ _))

/-- The requests are numbered from one on. -/
theorem Past.ids_after {v : SessionVars} {t past : List SessEvent} {next : Option SessionVars}
    (hPast : Past past v) (h : Sending v t next) :
    ∃ n, (past ++ t).filterMap keepaliveId = (List.range' 1 n).map UInt64.ofNat := by
  obtain ⟨n, hIds, hNext⟩ := hPast.ids
  rw [List.filterMap_append, hIds]
  obtain ⟨-, hSent, -⟩ | ⟨-, hNone⟩ := h.seen
  · refine ⟨n + 1, ?_⟩
    rw [hSent, hNext, List.range'_1_concat, List.map_append, Nat.add_comm 1 n]
    rfl
  · exact ⟨n, by rw [hNone, List.append_nil]⟩

/-- The ids of the keepalives count up from one, over any number of rounds. -/
theorem scheduled_ids (rounds : List (RoundEnv P)) {v : SessionVars} {s : Sess}
    {past : List SessEvent} (hPast : Past past v) :
    ∃ n, (past ++ (sessionTrace P localAddr rounds v s).flatten).filterMap keepaliveId =
      (List.range' 1 n).map UInt64.ofNat := by
  induction rounds generalizing v s past with
  | nil =>
    obtain ⟨n, hIds, -⟩ := hPast.ids
    exact ⟨n, by rw [sessionTrace, List.flatten_nil, List.append_nil, hIds]⟩
  | cons e es ih =>
    have hSending := trace_sending localAddr e v s
    rw [sessionTrace, List.flatten_cons, ← List.append_assoc]
    split
    case h_1 v' s' hRun =>
      rw [hRun] at hSending
      exact ih (hPast.step hSending)
    case h_2 =>
      rw [List.flatten_nil, List.append_nil]
      exact hPast.ids_after hSending

/-- The reading the first iteration checks by: the one after its ping, if that
is due, and else the second. -/
def firstCheck (e : RoundEnv P) (pingClock : Nat) : Option Nat :=
  if keepaliveMs ≤ (e.env 0 .elapsedMs).clock - pingClock then
    match (e.env 1 (.send (.ping []))).send with
    | .ok () => some (e.env 3 .elapsedMs).clock
    | .error _ => none
  else some (e.env 1 .elapsedMs).clock

/-- The reading behind the ping decides, if a read follows a request that is not
due. -/
theorem checkedFrom_check {β : Type} {k : Except Exit SessionVars → Prog SessResp β}
    (hRead : ∀ v env s last es,
      checkedFrom last ((k (.ok v)).trace sessServe observe env s ++ es) = last)
    (v : SessionVars) (env : Env SessReq SessOutcome) (s : Sess) (last : Option Nat)
    (es : List SessEvent) :
    checkedFrom last ((sendAppKeepalive v >>= k).trace sessServe observe env s ++ es) =
      some (env 0 .elapsedMs).clock := by
  simp only [sendAppKeepalive, Prog.call_bind, Prog.trace_call, observe, List.cons_append,
    checkedFrom]
  split
  · exact checkedFrom_keepalive _ _ _ _
  · exact hRead _ _ _ _ _

section Ping

variable {v : SessionVars} {env : Env SessReq SessOutcome} {s : Sess}

/-- A ping that is not due. -/
theorem sendPing_early (hEarly : ¬keepaliveMs ≤ (env 0 .elapsedMs).clock - v.lastPingMs) :
    (sendPing v).trace sessServe observe env s = [.clock (env 0 .elapsedMs).clock] ∧
      ((sendPing v).run sessServe env s).1 = .ok v ∧
      (sendPing v).left sessServe env s = env.tail := by
  refine ⟨?_, ?_, ?_⟩
  · simp [sendPing, sessServe, observe, hEarly]
  · simp [sendPing, sessServe, hEarly]
  · simp [sendPing, Prog.left, sessServe, hEarly]

/-- A ping that is due and fails. -/
theorem sendPing_failed (hDue : keepaliveMs ≤ (env 0 .elapsedMs).clock - v.lastPingMs)
    {err : WsError} (hSend : (env 1 (.send (.ping []))).send = .error err) :
    (sendPing v).trace sessServe observe env s =
        [.clock (env 0 .elapsedMs).clock, .sent (.ping []) (.error err)] ∧
      ((sendPing v).run sessServe env s).1 = .error .pingFailed := by
  refine ⟨?_, ?_⟩
  · simp [sendPing, sessServe, observe, hDue, Env.tail, hSend]
  · simp [sendPing, sessServe, hDue, Env.tail, hSend]

/-- A ping that is due and sent. -/
theorem sendPing_sent (hDue : keepaliveMs ≤ (env 0 .elapsedMs).clock - v.lastPingMs)
    (hSend : (env 1 (.send (.ping []))).send = .ok ()) :
    (sendPing v).trace sessServe observe env s =
        [.clock (env 0 .elapsedMs).clock, .sent (.ping []) (.ok ()),
          .clock (env 2 .elapsedMs).clock] ∧
      ((sendPing v).run sessServe env s).1 =
        .ok { v with lastPingMs := (env 2 .elapsedMs).clock } ∧
      (sendPing v).left sessServe env s = env.tail.tail.tail := by
  refine ⟨?_, ?_, ?_⟩
  · simp [sendPing, sessServe, observe, hDue, Env.tail, hSend]
  · simp [sendPing, sessServe, hDue, Env.tail, hSend]
  · simp [sendPing, Prog.left, sessServe, hDue, Env.tail, hSend]

end Ping

/-- The first check reads the clock once more if a ping was due and has been
sent. -/
theorem checkedAt_first (e : RoundEnv P) (v : SessionVars) (s : Sess) :
    checkedAt ((MainWs.round P localAddr e.rng v).trace sessServe observe e.env s) =
      firstCheck e v.lastPingMs := by
  rw [checkedAt, MainWs.round, Prog.trace_bind, poll, Prog.trace_bind, Prog.run_bind,
    List.append_assoc, firstCheck]
  by_cases hDue : keepaliveMs ≤ (e.env 0 .elapsedMs).clock - v.lastPingMs
  · rw [if_pos hDue]
    rcases hSend : (e.env 1 (.send (.ping []))).send with err | u
    · obtain ⟨hTrace, hRun⟩ := sendPing_failed (s := s) hDue hSend
      rw [hTrace, hRun]
      rfl
    · obtain ⟨hTrace, hRun, hLeft⟩ := sendPing_sent (s := s) hDue hSend
      rw [hTrace, hRun, hLeft]
      exact checkedFrom_check (fun _ _ _ _ _ => rfl) _ _ _ (some (e.env 2 .elapsedMs).clock) _
  · obtain ⟨hTrace, hRun, hLeft⟩ := sendPing_early (s := s) hDue
    rw [if_neg hDue, hTrace, hRun, hLeft]
    exact checkedFrom_check (fun _ _ _ _ _ => rfl) _ _ _ (some (e.env 0 .elapsedMs).clock) _

theorem past_start (pingClock keepaliveClock : Nat) :
    Past [] (sessionStart pingClock keepaliveClock) :=
  ⟨.inl rfl, 0, rfl, rfl⟩

/-- **The schedule** is kept, for every sequence of clock readings and of read
results, if and only if the first check is made, by a reading of 55 seconds or
more that is not before the start of the session; of nondecreasing readings none
is. -/
theorem keepalive_schedule_iff (pingClock keepaliveClock : Nat) (e : RoundEnv P)
    (es : List (RoundEnv P)) (s : Sess) :
    Scheduled (sessionTrace P localAddr (e :: es) (sessionStart pingClock keepaliveClock) s) ↔
      ∃ ms, firstCheck e pingClock = some ms ∧ keepaliveClock ≤ ms ∧ appKeepaliveMs ≤ ms := by
  have hSending := trace_sending localAddr e
    (sessionStart pingClock keepaliveClock) s
  have hFirst : SendsFirst ((MainWs.round P localAddr e.rng
        (sessionStart pingClock keepaliveClock)).trace sessServe observe e.env s) ↔
      ∃ ms, firstCheck e pingClock = some ms ∧ keepaliveClock ≤ ms ∧ appKeepaliveMs ≤ ms := by
    rw [hSending.sendsFirst_iff, Due, checkedAt_first]
    refine exists_congr fun ms => and_congr_right fun _ => ?_
    show keepaliveClock - appKeepaliveMs + appKeepaliveMs ≤ ms ↔ _
    omega
  rw [← hFirst]
  constructor
  -- The first round decides; the later ones are on schedule in every session.
  · intro h
    exact h.first _ rfl
  · intro h
    refine ⟨fun t ht => ?_, fun before t after hSplit last hLast => ?_, ?_⟩
    · obtain rfl := Option.some.inj ht
      exact h
    · exact scheduled_later _ (past_start pingClock keepaliveClock) hSplit hLast
    · exact scheduled_ids (e :: es) (past_start pingClock keepaliveClock)

end Sessions

-- ---------------------------------------------------------------------------
-- A session shortly after boot
-- ---------------------------------------------------------------------------

/-- An iteration that reads nothing, at one time. -/
def quietRound (ms : Nat) : RoundEnv Protocol.plain :=
  ⟨(), fun _ _ => ⟨.served, ms, .ok (), .error (.io .timedOut)⟩⟩

/-- One second after boot nothing is sent: `0` stands for a request 55 seconds
before. -/
theorem first_request_late :
    ¬ Scheduled (sessionTrace .plain me [quietRound 1000] (sessionStart 1000 1000)
      ⟨emptyApp, [], false⟩) := by
  intro h
  have hTrace : sessionTrace .plain me [quietRound 1000] (sessionStart 1000 1000)
      ⟨emptyApp, [], false⟩ =
        [[.clock 1000, .clock 1000, .received (.error (.io .timedOut))]] := rfl
  rw [hTrace] at h
  obtain ⟨before, e, after, hSplit, hId, -⟩ := h.first _ rfl
  have hMem : e ∈ before ++ e :: after := List.mem_append_right before List.mem_cons_self
  rw [← hSplit] at hMem
  simp only [List.mem_cons, List.not_mem_nil, or_false] at hMem
  obtain rfl | rfl | rfl := hMem <;> cases hId

end Sigchat.Results

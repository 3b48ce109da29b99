import Sigchat.Model.Outgoing
import Sigchat.Results.Pipeline

/-!
# Field numbers

The schema the receive and send paths name in their comments,
`SignalService.proto`, against the field numbers they use. `Reference` is the
part of the published schema that carries sender, device, body, timestamps and
sync destination; it is not translated from the repository.

The repository reads the sender from field 2 instead of 11, the server
timestamp from field 5 instead of 10, the timestamp of a data message from
field 5, its expire timer, instead of 7, and the destination of a transcript
from field 1 instead of 7. It writes the timestamp of a data message to field 5
as well.

* `envelope_decode`, `content_decode` — what is read of a published message;
* `field_numbers_iff` — when that is what the message says.
-/

namespace Sigchat.Results.FieldNumbers

open Sigchat.Lib
open Sigchat.Lib.Wire
open Sigchat.Outgoing (messageContent)
open Sigchat.Protos (EnvelopeProto)

-- ---------------------------------------------------------------------------
-- The published schema
-- ---------------------------------------------------------------------------

namespace Reference

structure Envelope where
  type : Option Int
  timestamp : Option UInt64
  sourceDevice : Option UInt32
  content : Option Bytes
  serverTimestamp : Option UInt64
  sourceServiceId : Option String

def Envelope.fields (e : Envelope) : List Field :=
  int32Field 1 e.type ++ uint64Field 5 e.timestamp ++ uint32Field 7 e.sourceDevice ++
    bytesField 8 e.content ++ uint64Field 10 e.serverTimestamp ++ textField 11 e.sourceServiceId

def Envelope.encode (e : Envelope) : Bytes := encodeFields e.fields

structure DataMessage where
  body : Option String
  expireTimer : Option UInt32
  timestamp : Option UInt64
  deriving DecidableEq

def DataMessage.default : DataMessage := ⟨none, none, none⟩

def DataMessage.fields (d : DataMessage) : List Field :=
  textField 1 d.body ++ uint32Field 5 d.expireTimer ++ uint64Field 7 d.timestamp

def DataMessage.merge (_limit : Nat) (d : DataMessage) (f : Field) : Option DataMessage :=
  match f.tag with
  | 1 => f.value.toText.map fun x => { d with body := some x }
  | 5 => f.value.toUInt32.map fun x => { d with expireTimer := some x }
  | 7 => f.value.toUInt64.map fun x => { d with timestamp := some x }
  | _ => some d

structure Sent where
  destinationE164 : Option String
  timestamp : Option UInt64
  message : Option DataMessage
  destinationServiceId : Option String
  deriving DecidableEq

def Sent.default : Sent := ⟨none, none, none, none⟩

def Sent.fields (s : Sent) : List Field :=
  textField 1 s.destinationE164 ++ uint64Field 2 s.timestamp ++
    messageField 3 (s.message.map DataMessage.fields) ++ textField 7 s.destinationServiceId

def Sent.merge (limit : Nat) (s : Sent) (f : Field) : Option Sent :=
  match f.tag with
  | 1 => f.value.toText.map fun x => { s with destinationE164 := some x }
  | 2 => f.value.toUInt64.map fun x => { s with timestamp := some x }
  | 3 => (f.value.toMessage DataMessage.merge limit (s.message.getD .default)).map
      fun x => { s with message := some x }
  | 7 => f.value.toText.map fun x => { s with destinationServiceId := some x }
  | _ => some s

structure SyncMessage where
  sent : Option Sent
  deriving DecidableEq

def SyncMessage.default : SyncMessage := ⟨none⟩

def SyncMessage.fields (s : SyncMessage) : List Field := messageField 1 (s.sent.map Sent.fields)

def SyncMessage.merge (limit : Nat) (s : SyncMessage) (f : Field) : Option SyncMessage :=
  match f.tag with
  | 1 => (f.value.toMessage Sent.merge limit (s.sent.getD .default)).map
      fun x => { s with sent := some x }
  | _ => some s

structure Content where
  dataMessage : Option DataMessage
  syncMessage : Option SyncMessage
  deriving DecidableEq

def Content.fields (c : Content) : List Field :=
  messageField 1 (c.dataMessage.map DataMessage.fields) ++
    messageField 2 (c.syncMessage.map SyncMessage.fields)

def Content.encode (c : Content) : Bytes := encodeFields c.fields

def Content.merge (limit : Nat) (c : Content) (f : Field) : Option Content :=
  match f.tag with
  | 1 => (f.value.toMessage DataMessage.merge limit (c.dataMessage.getD .default)).map
      fun x => { c with dataMessage := some x }
  | 2 => (f.value.toMessage SyncMessage.merge limit (c.syncMessage.getD .default)).map
      fun x => { c with syncMessage := some x }
  | _ => some c

def Content.decode (bs : Bytes) : Option Content :=
  decodeMessage (Content.merge recursionLimit) recursionLimit ⟨none, none⟩ bs

end Reference

-- ---------------------------------------------------------------------------
-- What is read
-- ---------------------------------------------------------------------------

/-- The repository reads the timestamp as the server's, and no sender. -/
theorem envelope_decode {e : Reference.Envelope} (hLen : e.encode.length < 2 ^ 64) :
    ∃ type, EnvelopeProto.decode e.encode =
      some ⟨type, none, e.sourceDevice, e.timestamp, e.content⟩ := by
  have hEmitted : ∀ f ∈ e.fields, f.Emitted := by
    simp only [Reference.Envelope.fields, List.forall_mem_append]
    exact ⟨⟨⟨⟨⟨emitted_int32Field (by decide) _, emitted_uint64Field (by decide) _⟩,
      emitted_uint32Field (by decide) _⟩, emitted_bytesField (by decide) _⟩,
      emitted_uint64Field (by decide) _⟩, emitted_bytesField (by decide) _⟩
  obtain ⟨type, timestamp, device, content, serverTimestamp, serviceId⟩ := e
  -- the type is read as a number, whatever it is
  obtain ⟨type', hType⟩ : ∃ type', (int32Field 1 type).foldlM EnvelopeProto.merge
      ⟨none, none, none, none, none⟩ = some ⟨type', none, none, none, none⟩ := by
    cases type with
    | none => exact ⟨none, rfl⟩
    | some v => exact ⟨some _, rfl⟩
  refine ⟨type', decodeMessage_encodeFields (encodable_of_emitted hEmitted hLen) ?_⟩
  simp only [Reference.Envelope.fields, List.foldlM_append, Option.bind_eq_bind, hType,
    Option.bind_some]
  rw [foldlM_uint64Field (fun m x => { m with serverTimestamp := x }) (fun _ _ => rfl) rfl,
    Option.bind_some,
    foldlM_uint32Field (fun m x => { m with sourceDevice := x }) (fun _ _ => rfl) rfl,
    Option.bind_some, bytesField,
    foldlM_optional (fun m x => { m with content := x }) (fun _ _ => rfl) rfl,
    Option.bind_some]
  -- fields 10 and 11 are not known
  cases serverTimestamp <;> cases serviceId <;> rfl

-- The content, from the inside out.
section Content

/-- What the repository reads of a published data message. -/
def readDataMessage (d : Reference.DataMessage) : Protos.DataMessageProto :=
  ⟨d.body, d.expireTimer.map fun v => UInt64.ofNat v.toNat⟩

def readSent (s : Reference.Sent) : Protos.SentMessageProto :=
  ⟨s.destinationE164, s.timestamp, s.message.map readDataMessage⟩

def readSyncMessage (s : Reference.SyncMessage) : Protos.SyncMessageProto := ⟨s.sent.map readSent⟩

def readContent (c : Reference.Content) : Protos.ContentProto :=
  ⟨c.dataMessage.map readDataMessage, c.syncMessage.map readSyncMessage⟩

/-- What is read of a data message. -/
theorem dataMessage_decode (limit : Nat) {d : Reference.DataMessage}
    (hLen : (encodeFields d.fields).length < 2 ^ 64) :
    decodeMessage (Protos.DataMessageProto.merge limit) limit .default (encodeFields d.fields) =
      some (readDataMessage d) := by
  have hEmitted : ∀ f ∈ d.fields, f.Emitted := by
    simp only [Reference.DataMessage.fields, List.forall_mem_append]
    exact ⟨⟨emitted_bytesField (by decide) _, emitted_uint32Field (by decide) _⟩,
      emitted_uint64Field (by decide) _⟩
  refine decodeMessage_encodeFields (encodable_of_emitted hEmitted hLen) ?_
  obtain ⟨body, expireTimer, timestamp⟩ := d
  simp only [Reference.DataMessage.fields, List.foldlM_append, Option.bind_eq_bind, uint32Field]
  rw [foldlM_textField (fun m x => { m with body := x }) (fun _ _ => rfl) rfl,
    Option.bind_some,
    foldlM_optional (fun (m : Protos.DataMessageProto) (x : Option UInt32) =>
      { m with timestamp := x.map fun v => UInt64.ofNat v.toNat }) (fun _ _ => rfl) rfl,
    Option.bind_some]
  -- field 7 is not known
  cases timestamp <;> rfl

/-- What is read of a message that another device has sent. -/
theorem sent_decode (limit : Nat) {s : Reference.Sent}
    (hLen : (encodeFields s.fields).length < 2 ^ 64) :
    decodeMessage (Protos.SentMessageProto.merge (limit + 1)) (limit + 1) .default
      (encodeFields s.fields) = some (readSent s) := by
  have hEmitted : ∀ f ∈ s.fields, f.Emitted := by
    simp only [Reference.Sent.fields, List.forall_mem_append]
    exact ⟨⟨⟨emitted_bytesField (by decide) _, emitted_uint64Field (by decide) _⟩,
      emitted_bytesField (by decide) _⟩, emitted_bytesField (by decide) _⟩
  refine decodeMessage_encodeFields (encodable_of_emitted hEmitted hLen) ?_
  obtain ⟨e164, timestamp, message, serviceId⟩ := s
  have hMessage : ∀ d, message = some d → decodeMessage (Protos.DataMessageProto.merge limit) limit
      .default (encodeFields d.fields) = some (readDataMessage d) := by
    rintro d rfl
    refine dataMessage_decode limit (Nat.lt_of_le_of_lt (length_messageField_le 3 ?_) hLen)
    exact fun f hf => List.mem_append_left _ (List.mem_append_right _ hf)
  simp only [Reference.Sent.fields, List.foldlM_append, Option.bind_eq_bind]
  rw [foldlM_textField (fun m x => { m with destinationServiceId := x }) (fun _ _ => rfl) rfl,
    Option.bind_some,
    foldlM_uint64Field (fun m x => { m with timestamp := x }) (fun _ _ => rfl) rfl,
    Option.bind_some,
    foldlM_messageField (fun m x => { m with message := x }) (fun _ => rfl) rfl hMessage,
    Option.bind_some]
  -- field 7 is not known
  cases serviceId <;> rfl

/-- What is read of a message between devices. -/
theorem syncMessage_decode (limit : Nat) {s : Reference.SyncMessage}
    (hLen : (encodeFields s.fields).length < 2 ^ 64) :
    decodeMessage (Protos.SyncMessageProto.merge (limit + 2)) (limit + 2) .default
      (encodeFields s.fields) = some (readSyncMessage s) := by
  have hEmitted : ∀ f ∈ s.fields, f.Emitted := emitted_bytesField (by decide) _
  refine decodeMessage_encodeFields (encodable_of_emitted hEmitted hLen) ?_
  obtain ⟨sent⟩ := s
  have hSent : ∀ s, sent = some s → decodeMessage (Protos.SentMessageProto.merge (limit + 1))
      (limit + 1) .default (encodeFields s.fields) = some (readSent s) := by
    rintro s rfl
    exact sent_decode limit
      (Nat.lt_of_le_of_lt (length_messageField_le 1 (List.Subset.refl _)) hLen)
  exact foldlM_messageField (fun (_ : Protos.SyncMessageProto) x => ⟨x⟩) (fun _ => rfl) rfl hSent

/-- The repository reads the expire timer as the timestamp, and the phone number
of the destination as its service id. -/
theorem content_decode {c : Reference.Content} (hLen : c.encode.length < 2 ^ 64) :
    Protos.ContentProto.decode c.encode = some (readContent c) := by
  have hEmitted : ∀ f ∈ c.fields, f.Emitted := by
    simp only [Reference.Content.fields, List.forall_mem_append]
    exact ⟨emitted_bytesField (by decide) _, emitted_bytesField (by decide) _⟩
  refine decodeMessage_encodeFields (encodable_of_emitted hEmitted hLen) ?_
  obtain ⟨dataMessage, syncMessage⟩ := c
  -- the parts of a message are shorter than it
  have hData : ∀ d, dataMessage = some d → decodeMessage (Protos.DataMessageProto.merge 99) 99
      .default (encodeFields d.fields) = some (readDataMessage d) := by
    rintro d rfl
    exact dataMessage_decode 99
      (Nat.lt_of_le_of_lt (length_messageField_le 1 (List.subset_append_left _ _)) hLen)
  have hSync : ∀ s, syncMessage = some s → decodeMessage (Protos.SyncMessageProto.merge 99) 99
      .default (encodeFields s.fields) = some (readSyncMessage s) := by
    rintro s rfl
    exact syncMessage_decode 97
      (Nat.lt_of_le_of_lt (length_messageField_le 2 (List.subset_append_right _ _)) hLen)
  rw [Reference.Content.fields, List.foldlM_append,
    foldlM_messageField (fun m x => { m with dataMessage := x }) (fun _ => rfl) rfl hData,
    Option.bind_eq_bind, Option.bind_some,
    foldlM_messageField (fun m x => { m with syncMessage := x }) (fun _ => rfl) rfl hSync]
  rfl

end Content

-- ---------------------------------------------------------------------------
-- What is written
-- ---------------------------------------------------------------------------

/-- In the published schema, the content the repository writes has an expire
timer and no timestamp. -/
theorem reference_decode (body : Str) (ts : UInt64) :
    Reference.Content.decode (messageContent body.val ts) =
      some ⟨some ⟨some body.val, some (UInt32.ofNat ts.toNat), none⟩, none⟩ := by
  have hData : decodeMessage (Reference.DataMessage.merge 99) 99 .default
      (encodeFields (textFields body.val ts)) =
        some ⟨some body.val, some (UInt32.ofNat ts.toNat), none⟩ := by
    refine decodeMessage_encodeFields (textFields_encodable body ts) ?_
    simp [textFields, Reference.DataMessage.merge, Value.toText, Value.toBytes, Value.toUInt32,
      Reference.DataMessage.default]
  rw [messageContent_eq, Reference.Content.decode]
  refine decodeMessage_encodeFields ?_ ?_
  · intro f hf
    rw [List.mem_singleton.mp hf]
    exact encodable_bytes (by decide) (length_encodeFields_textFields body ts)
  · simp [Reference.Content.merge, Value.toMessage, Value.toBytes, recursionLimit, hData]

-- ---------------------------------------------------------------------------
-- When the numbers agree
-- ---------------------------------------------------------------------------

/-- Sender, device, server timestamp and content of an envelope. -/
def EnvelopeReadRight (e : Reference.Envelope) : Prop :=
  (EnvelopeProto.decode e.encode).map
      (fun m => (m.sourceServiceId, m.sourceDevice, m.serverTimestamp, m.content)) =
    some (e.sourceServiceId, e.sourceDevice, e.serverTimestamp, e.content)

/-- Body and timestamp of a data message, and the destination of a transcript,
with what it transcribes. -/
def ContentReadRight (c : Reference.Content) : Prop :=
  Protos.ContentProto.decode c.encode = some
    ⟨c.dataMessage.map fun d => ⟨d.body, d.timestamp⟩,
      c.syncMessage.map fun s => ⟨s.sent.map fun t =>
        ⟨t.destinationServiceId, t.timestamp, t.message.map fun d => ⟨d.body, d.timestamp⟩⟩⟩⟩

/-- What is written says body and timestamp, and nothing else. -/
def WrittenRight (body : Str) (ts : UInt64) : Prop :=
  Reference.Content.decode (messageContent body.val ts) =
    some ⟨some ⟨some body.val, none, some ts⟩, none⟩

/-- The expire timer of a data message happens to be its timestamp. -/
def TimerIsTimestamp (d : Reference.DataMessage) : Prop :=
  d.expireTimer.map UInt32.toUInt64 = d.timestamp

/-- A data message is read right if the expiry timer is its timestamp. -/
theorem readDataMessage_eq_iff (d : Reference.DataMessage) :
    readDataMessage d = ⟨d.body, d.timestamp⟩ ↔ TimerIsTimestamp d := by
  rw [readDataMessage, TimerIsTimestamp, Protos.DataMessageProto.mk.injEq]
  simp only [UInt64.ofNat_uInt32ToNat, true_and]

/-- Two readings of an optional member agree if they agree on the member. -/
theorem map_eq_map_iff {α β : Type} (f g : α → β) (x : Option α) :
    x.map f = x.map g ↔ ∀ a, x = some a → f a = g a := by
  cases x <;> simp

/-- A sent message is read right if the number of the destination is its service
id, and the message in it is read right. -/
theorem readSent_eq_iff (t : Reference.Sent) :
    readSent t = ⟨t.destinationServiceId, t.timestamp,
      t.message.map fun d => ⟨d.body, d.timestamp⟩⟩ ↔
      t.destinationE164 = t.destinationServiceId ∧
        ∀ d, t.message = some d → TimerIsTimestamp d := by
  rw [readSent, Protos.SentMessageProto.mk.injEq, map_eq_map_iff]
  simp only [true_and, readDataMessage_eq_iff]

theorem readSyncMessage_eq_iff (s : Reference.SyncMessage) :
    readSyncMessage s = ⟨s.sent.map fun t => ⟨t.destinationServiceId, t.timestamp,
      t.message.map fun d => ⟨d.body, d.timestamp⟩⟩⟩ ↔
      ∀ t, s.sent = some t → t.destinationE164 = t.destinationServiceId ∧
        ∀ d, t.message = some d → TimerIsTimestamp d := by
  rw [readSyncMessage, Protos.SyncMessageProto.mk.injEq, map_eq_map_iff]
  simp only [readSent_eq_iff]

/-- **Field numbers.** An envelope is read right exactly if it has no sender
and its two timestamps agree, a content exactly if expire timers and phone
numbers happen to agree with what is read for them, and no message is written
right. -/
theorem field_numbers_iff {e : Reference.Envelope} (hEnvelope : e.encode.length < 2 ^ 63)
    {c : Reference.Content} (hContent : c.encode.length < 2 ^ 63) (body : Str) (ts : UInt64) :
    (EnvelopeReadRight e ↔ e.sourceServiceId = none ∧ e.timestamp = e.serverTimestamp) ∧
      (ContentReadRight c ↔ (∀ d, c.dataMessage = some d → TimerIsTimestamp d) ∧
        ∀ s, c.syncMessage = some s → ∀ t, s.sent = some t →
          t.destinationE164 = t.destinationServiceId ∧
            ∀ d, t.message = some d → TimerIsTimestamp d) ∧
      ¬WrittenRight body ts := by
  refine ⟨?_, ?_, fun h => ?_⟩
  · obtain ⟨type, hDecode⟩ := envelope_decode (e := e) (by omega)
    rw [EnvelopeReadRight, hDecode]
    simp only [Option.map_some, Option.some.injEq, Prod.mk.injEq, true_and, and_true]
    exact and_congr_left fun _ => eq_comm
  · rw [ContentReadRight, content_decode (by omega), Option.some.injEq, readContent,
      Protos.ContentProto.mk.injEq, map_eq_map_iff, map_eq_map_iff]
    simp only [readDataMessage_eq_iff, readSyncMessage_eq_iff]
  · rw [WrittenRight, reference_decode] at h
    simp at h

/-- A published message: its sender, its two timestamps a second apart, and a
disappearing text sent to a service id. -/
def plainEnvelope : Reference.Envelope where
  type := some 1
  timestamp := some 1000
  sourceDevice := some 2
  content := some []
  serverTimestamp := some 2000
  sourceServiceId := some "peer"

def plainContent : Reference.Content where
  dataMessage := none
  syncMessage := some ⟨some {
    destinationE164 := none
    timestamp := some 1000
    message := some ⟨some "hello", some 60, some 1000⟩
    destinationServiceId := some "peer" }⟩

/-- Neither is read right, and what is written says nothing of its time. -/
theorem field_numbers_wrong :
    ¬EnvelopeReadRight plainEnvelope ∧ ¬ContentReadRight plainContent ∧
      ¬WrittenRight ⟨"hello", by decide⟩ 1000 := by
  unfold EnvelopeReadRight ContentReadRight WrittenRight
  refine ⟨?_, ?_, ?_⟩ <;> decide +kernel

/-- The theorem for an envelope without a sender, and a content without a
timer. -/
theorem field_numbers_iff_plain :
    EnvelopeReadRight { plainEnvelope with sourceServiceId := none, timestamp := some 2000 } ∧
      ContentReadRight ⟨some ⟨some "hello", none, none⟩, none⟩ := by
  have h := field_numbers_iff
    (e := { plainEnvelope with sourceServiceId := none, timestamp := some 2000 })
    (c := ⟨some ⟨some "hello", none, none⟩, none⟩) (by decide +kernel) (by decide +kernel)
    ⟨"hello", by decide⟩ 1000
  refine ⟨h.1.mpr ⟨rfl, rfl⟩, h.2.1.mpr ⟨?_, ?_⟩⟩
  · rintro d ⟨⟩
    rfl
  · rintro s ⟨⟩

end Sigchat.Results.FieldNumbers

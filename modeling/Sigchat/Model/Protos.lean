import Sigchat.Lib.Wire

/-!
# The messages of the receive path

The inline prost definitions of `main_ws.rs`. A message is decoded by merging
its fields into the default value; unknown fields are skipped, and a known one
of the wrong wire type is an error.
-/

namespace Sigchat.Protos

open Sigchat.Lib
open Sigchat.Lib.Wire

-- ---------------------------------------------------------------------------
-- WebSocket messages
-- ---------------------------------------------------------------------------

structure WsRequestProto where
  verb : Option String
  path : Option String
  body : Option Bytes
  id : Option UInt64
  headers : List String
  deriving DecidableEq

def WsRequestProto.default : WsRequestProto := ⟨none, none, none, none, []⟩

def WsRequestProto.merge (_limit : Nat) (m : WsRequestProto) (f : Field) :
    Option WsRequestProto :=
  match f.tag with
  | 1 => f.value.toText.map fun x => { m with verb := some x }
  | 2 => f.value.toText.map fun x => { m with path := some x }
  | 3 => f.value.toBytes.map fun x => { m with body := some x }
  | 4 => f.value.toUInt64.map fun x => { m with id := some x }
  | 5 => f.value.toText.map fun x => { m with headers := m.headers ++ [x] }
  | _ => some m

def WsRequestProto.fields (m : WsRequestProto) : List Field :=
  textField 1 m.verb ++ textField 2 m.path ++ bytesField 3 m.body ++ uint64Field 4 m.id ++
    m.headers.map fun h => ⟨5, .bytes (utf8 h)⟩

/-- The fields of a request are of kinds the encoder writes. -/
theorem WsRequestProto.emitted (m : WsRequestProto) : ∀ f ∈ m.fields, f.Emitted := by
  simp only [fields, List.forall_mem_append]
  exact ⟨⟨⟨⟨emitted_bytesField (by decide) _, emitted_bytesField (by decide) _⟩,
    emitted_bytesField (by decide) _⟩, emitted_uint64Field (by decide) _⟩,
    emitted_map_bytes (by decide) _⟩

/-- The headers of a request are read back in their order. -/
theorem WsRequestProto.merge_headers (limit : Nat) (hs : List String) (m : WsRequestProto) :
    (hs.map fun h => (⟨5, .bytes (utf8 h)⟩ : Field)).foldlM (WsRequestProto.merge limit) m =
      some { m with headers := m.headers ++ hs } := by
  refine foldlM_repeatedText headers (fun m hs => { m with headers := hs }) (fun m h => ?_)
    (fun _ _ => rfl) (fun _ _ _ => rfl) (fun _ => rfl) hs m
  simp only [merge, Value.toText, Value.toBytes, Option.bind_some, fromUtf8_utf8, Option.map_some]

/-- **Round trip** of a request inside a message. -/
theorem WsRequestProto.decode_fields (limit : Nat) (m : WsRequestProto)
    (hLen : (encodeFields m.fields).length < 2 ^ 64) :
    decodeMessage (WsRequestProto.merge limit) limit .default (encodeFields m.fields) = some m := by
  refine decodeMessage_encodeFields (encodable_of_emitted m.emitted hLen) ?_
  obtain ⟨verb, path, body, id, headers⟩ := m
  simp only [fields, List.foldlM_append]
  cases verb <;> cases path <;> cases body <;> cases id <;>
    simp [textField, bytesField, uint64Field, merge, merge_headers, Value.toText, Value.toBytes,
      Value.toUInt64, default]

structure WsResponseProto where
  id : Option UInt64
  status : Option UInt32
  message : Option String
  body : Option Bytes
  headers : List String
  deriving DecidableEq

def WsResponseProto.default : WsResponseProto := ⟨none, none, none, none, []⟩

def WsResponseProto.merge (_limit : Nat) (m : WsResponseProto) (f : Field) :
    Option WsResponseProto :=
  match f.tag with
  | 1 => f.value.toUInt64.map fun x => { m with id := some x }
  | 2 => f.value.toUInt32.map fun x => { m with status := some x }
  | 3 => f.value.toText.map fun x => { m with message := some x }
  | 4 => f.value.toBytes.map fun x => { m with body := some x }
  | 5 => f.value.toText.map fun x => { m with headers := m.headers ++ [x] }
  | _ => some m

def WsResponseProto.fields (m : WsResponseProto) : List Field :=
  uint64Field 1 m.id ++ uint32Field 2 m.status ++ textField 3 m.message ++ bytesField 4 m.body ++
    m.headers.map fun h => ⟨5, .bytes (utf8 h)⟩

/-- The fields of a response are of kinds the encoder writes. -/
theorem WsResponseProto.emitted (m : WsResponseProto) : ∀ f ∈ m.fields, f.Emitted := by
  simp only [fields, List.forall_mem_append]
  exact ⟨⟨⟨⟨emitted_uint64Field (by decide) _, emitted_uint32Field (by decide) _⟩,
    emitted_bytesField (by decide) _⟩, emitted_bytesField (by decide) _⟩,
    emitted_map_bytes (by decide) _⟩

/-- The headers of a response are read back in their order. -/
theorem WsResponseProto.merge_headers (limit : Nat) (hs : List String) (m : WsResponseProto) :
    (hs.map fun h => (⟨5, .bytes (utf8 h)⟩ : Field)).foldlM (WsResponseProto.merge limit) m =
      some { m with headers := m.headers ++ hs } := by
  refine foldlM_repeatedText headers (fun m hs => { m with headers := hs }) (fun m h => ?_)
    (fun _ _ => rfl) (fun _ _ _ => rfl) (fun _ => rfl) hs m
  simp only [merge, Value.toText, Value.toBytes, Option.bind_some, fromUtf8_utf8, Option.map_some]

/-- **Round trip** of a response inside a message. -/
theorem WsResponseProto.decode_fields (limit : Nat) (m : WsResponseProto)
    (hLen : (encodeFields m.fields).length < 2 ^ 64) :
    decodeMessage (WsResponseProto.merge limit) limit .default (encodeFields m.fields) =
      some m := by
  refine decodeMessage_encodeFields (encodable_of_emitted m.emitted hLen) ?_
  obtain ⟨id, status, message, body, headers⟩ := m
  simp only [fields, List.foldlM_append]
  cases id <;> cases status <;> cases message <;> cases body <;>
    simp [textField, bytesField, uint64Field, uint32Field, merge, merge_headers,
      Value.toText, Value.toBytes, Value.toUInt64, Value.toUInt32, default]

structure WsMessageProto where
  type : Option Int
  request : Option WsRequestProto
  response : Option WsResponseProto
  deriving DecidableEq

def WsMessageProto.merge (limit : Nat) (m : WsMessageProto) (f : Field) : Option WsMessageProto :=
  match f.tag with
  | 1 => f.value.toInt32.map fun x => { m with type := some x }
  | 2 => (f.value.toMessage WsRequestProto.merge limit (m.request.getD .default)).map
      fun x => { m with request := some x }
  | 3 => (f.value.toMessage WsResponseProto.merge limit (m.response.getD .default)).map
      fun x => { m with response := some x }
  | _ => some m

def WsMessageProto.decode (bs : Bytes) : Option WsMessageProto :=
  decodeMessage (WsMessageProto.merge recursionLimit) recursionLimit ⟨none, none, none⟩ bs

def WsMessageProto.fields (m : WsMessageProto) : List Field :=
  int32Field 1 m.type ++ messageField 2 (m.request.map WsRequestProto.fields) ++
    messageField 3 (m.response.map WsResponseProto.fields)

def WsMessageProto.encode (m : WsMessageProto) : Bytes := encodeFields m.fields

/-- **WebSocket messages round trip.** -/
theorem WsMessageProto.decode_encode {m : WsMessageProto}
    (hType : ∀ v, m.type = some v → IsInt32 v) (hLen : m.encode.length < 2 ^ 64) :
    WsMessageProto.decode m.encode = some m := by
  have hEmitted : ∀ f ∈ m.fields, f.Emitted := by
    simp only [fields, List.forall_mem_append]
    exact ⟨⟨emitted_int32Field (by decide) _, emitted_bytesField (by decide) _⟩,
      emitted_bytesField (by decide) _⟩
  -- the request inside is shorter than the message
  have hRequest : ∀ r, m.request = some r → decodeMessage (WsRequestProto.merge 99) 99 .default
      (encodeFields r.fields) = some r := by
    intro r hr
    refine WsRequestProto.decode_fields 99 r (Nat.lt_of_le_of_lt ?_ hLen)
    refine length_messageField_le 2 (?_ : _ ⊆ m.fields)
    simp [fields, hr]
  have hResponse : ∀ r, m.response = some r → decodeMessage (WsResponseProto.merge 99) 99 .default
      (encodeFields r.fields) = some r := by
    intro r hr
    refine WsResponseProto.decode_fields 99 r (Nat.lt_of_le_of_lt ?_ hLen)
    refine length_messageField_le 3 (?_ : _ ⊆ m.fields)
    simp [fields, hr]
  refine decodeMessage_encodeFields (encodable_of_emitted hEmitted hLen) ?_
  obtain ⟨type, request, response⟩ := m
  rw [fields, List.foldlM_append, List.foldlM_append, Option.bind_eq_bind,
    foldlM_int32Field (fun m x => { m with type := x }) (fun _ _ => rfl) rfl hType,
    Option.bind_some,
    foldlM_messageField (fun m x => { m with request := x }) (fun _ => rfl) rfl hRequest,
    Option.bind_some,
    foldlM_messageField (fun m x => { m with response := x }) (fun _ => rfl) rfl hResponse,
    Option.map_id', Option.map_id']

-- ---------------------------------------------------------------------------
-- Envelopes and their content
-- ---------------------------------------------------------------------------

structure EnvelopeProto where
  type : Option Int
  sourceServiceId : Option String
  sourceDevice : Option UInt32
  serverTimestamp : Option UInt64
  content : Option Bytes
  deriving DecidableEq

def EnvelopeProto.merge (m : EnvelopeProto) (f : Field) : Option EnvelopeProto :=
  match f.tag with
  | 1 => f.value.toInt32.map fun x => { m with type := some x }
  | 2 => f.value.toText.map fun x => { m with sourceServiceId := some x }
  | 7 => f.value.toUInt32.map fun x => { m with sourceDevice := some x }
  | 5 => f.value.toUInt64.map fun x => { m with serverTimestamp := some x }
  | 8 => f.value.toBytes.map fun x => { m with content := some x }
  | _ => some m

def EnvelopeProto.decode (bs : Bytes) : Option EnvelopeProto :=
  decodeMessage EnvelopeProto.merge recursionLimit ⟨none, none, none, none, none⟩ bs

structure DataMessageProto where
  body : Option String
  timestamp : Option UInt64
  deriving DecidableEq

def DataMessageProto.default : DataMessageProto := ⟨none, none⟩

def DataMessageProto.merge (_limit : Nat) (m : DataMessageProto) (f : Field) :
    Option DataMessageProto :=
  match f.tag with
  | 1 => f.value.toText.map fun x => { m with body := some x }
  | 5 => f.value.toUInt64.map fun x => { m with timestamp := some x }
  | _ => some m

structure SentMessageProto where
  destinationServiceId : Option String
  timestamp : Option UInt64
  message : Option DataMessageProto
  deriving DecidableEq

def SentMessageProto.default : SentMessageProto := ⟨none, none, none⟩

def SentMessageProto.merge (limit : Nat) (m : SentMessageProto) (f : Field) :
    Option SentMessageProto :=
  match f.tag with
  | 1 => f.value.toText.map fun x => { m with destinationServiceId := some x }
  | 2 => f.value.toUInt64.map fun x => { m with timestamp := some x }
  | 3 => (f.value.toMessage DataMessageProto.merge limit (m.message.getD .default)).map
      fun x => { m with message := some x }
  | _ => some m

structure SyncMessageProto where
  sent : Option SentMessageProto
  deriving DecidableEq

def SyncMessageProto.default : SyncMessageProto := ⟨none⟩

def SyncMessageProto.merge (limit : Nat) (m : SyncMessageProto) (f : Field) :
    Option SyncMessageProto :=
  match f.tag with
  | 1 => (f.value.toMessage SentMessageProto.merge limit (m.sent.getD .default)).map
      fun x => { m with sent := some x }
  | _ => some m

structure ContentProto where
  dataMessage : Option DataMessageProto
  syncMessage : Option SyncMessageProto
  deriving DecidableEq

def ContentProto.merge (limit : Nat) (m : ContentProto) (f : Field) : Option ContentProto :=
  match f.tag with
  | 1 => (f.value.toMessage DataMessageProto.merge limit (m.dataMessage.getD .default)).map
      fun x => { m with dataMessage := some x }
  | 2 => (f.value.toMessage SyncMessageProto.merge limit (m.syncMessage.getD .default)).map
      fun x => { m with syncMessage := some x }
  | _ => some m

def ContentProto.decode (bs : Bytes) : Option ContentProto :=
  decodeMessage (ContentProto.merge recursionLimit) recursionLimit ⟨none, none⟩ bs

end Sigchat.Protos

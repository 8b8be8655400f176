import AgentVoice.Realtime.Fields

/-!
# Session events

The decoder of `src/realtime/server_session_events.rs`. It reads the fields of an object in place, after a check that
the object has no others.
-/

namespace AgentVoice.Realtime

open AgentVoice.Foundations

/-- `SessionInfo`. -/
structure SessionInfo where
  id : OpaqueId
  model : String
  deriving DecidableEq

/-- `ProviderError`. -/
structure ProviderError where
  type : String
  code : Option String
  message : String
  param : Option String
  eventId : Option OpaqueId
  deriving DecidableEq

/-- `RealtimeServerSessionEvent`. -/
inductive RealtimeServerSessionEvent where
  | sessionCreated (eventId : OpaqueId) (session : SessionInfo)
  | sessionUpdated (eventId : OpaqueId) (session : SessionInfo)
  | error (eventId : OpaqueId) (error : ProviderError)
  | inputAudioBufferCommitted (eventId itemId : OpaqueId)
  | inputAudioBufferCleared (eventId : OpaqueId)
  | inputAudioBufferSpeechStarted (eventId : OpaqueId) (audioStartMs : UInt64)
  | inputAudioBufferSpeechStopped (eventId : OpaqueId) (audioEndMs : UInt64)
  | conversationItemInputAudioTranscriptionDelta (eventId itemId : OpaqueId) (contentIndex : UInt32)
      (delta : TranscriptText)
  | conversationItemInputAudioTranscriptionCompleted (eventId itemId : OpaqueId) (contentIndex : UInt32)
      (transcript : TranscriptText)
  deriving DecidableEq

namespace SessionEvents

/-- `required`. -/
def required (object : JsonObject) (field : String) : Decoded Json :=
  match object.lookup field with
  | none | some .null => .error (.missingField field)
  | some value => .ok value

/-- `required_object`. -/
def requiredObject (object : JsonObject) (field : String) : Decoded JsonObject := do
  match ← required object field with
  | .obj fields => .ok fields
  | _ => .error .invalidJson

/-- `required_string`. -/
def requiredString (object : JsonObject) (field : String) : Decoded String := do
  okOr (← required object field).asStr .invalidJson

/-- `opaque_field`. -/
def opaqueField (object : JsonObject) (field : String) : Decoded OpaqueId := do
  let value ← okOr (← required object field).asStr .invalidJson
  OpaqueId.new value

/-- `optional_string`. -/
def optionalString (object : JsonObject) (field : String) : Decoded (Option String) :=
  match object.lookup field with
  | none | some .null => .ok none
  | some (.str value) => .ok (some value)
  | some _ => .error .invalidJson

/-- `optional_opaque`. -/
def optionalOpaque (object : JsonObject) (field : String) : Decoded (Option OpaqueId) :=
  match object.lookup field with
  | none | some .null => .ok none
  | some (.str value) => (OpaqueId.new value).map some
  | some _ => .error .invalidJson

/-- `u64_field`. -/
def u64Field (object : JsonObject) (field : String) : Decoded UInt64 := do
  let n ← okOr (← required object field).asU64 .invalidJson
  return .ofNat n

/-- `u32_field`. -/
def u32Field (object : JsonObject) (field : String) : Decoded UInt32 := do
  let n ← u64Field object field
  if n.toNat < 2 ^ 32 then return .ofNat n.toNat else throw .invalidJson

/-- `transcript_field`. -/
def transcriptField (object : JsonObject) (field : String) : Decoded TranscriptText := do
  let value ← okOr (← required object field).asStr .invalidJson
  TranscriptText.new value

/-- `parse_session`. -/
def parseSession (object : JsonObject) (field : String) : Decoded SessionInfo := do
  let session ← requiredObject object field
  ensureFields session ["id", "model"]
  let id ← opaqueField session "id"
  let model ← requiredString session "model"
  return ⟨id, model⟩

/-- `parse_provider_error`. -/
def parseProviderError (object : JsonObject) (field : String) : Decoded ProviderError := do
  let error ← requiredObject object field
  ensureFields error ["type", "code", "message", "param", "event_id"]
  let type ← requiredString error "type"
  let code ← optionalString error "code"
  let message ← requiredString error "message"
  let param ← optionalString error "param"
  let eventId ← optionalOpaque error "event_id"
  return ⟨type, code, message, param, eventId⟩

/-- `parse_event`. -/
def parseEvent (value : Json) : Decoded RealtimeServerSessionEvent := do
  let object ← object value
  let eventType ← okOr ((object.lookup "type").bind Json.asStr) .unknownEventType
  match eventType with
  | "session.created" => do
    ensureFields object ["type", "event_id", "session"]
    return .sessionCreated (← opaqueField object "event_id") (← parseSession object "session")
  | "session.updated" => do
    ensureFields object ["type", "event_id", "session"]
    return .sessionUpdated (← opaqueField object "event_id") (← parseSession object "session")
  | "error" => do
    ensureFields object ["type", "event_id", "error"]
    return .error (← opaqueField object "event_id") (← parseProviderError object "error")
  | "input_audio_buffer.committed" => do
    ensureFields object ["type", "event_id", "item_id"]
    return .inputAudioBufferCommitted (← opaqueField object "event_id") (← opaqueField object "item_id")
  | "input_audio_buffer.cleared" => do
    ensureFields object ["type", "event_id"]
    return .inputAudioBufferCleared (← opaqueField object "event_id")
  | "input_audio_buffer.speech_started" => do
    ensureFields object ["type", "event_id", "audio_start_ms"]
    return .inputAudioBufferSpeechStarted (← opaqueField object "event_id") (← u64Field object "audio_start_ms")
  | "input_audio_buffer.speech_stopped" => do
    ensureFields object ["type", "event_id", "audio_end_ms"]
    return .inputAudioBufferSpeechStopped (← opaqueField object "event_id") (← u64Field object "audio_end_ms")
  | "conversation.item.input_audio_transcription.delta" => do
    ensureFields object ["type", "event_id", "item_id", "content_index", "delta"]
    return .conversationItemInputAudioTranscriptionDelta (← opaqueField object "event_id")
      (← opaqueField object "item_id") (← u32Field object "content_index") (← transcriptField object "delta")
  | "conversation.item.input_audio_transcription.completed" => do
    ensureFields object ["type", "event_id", "item_id", "content_index", "transcript"]
    return .conversationItemInputAudioTranscriptionCompleted (← opaqueField object "event_id")
      (← opaqueField object "item_id") (← u32Field object "content_index") (← transcriptField object "transcript")
  | _ => throw .unknownEventType

end SessionEvents

end AgentVoice.Realtime

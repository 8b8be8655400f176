import AgentVoice.Realtime.SessionEvents
import AgentVoice.Realtime.TakenEvents

/-!
# Server events

`decode_server_event` of `src/realtime/events.rs`: the text is read into a value that repeats no key, and one `match`
decodes the events of all four groups. `deserialize` are the decoders that the groups have of their own.
-/

namespace AgentVoice.Realtime

open AgentVoice.Foundations

/-- `RealtimeServerEvent`. -/
inductive RealtimeServerEvent where
  | session (event : RealtimeServerSessionEvent)
  | audio (event : RealtimeServerAudioEvent)
  | function (event : RealtimeServerFunctionEvent)
  | response (event : RealtimeServerResponseEvent)
  deriving DecidableEq

namespace ServerEvents

variable (libs : Libraries)

/-- `session_opaque_id`. -/
def sessionOpaqueId : Json → Decoded OpaqueId
  | .str value => OpaqueId.new value
  | _ => .error .invalidJson

/-- `optional_session_opaque_id`. -/
def optionalSessionOpaqueId (field : String) : Taking (Option OpaqueId) := do
  match ← remove field with
  | none | some .null => return none
  | some value => return some (← sessionOpaqueId value)

/-- `optional_string`. -/
def optionalString (field : String) : Taking (Option String) := do
  match ← remove field with
  | none | some .null => return none
  | some (.str value) => return some value
  | some _ => throw .invalidJson

/-- An optional field: `None` and `null` are no value, and every other value is parsed. -/
def removeOptional (field : String) (parse : Json → Decoded α) : Taking (Option α) := do
  match ← remove field with
  | none | some .null => return none
  | some value => return some (← parse value)

/-- `parse_session_info`. -/
def parseSessionInfo (value : Json) : Decoded SessionInfo := do
  let map ← object value
  ensureFields map ["id", "model"]
  Taking.from (do
    let id ← sessionOpaqueId (← required "id")
    let model ← string (← required "model")
    finish
    return ⟨id, model⟩) map

/-- `parse_provider_error`. -/
def parseProviderError (value : Json) : Decoded ProviderError := do
  let map ← object value
  ensureFields map ["type", "code", "message", "param", "event_id"]
  Taking.from (do
    let type ← string (← required "type")
    let code ← optionalString "code"
    let message ← string (← required "message")
    let param ← optionalString "param"
    let eventId ← optionalSessionOpaqueId "event_id"
    finish
    return ⟨type, code, message, param, eventId⟩) map

/-- `parse_function_item`. -/
def parseFunctionItem (value : Json) : Decoded FunctionCallOutputAckItem := do
  let map ← object value
  Taking.from (do
    let id ← opaqueId (← required "id")
    let type ←
      match ← required "type" with
      | .str value => if value = "function_call_output" then pure .functionCallOutput else throw .unknownEventType
      | _ => throw .unknownEventType
    let callId ← opaqueId (← required "call_id")
    let output ← toolOutput (← required "output")
    finish
    return ⟨id, type, callId, output⟩) map

/-- `parse_status`. -/
def parseStatus : Json → Decoded ResponseStatus
  | .str value => ResponseStatus.tryFrom value
  | _ => .error .invalidResponseStatus

/-- `parse_reason`. -/
def parseReason : Json → Decoded InterruptionReason
  | .str value => InterruptionReason.tryFrom value
  | _ => .error .invalidInterruptionReason

/-- `parse_provider_error_summary`. -/
def parseProviderErrorSummary (value : Json) : Decoded ProviderErrorSummary := do
  let map ← object value
  Taking.from (do
    let type ← string (← required "type")
    let code ← optionalString "code"
    finish
    return ⟨type, code⟩) map

/-- `parse_status_details`. -/
def parseStatusDetails (value : Json) : Decoded ResponseStatusDetails := do
  let map ← object value
  Taking.from (do
    let reason ← removeOptional "reason" parseReason
    let error ← removeOptional "error" parseProviderErrorSummary
    finish
    return ⟨reason, error⟩) map

/-- `parse_response_summary`. -/
def parseResponseSummary (value : Json) : Decoded ResponseSummary := do
  let map ← object value
  Taking.from (do
    let id ← opaqueId (← required "id")
    let status ← parseStatus (← required "status")
    let statusDetails ← removeOptional "status_details" parseStatusDetails
    finish
    ResponseSummary.new id status statusDetails) map

/-- The check of `ensure_fields` on the object as it is. -/
def ensureLeft (allowed : List String) : Taking Unit := do ensureFields (← get) allowed

/-- The `match` of `parse_event` on the event type, with the type taken out of the object. -/
def parseKind : String → Taking RealtimeServerEvent
  | "session.created" => do
    ensureLeft ["event_id", "session"]
    let eventId ← sessionOpaqueId (← required "event_id")
    let session ← parseSessionInfo (← required "session")
    finish
    return .session (.sessionCreated eventId session)
  | "session.updated" => do
    ensureLeft ["event_id", "session"]
    let eventId ← sessionOpaqueId (← required "event_id")
    let session ← parseSessionInfo (← required "session")
    finish
    return .session (.sessionUpdated eventId session)
  | "error" => do
    ensureLeft ["event_id", "error"]
    let eventId ← sessionOpaqueId (← required "event_id")
    let error ← parseProviderError (← required "error")
    finish
    return .session (.error eventId error)
  | "input_audio_buffer.committed" => do
    ensureLeft ["event_id", "item_id"]
    let eventId ← sessionOpaqueId (← required "event_id")
    let itemId ← sessionOpaqueId (← required "item_id")
    finish
    return .session (.inputAudioBufferCommitted eventId itemId)
  | "input_audio_buffer.cleared" => do
    ensureLeft ["event_id"]
    let eventId ← sessionOpaqueId (← required "event_id")
    finish
    return .session (.inputAudioBufferCleared eventId)
  | "input_audio_buffer.speech_started" => do
    ensureLeft ["event_id", "audio_start_ms"]
    let eventId ← sessionOpaqueId (← required "event_id")
    let audioStartMs ← timestamp (← required "audio_start_ms")
    finish
    return .session (.inputAudioBufferSpeechStarted eventId audioStartMs)
  | "input_audio_buffer.speech_stopped" => do
    ensureLeft ["event_id", "audio_end_ms"]
    let eventId ← sessionOpaqueId (← required "event_id")
    let audioEndMs ← timestamp (← required "audio_end_ms")
    finish
    return .session (.inputAudioBufferSpeechStopped eventId audioEndMs)
  | "conversation.item.input_audio_transcription.delta" => do
    ensureLeft ["event_id", "item_id", "content_index", "delta"]
    let eventId ← sessionOpaqueId (← required "event_id")
    let itemId ← sessionOpaqueId (← required "item_id")
    let contentIndex ← index (← required "content_index")
    let delta ← transcript (← required "delta")
    finish
    return .session (.conversationItemInputAudioTranscriptionDelta eventId itemId contentIndex delta)
  | "conversation.item.input_audio_transcription.completed" => do
    ensureLeft ["event_id", "item_id", "content_index", "transcript"]
    let eventId ← sessionOpaqueId (← required "event_id")
    let itemId ← sessionOpaqueId (← required "item_id")
    let contentIndex ← index (← required "content_index")
    let transcript ← transcript (← required "transcript")
    finish
    return .session (.conversationItemInputAudioTranscriptionCompleted eventId itemId contentIndex transcript)
  | "response.output_audio.delta" => do
    let eventId ← opaqueId (← required "event_id")
    let responseId ← opaqueId (← required "response_id")
    let itemId ← opaqueId (← required "item_id")
    let outputIndex ← index (← required "output_index")
    let contentIndex ← index (← required "content_index")
    let delta ← audio libs (← required "delta")
    finish
    return .audio (.outputAudioDelta eventId responseId itemId outputIndex contentIndex delta)
  | "response.output_audio.done" => do
    let eventId ← opaqueId (← required "event_id")
    let responseId ← opaqueId (← required "response_id")
    let itemId ← opaqueId (← required "item_id")
    let outputIndex ← index (← required "output_index")
    let contentIndex ← index (← required "content_index")
    finish
    return .audio (.outputAudioDone eventId responseId itemId outputIndex contentIndex)
  | "response.output_audio_transcript.delta" => do
    let eventId ← opaqueId (← required "event_id")
    let responseId ← opaqueId (← required "response_id")
    let itemId ← opaqueId (← required "item_id")
    let outputIndex ← index (← required "output_index")
    let contentIndex ← index (← required "content_index")
    let delta ← transcript (← required "delta")
    finish
    return .audio (.outputAudioTranscriptDelta eventId responseId itemId outputIndex contentIndex delta)
  | "response.output_audio_transcript.done" => do
    let eventId ← opaqueId (← required "event_id")
    let responseId ← opaqueId (← required "response_id")
    let itemId ← opaqueId (← required "item_id")
    let outputIndex ← index (← required "output_index")
    let contentIndex ← index (← required "content_index")
    let transcript ← transcript (← required "transcript")
    finish
    return .audio (.outputAudioTranscriptDone eventId responseId itemId outputIndex contentIndex transcript)
  | "response.function_call_arguments.delta" => do
    let eventId ← opaqueId (← required "event_id")
    let responseId ← opaqueId (← required "response_id")
    let itemId ← opaqueId (← required "item_id")
    let outputIndex ← index (← required "output_index")
    let callId ← opaqueId (← required "call_id")
    let delta ← argumentsDelta (← required "delta")
    finish
    return .function (.functionCallArgumentsDelta eventId responseId itemId outputIndex callId delta)
  | "response.function_call_arguments.done" => do
    let eventId ← opaqueId (← required "event_id")
    let responseId ← opaqueId (← required "response_id")
    let itemId ← opaqueId (← required "item_id")
    let outputIndex ← index (← required "output_index")
    let callId ← opaqueId (← required "call_id")
    let name ← string (← required "name")
    let arguments ← argumentsCompleted libs (← required "arguments")
    finish
    return .function (.functionCallArgumentsDone eventId responseId itemId outputIndex callId name arguments)
  | "conversation.item.created" => do
    let eventId ← opaqueId (← required "event_id")
    let item ← parseFunctionItem (← required "item")
    finish
    return .function (.conversationItemCreated eventId item)
  | "response.done" => do
    let eventId ← opaqueId (← required "event_id")
    let response ← parseResponseSummary (← required "response")
    finish
    return .response (.responseDone eventId response)
  | _ => throw .unknownEventType

/-- `parse_event`, of an object. -/
def parseEvent (map : JsonObject) : Decoded RealtimeServerEvent :=
  Taking.from (do
    match ← remove "type" with
    | some (.str kind) => parseKind libs kind
    | _ => throw .unknownEventType) map

end ServerEvents

/-- `decode_server_event`. -/
def decodeServerEvent (libs : Libraries) (bytes : List UInt8) : Decoded RealtimeServerEvent :=
  if maxEventBytes < bytes.length then .error .eventTooLarge
  else do
    let value ← okOr ((libs.read bytes).bind Json.uniqueValue) .invalidJson
    let object ← object value
    ServerEvents.parseEvent libs object

/-- The event groups. -/
inductive EventGroup where
  | session
  | function
  | response
  | audio
  deriving DecidableEq, Repr

/-- The group of an event. -/
def RealtimeServerEvent.group : RealtimeServerEvent → EventGroup
  | .session _ => .session
  | .function _ => .function
  | .response _ => .response
  | .audio _ => .audio

/-- The value that the `Deserialize` implementation of a group reads. All but that of the audio events read a
`serde_json::Value`, which keeps the last value of a repeated key. -/
def readValue (libs : Libraries) : EventGroup → List UInt8 → Option Json
  | .audio, bytes => (libs.read bytes).bind Json.uniqueValue
  | _, bytes => (libs.read bytes).map Json.lastValues

/-- The `parse_event` of a group. -/
def parseGroup (libs : Libraries) : EventGroup → Json → Decoded RealtimeServerEvent
  | .session, value => .session <$> SessionEvents.parseEvent value
  | .function, value => .function <$> parseTaken (FunctionEvents.parseKind libs) value
  | .response, value => .response <$> parseTaken ResponseEvents.parseKind value
  | .audio, value => .audio <$> parseTaken (AudioEvents.parseKind libs) value

/-- `serde_json::from_slice` with the `Deserialize` implementation of a group. -/
def deserialize (libs : Libraries) (group : EventGroup) (bytes : List UInt8) : Decoded RealtimeServerEvent := do
  let value ← okOr (readValue libs group bytes) .invalidJson
  parseGroup libs group value

end AgentVoice.Realtime

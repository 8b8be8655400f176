import AgentVoice.Foundations.JsonWriter
import AgentVoice.Realtime.Events

/-!
# Serialization of server events

The `Serialize` implementations of the server events and of their values: what each shows the serializer, with the
fields in the order of the declarations. An optional value is written as `null` where it is absent.
-/

namespace AgentVoice.Realtime

open AgentVoice.Foundations

/-! ### Values -/

/-- `OpaqueId`. -/
def OpaqueId.serialize (id : OpaqueId) : Json := .str id.val

/-- `TranscriptText`. -/
def TranscriptText.serialize (text : TranscriptText) : Json := .str text.val

/-- `FunctionArguments`. -/
def FunctionArguments.serialize (arguments : FunctionArguments) : Json := .str arguments.val

/-- `ToolOutput`. -/
def ToolOutput.serialize (output : ToolOutput) : Json := .str output.val

/-- `G711Ulaw`. -/
def G711Ulaw.serialize (libs : Libraries) (audio : G711Ulaw) : Json := .str (libs.base64Encode audio.val)

/-- `u32`. -/
def serializeU32 (n : UInt32) : Json := .int n.toNat

/-- `u64`. -/
def serializeU64 (n : UInt64) : Json := .int n.toNat

/-- An object with a type before its other fields. -/
def tagged (kind : String) (fields : JsonObject) : Json := .obj (("type", .str kind) :: fields)

/-! ### Session events -/

/-- `SessionInfo`. -/
def SessionInfo.serialize (session : SessionInfo) : Json :=
  .obj [("id", OpaqueId.serialize session.id), ("model", .str session.model)]

/-- `ProviderError`. -/
def ProviderError.serialize (error : ProviderError) : Json :=
  .obj [("type", .str error.type), ("code", Json.nullable .str error.code), ("message", .str error.message),
    ("param", Json.nullable .str error.param), ("event_id", Json.nullable OpaqueId.serialize error.eventId)]

/-- `RealtimeServerSessionEvent`. -/
def RealtimeServerSessionEvent.serialize : RealtimeServerSessionEvent → Json
  | .sessionCreated eventId session =>
    tagged "session.created" [("event_id", OpaqueId.serialize eventId), ("session", session.serialize)]
  | .sessionUpdated eventId session =>
    tagged "session.updated" [("event_id", OpaqueId.serialize eventId), ("session", session.serialize)]
  | .error eventId providerError =>
    tagged "error" [("event_id", OpaqueId.serialize eventId), ("error", providerError.serialize)]
  | .inputAudioBufferCommitted eventId itemId =>
    tagged "input_audio_buffer.committed"
      [("event_id", OpaqueId.serialize eventId), ("item_id", OpaqueId.serialize itemId)]
  | .inputAudioBufferCleared eventId =>
    tagged "input_audio_buffer.cleared" [("event_id", OpaqueId.serialize eventId)]
  | .inputAudioBufferSpeechStarted eventId audioStartMs =>
    tagged "input_audio_buffer.speech_started"
      [("event_id", OpaqueId.serialize eventId), ("audio_start_ms", serializeU64 audioStartMs)]
  | .inputAudioBufferSpeechStopped eventId audioEndMs =>
    tagged "input_audio_buffer.speech_stopped"
      [("event_id", OpaqueId.serialize eventId), ("audio_end_ms", serializeU64 audioEndMs)]
  | .conversationItemInputAudioTranscriptionDelta eventId itemId contentIndex delta =>
    tagged "conversation.item.input_audio_transcription.delta"
      [("event_id", OpaqueId.serialize eventId), ("item_id", OpaqueId.serialize itemId),
        ("content_index", serializeU32 contentIndex), ("delta", TranscriptText.serialize delta)]
  | .conversationItemInputAudioTranscriptionCompleted eventId itemId contentIndex transcript =>
    tagged "conversation.item.input_audio_transcription.completed"
      [("event_id", OpaqueId.serialize eventId), ("item_id", OpaqueId.serialize itemId),
        ("content_index", serializeU32 contentIndex), ("transcript", TranscriptText.serialize transcript)]

/-! ### Function events -/

/-- `FunctionCallOutputType`. -/
def FunctionCallOutputType.serialize : FunctionCallOutputType → Json
  | .functionCallOutput => .str "function_call_output"

/-- `FunctionCallOutputAckItem`. -/
def FunctionCallOutputAckItem.serialize (item : FunctionCallOutputAckItem) : Json :=
  .obj [("id", OpaqueId.serialize item.id), ("type", item.type.serialize), ("call_id", OpaqueId.serialize item.callId),
    ("output", ToolOutput.serialize item.output)]

/-- `RealtimeServerFunctionEvent`. -/
def RealtimeServerFunctionEvent.serialize : RealtimeServerFunctionEvent → Json
  | .functionCallArgumentsDelta eventId responseId itemId outputIndex callId delta =>
    tagged "response.function_call_arguments.delta"
      [("event_id", OpaqueId.serialize eventId), ("response_id", OpaqueId.serialize responseId),
        ("item_id", OpaqueId.serialize itemId), ("output_index", serializeU32 outputIndex),
        ("call_id", OpaqueId.serialize callId), ("delta", FunctionArguments.serialize delta)]
  | .functionCallArgumentsDone eventId responseId itemId outputIndex callId name arguments =>
    tagged "response.function_call_arguments.done"
      [("event_id", OpaqueId.serialize eventId), ("response_id", OpaqueId.serialize responseId),
        ("item_id", OpaqueId.serialize itemId), ("output_index", serializeU32 outputIndex),
        ("call_id", OpaqueId.serialize callId), ("name", .str name),
        ("arguments", FunctionArguments.serialize arguments)]
  | .conversationItemCreated eventId item =>
    tagged "conversation.item.created" [("event_id", OpaqueId.serialize eventId), ("item", item.serialize)]

/-! ### Response events -/

/-- `ResponseStatus::as_str`. -/
def ResponseStatus.asStr : ResponseStatus → String
  | .inProgress => "in_progress"
  | .completed => "completed"
  | .cancelled => "cancelled"
  | .failed => "failed"
  | .incomplete => "incomplete"

/-- `InterruptionReason::as_str`. -/
def InterruptionReason.asStr : InterruptionReason → String
  | .turnDetected => "turn_detected"
  | .clientCancelled => "client_cancelled"

/-- `ResponseStatus`. -/
def ResponseStatus.serialize (status : ResponseStatus) : Json := .str status.asStr

/-- `InterruptionReason`. -/
def InterruptionReason.serialize (reason : InterruptionReason) : Json := .str reason.asStr

/-- `ProviderErrorSummary`. -/
def ProviderErrorSummary.serialize (error : ProviderErrorSummary) : Json :=
  .obj [("type", .str error.type), ("code", Json.nullable .str error.code)]

/-- `ResponseStatusDetails`. -/
def ResponseStatusDetails.serialize (details : ResponseStatusDetails) : Json :=
  .obj [("reason", Json.nullable InterruptionReason.serialize details.reason),
    ("error", Json.nullable ProviderErrorSummary.serialize details.error)]

/-- `ResponseSummary`, which is valid here: the check before it is written does not fail. -/
def ResponseSummary.serialize (response : ResponseSummary) : Json :=
  .obj [("id", OpaqueId.serialize response.id), ("status", response.status.serialize),
    ("status_details", Json.nullable ResponseStatusDetails.serialize response.statusDetails)]

/-- `RealtimeServerResponseEvent`. -/
def RealtimeServerResponseEvent.serialize : RealtimeServerResponseEvent → Json
  | .responseDone eventId response =>
    tagged "response.done" [("event_id", OpaqueId.serialize eventId), ("response", response.serialize)]

/-! ### Audio events -/

/-- `RealtimeServerAudioEvent`. -/
def RealtimeServerAudioEvent.serialize (libs : Libraries) : RealtimeServerAudioEvent → Json
  | .outputAudioDelta eventId responseId itemId outputIndex contentIndex delta =>
    tagged "response.output_audio.delta"
      [("event_id", OpaqueId.serialize eventId), ("response_id", OpaqueId.serialize responseId),
        ("item_id", OpaqueId.serialize itemId), ("output_index", serializeU32 outputIndex),
        ("content_index", serializeU32 contentIndex), ("delta", G711Ulaw.serialize libs delta)]
  | .outputAudioDone eventId responseId itemId outputIndex contentIndex =>
    tagged "response.output_audio.done"
      [("event_id", OpaqueId.serialize eventId), ("response_id", OpaqueId.serialize responseId),
        ("item_id", OpaqueId.serialize itemId), ("output_index", serializeU32 outputIndex),
        ("content_index", serializeU32 contentIndex)]
  | .outputAudioTranscriptDelta eventId responseId itemId outputIndex contentIndex delta =>
    tagged "response.output_audio_transcript.delta"
      [("event_id", OpaqueId.serialize eventId), ("response_id", OpaqueId.serialize responseId),
        ("item_id", OpaqueId.serialize itemId), ("output_index", serializeU32 outputIndex),
        ("content_index", serializeU32 contentIndex), ("delta", TranscriptText.serialize delta)]
  | .outputAudioTranscriptDone eventId responseId itemId outputIndex contentIndex transcript =>
    tagged "response.output_audio_transcript.done"
      [("event_id", OpaqueId.serialize eventId), ("response_id", OpaqueId.serialize responseId),
        ("item_id", OpaqueId.serialize itemId), ("output_index", serializeU32 outputIndex),
        ("content_index", serializeU32 contentIndex), ("transcript", TranscriptText.serialize transcript)]

/-! ### Whole events -/

/-- `RealtimeServerEvent`. -/
def RealtimeServerEvent.serialize (libs : Libraries) : RealtimeServerEvent → Json
  | .session event => event.serialize
  | .audio event => event.serialize libs
  | .function event => event.serialize
  | .response event => event.serialize

end AgentVoice.Realtime

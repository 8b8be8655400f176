import AgentVoice.Realtime.Fields

/-!
# Function, response and audio events

The decoders of `src/realtime/server_function_events.rs`, `server_response_events.rs` and `server_audio_events.rs`.
Each takes the fields out of the object one by one and checks that none is left.
-/

namespace AgentVoice.Realtime

open AgentVoice.Foundations

/-! ### Function events -/

/-- `FunctionCallOutputType`. -/
inductive FunctionCallOutputType where
  | functionCallOutput
  deriving DecidableEq, Repr

/-- `FunctionCallOutputAckItem`. -/
structure FunctionCallOutputAckItem where
  id : OpaqueId
  type : FunctionCallOutputType
  callId : OpaqueId
  output : ToolOutput
  deriving DecidableEq

/-- `RealtimeServerFunctionEvent`. -/
inductive RealtimeServerFunctionEvent where
  | functionCallArgumentsDelta (eventId responseId itemId : OpaqueId) (outputIndex : UInt32) (callId : OpaqueId)
      (delta : FunctionArguments)
  | functionCallArgumentsDone (eventId responseId itemId : OpaqueId) (outputIndex : UInt32) (callId : OpaqueId)
      (name : String) (arguments : FunctionArguments)
  | conversationItemCreated (eventId : OpaqueId) (item : FunctionCallOutputAckItem)
  deriving DecidableEq

namespace FunctionEvents

variable (libs : Libraries)

/-- `parse_item_type`. -/
def parseItemType : Json → Decoded FunctionCallOutputType
  | .str value => if value = "function_call_output" then .ok .functionCallOutput else .error .unknownEventType
  | _ => .error .unknownEventType

/-- `parse_item`. -/
def parseItem (value : Json) : Decoded FunctionCallOutputAckItem := do
  let map ← object value
  Taking.from (do
    let id ← opaqueId (← required "id")
    let type ← parseItemType (← required "type")
    let callId ← opaqueId (← required "call_id")
    let output ← toolOutput (← required "output")
    finish
    return ⟨id, type, callId, output⟩) map

/-- The `match` of `parse_event` on the event type, with the type taken out of the object. -/
def parseKind : String → Taking RealtimeServerFunctionEvent
  | "response.function_call_arguments.delta" => do
    let eventId ← opaqueId (← required "event_id")
    let responseId ← opaqueId (← required "response_id")
    let itemId ← opaqueId (← required "item_id")
    let outputIndex ← index (← required "output_index")
    let callId ← opaqueId (← required "call_id")
    let delta ← argumentsDelta (← required "delta")
    finish
    return .functionCallArgumentsDelta eventId responseId itemId outputIndex callId delta
  | "response.function_call_arguments.done" => do
    let eventId ← opaqueId (← required "event_id")
    let responseId ← opaqueId (← required "response_id")
    let itemId ← opaqueId (← required "item_id")
    let outputIndex ← index (← required "output_index")
    let callId ← opaqueId (← required "call_id")
    let name ← string (← required "name")
    let arguments ← argumentsCompleted libs (← required "arguments")
    finish
    return .functionCallArgumentsDone eventId responseId itemId outputIndex callId name arguments
  | "conversation.item.created" => do
    let eventId ← opaqueId (← required "event_id")
    let item ← parseItem (← required "item")
    finish
    return .conversationItemCreated eventId item
  | _ => throw .unknownEventType

end FunctionEvents

/-! ### Response events -/

/-- `ResponseStatus`. -/
inductive ResponseStatus where
  | inProgress
  | completed
  | cancelled
  | failed
  | incomplete
  deriving DecidableEq, Repr

/-- `ResponseStatus::try_from`. -/
def ResponseStatus.tryFrom : String → Decoded ResponseStatus
  | "in_progress" => .ok .inProgress
  | "completed" => .ok .completed
  | "cancelled" => .ok .cancelled
  | "failed" => .ok .failed
  | "incomplete" => .ok .incomplete
  | _ => .error .invalidResponseStatus

/-- `InterruptionReason`. -/
inductive InterruptionReason where
  | turnDetected
  | clientCancelled
  deriving DecidableEq, Repr

/-- `InterruptionReason::try_from`. -/
def InterruptionReason.tryFrom : String → Decoded InterruptionReason
  | "turn_detected" => .ok .turnDetected
  | "client_cancelled" => .ok .clientCancelled
  | _ => .error .invalidInterruptionReason

/-- `ProviderErrorSummary`. -/
structure ProviderErrorSummary where
  type : String
  code : Option String
  deriving DecidableEq

/-- `ResponseStatusDetails`. -/
structure ResponseStatusDetails where
  reason : Option InterruptionReason
  error : Option ProviderErrorSummary
  deriving DecidableEq

/-- Only a cancelled response has an interruption reason. -/
def ValidSummary (status : ResponseStatus) (statusDetails : Option ResponseStatusDetails) : Prop :=
  status ≠ .cancelled → statusDetails.bind ResponseStatusDetails.reason = none

instance (status : ResponseStatus) (statusDetails : Option ResponseStatusDetails) :
    Decidable (ValidSummary status statusDetails) := inferInstanceAs (Decidable (_ → _))

/-- `ResponseSummary`, as `ResponseSummary::new` constructs it. -/
structure ResponseSummary where
  id : OpaqueId
  status : ResponseStatus
  statusDetails : Option ResponseStatusDetails
  valid : ValidSummary status statusDetails
  deriving DecidableEq

/-- `ResponseSummary::new`. -/
def ResponseSummary.new (id : OpaqueId) (status : ResponseStatus) (statusDetails : Option ResponseStatusDetails) :
    Decoded ResponseSummary :=
  if h : ValidSummary status statusDetails then .ok ⟨id, status, statusDetails, h⟩
  else .error .invalidInterruptionReason

/-- `RealtimeServerResponseEvent`. -/
inductive RealtimeServerResponseEvent where
  | responseDone (eventId : OpaqueId) (response : ResponseSummary)
  deriving DecidableEq

namespace ResponseEvents

/-- `parse_status`. -/
def parseStatus : Json → Decoded ResponseStatus
  | .str value => ResponseStatus.tryFrom value
  | _ => .error .invalidResponseStatus

/-- `parse_reason`. -/
def parseReason : Json → Decoded InterruptionReason
  | .str value => InterruptionReason.tryFrom value
  | _ => .error .invalidInterruptionReason

/-- `parse_provider_error`. -/
def parseProviderError (value : Json) : Decoded ProviderErrorSummary := do
  let map ← object value
  Taking.from (do
    let type ← string (← required "type")
    let code ← transpose string (← optional "code")
    finish
    return ⟨type, code⟩) map

/-- `parse_status_details`. -/
def parseStatusDetails (value : Json) : Decoded ResponseStatusDetails := do
  let map ← object value
  Taking.from (do
    let reason ← transpose parseReason (← optional "reason")
    let error ← transpose parseProviderError (← optional "error")
    finish
    return ⟨reason, error⟩) map

/-- `parse_response_summary`. -/
def parseResponseSummary (value : Json) : Decoded ResponseSummary := do
  let map ← object value
  Taking.from (do
    let id ← opaqueId (← required "id")
    let status ← parseStatus (← required "status")
    let statusDetails ← transpose parseStatusDetails (← optional "status_details")
    finish
    ResponseSummary.new id status statusDetails) map

/-- The `match` of `parse_event` on the event type, with the type taken out of the object. -/
def parseKind : String → Taking RealtimeServerResponseEvent
  | "response.done" => do
    let eventId ← opaqueId (← required "event_id")
    let response ← parseResponseSummary (← required "response")
    finish
    return .responseDone eventId response
  | _ => throw .unknownEventType

end ResponseEvents

/-! ### Audio events -/

/-- `RealtimeServerAudioEvent`. -/
inductive RealtimeServerAudioEvent where
  | outputAudioDelta (eventId responseId itemId : OpaqueId) (outputIndex contentIndex : UInt32) (delta : G711Ulaw)
  | outputAudioDone (eventId responseId itemId : OpaqueId) (outputIndex contentIndex : UInt32)
  | outputAudioTranscriptDelta (eventId responseId itemId : OpaqueId) (outputIndex contentIndex : UInt32)
      (delta : TranscriptText)
  | outputAudioTranscriptDone (eventId responseId itemId : OpaqueId) (outputIndex contentIndex : UInt32)
      (transcript : TranscriptText)
  deriving DecidableEq

namespace AudioEvents

variable (libs : Libraries)

/-- `index`: `serde_json::from_value::<u32>`, which takes the integers that fit. -/
def index : Json → Decoded UInt32
  | .int n => if 0 ≤ n ∧ n < 2 ^ 32 then .ok (.ofNat n.toNat) else .error .invalidJson
  | _ => .error .invalidJson

/-- The `match` of `parse_event` on the event type, with the type taken out of the object. -/
def parseKind : String → Taking RealtimeServerAudioEvent
  | "response.output_audio.delta" => do
    let eventId ← opaqueId (← required "event_id")
    let responseId ← opaqueId (← required "response_id")
    let itemId ← opaqueId (← required "item_id")
    let outputIndex ← index (← required "output_index")
    let contentIndex ← index (← required "content_index")
    let delta ← audio libs (← required "delta")
    finish
    return .outputAudioDelta eventId responseId itemId outputIndex contentIndex delta
  | "response.output_audio.done" => do
    let eventId ← opaqueId (← required "event_id")
    let responseId ← opaqueId (← required "response_id")
    let itemId ← opaqueId (← required "item_id")
    let outputIndex ← index (← required "output_index")
    let contentIndex ← index (← required "content_index")
    finish
    return .outputAudioDone eventId responseId itemId outputIndex contentIndex
  | "response.output_audio_transcript.delta" => do
    let eventId ← opaqueId (← required "event_id")
    let responseId ← opaqueId (← required "response_id")
    let itemId ← opaqueId (← required "item_id")
    let outputIndex ← index (← required "output_index")
    let contentIndex ← index (← required "content_index")
    let delta ← transcript (← required "delta")
    finish
    return .outputAudioTranscriptDelta eventId responseId itemId outputIndex contentIndex delta
  | "response.output_audio_transcript.done" => do
    let eventId ← opaqueId (← required "event_id")
    let responseId ← opaqueId (← required "response_id")
    let itemId ← opaqueId (← required "item_id")
    let outputIndex ← index (← required "output_index")
    let contentIndex ← index (← required "content_index")
    let transcript ← transcript (← required "transcript")
    finish
    return .outputAudioTranscriptDone eventId responseId itemId outputIndex contentIndex transcript
  | _ => throw .unknownEventType

end AudioEvents

/-! ### Whole events -/

/-- The frame of the three `parse_event`s: the type is taken out of the object, and decides the rest. -/
def parseTaken (parseKind : String → Taking α) (value : Json) : Decoded α := do
  let map ← object value
  Taking.from (do
    match ← remove "type" with
    | some (.str kind) => parseKind kind
    | _ => throw .unknownEventType) map

end AgentVoice.Realtime

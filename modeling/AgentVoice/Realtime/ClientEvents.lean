import AgentVoice.Realtime.Serialization

/-!
# Client events

The decoder and the encoder of `src/realtime/client_events.rs`. The decoder takes the fields out of an object one by
one, as those of the function, response and audio events do; the encoder leaves an absent value out.
-/

namespace AgentVoice.Realtime

open AgentVoice.Foundations

/-- `AudioCodec`. -/
inductive AudioCodec where
  | g711Ulaw
  deriving DecidableEq, Repr

/-- `AudioCodec::as_str`. -/
def AudioCodec.asStr : AudioCodec → String
  | .g711Ulaw => "g711_ulaw"

/-- `AudioCodec::try_from`. -/
def AudioCodec.tryFrom : String → Decoded AudioCodec
  | "g711_ulaw" => .ok .g711Ulaw
  | _ => .error .unsupportedAudioFormat

/-- `TurnDetection`. -/
abbrev TurnDetection := { type : String // type = "server_vad" ∨ type = "semantic_vad" }

/-- `TurnDetection::new`. -/
def TurnDetection.new (value : String) : Decoded TurnDetection :=
  if h : value = "server_vad" ∨ value = "semantic_vad" then .ok ⟨value, h⟩ else .error .invalidJson

/-- `SessionUpdatePayload`. -/
structure SessionUpdatePayload where
  model : String
  inputAudioFormat : AudioCodec
  outputAudioFormat : AudioCodec
  turnDetection : Option TurnDetection
  deriving DecidableEq

/-- `FunctionCallOutputItem`. -/
structure FunctionCallOutputItem where
  id : Option OpaqueId
  type : FunctionCallOutputType
  callId : OpaqueId
  output : ToolOutput
  deriving DecidableEq

/-- `RealtimeClientEvent`. -/
inductive RealtimeClientEvent where
  | sessionUpdate (eventId : Option OpaqueId) (session : SessionUpdatePayload)
  | inputAudioBufferAppend (eventId : Option OpaqueId) (audio : G711Ulaw)
  | inputAudioBufferCommit (eventId : Option OpaqueId)
  | inputAudioBufferClear (eventId : Option OpaqueId)
  | responseCancel (eventId : Option OpaqueId)
  | conversationItemCreate (eventId : Option OpaqueId) (item : FunctionCallOutputItem)
  deriving DecidableEq

namespace ClientEvents

variable (libs : Libraries)

/-! ### Decoding -/

/-- `optional_opaque_id`, of a removed field. -/
def optionalOpaqueId (field : String) : Taking (Option OpaqueId) := do
  let value ← optional field
  transpose opaqueId value

/-- `codec`. -/
def codec : Json → Decoded AudioCodec
  | .str value => replaceError (AudioCodec.tryFrom value) .unsupportedAudioFormat
  | _ => .error .unsupportedAudioFormat

/-- `parse_turn_detection`. -/
def parseTurnDetection (value : Json) : Decoded TurnDetection := do
  let map ← object value
  Taking.from (do
    let kind ← string (← required "type")
    finish
    TurnDetection.new kind) map

/-- `parse_session`. -/
def parseSession (value : Json) : Decoded SessionUpdatePayload := do
  let map ← object value
  Taking.from (do
    let model ← string (← required "model")
    let inputAudioFormat ← codec (← required "input_audio_format")
    let outputAudioFormat ← codec (← required "output_audio_format")
    let turnDetection ← transpose parseTurnDetection (← optional "turn_detection")
    finish
    return ⟨model, inputAudioFormat, outputAudioFormat, turnDetection⟩) map

/-- `parse_item`. -/
def parseItem (value : Json) : Decoded FunctionCallOutputItem := do
  let map ← object value
  Taking.from (do
    let id ← optionalOpaqueId "id"
    let type ← FunctionEvents.parseItemType (← required "type")
    let callId ← opaqueId (← required "call_id")
    let output ← toolOutput (← required "output")
    finish
    return ⟨id, type, callId, output⟩) map

/-- The `match` of `parse_event` on the event type, with the type taken out of the object. -/
def parseKind : String → Taking RealtimeClientEvent
  | "session.update" => do
    let eventId ← optionalOpaqueId "event_id"
    let session ← parseSession (← required "session")
    finish
    return .sessionUpdate eventId session
  | "input_audio_buffer.append" => do
    let eventId ← optionalOpaqueId "event_id"
    let audio ← audio libs (← required "audio")
    finish
    return .inputAudioBufferAppend eventId audio
  | "input_audio_buffer.commit" => do
    let eventId ← optionalOpaqueId "event_id"
    finish
    return .inputAudioBufferCommit eventId
  | "input_audio_buffer.clear" => do
    let eventId ← optionalOpaqueId "event_id"
    finish
    return .inputAudioBufferClear eventId
  | "response.cancel" => do
    let eventId ← optionalOpaqueId "event_id"
    finish
    return .responseCancel eventId
  | "conversation.item.create" => do
    let eventId ← optionalOpaqueId "event_id"
    let item ← parseItem (← required "item")
    finish
    return .conversationItemCreate eventId item
  | _ => throw .unknownEventType

end ClientEvents

/-- `serde_json::from_slice` with the `Deserialize` implementation of `RealtimeClientEvent`, which reads a
`serde_json::Value`. -/
def decodeClientEvent (libs : Libraries) (bytes : List UInt8) : Decoded RealtimeClientEvent := do
  let value ← okOr ((libs.read bytes).map Json.lastValues) .invalidJson
  parseTaken (ClientEvents.parseKind libs) value

/-! ### Encoding -/

/-- `AudioCodec`. -/
def AudioCodec.serialize (codec : AudioCodec) : Json := .str codec.asStr

/-- `TurnDetection`. -/
def TurnDetection.serialize (detection : TurnDetection) : Json := .obj [("type", .str detection.val)]

/-- `SessionUpdatePayload`. -/
def SessionUpdatePayload.serialize (session : SessionUpdatePayload) : Json :=
  .obj (("model", .str session.model) :: ("input_audio_format", session.inputAudioFormat.serialize) ::
    ("output_audio_format", session.outputAudioFormat.serialize) ::
    Json.skipNone "turn_detection" TurnDetection.serialize session.turnDetection)

/-- `FunctionCallOutputItem`. -/
def FunctionCallOutputItem.serialize (item : FunctionCallOutputItem) : Json :=
  .obj (Json.skipNone "id" OpaqueId.serialize item.id ++
    [("type", item.type.serialize), ("call_id", OpaqueId.serialize item.callId),
      ("output", ToolOutput.serialize item.output)])

/-- The frame of the encodings: the type, the event identifier where there is one, and the other fields. -/
def taggedWithId (kind : String) (eventId : Option OpaqueId) (fields : JsonObject) : Json :=
  tagged kind (Json.skipNone "event_id" OpaqueId.serialize eventId ++ fields)

/-- `RealtimeClientEvent`. -/
def RealtimeClientEvent.serialize (libs : Libraries) : RealtimeClientEvent → Json
  | .sessionUpdate eventId session => taggedWithId "session.update" eventId [("session", session.serialize)]
  | .inputAudioBufferAppend eventId audio =>
    taggedWithId "input_audio_buffer.append" eventId [("audio", G711Ulaw.serialize libs audio)]
  | .inputAudioBufferCommit eventId => taggedWithId "input_audio_buffer.commit" eventId []
  | .inputAudioBufferClear eventId => taggedWithId "input_audio_buffer.clear" eventId []
  | .responseCancel eventId => taggedWithId "response.cancel" eventId []
  | .conversationItemCreate eventId item =>
    taggedWithId "conversation.item.create" eventId [("item", item.serialize)]

end AgentVoice.Realtime

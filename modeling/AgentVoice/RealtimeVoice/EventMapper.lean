import AgentVoice.Accounting.Usage
import AgentVoice.Foundations.Machine
import AgentVoice.Foundations.Text

/-!
# Mapping provider events

`EventMapper` turns the JSON events of a provider into `RealtimeEvent`s: it collects the transcripts of the caller
and of the assistant until they are final, and remembers whether a response is active and which item it is. The
decoder of base64 text is a parameter.
-/

namespace AgentVoice.RealtimeVoice

open AgentVoice.Foundations AgentVoice.Accounting

/-- `RealtimeAdapter`, without the connection settings, which no event depends on. -/
inductive RealtimeAdapter where
  | openAi
  | xai
  deriving DecidableEq, Repr

/-- `RealtimeEvent`. -/
inductive RealtimeEvent where
  | audioDelta (audio : List UInt8) (itemId : Option String)
  | inputTranscript (text : String) (finalText : Bool)
  | outputTranscript (text : String) (finalText : Bool)
  | speechStarted
  | responseDone (usage : Option TokenUsage)
  | error (errorType code : Option String)
  deriving DecidableEq, Repr

/-- The kinds of provider events the mapper knows. -/
inductive EventKind where
  | responseCreated
  | outputItemAdded
  | transcriptionDelta
  | transcriptionUpdated
  | transcriptionCompleted
  | transcriptionFailed
  | outputAudioDelta
  | outputTranscriptDelta
  | outputTranscriptDone
  | speechStarted
  | responseDone
  | error
  deriving DecidableEq, Repr

/-- The `type` of an event of a kind. -/
def EventKind.name : EventKind → String
  | .responseCreated => "response.created"
  | .outputItemAdded => "response.output_item.added"
  | .transcriptionDelta => "conversation.item.input_audio_transcription.delta"
  | .transcriptionUpdated => "conversation.item.input_audio_transcription.updated"
  | .transcriptionCompleted => "conversation.item.input_audio_transcription.completed"
  | .transcriptionFailed => "conversation.item.input_audio_transcription.failed"
  | .outputAudioDelta => "response.output_audio.delta"
  | .outputTranscriptDelta => "response.output_audio_transcript.delta"
  | .outputTranscriptDone => "response.output_audio_transcript.done"
  | .speechStarted => "input_audio_buffer.speech_started"
  | .responseDone => "response.done"
  | .error => "error"

/-- All kinds. -/
def EventKind.all : List EventKind :=
  [.responseCreated, .outputItemAdded, .transcriptionDelta, .transcriptionUpdated, .transcriptionCompleted,
    .transcriptionFailed, .outputAudioDelta, .outputTranscriptDelta, .outputTranscriptDone, .speechStarted,
    .responseDone, .error]

/-- The kind of an event; other events are ignored. -/
def kind (event : Json) : Option EventKind :=
  (event.strAt "type").bind fun name => EventKind.all.find? fun k => k.name == name

/-- `EventMapper`. -/
structure EventMapper where
  adapter : RealtimeAdapter
  inputPending : String
  outputPending : String
  responseActive : Bool
  responseItemId : Option String
  deriving DecidableEq, Repr

namespace EventMapper

/-- `EventMapper::new`. -/
def new (adapter : RealtimeAdapter) : EventMapper := ⟨adapter, "", "", false, none⟩

/-- `EventMapper::finalize_input`. -/
def finalizeInput (m : EventMapper) : List RealtimeEvent × EventMapper :=
  (if IsBlank m.inputPending then [] else [.inputTranscript m.inputPending true], { m with inputPending := "" })

/-- What xAI finalizes when a response begins. -/
def finalizeXai (m : EventMapper) : List RealtimeEvent × EventMapper :=
  match m.adapter with
  | .openAi => ([], m)
  | .xai => m.finalizeInput

/-- `EventMapper::ready_for_output`. -/
def readyForOutput (m : EventMapper) : List RealtimeEvent × EventMapper :=
  { m with responseActive := true }.finalizeXai

/-- The transcript of the response is final. -/
def finalizeOutput (m : EventMapper) : List RealtimeEvent × EventMapper :=
  if m.outputPending = "" then ([], m)
  else ([.outputTranscript m.outputPending true], { m with outputPending := "" })

/-- `EventMapper::map`, for an event of a kind. -/
def mapKind (base64 : String → Option (List UInt8)) (event : Json) (m : EventMapper) :
    EventKind → List RealtimeEvent × EventMapper
  | .responseCreated => { m with responseActive := true, responseItemId := none }.finalizeXai
  | .outputItemAdded => ([], { m with responseItemId := (event.get "item").bind (Json.strAt "id") })
  | .transcriptionDelta =>
    match event.strAt "delta" with
    | some delta =>
      ([.inputTranscript (m.inputPending ++ delta) false], { m with inputPending := m.inputPending ++ delta })
    | none => ([], m)
  | .transcriptionUpdated =>
    match ((event.get "transcript").or (event.get "text")).bind Json.asStr with
    | some text => ([.inputTranscript text false], { m with inputPending := text })
    | none => ([], m)
  | .transcriptionCompleted =>
    match event.strAt "transcript", m.adapter with
    | some text, _ => ([.inputTranscript text true], { m with inputPending := "" })
    | none, .xai => ([], { m with inputPending := "" })
    | none, .openAi => ([], m)
  | .transcriptionFailed => ([.error (some "transcription_failed") none], m)
  | .outputAudioDelta =>
    let (mapped, m) := m.readyForOutput
    match event.strAt "delta" with
    | none => (mapped, m)
    | some delta =>
      match base64 delta with
      | some audio => (mapped ++ [.audioDelta audio ((event.strAt "item_id").or m.responseItemId)], m)
      | none => (mapped ++ [.error (some "invalid_audio") none], m)
  | .outputTranscriptDelta =>
    let (mapped, m) := m.readyForOutput
    match event.strAt "delta" with
    | some delta =>
      (mapped ++ [.outputTranscript (m.outputPending ++ delta) false],
        { m with outputPending := m.outputPending ++ delta })
    | none => (mapped, m)
  | .outputTranscriptDone =>
    match event.strAt "transcript" with
    | some text => ([.outputTranscript text true], { m with outputPending := "" })
    | none => ([], m)
  | .speechStarted => ([.speechStarted], m)
  | .responseDone =>
    let (input, m) := m.finalizeInput
    let (output, m) := m.finalizeOutput
    let usage := ((event.get "response").bind (Json.get "usage")).map fun usage => extractUsage (.obj [("usage", usage)])
    (input ++ output ++ [.responseDone usage], { m with responseActive := false, responseItemId := none })
  | .error =>
    let error := (event.get "error").getD event
    ([.error (error.strAt "type") (error.strAt "code")], m)

/-- `EventMapper::map`. -/
def map (base64 : String → Option (List UInt8)) (event : Json) (m : EventMapper) : List RealtimeEvent × EventMapper :=
  match kind event with
  | some k => m.mapKind base64 event k
  | none => ([], m)

/-- The mapper after a list of events. -/
def run (base64 : String → Option (List UInt8)) (events : List Json) (m : EventMapper) : EventMapper :=
  Machine.run (fun event m => (m.map base64 event).2) events m

/-- What a list of events is mapped to. -/
def mapped (base64 : String → Option (List UInt8)) (events : List Json) (m : EventMapper) : List RealtimeEvent :=
  Machine.outputs (fun event m => (m.map base64 event).2) (fun event m => (m.map base64 event).1) events m

end EventMapper

end AgentVoice.RealtimeVoice

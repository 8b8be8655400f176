import AgentVoice.Foundations.Bytes
import AgentVoice.Foundations.JsonKeys

/-!
# Values of realtime events

The bounded values of `src/realtime/values.rs`, each a subtype of what its constructor accepts. Reading JSON and
base64 is left to their libraries.
-/

namespace AgentVoice.Realtime

open AgentVoice.Foundations

/-- The libraries of the decoders. -/
structure Libraries where
  /-- What `serde_json` shows a visitor of a text: every entry of every object, in order. -/
  read : List UInt8 → Option Json
  /-- `BASE64_STANDARD.decode`. -/
  base64Decode : String → Option (List UInt8)
  /-- `BASE64_STANDARD.encode`. -/
  base64Encode : List UInt8 → String

/-- `MAX_EVENT_BYTES`. -/
def maxEventBytes : ℕ := 65536

/-- `MAX_ID_BYTES`. -/
def maxIdBytes : ℕ := 128

/-- `MAX_TRANSCRIPT_SCALARS`. -/
def maxTranscriptScalars : ℕ := 4096

/-- `MAX_VALUE_BYTES`. -/
def maxValueBytes : ℕ := 16384

/-- `MAX_AUDIO_BASE64_CHARS`. -/
def maxAudioBase64Chars : ℕ := 21848

/-- `RealtimeValueError`. -/
inductive RealtimeValueError where
  | eventTooLarge
  | invalidJson
  | unknownEventType
  | missingField (field : String)
  | invalidOpaqueId
  | emptyAudio
  | invalidBase64
  | audioTooLarge
  | transcriptTooLong
  | argumentsTooLong
  | invalidArgumentsJson
  | toolOutputTooLong
  | unsupportedAudioFormat
  | invalidResponseStatus
  | invalidInterruptionReason
  deriving DecidableEq, Repr

/-- What the decoders return. -/
abbrev Decoded (α : Type) := Except RealtimeValueError α

/-- What an opaque identifier is made of. -/
def IsOpaqueId (value : String) : Prop :=
  value ≠ "" ∧ byteLength value ≤ maxIdBytes ∧ isAscii value = true ∧
    value.toList.all (fun c => isAsciiAlphanumeric c || c ∈ ['-', '_', '.', ':']) = true

instance (value : String) : Decidable (IsOpaqueId value) := inferInstanceAs (Decidable (_ ∧ _))

/-- `OpaqueId`. -/
abbrev OpaqueId := { value : String // IsOpaqueId value }

/-- `OpaqueId::new`. -/
def OpaqueId.new (value : String) : Decoded OpaqueId :=
  if h : IsOpaqueId value then .ok ⟨value, h⟩ else .error .invalidOpaqueId

/-- `TranscriptText`. -/
abbrev TranscriptText := { value : String // value.length ≤ maxTranscriptScalars }

/-- `TranscriptText::new`. -/
def TranscriptText.new (value : String) : Decoded TranscriptText :=
  if h : value.length ≤ maxTranscriptScalars then .ok ⟨value, h⟩ else .error .transcriptTooLong

/-- `FunctionArguments`. -/
abbrev FunctionArguments := { value : String // byteLength value ≤ maxValueBytes }

/-- `FunctionArguments::from_delta`. -/
def FunctionArguments.fromDelta (value : String) : Decoded FunctionArguments :=
  if h : byteLength value ≤ maxValueBytes then .ok ⟨value, h⟩ else .error .argumentsTooLong

/-- `FunctionArguments::from_completed`: the text must be one JSON object. -/
def FunctionArguments.fromCompleted (libs : Libraries) (value : String) : Decoded FunctionArguments :=
  if h : byteLength value ≤ maxValueBytes then
    match libs.read (utf8 value) with
    | some (.obj _) => .ok ⟨value, h⟩
    | _ => .error .invalidArgumentsJson
  else .error .argumentsTooLong

/-- `ToolOutput`. -/
abbrev ToolOutput := { value : String // byteLength value ≤ maxValueBytes }

/-- `ToolOutput::new`. -/
def ToolOutput.new (value : String) : Decoded ToolOutput :=
  if h : byteLength value ≤ maxValueBytes then .ok ⟨value, h⟩ else .error .toolOutputTooLong

/-- `G711Ulaw`. -/
abbrev G711Ulaw := { bytes : List UInt8 // bytes ≠ [] ∧ bytes.length ≤ maxValueBytes }

/-- `G711Ulaw::from_base64`. -/
def G711Ulaw.fromBase64 (libs : Libraries) (value : String) : Decoded G711Ulaw :=
  if maxAudioBase64Chars < byteLength value then .error .audioTooLarge
  else if value = "" ∨ isAscii value = false then .error .invalidBase64
  else
    match libs.base64Decode value with
    | none => .error .invalidBase64
    | some decoded =>
      if hsize : decoded.length ≤ maxValueBytes then
        if hcanonical : decoded ≠ [] ∧ libs.base64Encode decoded = value then .ok ⟨decoded, hcanonical.1, hsize⟩
        else .error .invalidBase64
      else .error .audioTooLarge

end AgentVoice.Realtime

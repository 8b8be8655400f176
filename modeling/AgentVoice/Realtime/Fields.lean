import AgentVoice.Foundations.Result
import AgentVoice.Realtime.Values

/-!
# Fields of an event object

The helpers with which the decoders of `src/realtime` take an object apart. A decoder takes one field after another
out of the object and checks at its end that nothing is left; the decoder of the session events reads the fields in
place.
-/

namespace AgentVoice.Realtime

open AgentVoice.Foundations

/-- A decoder that takes fields out of an object. -/
abbrev Taking (α : Type) := StateT JsonObject (Except RealtimeValueError) α

/-- `object`. -/
def object : Json → Decoded JsonObject
  | .obj fields => .ok fields
  | _ => .error .invalidJson

/-- `Map::remove`. -/
def remove (field : String) : Taking (Option Json) := fun fields => .ok (fields.lookup field, fields.erase field)

/-- `required`. -/
def required (field : String) : Taking Json := do
  match ← remove field with
  | none | some .null => throw (.missingField field)
  | some value => return value

/-- `optional`, of a removed field. -/
def optional (field : String) : Taking (Option Json) := do
  match ← remove field with
  | none | some .null => return none
  | some value => return some value

/-- `finish`. -/
def finish : Taking Unit := do
  if (← get).isEmpty then return () else throw .invalidJson

/-- Whether `ensure_fields` accepts the keys of an object. -/
def ensureFields (fields : JsonObject) (allowed : List String) : Decoded Unit :=
  require (∀ field ∈ fields.keys, field ∈ allowed) .invalidJson

/-- Takes an object apart. -/
def Taking.from (decoder : Taking α) (fields : JsonObject) : Decoded α := (decoder.run fields).map Prod.fst

theorem from_pure (a : α) (map : JsonObject) : (pure a : Taking α).from map = .ok a := rfl

theorem from_lift_bind (x : Decoded α) (k : α → Taking β) (map : JsonObject) :
    (liftM x >>= k : Taking β).from map = x >>= fun a => (k a).from map := by
  cases x <;> rfl

theorem from_map (f : α → β) (decoder : Taking α) (map : JsonObject) :
    (f <$> decoder).from map = f <$> decoder.from map := by
  simp only [Taking.from, StateT.run_map]
  cases decoder.run map <;> rfl

theorem from_remove_bind (field : String) (k : Option Json → Taking α) (map : JsonObject) :
    (remove field >>= k).from map = (k (map.lookup field)).from (map.erase field) := rfl

theorem from_finish_bind (k : Unit → Taking α) (map : JsonObject) :
    (finish >>= k).from map = if map.isEmpty then (k ()).from map else .error .invalidJson := by
  cases map <;> rfl

/-! ### Values -/

/-- `string`. -/
def string : Json → Decoded String
  | .str value => .ok value
  | _ => .error .invalidJson

/-- `opaque_id`. -/
def opaqueId : Json → Decoded OpaqueId
  | .str value => OpaqueId.new value
  | _ => .error .invalidOpaqueId

/-- `index`. -/
def index (value : Json) : Decoded UInt32 :=
  match value.asU64 with
  | some n => if n < 2 ^ 32 then .ok (.ofNat n) else .error .invalidJson
  | none => .error .invalidJson

/-- `timestamp`. -/
def timestamp (value : Json) : Decoded UInt64 :=
  match value.asU64 with
  | some n => .ok (.ofNat n)
  | none => .error .invalidJson

/-- `transcript`. -/
def transcript : Json → Decoded TranscriptText
  | .str value => TranscriptText.new value
  | _ => .error .invalidJson

/-- `audio`: the error of the base64 value is recognised by its text. -/
def audio (libs : Libraries) : Json → Decoded G711Ulaw
  | .str value =>
    match G711Ulaw.fromBase64 libs value with
    | .ok audio => .ok audio
    | .error .audioTooLarge => .error .audioTooLarge
    | .error .emptyAudio => .error .emptyAudio
    | .error _ => .error .invalidBase64
  | _ => .error .invalidBase64

/-- `arguments_delta`. -/
def argumentsDelta : Json → Decoded FunctionArguments
  | .str value => FunctionArguments.fromDelta value
  | _ => .error .invalidJson

/-- `arguments_completed`. -/
def argumentsCompleted (libs : Libraries) : Json → Decoded FunctionArguments
  | .str value => FunctionArguments.fromCompleted libs value
  | _ => .error .invalidJson

/-- `tool_output`. -/
def toolOutput : Json → Decoded ToolOutput
  | .str value => ToolOutput.new value
  | _ => .error .invalidJson

end AgentVoice.Realtime

import AgentVoice.Foundations.Result

/-!
# The YAML event reader

The reader of `src/config/yaml_events.rs`. What libyaml delivers is a list of its own events, one for
each call of `yaml_parser_parse`; where the list ends, the call fails. The reader turns each into an
event of the application, and is inert after the end of the stream.
-/

namespace AgentVoice.Config

/-- `YamlScalarStyle`. -/
inductive YamlScalarStyle where
  | plain | singleQuoted | doubleQuoted | literal | folded
  deriving DecidableEq, Repr

/-- `YamlEvent`. -/
inductive YamlEvent where
  | streamStart
  | streamEnd
  | documentStart
  | documentEnd
  | mappingStart (flow anchored tagged : Bool)
  | mappingEnd
  | sequenceStart (flow anchored tagged : Bool)
  | sequenceEnd
  | alias
  | scalar (value : List UInt8) (style : YamlScalarStyle) (anchored tagged : Bool)
  deriving DecidableEq

/-! ### libyaml's events -/

/-- `yaml_scalar_style_t`; the parser delivers no scalar in the style `any`. -/
inductive RawScalarStyle where
  | any | plain | singleQuoted | doubleQuoted | literal | folded
  deriving DecidableEq

/-- `data.scalar` of an event: the value, with an anchor and a tag where the pointers are not null. -/
structure RawScalar where
  value : List UInt8
  style : RawScalarStyle
  anchor : Option (List UInt8)
  tag : Option (List UInt8)
  deriving DecidableEq

/-- `data.mapping_start` and `data.sequence_start` of an event. -/
structure RawCollection where
  flow : Bool
  anchor : Option (List UInt8)
  tag : Option (List UInt8)
  deriving DecidableEq

/-- `yaml_event_t`. -/
inductive RawEvent where
  | noEvent
  | streamStart
  | streamEnd
  | documentStart
  | documentEnd
  | alias (anchor : List UInt8)
  | scalar (data : RawScalar)
  | sequenceStart (data : RawCollection)
  | sequenceEnd
  | mappingStart (data : RawCollection)
  | mappingEnd
  deriving DecidableEq

/-- `PARSE_ERROR`. -/
def parseError : String := "config YAML event reader: parse_failed"

/-- `scalar_style`. -/
def scalarStyle : RawScalarStyle → Except String YamlScalarStyle
  | .plain => .ok .plain
  | .singleQuoted => .ok .singleQuoted
  | .doubleQuoted => .ok .doubleQuoted
  | .literal => .ok .literal
  | .folded => .ok .folded
  | .any => .error parseError

/-- `convert_event`, with whether the stream has ended. -/
def convertEvent : RawEvent → Except String (YamlEvent × Bool)
  | .streamStart => .ok (.streamStart, false)
  | .streamEnd => .ok (.streamEnd, true)
  | .documentStart => .ok (.documentStart, false)
  | .documentEnd => .ok (.documentEnd, false)
  | .alias _ => .ok (.alias, false)
  | .mappingEnd => .ok (.mappingEnd, false)
  | .sequenceEnd => .ok (.sequenceEnd, false)
  | .mappingStart data => .ok (.mappingStart data.flow data.anchor.isSome data.tag.isSome, false)
  | .sequenceStart data => .ok (.sequenceStart data.flow data.anchor.isSome data.tag.isSome, false)
  | .scalar data => do
    let style ← scalarStyle data.style
    return (.scalar data.value style data.anchor.isSome data.tag.isSome, false)
  | .noEvent => .error parseError

/-! ### The reader -/

/-- `YamlEventReader`, by what its parser still delivers. -/
structure YamlEventReader where
  delivered : List RawEvent
  finished : Bool

/-- `YamlEventReader::next`. -/
def YamlEventReader.next (reader : YamlEventReader) : Except String (Option YamlEvent × YamlEventReader) :=
  if reader.finished then .ok (none, reader)
  else
    match reader.delivered with
    | [] => .error parseError
    | raw :: delivered => do
      let (event, streamEnd) ← convertEvent raw
      return (some event, { delivered, finished := streamEnd })

theorem YamlEventReader.next_finished (delivered : List RawEvent) :
    (⟨delivered, true⟩ : YamlEventReader).next = .ok (none, ⟨delivered, true⟩) := rfl

theorem YamlEventReader.next_cons {raw : RawEvent} {event : YamlEvent} {streamEnd : Bool}
    (h : convertEvent raw = .ok (event, streamEnd)) (delivered : List RawEvent) :
    (⟨raw :: delivered, false⟩ : YamlEventReader).next = .ok (some event, ⟨delivered, streamEnd⟩) := by
  simp [YamlEventReader.next, h]

/-- Every event takes one off what the parser delivers. -/
theorem YamlEventReader.length_of_next {reader reader' : YamlEventReader} {event : YamlEvent}
    (h : reader.next = .ok (some event, reader')) :
    reader'.delivered.length < reader.delivered.length := by
  unfold YamlEventReader.next at h
  split_ifs at h with hfinished
  · cases h
  · cases hdelivered : reader.delivered with
    | nil =>
      rw [hdelivered] at h
      cases h
    | cons raw delivered =>
      rw [hdelivered] at h
      obtain ⟨⟨event', streamEnd⟩, -, hnext⟩ := Foundations.bind_eq_ok_iff.mp h
      cases hnext
      exact Nat.lt_succ_self _

end AgentVoice.Config

import AgentVoice.Realtime.ParserAgreement

/-!
# Agreement on texts

`decode_server_event` refuses a text in which an object repeats a key, and so does the decoder of the audio events.
The decoders of the other groups read a value in which the last entry of a key counts: they decode such a text when
this value is an event of theirs (`IsEventOf`). These are the texts on which the decoders differ
(`decoders_agree_iff`).
-/

namespace AgentVoice.Realtime

open AgentVoice.Foundations

variable (libs : Libraries)

/-! ### The fields of an event -/

/-- Whether a check of a value accepts it. -/
def accepts {α : Type} (parse : Json → Decoded α) (value : Json) : Bool := (parse value).isOk

/-- The fields of an object, each with the check of its value. -/
abbrev Schema := List (String × (Json → Bool))

/-- The object has the fields of the schema, none of them null, and no others. -/
def HasFields (schema : Schema) (map : JsonObject) : Prop :=
  (∀ key ∈ map.keys, key ∈ schema.map Prod.fst) ∧
    ∀ field ∈ schema, ∃ value, map.lookup field.1 = some value ∧ value ≠ .null ∧ field.2 value = true

/-- The fields of the events of a type, beside the type. -/
def eventFields : String → Schema
  | "session.created" | "session.updated" =>
    [("event_id", accepts ServerEvents.sessionOpaqueId), ("session", accepts ServerEvents.parseSessionInfo)]
  | "error" =>
    [("event_id", accepts ServerEvents.sessionOpaqueId), ("error", accepts ServerEvents.parseProviderError)]
  | "input_audio_buffer.committed" =>
    [("event_id", accepts ServerEvents.sessionOpaqueId), ("item_id", accepts ServerEvents.sessionOpaqueId)]
  | "input_audio_buffer.cleared" => [("event_id", accepts ServerEvents.sessionOpaqueId)]
  | "input_audio_buffer.speech_started" =>
    [("event_id", accepts ServerEvents.sessionOpaqueId), ("audio_start_ms", accepts timestamp)]
  | "input_audio_buffer.speech_stopped" =>
    [("event_id", accepts ServerEvents.sessionOpaqueId), ("audio_end_ms", accepts timestamp)]
  | "conversation.item.input_audio_transcription.delta" =>
    [("event_id", accepts ServerEvents.sessionOpaqueId), ("item_id", accepts ServerEvents.sessionOpaqueId),
      ("content_index", accepts index), ("delta", accepts transcript)]
  | "conversation.item.input_audio_transcription.completed" =>
    [("event_id", accepts ServerEvents.sessionOpaqueId), ("item_id", accepts ServerEvents.sessionOpaqueId),
      ("content_index", accepts index), ("transcript", accepts transcript)]
  | "response.output_audio.delta" =>
    [("event_id", accepts opaqueId), ("response_id", accepts opaqueId), ("item_id", accepts opaqueId),
      ("output_index", accepts index), ("content_index", accepts index), ("delta", accepts (audio libs))]
  | "response.output_audio.done" =>
    [("event_id", accepts opaqueId), ("response_id", accepts opaqueId), ("item_id", accepts opaqueId),
      ("output_index", accepts index), ("content_index", accepts index)]
  | "response.output_audio_transcript.delta" =>
    [("event_id", accepts opaqueId), ("response_id", accepts opaqueId), ("item_id", accepts opaqueId),
      ("output_index", accepts index), ("content_index", accepts index), ("delta", accepts transcript)]
  | "response.output_audio_transcript.done" =>
    [("event_id", accepts opaqueId), ("response_id", accepts opaqueId), ("item_id", accepts opaqueId),
      ("output_index", accepts index), ("content_index", accepts index), ("transcript", accepts transcript)]
  | "response.function_call_arguments.delta" =>
    [("event_id", accepts opaqueId), ("response_id", accepts opaqueId), ("item_id", accepts opaqueId),
      ("output_index", accepts index), ("call_id", accepts opaqueId), ("delta", accepts argumentsDelta)]
  | "response.function_call_arguments.done" =>
    [("event_id", accepts opaqueId), ("response_id", accepts opaqueId), ("item_id", accepts opaqueId),
      ("output_index", accepts index), ("call_id", accepts opaqueId), ("name", accepts string),
      ("arguments", accepts (argumentsCompleted libs))]
  | "conversation.item.created" =>
    [("event_id", accepts opaqueId), ("item", accepts ServerEvents.parseFunctionItem)]
  | "response.done" =>
    [("event_id", accepts opaqueId), ("response", accepts ServerEvents.parseResponseSummary)]
  | _ => []

/-- The value is an event of the group: its type is one of the group's, and it has the fields of this type. -/
def IsEventOf (group : EventGroup) (value : Json) : Prop :=
  ∃ (map : JsonObject) (kind : String), value = .obj map ∧ map.lookup "type" = some (.str kind) ∧ groupOf kind = some group ∧
    HasFields (eventFields libs kind) (map.erase "type")

/-! ### What takes the fields of a schema -/

/-- The decoder succeeds on the objects of the schema. -/
def Takes {α : Type} (decoder : Taking α) (schema : Schema) : Prop :=
  ∀ map, (∃ a, decoder.from map = .ok a) ↔ HasFields schema map

theorem accepts_iff {α : Type} {parse : Json → Decoded α} {value : Json} :
    accepts parse value = true ↔ ∃ a, parse value = .ok a := by
  rw [accepts]
  cases parse value with
  | error e => exact iff_of_false (by simp [Except.isOk, Except.toBool]) nofun
  | ok a => exact iff_of_true rfl ⟨a, rfl⟩

theorem hasFields_nil_iff {map : JsonObject} : HasFields [] map ↔ map.isEmpty = true := by
  constructor
  · exact fun h => isEmpty_of_ensured h.1
  · intro h
    obtain rfl := List.isEmpty_iff.mp h
    exact ⟨fun _ hkey => absurd hkey List.not_mem_nil, fun _ hfield => absurd hfield List.not_mem_nil⟩

/-- An object of a schema is one with its first field that without this field is of the rest. -/
theorem hasFields_cons_iff {field : String} {check : Json → Bool} {schema : Schema}
    (hnew : field ∉ schema.map Prod.fst) {map : JsonObject} :
    HasFields ((field, check) :: schema) map ↔
      (∃ value, map.lookup field = some value ∧ value ≠ .null ∧ check value = true) ∧
        HasFields schema (map.erase field) := by
  have hrest : ∀ name check, (name, check) ∈ schema → (map.erase field).lookup name = map.lookup name := by
    intro name check hmem
    refine JsonObject.lookup_erase_of_ne ?_ map
    rintro rfl
    exact hnew (List.mem_map_of_mem hmem)
  constructor
  · rintro ⟨hkeys, hfields⟩
    refine ⟨hfields _ List.mem_cons_self, ensured_erase hkeys, ?_⟩
    rintro ⟨name, check⟩ hmem
    obtain ⟨value, hvalue, hvalid⟩ := hfields _ (List.mem_cons_of_mem _ hmem)
    exact ⟨value, (hrest name check hmem).trans hvalue, hvalid⟩
  · rintro ⟨hfirst, hkeys, hfields⟩
    refine ⟨fun key hkey => ?_, fun entry hmem => ?_⟩
    · by_cases hfield : key = field
      · exact List.mem_cons.mpr (Or.inl hfield)
      · exact List.mem_cons_of_mem _ (hkeys key (JsonObject.mem_keys_erase.mpr ⟨hkey, hfield⟩))
    · obtain rfl | hmem := List.mem_cons.mp hmem
      · exact hfirst
      · obtain ⟨value, hvalue, hvalid⟩ := hfields entry hmem
        exact ⟨value, (hrest entry.1 entry.2 hmem).symm.trans hvalue, hvalid⟩

theorem required_eq_ok_iff {map : JsonObject} {field : String} {value : Json} :
    SessionEvents.required map field = .ok value ↔ map.lookup field = some value ∧ value ≠ .null := by
  rw [SessionEvents.required]
  cases map.lookup field with
  | none =>
    constructor
    · intro h
      cases h
    · rintro ⟨h, -⟩
      cases h
  | some found =>
    cases found with
    | null =>
      constructor
      · intro h
        cases h
      · rintro ⟨h, hne⟩
        exact absurd (Option.some.inj h).symm hne
    | _ =>
      constructor
      · intro h
        obtain rfl := Except.ok.inj h
        refine ⟨rfl, fun hnull => ?_⟩
        cases hnull
      · rintro ⟨h, -⟩
        rw [← Option.some.inj h]

theorem takes_finish {α : Type} (a : α) : Takes (finish >>= fun _ => pure a) [] := by
  intro map
  rw [from_finish_bind, hasFields_nil_iff]
  by_cases hempty : map.isEmpty = true
  · rw [if_pos hempty]
    exact iff_of_true ⟨a, rfl⟩ hempty
  · rw [if_neg hempty]
    exact iff_of_false nofun hempty

/-- A field that is taken, and the check of its value, stand first in the schema. -/
theorem takes_required {α β : Type} {field : String} {parse : Json → Decoded α} {k : α → Taking β} {schema : Schema}
    (hnew : field ∉ schema.map Prod.fst) (h : ∀ a, Takes (k a) schema) :
    Takes (required field >>= fun value => liftM (parse value) >>= k) ((field, accepts parse) :: schema) := by
  intro map
  rw [hasFields_cons_iff hnew, from_required_bind]
  simp only [from_lift_bind, bind_eq_ok_iff, required_eq_ok_iff, accepts_iff]
  constructor
  · rintro ⟨b, value, ⟨hvalue, hnull⟩, a, ha, hb⟩
    exact ⟨⟨value, hvalue, hnull, a, ha⟩, (h a _).mp ⟨b, hb⟩⟩
  · rintro ⟨⟨value, hvalue, hnull, a, ha⟩, hrest⟩
    obtain ⟨b, hb⟩ := (h a _).mpr hrest
    exact ⟨b, value, ⟨hvalue, hnull⟩, a, ha, hb⟩

/-- The check of the keys made first changes nothing. -/
theorem takes_ensureLeft {α : Type} {decoder : Taking α} {allowed : List String} {schema : Schema}
    (hallowed : schema.map Prod.fst = allowed) (h : Takes decoder schema) :
    Takes (ServerEvents.ensureLeft allowed >>= fun _ => decoder) schema := by
  intro map
  subst hallowed
  rw [from_ensureLeft_bind, ← h map]
  simp only [bind_eq_ok_iff, ensureFields, require_eq_ok_iff]
  constructor
  · rintro ⟨a, -, -, ha⟩
    exact ⟨a, ha⟩
  · rintro ⟨a, ha⟩
    exact ⟨a, (), ((h map).mp ⟨a, ha⟩).1, ha⟩

/-- The arm of an event type takes the fields of its schema. -/
theorem parseKind_takes {kind : String} {group : EventGroup} (h : groupOf kind = some group) :
    Takes (ServerEvents.parseKind libs kind) (eventFields libs kind) := by
  unfold groupOf at h
  split at h
  case h_18 => cases h
  all_goals unfold ServerEvents.parseKind eventFields
  case h_1 | h_2 | h_3 | h_4 | h_6 | h_7 =>
    refine takes_ensureLeft rfl (takes_required ?_ fun _ => takes_required ?_ fun _ => takes_finish _) <;> simp
  case h_5 => exact takes_ensureLeft rfl (takes_required List.not_mem_nil fun _ => takes_finish _)
  case h_8 | h_9 =>
    refine takes_ensureLeft rfl (takes_required ?_ fun _ => takes_required ?_ fun _ => takes_required ?_ fun _ => ?_)
    case refine_4 => exact takes_required List.not_mem_nil fun _ => takes_finish _
    all_goals simp
  case h_16 | h_17 => refine takes_required ?_ fun _ => takes_required ?_ fun _ => takes_finish _ <;> simp
  case h_10 | h_12 | h_13 | h_14 =>
    refine takes_required ?_ fun _ => takes_required ?_ fun _ => takes_required ?_ fun _ => ?_
    case refine_4 =>
      refine takes_required ?_ fun _ => takes_required ?_ fun _ => takes_required ?_ fun _ => takes_finish _ <;> simp
    all_goals simp
  case h_11 =>
    refine takes_required ?_ fun _ => takes_required ?_ fun _ => takes_required ?_ fun _ => ?_
    case refine_4 => refine takes_required ?_ fun _ => takes_required ?_ fun _ => takes_finish _ <;> simp
    all_goals simp
  case h_15 =>
    refine takes_required ?_ fun _ => takes_required ?_ fun _ => takes_required ?_ fun _ => takes_required ?_ fun _ => ?_
    case refine_5 =>
      refine takes_required ?_ fun _ => takes_required ?_ fun _ => takes_required ?_ fun _ => takes_finish _ <;> simp
    all_goals simp

theorem object_eq_ok_iff {value : Json} {map : JsonObject} : object value = .ok map ↔ value = .obj map := by
  cases value with
  | obj fields =>
    constructor
    · intro h
      rw [Except.ok.inj h]
    · intro h
      rw [Json.obj.inj h]
      rfl
  | _ => exact iff_of_false nofun nofun

theorem exists_obj_of_parseGroup {group : EventGroup} {value : Json} {ev : RealtimeServerEvent}
    (h : parseGroup libs group value = .ok ev) : ∃ map, value = .obj map := by
  cases value with
  | obj map => exact ⟨map, rfl⟩
  | _ => cases group <;> cases h

/-- The decoder of a group decodes the events of the group. -/
theorem parseGroup_ok_iff {group : EventGroup} {value : Json} :
    (∃ ev, parseGroup libs group value = .ok ev) ↔ IsEventOf libs group value := by
  constructor
  · rintro ⟨ev, hev⟩
    obtain ⟨map, rfl⟩ := exists_obj_of_parseGroup libs hev
    by_cases htype : ∃ kind, map.lookup "type" = some (.str kind)
    · obtain ⟨kind, hkind⟩ := htype
      by_cases hgroup : groupOf kind = some group
      · refine ⟨map, kind, rfl, hkind, hgroup, (parseKind_takes libs hgroup _).mp ⟨ev, ?_⟩⟩
        rw [← parseEvent_of_type libs hkind, parseEvent_eq libs hkind hgroup, hev]
      · rw [parseGroup_of_ne libs hkind hgroup] at hev
        cases hev
    · push Not at htype
      rw [parseGroup_untyped libs group htype] at hev
      cases hev
  · rintro ⟨map, kind, rfl, hkind, hgroup, hfields⟩
    rw [← parseEvent_eq libs hkind hgroup, parseEvent_of_type libs hkind]
    exact (parseKind_takes libs hgroup _).mpr hfields

/-! ### Texts -/

/-- `decode_server_event` and the decoder of a group agree on a text: one yields an event of the group where the other
accepts, and the same event. -/
def Agree (group : EventGroup) (bytes : List UInt8) : Prop :=
  ∀ ev, decodeServerEvent libs bytes = .ok ev ∧ ev.group = group ↔ deserialize libs group bytes = .ok ev

theorem decodeServerEvent_eq_ok_iff {bytes : List UInt8} (hlen : bytes.length ≤ maxEventBytes)
    {ev : RealtimeServerEvent} :
    decodeServerEvent libs bytes = .ok ev ↔
      ∃ value map, libs.read bytes = some value ∧ ¬ value.RepeatsKey ∧ value.lastValues = .obj map ∧
        ServerEvents.parseEvent libs map = .ok ev := by
  rw [decodeServerEvent, if_neg (Nat.not_lt.mpr hlen)]
  simp only [bind_eq_ok_iff, okOr_eq_ok_iff, Option.bind_eq_some_iff, Json.uniqueValue_eq_some_iff]
  constructor
  · rintro ⟨_, ⟨value, hread, hunique, rfl⟩, map, hmap, hev⟩
    exact ⟨value, map, hread, hunique, object_eq_ok_iff.mp hmap, hev⟩
  · rintro ⟨value, map, hread, hunique, hmap, hev⟩
    exact ⟨_, ⟨value, hread, hunique, rfl⟩, map, object_eq_ok_iff.mpr hmap, hev⟩

theorem deserialize_eq_ok_iff {group : EventGroup} {bytes : List UInt8} {ev : RealtimeServerEvent} :
    deserialize libs group bytes = .ok ev ↔
      ∃ value, libs.read bytes = some value ∧ (group = .audio → ¬ value.RepeatsKey) ∧
        parseGroup libs group value.lastValues = .ok ev := by
  rw [deserialize]
  simp only [bind_eq_ok_iff, okOr_eq_ok_iff]
  cases group with
  | audio =>
    simp only [readValue, Option.bind_eq_some_iff, Json.uniqueValue_eq_some_iff]
    constructor
    · rintro ⟨_, ⟨value, hread, hunique, rfl⟩, hev⟩
      exact ⟨value, hread, fun _ => hunique, hev⟩
    · rintro ⟨value, hread, hunique, hev⟩
      exact ⟨_, ⟨value, hread, hunique trivial, rfl⟩, hev⟩
  | _ =>
    simp only [readValue, Option.map_eq_some_iff]
    constructor
    · rintro ⟨_, ⟨value, hread, rfl⟩, hev⟩
      refine ⟨value, hread, fun haudio => ?_, hev⟩
      cases haudio
    · rintro ⟨value, hread, -, hev⟩
      exact ⟨_, ⟨value, hread, rfl⟩, hev⟩

/-- **Where the decoders agree.** On a text within the bound, `decode_server_event` and the decoder of a group differ
exactly where the group is not that of the audio events, the text repeats a key in one of its objects, and the value
with the last entry of every key is an event of the group. -/
theorem decoders_agree_iff (bytes : List UInt8) (hlen : bytes.length ≤ maxEventBytes) (group : EventGroup) :
    Agree libs group bytes ↔
      ¬ (group ≠ .audio ∧
        ∃ value, libs.read bytes = some value ∧ value.RepeatsKey ∧ IsEventOf libs group value.lastValues) := by
  constructor
  · rintro hagree ⟨haudio, value, hread, hrepeats, hevent⟩
    obtain ⟨ev, hev⟩ := (parseGroup_ok_iff libs).mpr hevent
    have haccepts := (deserialize_eq_ok_iff libs).mpr ⟨value, hread, fun h => absurd h haudio, hev⟩
    obtain ⟨_, _, hread', hunique, -, -⟩ := (decodeServerEvent_eq_ok_iff libs hlen).mp ((hagree ev).mpr haccepts).1
    obtain rfl := Option.some.inj (hread.symm.trans hread')
    exact hunique hrepeats
  · intro hsame ev
    rw [decodeServerEvent_eq_ok_iff libs hlen, deserialize_eq_ok_iff libs]
    constructor
    · rintro ⟨⟨value, map, hread, hunique, hmap, hev⟩, hgroup⟩
      exact ⟨value, hread, fun _ => hunique, hmap ▸ (parseEvent_eq_ok_iff libs).mp ⟨hev, hgroup⟩⟩
    · rintro ⟨value, hread, haudio, hev⟩
      have hunique : ¬ value.RepeatsKey := by
        intro hrepeats
        refine hsame ⟨fun h => haudio h hrepeats, value, hread, hrepeats, ?_⟩
        exact (parseGroup_ok_iff libs).mp ⟨ev, hev⟩
      obtain ⟨map, hmap⟩ := exists_obj_of_parseGroup libs hev
      obtain ⟨hevent, hgroup⟩ := (parseEvent_eq_ok_iff libs).mpr (hmap ▸ hev)
      exact ⟨⟨value, map, hread, hunique, hmap, hevent⟩, hgroup⟩

/-- The text of a cleared input buffer with two event identifiers. -/
def twoEventIds : List UInt8 :=
  utf8 "\x7b\"type\":\"input_audio_buffer.cleared\",\"event_id\":\"e1\",\"event_id\":\"e2\"\x7d"

/-- A reader of this text, and no base64. -/
def twoEventIdsLibraries : Libraries where
  read := fun bytes =>
    if bytes = twoEventIds then
      some (.obj [("type", .str "input_audio_buffer.cleared"), ("event_id", .str "e1"), ("event_id", .str "e2")])
    else none
  base64Decode := fun _ => none
  base64Encode := fun _ => ""

theorem decoders_agree_iff_twoEventIds :
    twoEventIds.length ≤ maxEventBytes ∧
      (Agree twoEventIdsLibraries .session twoEventIds ↔
        ¬ (EventGroup.session ≠ .audio ∧
          ∃ value, twoEventIdsLibraries.read twoEventIds = some value ∧ value.RepeatsKey ∧
            IsEventOf twoEventIdsLibraries .session value.lastValues)) :=
  ⟨by decide +kernel, decoders_agree_iff _ twoEventIds (by decide +kernel) .session⟩

/-- On this text `decode_server_event` fails, where the decoder of the session events takes the second identifier. -/
theorem decoders_disagree :
    twoEventIds.length ≤ maxEventBytes ∧
      decodeServerEvent twoEventIdsLibraries twoEventIds = .error .invalidJson ∧
      deserialize twoEventIdsLibraries .session twoEventIds =
        .ok (.session (.inputAudioBufferCleared ⟨"e2", by decide +kernel⟩)) ∧
      ¬ Agree twoEventIdsLibraries .session twoEventIds := by
  have hread : twoEventIdsLibraries.read twoEventIds =
      some (.obj [("type", .str "input_audio_buffer.cleared"), ("event_id", .str "e1"), ("event_id", .str "e2")]) := by
    simp only [twoEventIdsLibraries, if_true]
  have hrefuses : decodeServerEvent twoEventIdsLibraries twoEventIds = .error .invalidJson := by
    rw [decodeServerEvent, if_neg (by decide +kernel), hread]
    rfl
  have haccepts : deserialize twoEventIdsLibraries .session twoEventIds =
      .ok (.session (.inputAudioBufferCleared ⟨"e2", by decide +kernel⟩)) := by
    have hvalue : readValue twoEventIdsLibraries .session twoEventIds =
        some (.obj [("type", .str "input_audio_buffer.cleared"), ("event_id", .str "e2")]) := by
      rw [readValue, hread]
      · rfl
      · nofun
    rw [deserialize, hvalue]
    decide +kernel
  refine ⟨by decide +kernel, hrefuses, haccepts, fun hagree => ?_⟩
  have h := ((hagree _).mpr haccepts).1
  rw [hrefuses] at h
  cases h

end AgentVoice.Realtime

import AgentVoice.Realtime.Events
import Mathlib.Control.Lawful

/-!
# Agreement on objects

`decode_server_event` has a `match` over the types of all groups, and every group has a decoder of its own. On an object
they agree (`parseEvent_eq_ok_iff`). The decoders of the function, response and audio events are the arms of the
`match` again, with other helpers; the decoder of the session events reads the fields of the object in place.
-/

namespace AgentVoice.Realtime

open AgentVoice.Foundations

variable (libs : Libraries)

/-- The group of the events of a type. -/
def groupOf : String → Option EventGroup
  | "session.created" | "session.updated" | "error" | "input_audio_buffer.committed" | "input_audio_buffer.cleared"
  | "input_audio_buffer.speech_started" | "input_audio_buffer.speech_stopped"
  | "conversation.item.input_audio_transcription.delta"
  | "conversation.item.input_audio_transcription.completed" => some .session
  | "response.output_audio.delta" | "response.output_audio.done" | "response.output_audio_transcript.delta"
  | "response.output_audio_transcript.done" => some .audio
  | "response.function_call_arguments.delta" | "response.function_call_arguments.done"
  | "conversation.item.created" => some .function
  | "response.done" => some .response
  | _ => none

/-! ### Function, response and audio events -/

theorem audio_index (value : Json) : AudioEvents.index value = index value := by
  cases value with
  | int n =>
    simp only [AudioEvents.index, index, Json.asU64]
    by_cases hfits : 0 ≤ n ∧ n < 2 ^ 64
    · rw [if_pos hfits]
      by_cases hsmall : n < 2 ^ 32
      · rw [if_pos ⟨hfits.1, hsmall⟩]
        simp only
        rw [if_pos (by omega)]
      · rw [if_neg (fun h => hsmall h.2)]
        simp only
        rw [if_neg (by omega)]
    · rw [if_neg hfits, if_neg (fun h => hfits ⟨h.1, by omega⟩)]
  | _ => rfl

theorem parseKind_audio {kind : String} (h : groupOf kind = some .audio) :
    ServerEvents.parseKind libs kind = RealtimeServerEvent.audio <$> AudioEvents.parseKind libs kind := by
  unfold groupOf at h
  split at h
  case h_10 | h_11 | h_12 | h_13 =>
    unfold ServerEvents.parseKind AudioEvents.parseKind
    simp only [map_bind, map_pure, audio_index]
  all_goals cases h

theorem parseFunctionItem_eq (value : Json) :
    ServerEvents.parseFunctionItem value = FunctionEvents.parseItem value := by
  unfold ServerEvents.parseFunctionItem FunctionEvents.parseItem
  refine congrArg _ (funext fun map => congrArg (Taking.from · map) ?_)
  refine congrArg _ (funext fun _ => congrArg _ (funext fun id => congrArg _ (funext fun type => ?_)))
  cases type with
  | str name => by_cases hname : name = "function_call_output" <;> simp [FunctionEvents.parseItemType, hname] <;> rfl
  | _ => rfl

theorem removeOptional_eq {α : Type} (field : String) (parse : Json → Decoded α) :
    ServerEvents.removeOptional field parse = optional field >>= fun value => liftM (transpose parse value) := by
  unfold ServerEvents.removeOptional optional
  rw [bind_assoc]
  refine congrArg _ (funext fun removed => ?_)
  cases removed with
  | none => rfl
  | some value =>
    have hparse : ∀ v, (do return some (← parse v) : Taking (Option α)) = liftM (transpose parse (some v)) := by
      intro v
      funext fields
      cases hv : parse v <;> simp [transpose, hv, Except.map] <;> rfl
    cases value with
    | null => rfl
    | bool b => exact hparse _
    | int n => exact hparse _
    | float text => exact hparse _
    | str s => exact hparse _
    | arr items => exact hparse _
    | obj fields => exact hparse _

theorem optionalString_eq (field : String) :
    ServerEvents.optionalString field = optional field >>= fun value => liftM (transpose string value) := by
  unfold ServerEvents.optionalString optional
  rw [bind_assoc]
  refine congrArg _ (funext fun removed => ?_)
  cases removed with
  | none => rfl
  | some value => cases value <;> rfl

theorem parseProviderErrorSummary_eq (value : Json) :
    ServerEvents.parseProviderErrorSummary value = ResponseEvents.parseProviderError value := by
  unfold ServerEvents.parseProviderErrorSummary ResponseEvents.parseProviderError
  simp only [optionalString_eq, bind_assoc]

theorem parseReason_eq : ServerEvents.parseReason = ResponseEvents.parseReason := by
  funext value
  cases value <;> rfl

theorem parseStatus_eq : ServerEvents.parseStatus = ResponseEvents.parseStatus := by
  funext value
  cases value <;> rfl

theorem parseStatusDetails_eq (value : Json) :
    ServerEvents.parseStatusDetails value = ResponseEvents.parseStatusDetails value := by
  unfold ServerEvents.parseStatusDetails ResponseEvents.parseStatusDetails
  simp only [removeOptional_eq, bind_assoc, parseReason_eq, funext parseProviderErrorSummary_eq]

theorem parseResponseSummary_eq (value : Json) :
    ServerEvents.parseResponseSummary value = ResponseEvents.parseResponseSummary value := by
  unfold ServerEvents.parseResponseSummary ResponseEvents.parseResponseSummary
  simp only [removeOptional_eq, bind_assoc, parseStatus_eq, funext parseStatusDetails_eq]

theorem parseKind_response {kind : String} (h : groupOf kind = some .response) :
    ServerEvents.parseKind libs kind = RealtimeServerEvent.response <$> ResponseEvents.parseKind kind := by
  unfold groupOf at h
  split at h
  case h_17 =>
    unfold ServerEvents.parseKind ResponseEvents.parseKind
    simp only [map_bind, map_pure, parseResponseSummary_eq]
  all_goals cases h

theorem parseKind_function {kind : String} (h : groupOf kind = some .function) :
    ServerEvents.parseKind libs kind = RealtimeServerEvent.function <$> FunctionEvents.parseKind libs kind := by
  unfold groupOf at h
  split at h
  case h_14 | h_15 =>
    unfold ServerEvents.parseKind FunctionEvents.parseKind
    simp only [map_bind, map_pure]
  case h_16 =>
    unfold ServerEvents.parseKind FunctionEvents.parseKind
    simp only [map_bind, map_pure, parseFunctionItem_eq]
  all_goals cases h

/-! ### Session events

Fields that are taken out one by one are the fields read in place, and where the object has no other keys than these,
nothing is left. -/

theorem from_required_bind {α : Type} (field : String) (k : Json → Taking α) (map : JsonObject) :
    (required field >>= k).from map =
      SessionEvents.required map field >>= fun value => (k value).from (map.erase field) := by
  rw [required, bind_assoc, from_remove_bind, SessionEvents.required]
  cases hlookup : map.lookup field with
  | none => rfl
  | some value => cases value <;> rfl

theorem from_ensureLeft_bind {α : Type} (allowed : List String) (k : Unit → Taking α) (map : JsonObject) :
    (ServerEvents.ensureLeft allowed >>= k).from map = ensureFields map allowed >>= fun u => (k u).from map := by
  rw [ServerEvents.ensureLeft, bind_assoc]
  exact from_lift_bind (ensureFields map allowed) k map

theorem from_optionalString_bind {α : Type} (field : String) (k : Option String → Taking α) (map : JsonObject) :
    (ServerEvents.optionalString field >>= k).from map =
      SessionEvents.optionalString map field >>= fun value => (k value).from (map.erase field) := by
  rw [ServerEvents.optionalString, bind_assoc, from_remove_bind, SessionEvents.optionalString]
  cases hlookup : map.lookup field with
  | none => rfl
  | some value => cases value <;> rfl

theorem from_optionalSessionOpaqueId_bind {α : Type} (field : String) (k : Option OpaqueId → Taking α)
    (map : JsonObject) :
    (ServerEvents.optionalSessionOpaqueId field >>= k).from map =
      SessionEvents.optionalOpaque map field >>= fun value => (k value).from (map.erase field) := by
  rw [ServerEvents.optionalSessionOpaqueId, bind_assoc, from_remove_bind, SessionEvents.optionalOpaque]
  cases hlookup : map.lookup field with
  | none => rfl
  | some value =>
    cases value with
    | str text =>
      simp only [ServerEvents.sessionOpaqueId]
      cases OpaqueId.new text <;> rfl
    | _ => rfl

theorem required_erase_of_ne {field key : String} (h : field ≠ key) (map : JsonObject) :
    SessionEvents.required (map.erase key) field = SessionEvents.required map field := by
  rw [SessionEvents.required, JsonObject.lookup_erase_of_ne h, ← SessionEvents.required]

theorem optionalString_erase_of_ne {field key : String} (h : field ≠ key) (map : JsonObject) :
    SessionEvents.optionalString (map.erase key) field = SessionEvents.optionalString map field := by
  rw [SessionEvents.optionalString, JsonObject.lookup_erase_of_ne h, ← SessionEvents.optionalString]

theorem optionalOpaque_erase_of_ne {field key : String} (h : field ≠ key) (map : JsonObject) :
    SessionEvents.optionalOpaque (map.erase key) field = SessionEvents.optionalOpaque map field := by
  rw [SessionEvents.optionalOpaque, JsonObject.lookup_erase_of_ne h, ← SessionEvents.optionalOpaque]

theorem okOr_asStr_bind (value : Json) :
    (okOr value.asStr .invalidJson >>= OpaqueId.new) = ServerEvents.sessionOpaqueId value := by
  cases value <;> rfl

theorem opaqueField_eq (map : JsonObject) (field : String) :
    SessionEvents.opaqueField map field = SessionEvents.required map field >>= ServerEvents.sessionOpaqueId := by
  rw [SessionEvents.opaqueField]
  exact congrArg _ (funext fun value => okOr_asStr_bind value)

theorem requiredString_eq (map : JsonObject) (field : String) :
    SessionEvents.requiredString map field = SessionEvents.required map field >>= string := by
  rw [SessionEvents.requiredString]
  exact congrArg _ (funext fun value => by cases value <;> rfl)

theorem transcriptField_eq (map : JsonObject) (field : String) :
    SessionEvents.transcriptField map field = SessionEvents.required map field >>= transcript := by
  rw [SessionEvents.transcriptField]
  exact congrArg _ (funext fun value => by cases value <;> rfl)

theorem u64Field_eq (map : JsonObject) (field : String) :
    SessionEvents.u64Field map field = SessionEvents.required map field >>= timestamp := by
  rw [SessionEvents.u64Field]
  refine congrArg _ (funext fun value => ?_)
  rw [timestamp]
  cases value.asU64 <;> rfl

theorem u32Field_eq (map : JsonObject) (field : String) :
    SessionEvents.u32Field map field = SessionEvents.required map field >>= index := by
  rw [SessionEvents.u32Field, SessionEvents.u64Field, bind_assoc]
  refine congrArg _ (funext fun value => ?_)
  rw [index]
  cases hvalue : value.asU64 with
  | none => rfl
  | some n =>
    have hlt : n < 2 ^ 64 := Json.asU64_lt hvalue
    have hn : (UInt64.ofNat n).toNat = n := by
      rw [UInt64.toNat_ofNat', Nat.mod_eq_of_lt hlt]
    simp only [okOr_some, ok_bind, pure_eq_ok, throw_eq_error, hn]

theorem requiredObject_eq (map : JsonObject) (field : String) :
    SessionEvents.requiredObject map field = SessionEvents.required map field >>= object := by
  rw [SessionEvents.requiredObject]
  exact congrArg _ (funext fun value => by cases value <;> rfl)

/-- Fields that are all there is, taken out, leave nothing. -/
theorem ensured_erase {field : String} {fields : List String} {map : JsonObject}
    (h : ∀ key ∈ map.keys, key ∈ field :: fields) : ∀ key ∈ (map.erase field).keys, key ∈ fields := by
  intro key hkey
  obtain ⟨hmem, hne⟩ := JsonObject.mem_keys_erase.mp hkey
  exact (List.mem_cons.mp (h key hmem)).resolve_left hne

theorem isEmpty_of_ensured {map : JsonObject} (h : ∀ key ∈ map.keys, key ∈ ([] : List String)) :
    map.isEmpty = true := by
  cases map with
  | nil => rfl
  | cons entry map => exact absurd (h entry.1 (List.mem_cons_self)) List.not_mem_nil

theorem ensureFields_bind {α : Type} {map map' : JsonObject} {allowed allowed' : List String} {k k' : Unit → Decoded α}
    (hiff : (∀ field ∈ map.keys, field ∈ allowed) ↔ ∀ field ∈ map'.keys, field ∈ allowed')
    (h : (∀ field ∈ map.keys, field ∈ allowed) → k () = k' ()) :
    (ensureFields map allowed >>= k) = (ensureFields map' allowed' >>= k') := by
  by_cases hall : ∀ field ∈ map.keys, field ∈ allowed
  · rw [ensureFields, ensureFields, require_of hall, require_of (hiff.mp hall), ok_bind, ok_bind, h hall]
  · rw [ensureFields, ensureFields, require_of_not hall, require_of_not (fun hall' => hall (hiff.mpr hall'))]
    rfl

theorem parseSessionInfo_eq (map : JsonObject) (field : String) :
    SessionEvents.parseSession map field = SessionEvents.required map field >>= ServerEvents.parseSessionInfo := by
  rw [SessionEvents.parseSession, requiredObject_eq, bind_assoc]
  refine congrArg _ (funext fun value => ?_)
  rw [ServerEvents.parseSessionInfo]
  refine congrArg _ (funext fun map => ensureFields_bind Iff.rfl fun hall => ?_)
  have hleft := isEmpty_of_ensured (ensured_erase (ensured_erase hall))
  simp only [from_required_bind, from_lift_bind, from_finish_bind, from_pure, hleft, if_true, opaqueField_eq,
    requiredString_eq, bind_assoc, required_erase_of_ne (by decide : "model" ≠ "id"), pure_eq_ok]

theorem parseProviderError_eq (map : JsonObject) (field : String) :
    SessionEvents.parseProviderError map field =
      SessionEvents.required map field >>= ServerEvents.parseProviderError := by
  rw [SessionEvents.parseProviderError, requiredObject_eq, bind_assoc]
  refine congrArg _ (funext fun value => ?_)
  rw [ServerEvents.parseProviderError]
  refine congrArg _ (funext fun map => ensureFields_bind Iff.rfl fun hall => ?_)
  have hleft := isEmpty_of_ensured
    (ensured_erase (ensured_erase (ensured_erase (ensured_erase (ensured_erase hall)))))
  simp (disch := decide) only [from_required_bind, from_lift_bind, from_finish_bind, from_pure,
    from_optionalString_bind, from_optionalSessionOpaqueId_bind, hleft, if_true, requiredString_eq, bind_assoc,
    required_erase_of_ne, optionalString_erase_of_ne, optionalOpaque_erase_of_ne, pure_eq_ok]

theorem ensured_type_iff {map : JsonObject} {allowed : List String} :
    (∀ field ∈ (map.erase "type").keys, field ∈ allowed) ↔ ∀ field ∈ map.keys, field ∈ "type" :: allowed := by
  constructor
  · intro h field hfield
    by_cases htype : field = "type"
    · exact List.mem_cons.mpr (Or.inl htype)
    · exact List.mem_cons_of_mem _ (h field (JsonObject.mem_keys_erase.mpr ⟨hfield, htype⟩))
  · exact ensured_erase

theorem map_ok {α β : Type} (f : α → β) (a : α) : f <$> (.ok a : Decoded α) = .ok (f a) := rfl

/-- The arms of the session events take the type and the fields out, where their own decoder reads them in place. -/
theorem parseKind_session {kind : String} (h : groupOf kind = some .session) {map : JsonObject}
    (hkind : map.lookup "type" = some (.str kind)) :
    (ServerEvents.parseKind libs kind).from (map.erase "type") =
      RealtimeServerEvent.session <$> SessionEvents.parseEvent (.obj map) := by
  unfold groupOf at h
  split at h
  case h_1 | h_2 | h_3 | h_4 | h_6 | h_7 =>
    unfold ServerEvents.parseKind SessionEvents.parseEvent
    simp only [from_ensureLeft_bind, object, ok_bind, hkind, Option.bind_some, Json.asStr, okOr_some, map_bind]
    refine ensureFields_bind ensured_type_iff fun hall => ?_
    have hleft := isEmpty_of_ensured (ensured_erase (ensured_erase hall))
    simp (disch := decide) only [from_required_bind, from_lift_bind, from_finish_bind, from_pure, hleft, if_true,
      opaqueField_eq, parseSessionInfo_eq, parseProviderError_eq, u64Field_eq, bind_assoc, required_erase_of_ne,
      pure_eq_ok, map_ok]
  case h_5 =>
    unfold ServerEvents.parseKind SessionEvents.parseEvent
    simp only [from_ensureLeft_bind, object, ok_bind, hkind, Option.bind_some, Json.asStr, okOr_some, map_bind]
    refine ensureFields_bind ensured_type_iff fun hall => ?_
    have hleft := isEmpty_of_ensured (ensured_erase hall)
    simp (disch := decide) only [from_required_bind, from_lift_bind, from_finish_bind, from_pure, hleft, if_true,
      opaqueField_eq, bind_assoc, required_erase_of_ne, pure_eq_ok, map_ok]
  case h_8 | h_9 =>
    unfold ServerEvents.parseKind SessionEvents.parseEvent
    simp only [from_ensureLeft_bind, object, ok_bind, hkind, Option.bind_some, Json.asStr, okOr_some, map_bind]
    refine ensureFields_bind ensured_type_iff fun hall => ?_
    have hleft := isEmpty_of_ensured (ensured_erase (ensured_erase (ensured_erase (ensured_erase hall))))
    simp (disch := decide) only [from_required_bind, from_lift_bind, from_finish_bind, from_pure, hleft, if_true,
      opaqueField_eq, u32Field_eq, transcriptField_eq, bind_assoc, required_erase_of_ne, pure_eq_ok, map_ok]
  all_goals cases h

/-! ### Whole events -/

theorem session_unknown {kind : String} (h : groupOf kind ≠ some .session) {map : JsonObject}
    (hkind : map.lookup "type" = some (.str kind)) :
    SessionEvents.parseEvent (.obj map) = .error .unknownEventType := by
  simp only [SessionEvents.parseEvent, object, ok_bind, hkind, Option.bind_some, Json.asStr, okOr_some]
  split
  all_goals first
    | exact absurd rfl h
    | rfl

theorem function_unknown {kind : String} (h : groupOf kind ≠ some .function) :
    FunctionEvents.parseKind libs kind = throw .unknownEventType := by
  unfold FunctionEvents.parseKind
  split
  all_goals first
    | exact absurd rfl h
    | rfl

theorem response_unknown {kind : String} (h : groupOf kind ≠ some .response) :
    ResponseEvents.parseKind kind = throw .unknownEventType := by
  unfold ResponseEvents.parseKind
  split
  all_goals first
    | exact absurd rfl h
    | rfl

theorem audio_unknown {kind : String} (h : groupOf kind ≠ some .audio) :
    AudioEvents.parseKind libs kind = throw .unknownEventType := by
  unfold AudioEvents.parseKind
  split
  all_goals first
    | exact absurd rfl h
    | rfl

theorem parseKind_unknown {kind : String} (h : groupOf kind = none) :
    ServerEvents.parseKind libs kind = throw .unknownEventType := by
  unfold ServerEvents.parseKind
  split
  all_goals first
    | exact absurd h (by decide)
    | rfl

theorem parseEvent_of_type {map : JsonObject} {kind : String} (hkind : map.lookup "type" = some (.str kind)) :
    ServerEvents.parseEvent libs map = (ServerEvents.parseKind libs kind).from (map.erase "type") := by
  rw [ServerEvents.parseEvent, from_remove_bind, hkind]

theorem parseTaken_of_type {α : Type} (parseKind : String → Taking α) {map : JsonObject} {kind : String}
    (hkind : map.lookup "type" = some (.str kind)) :
    parseTaken parseKind (.obj map) = (parseKind kind).from (map.erase "type") := by
  rw [parseTaken, object, ok_bind, from_remove_bind, hkind]

/-- Both decoders decode an object with a type of the group in the same way. -/
theorem parseEvent_eq {map : JsonObject} {kind : String} {group : EventGroup}
    (hkind : map.lookup "type" = some (.str kind)) (hgroup : groupOf kind = some group) :
    ServerEvents.parseEvent libs map = parseGroup libs group (.obj map) := by
  rw [parseEvent_of_type libs hkind]
  cases group with
  | session => exact parseKind_session libs hgroup hkind
  | function => rw [parseKind_function libs hgroup, from_map, parseGroup, parseTaken_of_type _ hkind]
  | response => rw [parseKind_response libs hgroup, from_map, parseGroup, parseTaken_of_type _ hkind]
  | audio => rw [parseKind_audio libs hgroup, from_map, parseGroup, parseTaken_of_type _ hkind]

/-- A group knows no other types than its own. -/
theorem parseGroup_of_ne {map : JsonObject} {kind : String} {group : EventGroup}
    (hkind : map.lookup "type" = some (.str kind)) (hgroup : groupOf kind ≠ some group) :
    parseGroup libs group (.obj map) = .error .unknownEventType := by
  cases group with
  | session => rw [parseGroup, session_unknown hgroup hkind]; rfl
  | function => rw [parseGroup, parseTaken_of_type _ hkind, function_unknown libs hgroup]; rfl
  | response => rw [parseGroup, parseTaken_of_type _ hkind, response_unknown hgroup]; rfl
  | audio => rw [parseGroup, parseTaken_of_type _ hkind, audio_unknown libs hgroup]; rfl

theorem parseEvent_untyped {map : JsonObject} (htype : ∀ kind, map.lookup "type" ≠ some (.str kind)) :
    ServerEvents.parseEvent libs map = .error .unknownEventType := by
  rw [ServerEvents.parseEvent, from_remove_bind]
  split
  next kind hkind => exact absurd hkind (htype kind)
  next => rfl

theorem parseTaken_untyped {α : Type} (parseKind : String → Taking α) {map : JsonObject}
    (htype : ∀ kind, map.lookup "type" ≠ some (.str kind)) :
    parseTaken parseKind (.obj map) = .error .unknownEventType := by
  rw [parseTaken, object, ok_bind, from_remove_bind]
  split
  next kind hkind => exact absurd hkind (htype kind)
  next => rfl

theorem session_untyped {map : JsonObject} (htype : ∀ kind, map.lookup "type" ≠ some (.str kind)) :
    SessionEvents.parseEvent (.obj map) = .error .unknownEventType := by
  have hnone : (map.lookup "type").bind Json.asStr = none := by
    refine Option.eq_none_iff_forall_ne_some.mpr fun kind hkind => ?_
    obtain ⟨value, hvalue, hstr⟩ := Option.bind_eq_some_iff.mp hkind
    cases value with
    | str text => exact htype text hvalue
    | _ => cases hstr
  rw [SessionEvents.parseEvent, object, ok_bind, hnone]
  rfl

theorem parseGroup_untyped (group : EventGroup) {map : JsonObject}
    (htype : ∀ kind, map.lookup "type" ≠ some (.str kind)) :
    parseGroup libs group (.obj map) = .error .unknownEventType := by
  cases group with
  | session => rw [parseGroup, session_untyped htype]; rfl
  | function => rw [parseGroup, parseTaken_untyped _ htype]; rfl
  | response => rw [parseGroup, parseTaken_untyped _ htype]; rfl
  | audio => rw [parseGroup, parseTaken_untyped _ htype]; rfl

theorem map_eq_ok_iff {α β : Type} {f : α → β} {x : Decoded α} {b : β} :
    f <$> x = .ok b ↔ ∃ a, x = .ok a ∧ f a = b := by
  cases x with
  | error e => exact iff_of_false nofun (by rintro ⟨_, h, -⟩; cases h)
  | ok a => simp

theorem group_of_parseGroup {group : EventGroup} {value : Json} {ev : RealtimeServerEvent}
    (h : parseGroup libs group value = .ok ev) : ev.group = group := by
  cases group <;> obtain ⟨_, -, rfl⟩ := map_eq_ok_iff.mp h <;> rfl

/-- **The decoders agree on objects**: the one `match` over all types yields an event of a group where the decoder of
the group accepts, and the same event. -/
theorem parseEvent_eq_ok_iff {map : JsonObject} {group : EventGroup} {ev : RealtimeServerEvent} :
    ServerEvents.parseEvent libs map = .ok ev ∧ ev.group = group ↔ parseGroup libs group (.obj map) = .ok ev := by
  by_cases htype : ∃ kind, map.lookup "type" = some (.str kind)
  · obtain ⟨kind, hkind⟩ := htype
    by_cases hgroup : groupOf kind = some group
    · rw [parseEvent_eq libs hkind hgroup]
      exact ⟨And.left, fun h => ⟨h, group_of_parseGroup libs h⟩⟩
    · rw [parseGroup_of_ne libs hkind hgroup]
      refine iff_of_false ?_ nofun
      rintro ⟨h, rfl⟩
      cases hother : groupOf kind with
      | none =>
        rw [parseEvent_of_type libs hkind, parseKind_unknown libs hother] at h
        cases h
      | some other =>
        rw [parseEvent_eq libs hkind hother] at h
        exact hgroup (hother.trans (congrArg some (group_of_parseGroup libs h).symm))
  · push Not at htype
    rw [parseEvent_untyped libs htype, parseGroup_untyped libs group htype]
    exact iff_of_false nofun nofun

end AgentVoice.Realtime

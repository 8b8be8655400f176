import AgentVoice.Realtime.ClientEvents
import AgentVoice.Realtime.ParserAgreement

/-!
# Round trips

An event that a decoder has returned, serialized and decoded again, is the event (`events_roundTrip`). The decoders
take the fields in the order in which they are written, and every value reads as itself: audio and the arguments of a
completed call because a decoder has read them before (`Checked`).
-/

namespace AgentVoice.Realtime

open AgentVoice.Foundations

/-! ### Values -/

theorem opaqueId_serialize (id : OpaqueId) : opaqueId (OpaqueId.serialize id) = .ok id := dif_pos id.property

theorem sessionOpaqueId_serialize (id : OpaqueId) : ServerEvents.sessionOpaqueId (OpaqueId.serialize id) = .ok id :=
  dif_pos id.property

theorem transcript_serialize (text : TranscriptText) : transcript (TranscriptText.serialize text) = .ok text :=
  dif_pos text.property

theorem toolOutput_serialize (output : ToolOutput) : toolOutput (ToolOutput.serialize output) = .ok output :=
  dif_pos output.property

theorem argumentsDelta_serialize (arguments : FunctionArguments) :
    argumentsDelta (FunctionArguments.serialize arguments) = .ok arguments := dif_pos arguments.property

theorem string_str (text : String) : string (.str text) = .ok text := rfl

theorem index_serialize (n : UInt32) : index (serializeU32 n) = .ok n := by
  have hn : n.toNat < 2 ^ 32 := n.toNat_lt
  rw [serializeU32, index, Json.asU64, if_pos (by omega)]
  simp only [Int.toNat_natCast, if_pos hn, UInt32.ofNat_toNat]

example : index (.int 4294967296) = .error .invalidJson := by decide +kernel

theorem timestamp_serialize (n : UInt64) : timestamp (serializeU64 n) = .ok n := by
  have hn : n.toNat < 2 ^ 64 := n.toNat_lt
  rw [serializeU64, timestamp, Json.asU64, if_pos (by omega)]
  simp only [Int.toNat_natCast, UInt64.ofNat_toNat]

theorem parseStatus_serialize (status : ResponseStatus) : ResponseEvents.parseStatus status.serialize = .ok status := by
  cases status <;> rfl

theorem parseReason_serialize (reason : InterruptionReason) :
    ResponseEvents.parseReason reason.serialize = .ok reason := by
  cases reason <;> rfl

theorem codec_serialize (codec : AudioCodec) : ClientEvents.codec codec.serialize = .ok codec := by
  cases codec
  rfl

theorem parseItemType_serialize (type : FunctionCallOutputType) :
    FunctionEvents.parseItemType type.serialize = .ok type := by
  cases type
  rfl

theorem transpose_map {α : Type} {parse : Json → Decoded α} {serialize : α → Json}
    (h : ∀ a, parse (serialize a) = .ok a) (value : Option α) :
    transpose parse (value.map serialize) = .ok value := by
  cases value with
  | none => rfl
  | some a =>
    rw [Option.map_some, transpose, h a]
    rfl

/-! ### Fields

A decoder takes the fields in the order in which they are written. -/

theorem erase_cons {field : String} {rest : JsonObject} (hrest : field ∉ rest.keys) (value : Json) :
    JsonObject.erase field ((field, value) :: rest) = rest := by
  rw [JsonObject.erase, List.filter_cons_of_neg (by simp)]
  exact JsonObject.erase_of_not_mem hrest

theorem from_required_cons {α : Type} {field : String} {value : Json} {rest : JsonObject}
    (hvalue : value ≠ .null) (hrest : field ∉ rest.keys) (k : Json → Taking α) :
    (required field >>= k).from ((field, value) :: rest) = (k value).from rest := by
  rw [from_required_bind, erase_cons hrest, SessionEvents.required, List.lookup_cons, beq_self_eq_true]
  cases value <;> first | rfl | exact absurd rfl hvalue

theorem from_optional_bind {α : Type} (field : String) (k : Option Json → Taking α) (map : JsonObject) :
    (optional field >>= k).from map =
      (k (match map.lookup field with
        | none | some .null => none
        | some value => some value)).from (map.erase field) := by
  rw [optional, bind_assoc, from_remove_bind]
  cases hlookup : map.lookup field with
  | none => rfl
  | some value => cases value <;> rfl

theorem from_optional_cons {α : Type} {field : String} {value : Json} {rest : JsonObject} (hvalue : value ≠ .null)
    (hrest : field ∉ rest.keys) (k : Option Json → Taking α) :
    (optional field >>= k).from ((field, value) :: rest) = (k (some value)).from rest := by
  rw [from_optional_bind, erase_cons hrest, List.lookup_cons, beq_self_eq_true]
  cases value <;> first | rfl | exact absurd rfl hvalue

theorem from_optional_absent {α : Type} {field : String} {rest : JsonObject} (hrest : field ∉ rest.keys)
    (k : Option Json → Taking α) : (optional field >>= k).from rest = (k none).from rest := by
  have hlookup : rest.lookup field = none := List.lookup_eq_none_iff.mpr fun entry hentry =>
    bne_iff_ne.mpr fun heq => hrest (heq ▸ List.mem_map_of_mem hentry)
  rw [from_optional_bind, JsonObject.erase_of_not_mem hrest, hlookup]

theorem from_optional_nullable {α β : Type} {field : String} {serialize : β → Json}
    (hserialize : ∀ b, serialize b ≠ .null) {rest : JsonObject} (hrest : field ∉ rest.keys)
    (value : Option β) (k : Option Json → Taking α) :
    (optional field >>= k).from ((field, Json.nullable serialize value) :: rest) =
      (k (value.map serialize)).from rest := by
  cases value with
  | none =>
    rw [from_optional_bind, erase_cons hrest, List.lookup_cons, beq_self_eq_true]
    rfl
  | some b => exact from_optional_cons (hserialize b) hrest k

theorem ensureFields_of {fields : JsonObject} {allowed : List String} (h : ∀ field ∈ fields.keys, field ∈ allowed) :
    ensureFields fields allowed = .ok () := require_of h _

/-! ### Objects -/

theorem str_ne_null (text : String) : Json.str text ≠ .null := nofun

theorem serialize_opaqueId_ne_null (id : OpaqueId) : OpaqueId.serialize id ≠ .null := nofun

theorem parseSessionInfo_serialize (session : SessionInfo) :
    ServerEvents.parseSessionInfo session.serialize = .ok session := by
  rw [SessionInfo.serialize, ServerEvents.parseSessionInfo, object, ok_bind, ensureFields_of (by simp [JsonObject.keys])]
  simp (disch := first | (simp [JsonObject.keys]; done) | with_unfolding_all rintro ⟨⟩) only [
    ok_bind, from_required_cons, from_lift_bind, from_finish_bind, from_pure, sessionOpaqueId_serialize, string_str,
    List.isEmpty_nil, if_true]

theorem parseProviderError_serialize (error : ProviderError) :
    ServerEvents.parseProviderError error.serialize = .ok error := by
  have hid : ∀ field, ServerEvents.optionalSessionOpaqueId field =
      optional field >>= fun value => liftM (transpose ServerEvents.sessionOpaqueId value) :=
    fun field => removeOptional_eq field ServerEvents.sessionOpaqueId
  rw [ProviderError.serialize, ServerEvents.parseProviderError, object, ok_bind,
    ensureFields_of (by simp [JsonObject.keys])]
  simp (disch := first | (simp [JsonObject.keys]; done) | with_unfolding_all rintro ⟨⟩) only [
    ok_bind, from_required_cons, from_optional_nullable str_ne_null,
    from_optional_nullable serialize_opaqueId_ne_null, hid, optionalString_eq, bind_assoc, from_lift_bind,
    from_finish_bind, from_pure, string_str, transpose_map string_str, transpose_map sessionOpaqueId_serialize,
    List.isEmpty_nil, if_true]

theorem parseFunctionItem_serialize (item : FunctionCallOutputAckItem) :
    ServerEvents.parseFunctionItem item.serialize = .ok item := by
  rw [parseFunctionItem_eq]
  simp (disch := first | (simp [JsonObject.keys]; done) | with_unfolding_all rintro ⟨⟩) only [
    FunctionCallOutputAckItem.serialize, FunctionEvents.parseItem, object, ok_bind, from_required_cons,
    from_lift_bind, from_finish_bind, from_pure, opaqueId_serialize, toolOutput_serialize, parseItemType_serialize,
    List.isEmpty_nil, if_true]

theorem parseProviderErrorSummary_serialize (error : ProviderErrorSummary) :
    ResponseEvents.parseProviderError error.serialize = .ok error := by
  simp (disch := first | (simp [JsonObject.keys]; done) | with_unfolding_all rintro ⟨⟩) only [
    ProviderErrorSummary.serialize, ResponseEvents.parseProviderError, object, ok_bind, from_required_cons,
    from_optional_nullable str_ne_null, from_lift_bind, from_finish_bind, from_pure, string_str,
    transpose_map string_str, List.isEmpty_nil, if_true]

theorem parseStatusDetails_serialize (details : ResponseStatusDetails) :
    ResponseEvents.parseStatusDetails details.serialize = .ok details := by
  have hreason : ∀ reason, InterruptionReason.serialize reason ≠ .null := fun _ => nofun
  have herror : ∀ error, ProviderErrorSummary.serialize error ≠ .null := fun _ => nofun
  simp (disch := first | (simp [JsonObject.keys]; done) | with_unfolding_all rintro ⟨⟩) only [
    ResponseStatusDetails.serialize, ResponseEvents.parseStatusDetails, object, ok_bind,
    from_optional_nullable hreason, from_optional_nullable herror, from_lift_bind, from_finish_bind, from_pure,
    transpose_map parseReason_serialize, transpose_map parseProviderErrorSummary_serialize, List.isEmpty_nil, if_true]

theorem parseResponseSummary_serialize (response : ResponseSummary) :
    ServerEvents.parseResponseSummary response.serialize = .ok response := by
  have hdetails : ∀ details, ResponseStatusDetails.serialize details ≠ .null := fun _ => nofun
  have hnew : ResponseSummary.new response.id response.status response.statusDetails = .ok response :=
    dif_pos response.valid
  rw [parseResponseSummary_eq]
  simp (disch := first | (simp [JsonObject.keys]; done) | with_unfolding_all rintro ⟨⟩) only [
    ResponseSummary.serialize, ResponseEvents.parseResponseSummary, object, ok_bind, from_required_cons,
    from_optional_nullable hdetails, from_lift_bind, from_finish_bind, opaqueId_serialize, parseStatus_serialize,
    transpose_map parseStatusDetails_serialize, List.isEmpty_nil, if_true]
  exact congrArg (fun x => Taking.from (liftM x) []) hnew

/-! ### What a decoder has checked

The type of an event says what its values are, but for two: audio is written as the text it was read from, and the
arguments of a completed call are one object. -/

variable (libs : Libraries)

/-- The values of an event pass the checks of their decoder. -/
def Checked : RealtimeServerEvent → Prop
  | .audio (.outputAudioDelta _ _ _ _ _ delta) => audio libs (G711Ulaw.serialize libs delta) = .ok delta
  | .function (.functionCallArgumentsDone _ _ _ _ _ _ arguments) =>
    argumentsCompleted libs (FunctionArguments.serialize arguments) = .ok arguments
  | _ => True

/-- What a decoder returns has a property. -/
def Yields {α : Type} (P : α → Prop) (decoder : Taking α) : Prop := ∀ map a, decoder.from map = .ok a → P a

theorem yields_pure {α : Type} {P : α → Prop} {a : α} (h : P a) : Yields P (pure a) := by
  intro map b hb
  obtain rfl := Except.ok.inj hb
  exact h

theorem yields_throw {α : Type} {P : α → Prop} (e : RealtimeValueError) : Yields P (throw e) := nofun

theorem yields_bind {α β : Type} {P : β → Prop} (decoder : Taking α) {k : α → Taking β} (h : ∀ a, Yields P (k a)) :
    Yields P (decoder >>= k) := by
  intro map b hb
  rw [Taking.from, StateT.run_bind] at hb
  cases hrun : decoder.run map with
  | error e =>
    rw [hrun] at hb
    cases hb
  | ok result =>
    rw [hrun] at hb
    exact h result.1 result.2 b hb

theorem yields_lift_bind {α β : Type} {P : β → Prop} {x : Decoded α} {k : α → Taking β}
    (h : ∀ a, x = .ok a → Yields P (k a)) : Yields P (liftM x >>= k) := by
  intro map b hb
  rw [from_lift_bind, bind_eq_ok_iff] at hb
  obtain ⟨a, ha, hb⟩ := hb
  exact h a ha map b hb

theorem fromBase64_eq_ok {text : String} {value : G711Ulaw} (h : G711Ulaw.fromBase64 libs text = .ok value) :
    libs.base64Encode value.val = text := by
  unfold G711Ulaw.fromBase64 at h
  split_ifs at h
  split at h
  · cases h
  · split_ifs at h with hsize hcanonical
    obtain rfl := Except.ok.inj h
    exact hcanonical.2

theorem audio_serialize {value : Json} {read : G711Ulaw} (h : audio libs value = .ok read) :
    audio libs (G711Ulaw.serialize libs read) = .ok read := by
  cases value with
  | str text =>
    have hread : G711Ulaw.fromBase64 libs text = .ok read := by
      rw [audio] at h
      split at h
      next hread => exact hread.trans h
      all_goals cases h
    rw [G711Ulaw.serialize, fromBase64_eq_ok libs hread]
    exact h
  | _ => cases h

theorem argumentsCompleted_serialize {value : Json} {read : FunctionArguments}
    (h : argumentsCompleted libs value = .ok read) :
    argumentsCompleted libs (FunctionArguments.serialize read) = .ok read := by
  cases value with
  | str text =>
    have htext : read.val = text := by
      rw [argumentsCompleted, FunctionArguments.fromCompleted] at h
      split_ifs at h
      split at h
      · obtain rfl := Except.ok.inj h
        rfl
      · cases h
    rw [FunctionArguments.serialize, htext]
    exact h
  | _ => cases h

theorem parseKind_checked (kind : String) : Yields (Checked libs) (ServerEvents.parseKind libs kind) := by
  unfold ServerEvents.parseKind
  split
  case h_10 =>
    iterate 11 refine yields_bind _ fun _ => ?_
    refine yields_lift_bind fun delta hdelta => yields_bind _ fun _ => yields_pure ?_
    exact audio_serialize libs hdelta
  case h_15 =>
    iterate 13 refine yields_bind _ fun _ => ?_
    refine yields_lift_bind fun arguments harguments => yields_bind _ fun _ => yields_pure ?_
    exact argumentsCompleted_serialize libs harguments
  case h_18 => exact yields_throw _
  all_goals
    repeat refine yields_bind _ fun _ => ?_
    exact yields_pure trivial

theorem parseTaken_yields {α : Type} {P : α → Prop} {parseKind : String → Taking α}
    (h : ∀ kind, Yields P (parseKind kind)) {value : Json} {a : α} (ha : parseTaken parseKind value = .ok a) : P a := by
  rw [parseTaken, bind_eq_ok_iff] at ha
  obtain ⟨map, -, ha⟩ := ha
  refine yields_bind (remove "type") (fun removed => ?_) map a ha
  split
  · exact h _
  · exact yields_throw _

/-! ### Whole events -/

/-- The type is taken out of a tagged object. -/
theorem parseTaken_tagged {α : Type} {kind : String} {fields : JsonObject} (hfields : "type" ∉ fields.keys)
    (parseKind : String → Taking α) : parseTaken parseKind (tagged kind fields) = (parseKind kind).from fields := by
  rw [parseTaken, tagged, object, ok_bind, from_remove_bind, erase_cons hfields, List.lookup_cons, beq_self_eq_true]

theorem parseTaken_session (ev : RealtimeServerSessionEvent) :
    parseTaken (ServerEvents.parseKind libs) ev.serialize = .ok (.session ev) := by
  cases ev
  all_goals
    rw [RealtimeServerSessionEvent.serialize, parseTaken_tagged (by simp [JsonObject.keys]), ServerEvents.parseKind,
      from_ensureLeft_bind, ensureFields_of (by simp [JsonObject.keys])]
    simp (disch := first | (simp [JsonObject.keys]; done) | with_unfolding_all rintro ⟨⟩) only [
      ok_bind, from_required_cons, from_lift_bind, from_finish_bind, from_pure, sessionOpaqueId_serialize,
      parseSessionInfo_serialize, parseProviderError_serialize, index_serialize, timestamp_serialize,
      transcript_serialize, List.isEmpty_nil, if_true]

theorem parseTaken_audio {ev : RealtimeServerAudioEvent} (h : Checked libs (.audio ev)) :
    parseTaken (ServerEvents.parseKind libs) (ev.serialize libs) = .ok (.audio ev) := by
  cases ev
  all_goals
    simp only [Checked] at h
    rw [RealtimeServerAudioEvent.serialize, parseTaken_tagged (by simp [JsonObject.keys]), ServerEvents.parseKind]
    simp (disch := first | (simp [JsonObject.keys]; done) | with_unfolding_all rintro ⟨⟩) only [
      ok_bind, from_required_cons, from_lift_bind, from_finish_bind, from_pure, opaqueId_serialize, index_serialize,
      transcript_serialize, h, List.isEmpty_nil, if_true]

theorem parseTaken_function {ev : RealtimeServerFunctionEvent} (h : Checked libs (.function ev)) :
    parseTaken (ServerEvents.parseKind libs) ev.serialize = .ok (.function ev) := by
  cases ev
  all_goals
    simp only [Checked] at h
    rw [RealtimeServerFunctionEvent.serialize, parseTaken_tagged (by simp [JsonObject.keys]), ServerEvents.parseKind]
    simp (disch := first | (simp [JsonObject.keys]; done) | with_unfolding_all rintro ⟨⟩) only [
      ok_bind, from_required_cons, from_lift_bind, from_finish_bind, from_pure, opaqueId_serialize, index_serialize,
      argumentsDelta_serialize, string_str, parseFunctionItem_serialize, h, List.isEmpty_nil, if_true]

theorem parseTaken_response (ev : RealtimeServerResponseEvent) :
    parseTaken (ServerEvents.parseKind libs) ev.serialize = .ok (.response ev) := by
  cases ev
  rw [RealtimeServerResponseEvent.serialize, parseTaken_tagged (by simp [JsonObject.keys]), ServerEvents.parseKind]
  simp (disch := first | (simp [JsonObject.keys]; done) | with_unfolding_all rintro ⟨⟩) only [
    ok_bind, from_required_cons, from_lift_bind, from_finish_bind, from_pure, opaqueId_serialize,
    parseResponseSummary_serialize, List.isEmpty_nil, if_true]

/-- **What a checked event is written as reads as the event.** -/
theorem parseTaken_serialize {ev : RealtimeServerEvent} (h : Checked libs ev) :
    parseTaken (ServerEvents.parseKind libs) (ev.serialize libs) = .ok ev := by
  cases ev with
  | session ev => exact parseTaken_session libs ev
  | audio ev => exact parseTaken_audio libs h
  | function ev => exact parseTaken_function libs h
  | response ev => exact parseTaken_response libs ev

/-! ### Client events -/

/-- The audio of a client event is written as the text it was read from. -/
def CheckedClient : RealtimeClientEvent → Prop
  | .inputAudioBufferAppend _ value => audio libs (G711Ulaw.serialize libs value) = .ok value
  | _ => True

theorem parseClientKind_checked (kind : String) : Yields (CheckedClient libs) (ClientEvents.parseKind libs kind) := by
  unfold ClientEvents.parseKind
  split
  case h_2 =>
    iterate 2 refine yields_bind _ fun _ => ?_
    refine yields_lift_bind fun value hvalue => yields_bind _ fun _ => yields_pure ?_
    exact audio_serialize libs hvalue
  case h_7 => exact yields_throw _
  all_goals
    repeat refine yields_bind _ fun _ => ?_
    exact yields_pure trivial

theorem parseTurnDetection_serialize (detection : TurnDetection) :
    ClientEvents.parseTurnDetection detection.serialize = .ok detection := by
  have hnew : TurnDetection.new detection.val = .ok detection := dif_pos detection.property
  rw [TurnDetection.serialize, ClientEvents.parseTurnDetection, object, ok_bind]
  simp (disch := first | (simp [JsonObject.keys]; done) | with_unfolding_all rintro ⟨⟩) only [
    from_required_cons, from_lift_bind, from_finish_bind, string_str, ok_bind, List.isEmpty_nil, if_true]
  exact congrArg (fun x => Taking.from (liftM x) []) hnew

theorem transpose_some {α : Type} {parse : Json → Decoded α} {value : Json} {a : α} (h : parse value = .ok a) :
    transpose parse (some value) = .ok (some a) := by
  rw [transpose, h]
  rfl

theorem parseSession_serialize (session : SessionUpdatePayload) :
    ClientEvents.parseSession session.serialize = .ok session := by
  obtain ⟨model, input, output, detection⟩ := session
  rw [SessionUpdatePayload.serialize, ClientEvents.parseSession, object, ok_bind]
  cases detection
  all_goals
    simp (disch := first | (simp [JsonObject.keys]; done) | with_unfolding_all rintro ⟨⟩) only [
      Json.skipNone, from_required_cons, from_optional_absent, from_optional_cons, from_lift_bind, from_finish_bind,
      from_pure, string_str, codec_serialize, transpose_none, transpose_some (parseTurnDetection_serialize _), ok_bind,
      List.isEmpty_nil, if_true]

theorem parseItem_serialize (item : FunctionCallOutputItem) : ClientEvents.parseItem item.serialize = .ok item := by
  obtain ⟨id, type, callId, output⟩ := item
  rw [FunctionCallOutputItem.serialize, ClientEvents.parseItem, object, ok_bind]
  cases id
  all_goals
    simp (disch := first | (simp [JsonObject.keys]; done) | with_unfolding_all rintro ⟨⟩) only [
      Json.skipNone, List.nil_append, List.cons_append, ClientEvents.optionalOpaqueId, bind_assoc,
      from_required_cons, from_optional_absent, from_optional_cons, from_lift_bind, from_finish_bind, from_pure,
      opaqueId_serialize, toolOutput_serialize, parseItemType_serialize, transpose_none,
      transpose_some (opaqueId_serialize _), ok_bind, List.isEmpty_nil, if_true]

/-- **What a checked client event is written as reads as the event.** -/
theorem parseTaken_client {ev : RealtimeClientEvent} (h : CheckedClient libs ev) :
    parseTaken (ClientEvents.parseKind libs) (ev.serialize libs) = .ok ev := by
  rcases ev with ⟨id, _⟩ | ⟨id, _⟩ | id | id | id | ⟨id, _⟩
  all_goals
    simp only [CheckedClient] at h
    rw [RealtimeClientEvent.serialize, taggedWithId]
    cases id
    all_goals
      rw [parseTaken_tagged (by simp [JsonObject.keys, Json.skipNone]), ClientEvents.parseKind]
      simp (disch := first | (simp [JsonObject.keys]; done) | with_unfolding_all rintro ⟨⟩) only [
        Json.skipNone, List.nil_append, List.cons_append, ClientEvents.optionalOpaqueId, bind_assoc,
        from_required_cons, from_optional_absent, from_optional_cons, from_lift_bind, from_finish_bind, from_pure, h,
        parseSession_serialize, parseItem_serialize, transpose_none, transpose_some (opaqueId_serialize _), ok_bind,
        List.isEmpty_nil, if_true]

/-! ### No key twice

Both decoders read back the entries that were written. -/

theorem not_repeatsKey_str (text : String) : ¬ (Json.str text).RepeatsKey := by
  intro h
  cases h

theorem not_repeatsKey_int (n : ℤ) : ¬ (Json.int n).RepeatsKey := by
  intro h
  cases h

theorem not_repeatsKey_nullable {α : Type} {serialize : α → Json} (h : ∀ a, ¬ (serialize a).RepeatsKey)
    (value : Option α) : ¬ (Json.nullable serialize value).RepeatsKey := by
  cases value with
  | none => nofun
  | some a => exact h a

theorem not_repeatsKey_sessionInfo (session : SessionInfo) : ¬ session.serialize.RepeatsKey := by
  simp [SessionInfo.serialize, Json.repeatsKey_obj_iff, OpaqueId.serialize, not_repeatsKey_str]

theorem not_repeatsKey_providerError (error : ProviderError) : ¬ error.serialize.RepeatsKey := by
  have hid : ∀ id, ¬ (OpaqueId.serialize id).RepeatsKey := fun id => not_repeatsKey_str id.val
  simp [ProviderError.serialize, Json.repeatsKey_obj_iff, not_repeatsKey_str,
    not_repeatsKey_nullable not_repeatsKey_str, not_repeatsKey_nullable hid]

theorem not_repeatsKey_ackItem (item : FunctionCallOutputAckItem) : ¬ item.serialize.RepeatsKey := by
  simp [FunctionCallOutputAckItem.serialize, FunctionCallOutputType.serialize, ToolOutput.serialize,
    Json.repeatsKey_obj_iff, OpaqueId.serialize, not_repeatsKey_str]

theorem not_repeatsKey_statusDetails (details : ResponseStatusDetails) : ¬ details.serialize.RepeatsKey := by
  have hreason : ∀ reason, ¬ (InterruptionReason.serialize reason).RepeatsKey :=
    fun reason => not_repeatsKey_str reason.asStr
  have herror : ∀ error, ¬ (ProviderErrorSummary.serialize error).RepeatsKey := by
    intro error
    simp [ProviderErrorSummary.serialize, Json.repeatsKey_obj_iff, not_repeatsKey_str,
      not_repeatsKey_nullable not_repeatsKey_str]
  simp [ResponseStatusDetails.serialize, Json.repeatsKey_obj_iff, not_repeatsKey_nullable hreason,
    not_repeatsKey_nullable herror]

theorem not_repeatsKey_responseSummary (response : ResponseSummary) : ¬ response.serialize.RepeatsKey := by
  simp [ResponseSummary.serialize, ResponseStatus.serialize, Json.repeatsKey_obj_iff, OpaqueId.serialize,
    not_repeatsKey_str, not_repeatsKey_nullable not_repeatsKey_statusDetails]

/-- **A server event is written without repeating a key.** -/
theorem not_repeatsKey_serialize (ev : RealtimeServerEvent) : ¬ (ev.serialize libs).RepeatsKey := by
  rcases ev with ev | ev | ev | ev
  · cases ev
    all_goals
      simp [RealtimeServerEvent.serialize, RealtimeServerSessionEvent.serialize, tagged, Json.repeatsKey_obj_iff,
        OpaqueId.serialize, TranscriptText.serialize, serializeU32, serializeU64, not_repeatsKey_str,
        not_repeatsKey_int, not_repeatsKey_sessionInfo, not_repeatsKey_providerError]
  · cases ev
    all_goals
      simp [RealtimeServerEvent.serialize, RealtimeServerAudioEvent.serialize, tagged, Json.repeatsKey_obj_iff,
        OpaqueId.serialize, TranscriptText.serialize, G711Ulaw.serialize, serializeU32, not_repeatsKey_str,
        not_repeatsKey_int]
  · cases ev
    all_goals
      simp [RealtimeServerEvent.serialize, RealtimeServerFunctionEvent.serialize, tagged, Json.repeatsKey_obj_iff,
        OpaqueId.serialize, FunctionArguments.serialize, serializeU32, not_repeatsKey_str, not_repeatsKey_int,
        not_repeatsKey_ackItem]
  · cases ev
    simp [RealtimeServerEvent.serialize, RealtimeServerResponseEvent.serialize, tagged, Json.repeatsKey_obj_iff,
      OpaqueId.serialize, not_repeatsKey_str, not_repeatsKey_responseSummary]

theorem not_repeatsKey_turnDetection (detection : TurnDetection) : ¬ detection.serialize.RepeatsKey := by
  simp [TurnDetection.serialize, Json.repeatsKey_obj_iff, not_repeatsKey_str]

theorem not_repeatsKey_sessionUpdate (session : SessionUpdatePayload) : ¬ session.serialize.RepeatsKey := by
  obtain ⟨model, input, output, detection⟩ := session
  cases detection <;> simp [SessionUpdatePayload.serialize, Json.skipNone, AudioCodec.serialize,
    Json.repeatsKey_obj_iff, not_repeatsKey_str, not_repeatsKey_turnDetection]

theorem not_repeatsKey_outputItem (item : FunctionCallOutputItem) : ¬ item.serialize.RepeatsKey := by
  obtain ⟨id, type, callId, output⟩ := item
  cases id <;> simp [FunctionCallOutputItem.serialize, Json.skipNone, FunctionCallOutputType.serialize,
    ToolOutput.serialize, OpaqueId.serialize, Json.repeatsKey_obj_iff, not_repeatsKey_str]

/-- **A client event is written without repeating a key.** -/
theorem not_repeatsKey_client (ev : RealtimeClientEvent) : ¬ (ev.serialize libs).RepeatsKey := by
  rcases ev with ⟨id, _⟩ | ⟨id, _⟩ | id | id | id | ⟨id, _⟩
  all_goals
    cases id <;> simp [RealtimeClientEvent.serialize, taggedWithId, tagged, Json.skipNone, G711Ulaw.serialize,
      OpaqueId.serialize, Json.repeatsKey_obj_iff, not_repeatsKey_str, not_repeatsKey_sessionUpdate,
      not_repeatsKey_outputItem]

/-! ### Texts -/

/-- `serde_json` reads the text that it has written for a value. -/
def Libraries.ReadsBack (value : Json) : Prop := libs.read value.toVec = some value

/-- **Round trips.** Of an event that a decoder has returned, the text it is written as decodes to the event; for a
server event where the text is within the bound. -/
theorem events_roundTrip :
    (∀ bytes ev, decodeServerEvent libs bytes = .ok ev → libs.ReadsBack (ev.serialize libs) →
      (ev.serialize libs).toVec.length ≤ maxEventBytes → decodeServerEvent libs (ev.serialize libs).toVec = .ok ev) ∧
      ∀ bytes ev, decodeClientEvent libs bytes = .ok ev → libs.ReadsBack (ev.serialize libs) →
        decodeClientEvent libs (ev.serialize libs).toVec = .ok ev := by
  constructor
  · intro bytes ev h hread hlen
    have hchecked : Checked libs ev := by
      unfold decodeServerEvent at h
      split_ifs at h
      obtain ⟨value, -, hev⟩ := bind_eq_ok_iff.mp h
      exact parseTaken_yields (parseKind_checked libs) hev
    rw [decodeServerEvent, if_neg (Nat.not_lt.mpr hlen), hread, Option.bind_some,
      Json.uniqueValue_of_not_repeatsKey (not_repeatsKey_serialize libs ev)]
    exact parseTaken_serialize libs hchecked
  · intro bytes ev h hread
    have hchecked : CheckedClient libs ev := by
      simp only [decodeClientEvent, bind_eq_ok_iff] at h
      obtain ⟨value, -, hev⟩ := h
      exact parseTaken_yields (parseClientKind_checked libs) hev
    rw [decodeClientEvent, hread, Option.map_some,
      Json.lastValues_of_not_repeatsKey _ (not_repeatsKey_client libs ev)]
    exact parseTaken_client libs hchecked

/-- A cleared input buffer with its type last, and a cancellation with a null identifier. -/
def unusualTexts : List UInt8 × List UInt8 :=
  (utf8 "\x7b\"event_id\":\"e1\",\"type\":\"input_audio_buffer.cleared\"\x7d",
    utf8 "\x7b\"type\":\"response.cancel\",\"event_id\":null\x7d")

/-- A reader of these texts and of what their events are written as, and no base64. -/
def unusualLibraries : Libraries where
  read := fun bytes =>
    if bytes = unusualTexts.1 then some (.obj [("event_id", .str "e1"), ("type", .str "input_audio_buffer.cleared")])
    else if bytes = unusualTexts.2 then some (.obj [("type", .str "response.cancel"), ("event_id", .null)])
    else if bytes = (tagged "input_audio_buffer.cleared" [("event_id", .str "e1")]).toVec then
      some (tagged "input_audio_buffer.cleared" [("event_id", .str "e1")])
    else if bytes = (tagged "response.cancel" []).toVec then some (tagged "response.cancel" [])
    else none
  base64Decode := fun _ => none
  base64Encode := fun _ => ""

theorem events_roundTrip_unusualTexts :
    decodeServerEvent unusualLibraries (tagged "input_audio_buffer.cleared" [("event_id", .str "e1")]).toVec =
        .ok (.session (.inputAudioBufferCleared ⟨"e1", by decide +kernel⟩)) ∧
      decodeClientEvent unusualLibraries (tagged "response.cancel" []).toVec = .ok (.responseCancel none) := by
  have hserver : decodeServerEvent unusualLibraries unusualTexts.1 =
      .ok (.session (.inputAudioBufferCleared ⟨"e1", by decide +kernel⟩)) := by
    decide +kernel
  have hclient : decodeClientEvent unusualLibraries unusualTexts.2 = .ok (.responseCancel none) := by
    decide +kernel
  have hserverReads : unusualLibraries.ReadsBack (tagged "input_audio_buffer.cleared" [("event_id", .str "e1")]) := by
    show unusualLibraries.read (tagged "input_audio_buffer.cleared" [("event_id", .str "e1")]).toVec = _
    simp only [unusualLibraries]
    rw [if_neg (by decide +kernel), if_neg (by decide +kernel), if_pos trivial]
  have hclientReads : unusualLibraries.ReadsBack (tagged "response.cancel" []) := by
    show unusualLibraries.read (tagged "response.cancel" []).toVec = _
    simp only [unusualLibraries]
    rw [if_neg (by decide +kernel), if_neg (by decide +kernel), if_neg (by decide +kernel), if_pos trivial]
  obtain ⟨hservers, hclients⟩ := events_roundTrip unusualLibraries
  have hserverBack := hservers _ _ hserver hserverReads (by decide +kernel)
  have hclientBack := hclients _ _ hclient hclientReads
  exact ⟨hserverBack, hclientBack⟩

end AgentVoice.Realtime

import AgentVoice.RealtimeVoice.EventMapper
import Mathlib.Tactic.Ring

/-!
# Final transcripts

A caller utterance ends with a completed event, and the transcript of a response with its `done` event or with the
response. The mapper also takes pending text of the caller to be final when a response ends, and for xAI when a
response begins or speaks. So the final transcripts of the caller are the completed ones exactly where no caller text
is pending at such an event, and a response has one final transcript exactly where it has at most one `done` event
and no text behind it (`oneFinalEach_iff`).
-/

namespace AgentVoice.RealtimeVoice

open AgentVoice.Foundations

/-- The text of a final transcript of the caller. -/
def RealtimeEvent.inputFinal : RealtimeEvent → Option String
  | .inputTranscript text true => some text
  | _ => none

/-- The text of a final transcript of the assistant. -/
def RealtimeEvent.outputFinal : RealtimeEvent → Option String
  | .outputTranscript text true => some text
  | _ => none

/-- The completed text of an utterance. -/
def completed (event : Json) : Option String :=
  if kind event = some .transcriptionCompleted then event.strAt "transcript" else none

/-- The events that take pending text of the caller to be final. -/
def FinalizesInput (adapter : RealtimeAdapter) (event : Json) : Prop :=
  kind event = some .responseDone ∨ adapter = .xai ∧ (kind event = some .responseCreated ∨
    kind event = some .outputAudioDelta ∨ kind event = some .outputTranscriptDelta)

instance (adapter : RealtimeAdapter) (event : Json) : Decidable (FinalizesInput adapter event) :=
  inferInstanceAs (Decidable (_ ∨ _))

/-- The completed transcript of a response. -/
def transcriptDone (event : Json) : Option String :=
  if kind event = some .outputTranscriptDone then event.strAt "transcript" else none

/-- The event adds text to the transcript of a response. -/
def AddsTranscript (event : Json) : Prop :=
  kind event = some .outputTranscriptDelta ∧ ∃ text, event.strAt "delta" = some text ∧ text ≠ ""

namespace EventMapper

variable (base64 : String → Option (List UInt8))

/-! ### One event -/

section Parts

variable (m : EventMapper)

@[simp] theorem finalizeInput_adapter : m.finalizeInput.2.adapter = m.adapter := rfl

@[simp] theorem finalizeInput_outputPending : m.finalizeInput.2.outputPending = m.outputPending := rfl

@[simp] theorem finalizeInput_inputFinal :
    m.finalizeInput.1.filterMap RealtimeEvent.inputFinal = if IsBlank m.inputPending then [] else [m.inputPending] := by
  unfold finalizeInput
  split <;> rfl

@[simp] theorem finalizeInput_outputFinal : m.finalizeInput.1.filterMap RealtimeEvent.outputFinal = [] := by
  unfold finalizeInput
  split <;> rfl

@[simp] theorem finalizeXai_adapter : m.finalizeXai.2.adapter = m.adapter := by
  unfold finalizeXai
  split <;> rfl

@[simp] theorem finalizeXai_outputPending : m.finalizeXai.2.outputPending = m.outputPending := by
  unfold finalizeXai
  split <;> rfl

@[simp] theorem finalizeXai_inputFinal : m.finalizeXai.1.filterMap RealtimeEvent.inputFinal =
    if m.adapter = .xai ∧ ¬ IsBlank m.inputPending then [m.inputPending] else [] := by
  unfold finalizeXai
  cases hadapter : m.adapter with
  | openAi => rfl
  | xai => by_cases hblank : IsBlank m.inputPending <;> simp [hblank]

@[simp] theorem finalizeXai_outputFinal : m.finalizeXai.1.filterMap RealtimeEvent.outputFinal = [] := by
  unfold finalizeXai
  split
  · rfl
  · simp

@[simp] theorem finalizeOutput_adapter : m.finalizeOutput.2.adapter = m.adapter := by
  unfold finalizeOutput
  split <;> rfl

@[simp] theorem finalizeOutput_outputPending : m.finalizeOutput.2.outputPending = "" := by
  unfold finalizeOutput
  split
  · assumption
  · rfl

@[simp] theorem finalizeOutput_inputFinal : m.finalizeOutput.1.filterMap RealtimeEvent.inputFinal = [] := by
  unfold finalizeOutput
  split <;> rfl

@[simp] theorem finalizeOutput_outputFinal : m.finalizeOutput.1.filterMap RealtimeEvent.outputFinal =
    if m.outputPending = "" then [] else [m.outputPending] := by
  unfold finalizeOutput
  split <;> rfl

end Parts

theorem map_adapter (event : Json) (m : EventMapper) : (m.map base64 event).2.adapter = m.adapter := by
  unfold map
  cases kind event with
  | none => rfl
  | some k =>
    cases k with
    | responseCreated => simp [mapKind]
    | responseDone => simp [mapKind]
    | outputItemAdded | transcriptionFailed | speechStarted | error => rfl
    | transcriptionDelta | transcriptionUpdated | transcriptionCompleted | outputTranscriptDone =>
      simp only [mapKind]
      split <;> rfl
    | outputAudioDelta =>
      simp only [mapKind, readyForOutput]
      split
      · simp
      · split <;> simp
    | outputTranscriptDelta =>
      simp only [mapKind, readyForOutput]
      split <;> simp

/-- **The caller's final transcripts of one event**: the completed text, or the pending text that it takes to be
final. -/
theorem map_inputFinal (event : Json) (m : EventMapper) : (m.map base64 event).1.filterMap RealtimeEvent.inputFinal =
    (completed event).toList ++
      if FinalizesInput m.adapter event ∧ ¬ IsBlank m.inputPending then [m.inputPending] else [] := by
  cases hkind : kind event with
  | none => simp [map, completed, FinalizesInput, hkind]
  | some k =>
    simp only [map, completed, FinalizesInput, hkind]
    cases k with
    | responseCreated => simp [mapKind]
    | responseDone => by_cases hblank : IsBlank m.inputPending <;> simp [mapKind, RealtimeEvent.inputFinal, hblank]
    | outputItemAdded | transcriptionFailed | speechStarted | error => simp [mapKind, RealtimeEvent.inputFinal]
    | transcriptionDelta | transcriptionUpdated | outputTranscriptDone =>
      simp only [mapKind]
      split <;> simp [RealtimeEvent.inputFinal]
    | transcriptionCompleted =>
      simp only [mapKind]
      split <;> simp_all [RealtimeEvent.inputFinal]
    | outputAudioDelta =>
      simp only [mapKind, readyForOutput]
      split
      · simp
      · split <;> simp [RealtimeEvent.inputFinal]
    | outputTranscriptDelta =>
      simp only [mapKind, readyForOutput]
      split <;> simp [RealtimeEvent.inputFinal]

/-- **The assistant's final transcripts of one event**: the text of a `done` event, or what is pending when the
response ends. -/
theorem map_outputFinal (event : Json) (m : EventMapper) : (m.map base64 event).1.filterMap RealtimeEvent.outputFinal =
    (transcriptDone event).toList ++
      if kind event = some .responseDone ∧ m.outputPending ≠ "" then [m.outputPending] else [] := by
  cases hkind : kind event with
  | none => simp [map, transcriptDone, hkind]
  | some k =>
    simp only [map, transcriptDone, hkind]
    cases k with
    | responseCreated => simp [mapKind]
    | responseDone => by_cases hempty : m.outputPending = "" <;> simp [mapKind, RealtimeEvent.outputFinal, hempty]
    | outputItemAdded | transcriptionFailed | speechStarted | error => simp [mapKind, RealtimeEvent.outputFinal]
    | transcriptionDelta | transcriptionUpdated | transcriptionCompleted | outputTranscriptDone =>
      simp only [mapKind]
      split <;> simp_all [RealtimeEvent.outputFinal]
    | outputAudioDelta =>
      simp only [mapKind, readyForOutput]
      split
      · simp
      · split <;> simp [RealtimeEvent.outputFinal]
    | outputTranscriptDelta =>
      simp only [mapKind, readyForOutput]
      split <;> simp [RealtimeEvent.outputFinal]

/-- The pending transcript of the response after an event. -/
theorem map_outputPending (event : Json) (m : EventMapper) :
    ((m.map base64 event).2.outputPending = m.outputPending ∧ ¬ AddsTranscript event ∧ transcriptDone event = none) ∨
      ((m.map base64 event).2.outputPending = "" ∧
        ((transcriptDone event).isSome = true ∨ kind event = some .responseDone)) ∨
      ((m.map base64 event).2.outputPending ≠ "" ∧ AddsTranscript event) := by
  cases hkind : kind event with
  | none => simp [map, transcriptDone, AddsTranscript, hkind]
  | some k =>
    simp only [map, transcriptDone, AddsTranscript, hkind]
    cases k with
    | responseCreated => simp [mapKind]
    | responseDone => simp [mapKind]
    | outputItemAdded | transcriptionFailed | speechStarted | error => simp [mapKind]
    | transcriptionDelta | transcriptionUpdated | transcriptionCompleted =>
      simp only [mapKind]
      split <;> simp
    | outputTranscriptDone =>
      simp only [mapKind]
      split <;> simp_all
    | outputAudioDelta =>
      simp only [mapKind, readyForOutput]
      split
      · simp
      · split <;> simp
    | outputTranscriptDelta =>
      simp only [mapKind, readyForOutput]
      cases hdelta : event.strAt "delta" with
      | none => simp
      | some text => by_cases hempty : text = "" <;> simp [hempty]

/-! ### The caller -/

theorem inputFinals_cons (event : Json) (events : List Json) (m : EventMapper) :
    (m.mapped base64 (event :: events)).filterMap RealtimeEvent.inputFinal =
      (completed event).toList ++
          (if FinalizesInput m.adapter event ∧ ¬ IsBlank m.inputPending then [m.inputPending] else []) ++
        ((m.map base64 event).2.mapped base64 events).filterMap RealtimeEvent.inputFinal := by
  rw [← map_inputFinal base64, ← List.filterMap_append]
  rfl

theorem filterMap_cons_toList {α β : Type} (f : α → Option β) (a : α) (as : List α) :
    (a :: as).filterMap f = (f a).toList ++ as.filterMap f := by
  rw [List.filterMap_cons]
  cases f a <;> rfl

/-- No completed text is lost. -/
theorem completed_length_le (events : List Json) (m : EventMapper) :
    (events.filterMap completed).length ≤ ((m.mapped base64 events).filterMap RealtimeEvent.inputFinal).length := by
  induction events generalizing m with
  | nil => simp
  | cons event events ih =>
    have hrest := ih (m.map base64 event).2
    rw [inputFinals_cons, filterMap_cons_toList]
    simp only [List.length_append]
    omega

/-- **The caller's final transcripts** are the completed ones exactly where no event takes pending text to be
final. -/
theorem inputFinals_eq_iff (events : List Json) (m : EventMapper) :
    (m.mapped base64 events).filterMap RealtimeEvent.inputFinal = events.filterMap completed ↔
      ∀ before event after, events = before ++ event :: after → FinalizesInput m.adapter event →
        IsBlank (m.run base64 before).inputPending := by
  induction events generalizing m with
  | nil => simp [mapped, Machine.outputs]
  | cons event events ih =>
    have hrest := ih (m.map base64 event).2
    rw [map_adapter] at hrest
    rw [inputFinals_cons, filterMap_cons_toList]
    constructor
    · intro heq
      have hle := completed_length_le base64 events (m.map base64 event).2
      have hlength := congrArg List.length heq
      simp only [List.length_append] at hlength
      -- the completed texts leave no room for another one
      have hnone : ¬ (FinalizesInput m.adapter event ∧ ¬ IsBlank m.inputPending) := fun hsome => by
        rw [if_pos hsome, List.length_singleton] at hlength
        omega
      rw [if_neg hnone, List.append_nil] at heq
      have hevents := hrest.mp (List.append_cancel_left heq)
      intro before event' after hsplit hfinal
      cases before with
      | nil =>
        obtain ⟨rfl, -⟩ := List.cons.inj hsplit
        exact not_not.mp fun hblank => hnone ⟨hfinal, hblank⟩
      | cons _ before =>
        obtain ⟨rfl, hevents'⟩ := List.cons.inj hsplit
        exact hevents before event' after hevents' hfinal
    · intro hall
      have hnone : ¬ (FinalizesInput m.adapter event ∧ ¬ IsBlank m.inputPending) := fun hsome =>
        hsome.2 (hall [] event events rfl hsome.1)
      rw [if_neg hnone, List.append_nil]
      refine congrArg _ (hrest.mpr fun before event' after hsplit hfinal => ?_)
      exact hall (event :: before) event' after (congrArg _ hsplit) hfinal

/-! ### The assistant -/

/-- The events of a response that give it a transcript. -/
def Produced (response : List Json) : Prop :=
  ∃ event ∈ response, (transcriptDone event).isSome = true ∨ AddsTranscript event

/-- At most one transcript of the response is done, and no text comes behind it. -/
def Settled (response : List Json) : Prop :=
  (response.filterMap transcriptDone).length ≤ 1 ∧ ∀ before event after, response = before ++ event :: after →
    (transcriptDone event).isSome = true → ∀ event' ∈ after, ¬ AddsTranscript event'

theorem AddsTranscript.not_done {event : Json} (h : AddsTranscript event) : transcriptDone event = none := by
  simp [transcriptDone, h.1]

variable {base64} {m : EventMapper} {response : List Json}

/-- The final transcripts before the response ends are those that are done. -/
theorem outputFinals_response (hresponse : ∀ event ∈ response, kind event ≠ some .responseDone) :
    (m.mapped base64 response).filterMap RealtimeEvent.outputFinal = response.filterMap transcriptDone := by
  induction response generalizing m with
  | nil => rfl
  | cons event response ih =>
    have hrest := ih (m := (m.map base64 event).2) fun event' hevent => hresponse event' (by simp [hevent])
    have hnot : ¬ (kind event = some .responseDone ∧ m.outputPending ≠ "") := fun h => hresponse event (by simp) h.1
    rw [filterMap_cons_toList, ← hrest]
    show ((m.map base64 event).1 ++ _).filterMap RealtimeEvent.outputFinal = _
    rw [List.filterMap_append, map_outputFinal, if_neg hnot, List.append_nil]
    rfl

/-- Text is pending after the events of a response exactly where some came after the transcripts that are done. -/
theorem outputPending_iff (hempty : m.outputPending = "")
    (hresponse : ∀ event ∈ response, kind event ≠ some .responseDone) :
    (m.run base64 response).outputPending ≠ "" ↔ ∃ before event after, response = before ++ event :: after ∧
      AddsTranscript event ∧ ∀ event' ∈ after, transcriptDone event' = none := by
  induction response using List.reverseRecOn with
  | nil => simp [run, Machine.run, hempty]
  | append_singleton response event ih =>
    have hrest := ih fun event' hevent => hresponse event' (by simp [hevent])
    have hrun : m.run base64 (response ++ [event]) = ((m.run base64 response).map base64 event).2 :=
      Machine.run_concat _ _ _
    rw [hrun]
    rcases map_outputPending base64 event (m.run base64 response) with
      ⟨hsame, hadds, hdone⟩ | ⟨hcleared, hdone | hend⟩ | ⟨hpending, hadds⟩
    · rw [hsame, hrest]
      constructor
      · rintro ⟨before, event', after, rfl, hadds', hafter⟩
        refine ⟨before, event', after ++ [event], by simp, hadds', fun event'' hevent => ?_⟩
        rcases List.mem_append.mp hevent with hevent | hevent
        · exact hafter event'' hevent
        · obtain rfl := List.mem_singleton.mp hevent
          exact hdone
      · rintro ⟨before, event', after, hsplit, hadds', hafter⟩
        rcases List.eq_nil_or_concat after with rfl | ⟨after, last, rfl⟩
        · obtain ⟨-, hlast⟩ := List.append_inj' hsplit rfl
          obtain rfl := List.singleton_inj.mp hlast
          exact absurd hadds' hadds
        · have hsplit' : response ++ [event] = (before ++ event' :: after) ++ [last] := by simpa using hsplit
          obtain ⟨hinit, -⟩ := List.append_inj' hsplit' rfl
          exact ⟨before, event', after, hinit, hadds', fun event'' hevent => hafter event'' (by simp [hevent])⟩
    · rw [hcleared]
      refine ⟨fun h => absurd rfl h, ?_⟩
      rintro ⟨before, event', after, hsplit, hadds', hafter⟩
      rcases List.eq_nil_or_concat after with rfl | ⟨after, last, rfl⟩
      · obtain ⟨-, hlast⟩ := List.append_inj' hsplit rfl
        obtain rfl := List.singleton_inj.mp hlast
        rw [AddsTranscript.not_done hadds'] at hdone
        cases hdone
      · have hsplit' : response ++ [event] = (before ++ event' :: after) ++ [last] := by simpa using hsplit
        obtain ⟨-, hlast⟩ := List.append_inj' hsplit' rfl
        obtain rfl := List.singleton_inj.mp hlast
        rw [hafter event (by simp)] at hdone
        cases hdone
    · exact absurd hend (hresponse event (by simp))
    · exact ⟨fun _ => ⟨response, event, [], rfl, hadds, by simp⟩, fun _ => hpending⟩

/-- The final transcripts of a response that ends. -/
theorem outputFinals_ended (hresponse : ∀ event ∈ response, kind event ≠ some .responseDone) {done : Json}
    (hdone : kind done = some .responseDone) :
    (m.mapped base64 (response ++ [done])).filterMap RealtimeEvent.outputFinal = response.filterMap transcriptDone ++
      if (m.run base64 response).outputPending ≠ "" then [(m.run base64 response).outputPending] else [] := by
  have hnot : transcriptDone done = none := by simp [transcriptDone, hdone]
  rw [mapped, Machine.outputs_append, List.filterMap_append]
  refine congrArg₂ _ (outputFinals_response hresponse) ?_
  show ((((m.run base64 response).map base64 done).1) ++ []).filterMap RealtimeEvent.outputFinal = _
  rw [List.append_nil, map_outputFinal, hnot]
  simp [hdone]

/-- **A response has one final transcript** exactly where at most one is done, and no text comes behind it. -/
theorem outputFinals_length_iff (hempty : m.outputPending = "")
    (hresponse : ∀ event ∈ response, kind event ≠ some .responseDone) {done : Json}
    (hdone : kind done = some .responseDone) (hproduced : Produced response) :
    ((m.mapped base64 (response ++ [done])).filterMap RealtimeEvent.outputFinal).length = 1 ↔ Settled response := by
  have hpending : (m.run base64 response).outputPending ≠ "" ↔ _ := outputPending_iff hempty hresponse
  have hmem : ∀ event ∈ response, (transcriptDone event).isSome = true → 0 < (response.filterMap transcriptDone).length := by
    intro event hevent hsome
    obtain ⟨text, htext⟩ := Option.isSome_iff_exists.mp hsome
    exact List.length_pos_of_mem (List.mem_filterMap.mpr ⟨event, hevent, htext⟩)
  rw [outputFinals_ended hresponse hdone, List.length_append]
  by_cases htext : (m.run base64 response).outputPending ≠ ""
  · rw [if_pos htext, List.length_singleton]
    obtain ⟨before, event, after, rfl, hadds, hafter⟩ := hpending.mp htext
    constructor
    · intro hlength
      refine ⟨by omega, fun before' event' after' hsplit hsome => ?_⟩
      have := hmem event' (by rw [hsplit]; simp) hsome
      omega
    · rintro ⟨-, hsettled⟩
      -- a transcript that is done would come before the text that is pending
      have hnone : ((before ++ event :: after).filterMap transcriptDone).length = 0 := by
        rw [List.length_eq_zero_iff, List.filterMap_eq_nil_iff]
        intro event' hevent
        rcases List.mem_append.mp hevent with hbefore | hafter'
        · obtain ⟨before₁, before₂, rfl⟩ := List.append_of_mem hbefore
          by_contra hsome
          refine hsettled before₁ event' (before₂ ++ event :: after) (by simp) (Option.ne_none_iff_isSome.mp hsome)
            event (by simp) hadds
        · rcases List.mem_cons.mp hafter' with rfl | hafter'
          · exact AddsTranscript.not_done hadds
          · exact hafter event' hafter'
      omega
  · rw [if_neg htext, List.length_nil, Nat.add_zero]
    constructor
    · intro hlength
      refine ⟨hlength.le, fun before event after hsplit hsome event' hevent hadds => htext ?_⟩
      obtain ⟨after₁, after₂, rfl⟩ := List.append_of_mem hevent
      refine hpending.mpr ⟨before ++ event :: after₁, event', after₂, by simp [hsplit], hadds, ?_⟩
      -- the one transcript that is done is this one
      obtain ⟨text, htext'⟩ := Option.isSome_iff_exists.mp hsome
      rw [hsplit] at hlength
      simp only [List.filterMap_append, filterMap_cons_toList, htext', List.length_append, Option.toList_some,
        List.length_singleton] at hlength
      have hrest : (after₂.filterMap transcriptDone).length = 0 := by omega
      exact List.filterMap_eq_nil_iff.mp (List.length_eq_zero_iff.mp hrest)
    · rintro ⟨hle, -⟩
      obtain ⟨event, hevent, hsome | hadds⟩ := hproduced
      · have := hmem event hevent hsome
        omega
      · obtain ⟨before, after, rfl⟩ := List.append_of_mem hevent
        by_contra hlength
        refine htext (hpending.mpr ⟨before, event, after, rfl, hadds, ?_⟩)
        have hnone : ((before ++ event :: after).filterMap transcriptDone).length = 0 := by omega
        rw [List.length_eq_zero_iff, List.filterMap_eq_nil_iff] at hnone
        exact fun event' hevent' => hnone event' (by simp [hevent'])

theorem map_responseDone {event : Json} (h : kind event = some .responseDone) (m : EventMapper) :
    (m.map base64 event).2.outputPending = "" := by
  simp [map, h, mapKind]

end EventMapper

/-! ### Runs -/

/-- The events of one response, which ends with `done`, in a list of events. -/
structure IsResponse (events before response : List Json) (done : Json) (after : List Json) : Prop where
  eq : events = before ++ (response ++ done :: after)
  /-- It begins at the beginning, or where the response before it ended. -/
  begins : before = [] ∨ ∃ init last, before = init ++ [last] ∧ kind last = some .responseDone
  running : ∀ event ∈ response, kind event ≠ some .responseDone
  ends : kind done = some .responseDone

/-- Every utterance has one final transcript, the completed one, and every response that produced a transcript has
one. -/
structure OneFinalEach (base64 : String → Option (List UInt8)) (adapter : RealtimeAdapter) (events : List Json) :
    Prop where
  input : ((EventMapper.new adapter).mapped base64 events).filterMap RealtimeEvent.inputFinal =
    events.filterMap completed
  output : ∀ before response done after, IsResponse events before response done after →
    EventMapper.Produced response →
      ((((EventMapper.new adapter).run base64 before).mapped base64 (response ++ [done])).filterMap
        RealtimeEvent.outputFinal).length = 1

/-- No text of the caller is pending when an event takes it to be final, and the transcripts of the responses are
settled. -/
structure Undisturbed (base64 : String → Option (List UInt8)) (adapter : RealtimeAdapter) (events : List Json) :
    Prop where
  input : ∀ before event after, events = before ++ event :: after → FinalizesInput adapter event →
    IsBlank ((EventMapper.new adapter).run base64 before).inputPending
  output : ∀ before response done after, IsResponse events before response done after →
    EventMapper.Produced response → EventMapper.Settled response

theorem IsResponse.outputPending {base64 : String → Option (List UInt8)} {events before response after : List Json}
    {done : Json} (h : IsResponse events before response done after) (adapter : RealtimeAdapter) :
    ((EventMapper.new adapter).run base64 before).outputPending = "" := by
  rcases h.begins with rfl | ⟨init, last, rfl, hlast⟩
  · rfl
  · rw [EventMapper.run, Machine.run_concat]
    exact EventMapper.map_responseDone hlast _

/-- **One final transcript each**: for both adapters and every list of events, exactly where the events are
undisturbed. -/
theorem oneFinalEach_iff (base64 : String → Option (List UInt8)) (adapter : RealtimeAdapter) (events : List Json) :
    OneFinalEach base64 adapter events ↔ Undisturbed base64 adapter events := by
  constructor
  · rintro ⟨hinput, houtput⟩
    refine ⟨(EventMapper.inputFinals_eq_iff base64 events _).mp hinput, ?_⟩
    intro before response done after h hproduced
    exact (EventMapper.outputFinals_length_iff (h.outputPending adapter) h.running h.ends hproduced).mp
      (houtput before response done after h hproduced)
  · rintro ⟨hinput, houtput⟩
    refine ⟨(EventMapper.inputFinals_eq_iff base64 events _).mpr hinput, ?_⟩
    intro before response done after h hproduced
    exact (EventMapper.outputFinals_length_iff (h.outputPending adapter) h.running h.ends hproduced).mpr
      (houtput before response done after h hproduced)

/-- An utterance whose transcription is completed after the response to it ended. -/
def lateTranscription : List Json :=
  [.obj [("type", .str "conversation.item.input_audio_transcription.delta"), ("delta", .str "Book")],
    .obj [("type", .str "response.done")],
    .obj [("type", .str "conversation.item.input_audio_transcription.completed"), ("transcript", .str "Book Friday")]]

/-- The utterance gets two final transcripts: what was pending when the response ended, and the completed one. -/
theorem lateTranscription_twice : ¬ OneFinalEach (fun _ => none) .openAi lateTranscription := by
  intro h
  have htwice : ((EventMapper.new .openAi).mapped (fun _ => none) lateTranscription).filterMap
      RealtimeEvent.inputFinal = ["Book", "Book Friday"] := by decide +kernel
  have hone : lateTranscription.filterMap completed = ["Book Friday"] := by decide +kernel
  rw [h.input, hone] at htwice
  exact absurd htwice (by decide)

end AgentVoice.RealtimeVoice

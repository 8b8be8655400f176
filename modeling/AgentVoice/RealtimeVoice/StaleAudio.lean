import AgentVoice.RealtimeVoice.Session

/-!
# Audio after a barge-in

When the caller speaks while a response is active, the session drops the queued audio, cancels the response and
truncates its item. Audio of the item that is still on its way is queued and played when it arrives
(`lateDelta_played`); a run in which none arrives plays no audio of an interrupted item (`staleFree_of_noLateAudio`).
-/

namespace AgentVoice.RealtimeVoice

open AgentVoice.Foundations QueuedAudio

namespace Account

/-- The bytes that a tick hands out. -/
def frame (a : Account) : List Stamped := a.queued.take (taken .nextFrame a.audio).length

/-- No byte of an item is queued. -/
def Free (item : Option String) (a : Account) : Prop := ∀ b ∈ a.queued, b.item ≠ item

variable {item : Option String} {a : Account}

theorem Free.frame (h : a.Free item) : ∀ b ∈ a.frame, b.item ≠ item := fun b hb => h b (List.mem_of_mem_take hb)

/-- Only audio of the item brings the item into the queue. -/
theorem Free.step (h : a.Free item) {op : Op} (hop : ∀ audio, op ≠ .push item audio) : (step op a).Free item := by
  cases op with
  | push itemId audio =>
    intro b hb
    have hother : itemId ≠ item := fun heq => hop audio (by rw [heq])
    rcases List.mem_append.mp hb with hold | hnew
    · refine h b ?_
      unfold Account.forItem at hold
      split at hold <;> exact hold
    · rw [(mem_stamp hnew).1, forItem_itemId]
      exact hother
  | nextFrame => exact fun b hb => h b (List.mem_of_mem_drop hb)
  | discardOverflow | finish | flushForBargeIn => exact fun b hb => h b (List.mem_of_mem_drop hb)

theorem Free.run {ops : List Op} (h : a.Free item) (hops : ∀ audio, Op.push item audio ∉ ops) :
    (Machine.run Account.step ops a).Free item := by
  induction ops generalizing a with
  | nil => exact h
  | cons op ops ih =>
    refine ih (h.step fun audio heq => hops audio (by simp [heq])) fun audio hmem => hops audio (by simp [hmem])

/-- A barge-in leaves nothing in the queue. -/
theorem Balanced.flushed (h : a.Balanced) : (Account.step .flushForBargeIn a).queued = [] := by
  show a.queued.drop a.audio.bytes.length = []
  rw [← h.bytes, List.length_map, List.drop_length]

/-- A frame is what its account says, and silence behind it. -/
theorem Balanced.nextFrame_eq (h : a.Balanced) {frame : List UInt8} {q : QueuedAudio}
    (hframe : a.audio.nextFrame = (some frame, q)) :
    ∃ padding, frame = a.frame.map Stamped.byte ++ List.replicate padding pcmuSilence := by
  obtain ⟨-, padding, heq, -⟩ := (sound a.audio).frame frame q hframe
  have htaken := congrArg (List.take (taken .nextFrame a.audio).length) (taken_nextFrame a.audio)
  rw [List.take_left] at htaken
  refine ⟨padding, ?_⟩
  rw [heq, Account.frame, List.map_take, h.bytes, htaken]

end Account

/-- An event is audio of an item. -/
def IsAudioOf (item : Option String) (value : Json) (m : EventMapper) : Prop :=
  kind value = some .outputAudioDelta ∧ (value.strAt "item_id").or m.responseItemId = item

namespace EventMapper

theorem audioDelta_notMem_finalizeInput (m : EventMapper) (audio : List UInt8) (item : Option String) :
    .audioDelta audio item ∉ m.finalizeInput.1 := by
  unfold finalizeInput
  split <;> simp

theorem audioDelta_notMem_finalizeXai (m : EventMapper) (audio : List UInt8) (item : Option String) :
    .audioDelta audio item ∉ m.finalizeXai.1 := by
  unfold finalizeXai
  split
  · simp
  · exact m.audioDelta_notMem_finalizeInput audio item

theorem audioDelta_notMem_finalizeOutput (m : EventMapper) (audio : List UInt8) (item : Option String) :
    .audioDelta audio item ∉ m.finalizeOutput.1 := by
  unfold finalizeOutput
  split <;> simp

theorem finalizeXai_responseItemId (m : EventMapper) : m.finalizeXai.2.responseItemId = m.responseItemId := by
  unfold finalizeXai
  split <;> rfl

/-- **Audio comes from audio events**, for the item they name or the one that was announced. -/
theorem isAudioOf_of_mem {base64 : String → Option (List UInt8)} {value : Json} {m : EventMapper}
    {audio : List UInt8} {item : Option String} (h : .audioDelta audio item ∈ (m.map base64 value).1) :
    IsAudioOf item value m := by
  cases hkind : kind value with
  | none => simp [map, hkind] at h
  | some k =>
    simp only [map, hkind] at h
    cases k with
    | responseCreated => exact absurd h (audioDelta_notMem_finalizeXai _ _ _)
    | responseDone =>
      simp only [mapKind, List.mem_append] at h
      rcases h with (h | h) | h
      · exact absurd h (audioDelta_notMem_finalizeInput _ _ _)
      · exact absurd h (audioDelta_notMem_finalizeOutput _ _ _)
      · simp at h
    | outputItemAdded | transcriptionFailed | speechStarted | error => simp [mapKind] at h
    | transcriptionDelta | transcriptionUpdated | transcriptionCompleted | outputTranscriptDone =>
      simp only [mapKind] at h
      split at h <;> simp at h
    | outputTranscriptDelta =>
      simp only [mapKind, readyForOutput] at h
      split at h
      · refine absurd h ?_
        simp [audioDelta_notMem_finalizeXai]
      · exact absurd h (audioDelta_notMem_finalizeXai _ _ _)
    | outputAudioDelta =>
      simp only [mapKind, readyForOutput] at h
      split at h
      · exact absurd h (audioDelta_notMem_finalizeXai _ _ _)
      · split at h
        · rcases List.mem_append.mp h with h | h
          · exact absurd h (audioDelta_notMem_finalizeXai _ _ _)
          · obtain ⟨-, rfl⟩ := by simpa using h
            rw [finalizeXai_responseItemId]
            exact ⟨hkind, rfl⟩
        · refine absurd h ?_
          simp [audioDelta_notMem_finalizeXai]

end EventMapper

namespace Session

variable (base64 : Base64)

/-- A provider event interrupts the response of a session: the caller speaks, and the response is active. -/
def Interrupts (value : Json) (s : Session) : Prop :=
  kind value = some .speechStarted ∧ s.mapper.responseActive = true

/-- After every interruption, no frame has a byte of the item that was interrupted. -/
def StaleFree (adapter : RealtimeAdapter) (steps : List Step) : Prop :=
  ∀ before value after rest s s', steps = before ++ .react (.message (.json value)) :: (after ++ rest) →
    run base64 adapter before = some s → s.Interrupts value →
    run base64 adapter (before ++ .react (.message (.json value)) :: after) = some s' →
    ∀ frame marker, .sinkAudio frame marker ∈ (s'.react base64 .tick).1 →
      ∃ bytes padding, (account base64 adapter (before ++ .react (.message (.json value)) :: after)).frame = bytes ∧
        frame = bytes.map Stamped.byte ++ List.replicate padding pcmuSilence ∧
        ∀ b ∈ bytes, b.item ≠ s.output.itemId

/-- After every interruption, no audio of the item that was interrupted arrives. -/
def NoLateAudio (adapter : RealtimeAdapter) (steps : List Step) : Prop :=
  ∀ before value after value' rest s s',
    steps = before ++ .react (.message (.json value)) :: (after ++ .react (.message (.json value')) :: rest) →
    run base64 adapter before = some s → s.Interrupts value →
    run base64 adapter (before ++ .react (.message (.json value)) :: after) = some s' →
    ¬ IsAudioOf s.output.itemId value' s'.mapper

variable {base64}

/-- The operations of a step push audio of an item only where audio of the item arrives. -/
theorem push_notMem_ops {step' : Step} {s : Option Session} {item : Option String}
    (h : ∀ value s', step' = .react (.message (.json value)) → s = some s' → ¬ IsAudioOf item value s'.mapper)
    (audio : List UInt8) : .push item audio ∉ ops base64 step' s := by
  intro hmem
  unfold ops at hmem
  split at hmem
  · rename_i value s'
    rcases List.mem_append.mp hmem with hmem | hmem
    · obtain ⟨event, hevent, hop⟩ := List.mem_flatMap.mp hmem
      cases event with
      | audioDelta audio' item' =>
        simp only [eventOps, List.mem_cons, Op.push.injEq, List.not_mem_nil, or_false] at hop
        obtain ⟨rfl, rfl⟩ | hop := hop
        · exact h value s' rfl rfl (EventMapper.isAudioOf_of_mem hevent)
        · cases hop
      | speechStarted => simp [eventOps] at hop
      | inputTranscript | outputTranscript | responseDone | error => simp [eventOps] at hop
    · split at hmem <;> simp at hmem
  · simp at hmem
  · simp at hmem

/-- The interruption empties the queue. -/
theorem free_of_interrupts {adapter : RealtimeAdapter} {before : List Step} {value : Json} {s : Session}
    (hs : run base64 adapter before = some s) (hinterrupts : s.Interrupts value) (item : Option String) :
    (account base64 adapter (before ++ [.react (.message (.json value))])).Free item := by
  have hmapped : (s.mapper.map base64.decode value).1 = [.speechStarted] := by
    rw [EventMapper.map, hinterrupts.1]
    rfl
  have hops : ops base64 (.react (.message (.json value))) (some s) =
      .flushForBargeIn :: if finishesAudio value then [.finish] else [] := by
    rw [ops, hmapped]
    rfl
  rw [account_concat, hs, hops]
  have hbalanced : (account base64 adapter before).Balanced := Account.balanced_run _
  have hflushed : (Account.step .flushForBargeIn (account base64 adapter before)).Free item := by
    rw [Account.Free, hbalanced.flushed]
    exact fun b hb => absurd hb List.not_mem_nil
  refine hflushed.run fun audio hmem => ?_
  split at hmem <;> simp at hmem

/-- As long as no audio of the item arrives, none is queued. -/
theorem free_after {adapter : RealtimeAdapter} {before after rest : List Step} {value : Json} {s : Session}
    (hlate : NoLateAudio base64 adapter (before ++ .react (.message (.json value)) :: (after ++ rest)))
    (hs : run base64 adapter before = some s) (hinterrupts : s.Interrupts value) :
    (account base64 adapter (before ++ .react (.message (.json value)) :: after)).Free s.output.itemId := by
  induction after using List.reverseRecOn generalizing rest with
  | nil => exact free_of_interrupts hs hinterrupts _
  | append_singleton after step' ih =>
    have hbefore := @ih (step' :: rest) (by simpa using hlate)
    have hsplit : before ++ .react (.message (.json value)) :: (after ++ [step']) =
        (before ++ .react (.message (.json value)) :: after) ++ [step'] := by simp
    rw [hsplit, account_concat]
    refine hbefore.run (push_notMem_ops fun value' s' hstep hs' => ?_)
    subst hstep
    exact hlate before value after value' rest s s' (by simp) hs hinterrupts hs'

/-- **No stale audio**, in every run in which no audio of an interrupted item arrives after its interruption. -/
theorem staleFree_of_noLateAudio {adapter : RealtimeAdapter} {steps : List Step}
    (hlate : NoLateAudio base64 adapter steps) : StaleFree base64 adapter steps := by
  rintro before value after rest s s' rfl hs hinterrupts hs' frame marker hframe
  have hfree := free_after hlate hs hinterrupts
  set played := before ++ .react (.message (.json value)) :: after
  have hnext : ∃ q, (account base64 adapter played).audio.nextFrame = (some frame, q) := by
    rw [← output_eq base64 adapter played hs']
    simp only [react] at hframe
    rcases hnext : s'.output.nextFrame with ⟨_ | frame', q⟩
    · rw [hnext] at hframe
      simp at hframe
    · rw [hnext] at hframe
      simp only [List.mem_singleton, Output.sinkAudio.injEq] at hframe
      exact ⟨q, by rw [hframe.1]⟩
  obtain ⟨q, hnext⟩ := hnext
  obtain ⟨padding, heq⟩ := (Account.balanced_run _).nextFrame_eq hnext
  exact ⟨_, padding, rfl, heq, hfree.frame⟩

/-- The base64 text of a frame of ones. -/
def onesText : String := String.ofList ((List.replicate 53 ['A', 'Q', 'E', 'B']).flatten ++ ['A', 'Q', '=', '='])

/-- A decoder that knows this text. -/
def onesBase64 : Base64 := ⟨fun _ => onesText, fun text => if text = onesText then some (List.replicate 160 1) else none⟩

/-- An audio event. -/
def audioEvent : Json :=
  .obj [("type", .str "response.output_audio.delta"), ("item_id", .str "item-a"), ("delta", .str onesText)]

/-- The caller speaks. -/
def speechStarted : Json := .obj [("type", .str "input_audio_buffer.speech_started")]

/-- A response of which one frame is played. -/
def playing : List Step :=
  [.react (.message (.json (.obj [("type", .str "response.created")]))), .react (.message (.json audioEvent)), .react .tick]

/-- Audio of another item. -/
def laterAudioEvent : Json :=
  .obj [("type", .str "response.output_audio.delta"), ("item_id", .str "item-b"), ("delta", .str onesText)]

/-- The caller interrupts, and a frame of the next response is played. -/
def interrupted : List Step :=
  [.react (.message (.json speechStarted)), .react (.message (.json laterAudioEvent)), .react .tick]

theorem staleFree_playing : StaleFree onesBase64 .openAi (playing ++ interrupted) := by
  refine staleFree_of_noLateAudio ?_
  intro before value after value' rest s s' hsteps hs hinterrupts _ hlate
  simp only [playing, interrupted, List.cons_append, List.nil_append] at hsteps
  -- only the speech interrupts, and the audio behind it is of another item
  match before with
  | [] =>
    obtain rfl : _ = value := by simpa using (List.cons.inj hsteps).1
    exact absurd hinterrupts.1 (by decide +kernel)
  | [_] =>
    simp only [List.cons_append, List.nil_append, List.cons.injEq, Step.react.injEq] at hsteps
    obtain rfl : audioEvent = value := by simpa using hsteps.2.1
    exact absurd hinterrupts.1 (by decide +kernel)
  | [_, _] => simp at hsteps
  | [_, _, _] =>
    simp only [List.cons_append, List.nil_append, List.cons.injEq] at hsteps
    obtain ⟨rfl, rfl, rfl, -, hrest⟩ := hsteps
    have hmem : Step.react (.message (.json value')) ∈ [.react (.message (.json laterAudioEvent)), .react .tick] := by
      rw [hrest]
      exact List.mem_append_right _ List.mem_cons_self
    obtain rfl : value' = laterAudioEvent := by simpa using hmem
    have hitem : (run onesBase64 .openAi playing).map (fun s => s.output.itemId) = some (some "item-a") := by decide +kernel
    have hplayed : run onesBase64 .openAi playing = some s := hs
    rw [hplayed, Option.map_some, Option.some.injEq] at hitem
    have hother := hlate.2
    rw [show laterAudioEvent.strAt "item_id" = some "item-b" by decide +kernel, Option.some_or, hitem] at hother
    exact absurd hother (by decide)
  | _ :: _ :: _ :: _ :: before =>
    simp only [List.cons_append, List.cons.injEq] at hsteps
    have hmem : Step.react (.message (.json value)) ∈ [.react (.message (.json laterAudioEvent)), .react .tick] := by
      rw [hsteps.2.2.2.2]
      exact List.mem_append_right _ List.mem_cons_self
    obtain rfl : value = laterAudioEvent := by simpa using hmem
    exact absurd hinterrupts.1 (by decide +kernel)

/-- Audio of the interrupted item that arrives late is played. -/
theorem lateDelta_played :
    ¬ StaleFree onesBase64 .openAi
      (playing ++ [.react (.message (.json speechStarted)), .react (.message (.json audioEvent)), .react .tick]) := by
  intro h
  have hactive : (run onesBase64 .openAi playing).map (fun s => (s.mapper.responseActive, s.output.itemId)) =
      some (true, some "item-a") := by decide +kernel
  have hnext : (run onesBase64 .openAi (playing ++ [.react (.message (.json speechStarted)),
      .react (.message (.json audioEvent))])).map (fun s => s.output.nextFrame.1) =
        some (some (List.replicate 160 1)) := by decide +kernel
  have hframe : (account onesBase64 .openAi (playing ++ [.react (.message (.json speechStarted)),
      .react (.message (.json audioEvent))])).frame = List.replicate 160 ⟨1, some "item-a", 1⟩ := by decide +kernel
  obtain ⟨s, hs, hactive⟩ := Option.map_eq_some_iff.mp hactive
  obtain ⟨s', hs', hnext⟩ := Option.map_eq_some_iff.mp hnext
  obtain ⟨hresponse, hitem⟩ := Prod.mk.inj hactive
  have hsink : .sinkAudio (List.replicate 160 1) s'.outputMarker ∈ (s'.react onesBase64 .tick).1 := by
    simp only [react]
    rcases hq : s'.output.nextFrame with ⟨frame, q⟩
    rw [hq] at hnext
    obtain rfl := hnext
    simp
  obtain ⟨bytes, _, hbytes, -, hfree⟩ := h playing speechStarted [.react (.message (.json audioEvent))] [.react .tick]
    s s' rfl hs ⟨by decide +kernel, hresponse⟩ hs' _ _ hsink
  rw [hframe] at hbytes
  subst hbytes
  exact hfree ⟨1, some "item-a", 1⟩ (by simp) hitem.symm

end Session

end AgentVoice.RealtimeVoice

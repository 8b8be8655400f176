import AgentVoice.RealtimeVoice.Session
import AgentVoice.RealtimeVoice.Transcripts
import AgentVoice.Turns.Turn
import Mathlib.Data.List.Perm.Basic

/-!
# The transcript of a realtime call

What `activate_realtime_bridge` of `src/service.rs` keeps of a call: the session sends its events through a channel, and a task
takes them and writes down what was said. Text that `speak_text` has the provider say is written down at once, and remembered
so that the provider's own transcript of it is not written down again; no more than `manualTextLimit` texts are remembered. A
step is what happens under one lock; the session, the task of the events and the speakers take their steps in any order. What is
written down of the assistant is what the provider said, what it has yet to say, and what was forgotten (`transcript_kept`).
-/

namespace AgentVoice.Service.RealtimeCall

open AgentVoice.Foundations AgentVoice.RealtimeVoice
open AgentVoice.Accounting (TokenUsage)
open AgentVoice.Turns (TranscriptEvent)
open scoped List

/-- How many texts `record_manual_realtime_assistant_text` remembers. -/
def manualTextLimit : ℕ := 16

/-- `realtime_error_status`. -/
def realtimeErrorStatus (errorType code : Option String) : String :=
  match errorType, code with
  | some errorType, some code => "realtime provider error (type=" ++ errorType ++ ", code=" ++ code ++ ")"
  | some errorType, none => "realtime provider error (type=" ++ errorType ++ ")"
  | none, some code => "realtime provider error (code=" ++ code ++ ")"
  | none, none => "realtime provider error"

/-- What there is of a call. -/
structure Call where
  session : Option Session
  /-- The events that the session has sent and that were not taken yet. -/
  channel : List RealtimeEvent
  /-- `manual_realtime_assistant_texts`. -/
  manualTexts : List String
  /-- The texts that `speak_text` has remembered and is about to write down. -/
  speaking : List String
  /-- The text that the task of the events is about to write down. -/
  recording : Option String
  /-- `transcript_events`. -/
  transcript : List TranscriptEvent
  /-- `idle_watch_generation`. -/
  activity : ℕ
  lastError : Option String
  /-- The usage that was accounted for. -/
  accounted : List TokenUsage

/-- A step of a call. -/
inductive Step where
  | session (step : Session.Step)
  /-- `speak_text` remembers a text whose command was sent. -/
  | remember (text : String)
  /-- One of the speakers writes down its text. -/
  | recordSpoken (n : ℕ)
  /-- The task takes the next event; the error of the accounting, if it fails. -/
  | takeEvent (failure : Option String)
  /-- The task writes down the text of its event. -/
  | recordText

/-- `record_manual_realtime_assistant_text`, as far as it remembers. -/
def remembered (text : String) (texts : List String) : List String :=
  (texts ++ [text]).drop ((texts ++ [text]).length - manualTextLimit)

/-- What it forgets. -/
def forgottenFor (text : String) (texts : List String) : List String :=
  (texts ++ [text]).take ((texts ++ [text]).length - manualTextLimit)

namespace Call

variable (base64 : Base64)

/-- What the task does about an event. -/
def handle (event : RealtimeEvent) (failure : Option String) (s : Call) : Call :=
  match event with
  | .inputTranscript text true =>
    if IsBlank text then s
    else { s with transcript := s.transcript ++ [.caller text], activity := s.activity + 1 }
  | .outputTranscript text true =>
    if IsBlank text then s
    -- `consume_manual_realtime_assistant_text`
    else if text ∈ s.manualTexts then
      { s with manualTexts := s.manualTexts.erase text, activity := s.activity + 1 }
    else { s with recording := some text }
  | .speechStarted => { s with activity := s.activity + 1 }
  | .responseDone (some usage) =>
    match failure with
    | none => { s with accounted := s.accounted ++ [usage] }
    | some error => { s with lastError := some ("failed to record realtime usage: " ++ error) }
  | .error errorType code => { s with lastError := some (realtimeErrorStatus errorType code) }
  | .audioDelta _ _ | .inputTranscript _ false | .outputTranscript _ false | .responseDone none => s

/-- The event that an output is. -/
def eventOf : Output → Option RealtimeEvent
  | .event event => some event
  | _ => none

/-- Whether `run_session` fails in a step. -/
def failsIn : Session.Step → Option Session → Bool
  | _, none => false
  | .react (.message .invalid), some _ | .react (.message .closed), some _ | .react (.message .failed), some _ => true
  | .react _, some _ => false
  | .fail input n, some s => (Session.step base64 (.fail input n) (some s)).isNone

/-- The events that the session sends in a step. -/
def sent : Step → Call → List RealtimeEvent
  | .session step, s =>
    (Session.outputs base64 step s.session).filterMap eventOf ++
      if failsIn base64 step s.session = true then [.error (some "transport") none] else []
  | _, _ => []

/-- The call after a step. -/
def step : Step → Call → Call
  | .session step, s =>
    { s with session := Session.step base64 step s.session, channel := s.channel ++ sent base64 (.session step) s }
  | .remember text, s => { s with manualTexts := remembered text s.manualTexts, speaking := s.speaking ++ [text] }
  | .recordSpoken n, s =>
    match s.speaking[n]? with
    | some text => { s with speaking := s.speaking.eraseIdx n, transcript := s.transcript ++ [.assistant text] }
    | none => s
  | .takeEvent failure, s =>
    match s.recording, s.channel with
    | none, event :: channel => { s with channel }.handle event failure
    | _, _ => s
  | .recordText, s =>
    match s.recording with
    | some text =>
      { s with recording := none, transcript := s.transcript ++ [.assistant text], activity := s.activity + 1 }
    | none => s

/-- A call whose session has begun. -/
def new (adapter : RealtimeAdapter) : Call := ⟨some (Session.new adapter), [], [], [], none, [], 0, none, []⟩

/-- The call after a run. -/
def run (adapter : RealtimeAdapter) (steps : List Step) : Call := Machine.run (step base64) steps (new adapter)

/-! ### What happens in a run -/

/-- The events that are taken in a step. -/
def taken : Step → Call → List RealtimeEvent
  | .takeEvent _, s =>
    match s.recording, s.channel with
    | none, event :: _ => [event]
    | _, _ => []
  | _, _ => []

/-- The texts that are remembered in a step. -/
def spoken : Step → List String
  | .remember text => [text]
  | _ => []

/-- The texts that are forgotten in a step. -/
def forgotten : Step → Call → List String
  | .remember text, s => forgottenFor text s.manualTexts
  | _, _ => []

/-- What the steps of a run bring forth, in order. -/
abbrev gathered {β : Type} (out : Step → Call → List β) (steps : List Step) (s : Call) : List β :=
  Machine.outputs (step base64) out steps s

/-- What the caller is heard to say in an event. -/
def heard (event : RealtimeEvent) : Option String := event.inputFinal.filter fun text => decide (¬ IsBlank text)

/-- What the assistant is said to have said in an event. -/
def said (event : RealtimeEvent) : Option String := event.outputFinal.filter fun text => decide (¬ IsBlank text)

/-- The usage that an event reports. -/
def usageOf : RealtimeEvent → Option TokenUsage
  | .responseDone usage => usage
  | _ => none

/-- The usage that is accounted for in a step. -/
def usages : Step → Call → List TokenUsage
  | .takeEvent none, s => (taken (.takeEvent none) s).filterMap usageOf
  | _, _ => []

/-- What an entry of the transcript has the caller say. -/
def callerText (event : TranscriptEvent) : Option String := if event.role = "caller" then some event.text else none

/-- How often a text of the assistant is written down, or about to be. -/
def written (text : String) (s : Call) : ℕ :=
  s.transcript.count (.assistant text) + s.recording.toList.count text + s.speaking.count text

/-! ### One step -/

theorem count_assistant_append_caller (transcript : List TranscriptEvent) (text text' : String) :
    (transcript ++ [TranscriptEvent.caller text']).count (TranscriptEvent.assistant text) =
      transcript.count (TranscriptEvent.assistant text) := by
  have hother : (TranscriptEvent.caller text' == TranscriptEvent.assistant text) = false := rfl
  rw [List.count_append, List.count_singleton, hother, if_neg Bool.false_ne_true, Nat.add_zero]

theorem count_assistant_append (transcript : List TranscriptEvent) (text text' : String) :
    (transcript ++ [TranscriptEvent.assistant text']).count (TranscriptEvent.assistant text) =
      transcript.count (TranscriptEvent.assistant text) + [text'].count text := by
  rw [List.count_append, List.count_singleton, List.count_singleton]
  by_cases h : text' = text
  · subst h
    simp
  · have hother : TranscriptEvent.assistant text' ≠ .assistant text := fun heq => h (congrArg TranscriptEvent.text heq)
    simp [h, hother]

theorem count_remembered (text text' : String) (texts : List String) :
    (remembered text' texts).count text + (forgottenFor text' texts).count text = texts.count text + [text'].count text := by
  rw [remembered, forgottenFor, Nat.add_comm, ← List.count_append, List.take_append_drop, List.count_append]

theorem said_outputTranscript (text : String) :
    said (.outputTranscript text true) = if IsBlank text then none else some text := by
  simp [said, RealtimeEvent.outputFinal, Option.filter]

theorem count_erase_add {texts : List String} {text' : String} (h : text' ∈ texts) (text : String) :
    [text'].count text + (texts.erase text').count text = texts.count text := by
  rw [← List.count_append, List.singleton_append]
  exact ((List.perm_cons_erase h).count_eq text).symm

/-- An event that is taken is accounted for. -/
theorem handle_written (event : RealtimeEvent) (failure : Option String) {s : Call} (hidle : s.recording = none) (text : String) :
    (s.handle event failure).written text + s.manualTexts.count text =
      s.written text + (said event).toList.count text + (s.handle event failure).manualTexts.count text := by
  have hrecording : s.recording.toList.count text = 0 := by rw [hidle]; rfl
  cases event with
  | inputTranscript text' finalText =>
    cases finalText with
    | false => rfl
    | true =>
      have hsaid : said (.inputTranscript text' true) = none := rfl
      rw [hsaid, handle]
      split_ifs
      · rfl
      · rw [written, written, count_assistant_append_caller]
        rfl
  | outputTranscript text' finalText =>
    cases finalText with
    | false => rfl
    | true =>
      rw [said_outputTranscript, handle]
      by_cases hblank : IsBlank text'
      · rw [if_pos hblank, if_pos hblank]
        rfl
      rw [if_neg hblank, if_neg hblank]
      by_cases hmem : text' ∈ s.manualTexts
      · rw [if_pos hmem]
        show s.written text + s.manualTexts.count text = s.written text + [text'].count text + (s.manualTexts.erase text').count text
        rw [Nat.add_assoc, count_erase_add hmem]
      · rw [if_neg hmem]
        show s.transcript.count (.assistant text) + [text'].count text + s.speaking.count text + s.manualTexts.count text =
          s.transcript.count (.assistant text) + s.recording.toList.count text + s.speaking.count text + [text'].count text +
            s.manualTexts.count text
        omega
  | audioDelta audio itemId => rfl
  | speechStarted => rfl
  | responseDone usage =>
    cases usage with
    | none => rfl
    | some usage => cases failure <;> rfl
  | error errorType code => rfl

theorem count_eraseIdx_add {texts : List String} {n : ℕ} {text' : String} (h : texts[n]? = some text') (text : String) :
    [text'].count text + (texts.eraseIdx n).count text = texts.count text := by
  obtain ⟨hn, rfl⟩ := List.getElem?_eq_some_iff.mp h
  rw [← List.count_append, List.singleton_append]
  exact (List.getElem_cons_eraseIdx_perm hn).count_eq text

theorem filterMap_singleton {α β : Type} (f : α → Option β) (a : α) : [a].filterMap f = (f a).toList := by
  rw [List.filterMap_cons]
  cases f a <;> rfl

/-- The task takes the next event, if it is idle and there is one. -/
theorem takeEvent_cases (failure : Option String) (s : Call) :
    (step base64 (.takeEvent failure) s = s ∧ taken (.takeEvent failure) s = []) ∨
    ∃ event channel, s.recording = none ∧ s.channel = event :: channel ∧
      step base64 (.takeEvent failure) s = ({ s with channel } : Call).handle event failure ∧
      taken (.takeEvent failure) s = [event] := by
  cases hrecording : s.recording with
  | some text => exact .inl ⟨by simp only [step, hrecording], by simp only [taken, hrecording]⟩
  | none =>
    cases hchannel : s.channel with
    | nil => exact .inl ⟨by simp only [step, hrecording, hchannel], by simp only [taken, hrecording, hchannel]⟩
    | cons event channel =>
      exact .inr ⟨event, channel, rfl, rfl, by simp only [step, hrecording, hchannel],
        by simp only [taken, hrecording, hchannel]⟩

/-- **What one step does about a text of the assistant.** -/
theorem step_written (a : Step) (s : Call) (text : String) :
    (step base64 a s).written text + s.manualTexts.count text =
      s.written text + ((taken a s).filterMap said).count text + (step base64 a s).manualTexts.count text +
        (forgotten a s).count text := by
  cases a with
  | session step' => rfl
  | remember text' =>
    have hcount := count_remembered text text' s.manualTexts
    show s.transcript.count (.assistant text) + s.recording.toList.count text + (s.speaking ++ [text']).count text +
        s.manualTexts.count text =
      s.transcript.count (.assistant text) + s.recording.toList.count text + s.speaking.count text + 0 +
        (remembered text' s.manualTexts).count text + (forgottenFor text' s.manualTexts).count text
    rw [List.count_append]
    omega
  | recordSpoken n =>
    unfold step
    dsimp only
    cases hn : s.speaking[n]? with
    | none => rfl
    | some text' =>
      have hcount := count_eraseIdx_add hn text
      show (s.transcript ++ [TranscriptEvent.assistant text']).count (.assistant text) + s.recording.toList.count text +
          (s.speaking.eraseIdx n).count text + s.manualTexts.count text =
        s.transcript.count (.assistant text) + s.recording.toList.count text + s.speaking.count text + 0 +
          s.manualTexts.count text + 0
      rw [count_assistant_append]
      omega
  | takeEvent failure =>
    rcases takeEvent_cases base64 failure s with ⟨hstep, htaken⟩ | ⟨event, channel, hrecording, -, hstep, htaken⟩
    · rw [hstep, htaken]
      rfl
    · have hhandled := handle_written event failure (s := { s with channel }) hrecording text
      rw [hstep, htaken, filterMap_singleton]
      exact hhandled
  | recordText =>
    cases hrecording : s.recording with
    | none =>
      have hstep : step base64 .recordText s = s := by simp only [step, hrecording]
      rw [hstep]
      rfl
    | some text' =>
      have hstep : step base64 .recordText s =
          { s with recording := none, transcript := s.transcript ++ [.assistant text'], activity := s.activity + 1 } := by
        simp only [step, hrecording]
      rw [hstep]
      show (s.transcript ++ [TranscriptEvent.assistant text']).count (.assistant text) + 0 + s.speaking.count text +
          s.manualTexts.count text =
        s.transcript.count (.assistant text) + s.recording.toList.count text + s.speaking.count text + 0 +
          s.manualTexts.count text + 0
      rw [count_assistant_append, hrecording, Option.toList_some]
      omega

/-- **What a run writes down of the assistant.** -/
theorem run_written (steps : List Step) (s : Call) (text : String) :
    (Machine.run (step base64) steps s).written text + s.manualTexts.count text =
      s.written text + ((gathered base64 taken steps s).filterMap said).count text +
        (Machine.run (step base64) steps s).manualTexts.count text + (gathered base64 forgotten steps s).count text := by
  induction steps generalizing s with
  | nil => rfl
  | cons a steps ih =>
    have hstep := step_written base64 a s text
    have hrest := ih (step base64 a s)
    show (Machine.run (step base64) steps (step base64 a s)).written text + s.manualTexts.count text =
      s.written text + ((taken a s ++ gathered base64 taken steps (step base64 a s)).filterMap said).count text +
        (Machine.run (step base64) steps (step base64 a s)).manualTexts.count text +
        (forgotten a s ++ gathered base64 forgotten steps (step base64 a s)).count text
    rw [List.filterMap_append, List.count_append, List.count_append]
    omega

/-! ### The caller, the channel and what is remembered -/

theorem filterMap_callerText_assistant (transcript : List TranscriptEvent) (text : String) :
    (transcript ++ [TranscriptEvent.assistant text]).filterMap callerText = transcript.filterMap callerText := by
  have hnone : callerText (.assistant text) = none := rfl
  rw [List.filterMap_append, filterMap_singleton, hnone, Option.toList_none, List.append_nil]

theorem heard_inputTranscript (text : String) :
    heard (.inputTranscript text true) = if IsBlank text then none else some text := by
  simp [heard, RealtimeEvent.inputFinal, Option.filter]

/-- What an event leaves alone. -/
theorem handle_spec (event : RealtimeEvent) (failure : Option String) (s : Call) :
    (s.handle event failure).channel = s.channel ∧ (s.handle event failure).manualTexts <+ s.manualTexts ∧
      (s.handle event failure).transcript.filterMap callerText =
        s.transcript.filterMap callerText ++ (heard event).toList := by
  have hunheard {s' : Call} (htranscript : s'.transcript = s.transcript) :
      s'.transcript.filterMap callerText = s.transcript.filterMap callerText ++ [] := by rw [htranscript, List.append_nil]
  cases event with
  | inputTranscript text finalText =>
    cases finalText with
    | false => exact ⟨rfl, .refl _, hunheard rfl⟩
    | true =>
      rw [heard_inputTranscript, handle]
      by_cases hblank : IsBlank text
      · rw [if_pos hblank, if_pos hblank]
        exact ⟨rfl, .refl _, hunheard rfl⟩
      · rw [if_neg hblank, if_neg hblank]
        refine ⟨rfl, .refl _, ?_⟩
        have hsome : callerText (.caller text) = some text := rfl
        show (s.transcript ++ [TranscriptEvent.caller text]).filterMap callerText = _
        rw [List.filterMap_append, filterMap_singleton, hsome]
  | outputTranscript text finalText =>
    cases finalText with
    | false => exact ⟨rfl, .refl _, hunheard rfl⟩
    | true =>
      rw [handle]
      split_ifs
      · exact ⟨rfl, .refl _, hunheard rfl⟩
      · exact ⟨rfl, List.erase_sublist, hunheard rfl⟩
      · exact ⟨rfl, .refl _, hunheard rfl⟩
  | audioDelta audio itemId => exact ⟨rfl, .refl _, hunheard rfl⟩
  | speechStarted => exact ⟨rfl, .refl _, hunheard rfl⟩
  | responseDone usage =>
    cases usage with
    | none => exact ⟨rfl, .refl _, hunheard rfl⟩
    | some usage => cases failure <;> exact ⟨rfl, .refl _, hunheard rfl⟩
  | error errorType code => exact ⟨rfl, .refl _, hunheard rfl⟩

/-- An event that reports usage is accounted for, unless that fails. -/
theorem handle_accounted (event : RealtimeEvent) (failure : Option String) (s : Call) :
    (s.handle event failure).accounted = s.accounted ++ if failure = none then (usageOf event).toList else [] := by
  have hunreported : s.accounted = s.accounted ++ if failure = none then [] else [] := by rw [ite_self, List.append_nil]
  cases event with
  | inputTranscript text finalText =>
    cases finalText with
    | false => exact hunreported
    | true =>
      rw [handle]
      by_cases hblank : IsBlank text
      · rw [if_pos hblank]
        exact hunreported
      · rw [if_neg hblank]
        exact hunreported
  | outputTranscript text finalText =>
    cases finalText with
    | false => exact hunreported
    | true =>
      rw [handle]
      by_cases hblank : IsBlank text
      · rw [if_pos hblank]
        exact hunreported
      rw [if_neg hblank]
      by_cases hmem : text ∈ s.manualTexts
      · rw [if_pos hmem]
        exact hunreported
      · rw [if_neg hmem]
        exact hunreported
  | audioDelta audio itemId => exact hunreported
  | speechStarted => exact hunreported
  | responseDone usage =>
    cases usage with
    | none => exact hunreported
    | some usage =>
      cases failure with
      | none => rfl
      | some error => exact (List.append_nil _).symm
  | error errorType code => exact hunreported

theorem step_accounted (a : Step) (s : Call) : (step base64 a s).accounted = s.accounted ++ usages a s := by
  cases a with
  | session step' => exact (List.append_nil _).symm
  | remember text => exact (List.append_nil _).symm
  | recordSpoken n =>
    rw [step]
    cases s.speaking[n]? <;> exact (List.append_nil _).symm
  | takeEvent failure =>
    rcases takeEvent_cases base64 failure s with ⟨hstep, htaken⟩ | ⟨event, channel, -, -, hstep, htaken⟩
    · rw [hstep]
      cases failure with
      | none =>
        rw [usages, htaken]
        exact (List.append_nil _).symm
      | some error => exact (List.append_nil _).symm
    · rw [hstep, handle_accounted]
      cases failure with
      | none => rw [usages, htaken, filterMap_singleton, if_pos rfl]
      | some error =>
        rw [if_neg (Option.some_ne_none _)]
        rfl
  | recordText =>
    rw [step]
    cases s.recording <;> exact (List.append_nil _).symm

/-- The task writes down what it hears the caller say, and nothing else does. -/
theorem step_callerText (a : Step) (s : Call) :
    (step base64 a s).transcript.filterMap callerText =
      s.transcript.filterMap callerText ++ (taken a s).filterMap heard := by
  cases a with
  | session step' => exact (List.append_nil _).symm
  | remember text => exact (List.append_nil _).symm
  | recordSpoken n =>
    rw [step]
    cases s.speaking[n]? with
    | none => exact (List.append_nil _).symm
    | some text => exact (filterMap_callerText_assistant _ _).trans (List.append_nil _).symm
  | takeEvent failure =>
    rcases takeEvent_cases base64 failure s with ⟨hstep, htaken⟩ | ⟨event, channel, -, -, hstep, htaken⟩
    · rw [hstep, htaken]
      exact (List.append_nil _).symm
    · rw [hstep, htaken, filterMap_singleton]
      exact (handle_spec event failure { s with channel }).2.2
  | recordText =>
    rw [step]
    cases s.recording with
    | none => exact (List.append_nil _).symm
    | some text => exact (filterMap_callerText_assistant _ _).trans (List.append_nil _).symm

/-- The channel hands on what it is sent, in order. -/
theorem step_channel (a : Step) (s : Call) : s.channel ++ sent base64 a s = taken a s ++ (step base64 a s).channel := by
  cases a with
  | session step' => rfl
  | remember text => exact List.append_nil _
  | recordSpoken n =>
    rw [step]
    cases s.speaking[n]? <;> exact List.append_nil _
  | takeEvent failure =>
    rcases takeEvent_cases base64 failure s with ⟨hstep, htaken⟩ | ⟨event, channel, -, hchannel, hstep, htaken⟩
    · rw [hstep, htaken]
      exact List.append_nil _
    · rw [hstep, htaken, (handle_spec event failure { s with channel }).1, hchannel]
      exact List.append_nil _
  | recordText =>
    rw [step]
    cases s.recording <;> exact List.append_nil _

/-- What is remembered and forgotten was remembered before, or is remembered now. -/
theorem step_manualTexts (a : Step) (s : Call) :
    (forgotten a s ++ (step base64 a s).manualTexts) <+ s.manualTexts ++ spoken a := by
  cases a with
  | remember text =>
    show forgottenFor text s.manualTexts ++ remembered text s.manualTexts <+ _
    rw [forgottenFor, remembered, List.take_append_drop]
    exact .refl _
  | session step' => exact List.sublist_append_left _ _
  | recordSpoken n =>
    rw [step]
    cases s.speaking[n]? <;> exact List.sublist_append_left _ _
  | takeEvent failure =>
    rcases takeEvent_cases base64 failure s with ⟨hstep, -⟩ | ⟨event, channel, -, -, hstep, -⟩
    · rw [hstep]
      exact List.sublist_append_left _ _
    · rw [hstep]
      exact (handle_spec event failure { s with channel }).2.1.trans (List.sublist_append_left _ _)
  | recordText =>
    rw [step]
    cases s.recording <;> exact List.sublist_append_left _ _

/-- No more than the limit is remembered, and nothing is forgotten below it. -/
theorem step_limit (a : Step) {s : Call} (h : s.manualTexts.length ≤ manualTextLimit) :
    (step base64 a s).manualTexts.length ≤ manualTextLimit ∧
      (s.manualTexts.length + (spoken a).length ≤ manualTextLimit → forgotten a s = []) := by
  have hkeeps (hspoken : spoken a = []) (hforgotten : forgotten a s = []) :
      (step base64 a s).manualTexts.length ≤ manualTextLimit := by
    have hsublist := (step_manualTexts base64 a s).length_le
    rw [hspoken, hforgotten, List.append_nil, List.nil_append] at hsublist
    exact hsublist.trans h
  cases a with
  | remember text =>
    constructor
    · show (remembered text s.manualTexts).length ≤ _
      rw [remembered, List.length_drop]
      omega
    · intro hlimit
      show forgottenFor text s.manualTexts = []
      rw [forgottenFor, Nat.sub_eq_zero_of_le (by rwa [List.length_append]), List.take_zero]
  | session step' => exact ⟨h, fun _ => rfl⟩
  | recordSpoken n => exact ⟨hkeeps rfl rfl, fun _ => rfl⟩
  | takeEvent failure => exact ⟨hkeeps rfl rfl, fun _ => rfl⟩
  | recordText => exact ⟨hkeeps rfl rfl, fun _ => rfl⟩

/-! ### A whole call -/

theorem run_callerText (steps : List Step) (s : Call) :
    (Machine.run (step base64) steps s).transcript.filterMap callerText =
      s.transcript.filterMap callerText ++ (gathered base64 taken steps s).filterMap heard := by
  induction steps generalizing s with
  | nil => exact (List.append_nil _).symm
  | cons a steps ih =>
    rw [Machine.run, ih, step_callerText, List.append_assoc, ← List.filterMap_append]
    rfl

theorem run_accounted (steps : List Step) (s : Call) :
    (Machine.run (step base64) steps s).accounted = s.accounted ++ gathered base64 usages steps s := by
  induction steps generalizing s with
  | nil => exact (List.append_nil _).symm
  | cons a steps ih =>
    rw [Machine.run, ih, step_accounted, List.append_assoc]
    rfl

theorem run_manualTexts (steps : List Step) (s : Call) :
    (gathered base64 forgotten steps s ++ (Machine.run (step base64) steps s).manualTexts) <+
      s.manualTexts ++ steps.flatMap spoken := by
  induction steps generalizing s with
  | nil => exact (List.append_nil s.manualTexts).symm ▸ .refl _
  | cons a steps ih =>
    calc gathered base64 forgotten (a :: steps) s ++ (Machine.run (step base64) (a :: steps) s).manualTexts
        = forgotten a s ++ (gathered base64 forgotten steps (step base64 a s) ++
            (Machine.run (step base64) steps (step base64 a s)).manualTexts) := List.append_assoc _ _ _
      _ <+ forgotten a s ++ ((step base64 a s).manualTexts ++ steps.flatMap spoken) := (ih _).append_left _
      _ = forgotten a s ++ (step base64 a s).manualTexts ++ steps.flatMap spoken := (List.append_assoc _ _ _).symm
      _ <+ s.manualTexts ++ spoken a ++ steps.flatMap spoken := (step_manualTexts base64 a s).append_right _
      _ = s.manualTexts ++ (a :: steps).flatMap spoken := by rw [List.append_assoc, List.flatMap_cons]

theorem run_limit (steps : List Step) {s : Call} (h : s.manualTexts.length ≤ manualTextLimit) :
    (Machine.run (step base64) steps s).manualTexts.length ≤ manualTextLimit ∧
      (s.manualTexts.length + (steps.flatMap spoken).length ≤ manualTextLimit → gathered base64 forgotten steps s = []) := by
  induction steps generalizing s with
  | nil => exact ⟨h, fun _ => rfl⟩
  | cons a steps ih =>
    obtain ⟨hstep, hforgets⟩ := step_limit base64 a h
    obtain ⟨hrun, hrest⟩ := ih hstep
    refine ⟨hrun, fun hlimit => ?_⟩
    rw [List.flatMap_cons, List.length_append] at hlimit
    have hnone : forgotten a s = [] := hforgets (by omega)
    have hlength := (step_manualTexts base64 a s).length_le
    rw [hnone, List.nil_append, List.length_append] at hlength
    show forgotten a s ++ gathered base64 forgotten steps (step base64 a s) = []
    rw [hnone, hrest (by omega), List.nil_append]

/-- How the transcript of a call is kept. -/
structure TranscriptKept (adapter : RealtimeAdapter) (steps : List Step) : Prop where
  /-- The events are taken in the order in which they are sent, each once. -/
  inOrder : gathered base64 (sent base64) steps (new adapter) =
    gathered base64 taken steps (new adapter) ++ (run base64 adapter steps).channel
  /-- Of the caller what is heard is written down, once and in order. -/
  caller : (run base64 adapter steps).transcript.filterMap callerText =
    (gathered base64 taken steps (new adapter)).filterMap heard
  /-- The usage that is reported is accounted for, once, unless the accounting fails. -/
  accounted : (run base64 adapter steps).accounted = gathered base64 usages steps (new adapter)
  /-- Of the assistant a text is written down, or is about to be, as often as the provider has said it, is still expected to,
  and is no longer expected to. -/
  assistant : ∀ text, (run base64 adapter steps).written text =
    ((gathered base64 taken steps (new adapter)).filterMap said).count text + (run base64 adapter steps).manualTexts.count text +
      (gathered base64 forgotten steps (new adapter)).count text
  /-- What is expected and what is no longer expected was asked for, in this order, the latter first. -/
  oldest : (gathered base64 forgotten steps (new adapter) ++ (run base64 adapter steps).manualTexts) <+ steps.flatMap spoken
  bounded : (run base64 adapter steps).manualTexts.length ≤ manualTextLimit
  /-- As long as no more than the limit is asked for, all of it is expected. -/
  expected : (steps.flatMap spoken).length ≤ manualTextLimit → gathered base64 forgotten steps (new adapter) = []

/-- **The transcript of a realtime call**, however the session, the task of the events and the speakers take their steps. -/
theorem transcript_kept (adapter : RealtimeAdapter) (steps : List Step) : TranscriptKept base64 adapter steps where
  inOrder := Machine.outputs_conserved (step_channel base64) steps (new adapter)
  caller := run_callerText base64 steps (new adapter)
  accounted := run_accounted base64 steps (new adapter)
  assistant text := by
    have hwritten := run_written base64 steps (new adapter) text
    have hnone : (new adapter).written text = 0 := rfl
    rw [hnone, Nat.zero_add] at hwritten
    exact hwritten
  oldest := run_manualTexts base64 steps (new adapter)
  bounded := (run_limit base64 steps (Nat.zero_le _)).1
  expected hlimit := (run_limit base64 steps (s := new adapter) (Nat.zero_le _)).2 (by
    rw [show (new adapter).manualTexts.length = 0 from rfl, Nat.zero_add]
    exact hlimit)

end Call

end AgentVoice.Service.RealtimeCall

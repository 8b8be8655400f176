import AgentVoice.Foundations.Machine
import AgentVoice.Turns.Turn

/-!
# Chained requests

Once the model has replied, a turn sends only the latest text of the caller, with the id of the last reply. What the
model then sees is the conversation of that reply and the new text. In every run in which, from the first reply that is
kept on, each turn with a text is answered, the model sees every text of the caller since the first reply, each once
and in order (`seesAll_of_unbroken`).
-/

namespace AgentVoice.Turns

open AgentVoice.Foundations
open AgentVoice.Callers (PhoneBook)

/-! ### The provider -/

/-- A request that the model has answered, and what it has written. -/
structure Exchange where
  id : Option String
  previousResponseId : Option String
  input : List Message
  output : String
  deriving DecidableEq, Repr

/-- The conversation that ends with a response: the one of the response before it, its input and its output. The newest
exchange comes first. -/
def conversation : List Exchange → Option String → List Message
  | [], _ => []
  | exchange :: earlier, id =>
    if id.isSome ∧ exchange.id = id then
      conversation earlier exchange.previousResponseId ++ exchange.input ++ [⟨false, exchange.output⟩]
    else conversation earlier id

/-- What the model sees with a request. -/
def Request.seen (exchanges : List Exchange) (request : Request) : List Message :=
  conversation exchanges request.previousResponseId ++ request.input

/-! ### Calls and their provider -/

/-- The texts of the caller in a transcript. -/
def callerTexts (transcript : List TranscriptEvent) : List String :=
  (transcript.filter fun event => event.role = "caller" ∧ event.kind = "caller.transcript.completed").map
    TranscriptEvent.text

/-- The texts of the caller among some messages. -/
def callerContents (messages : List Message) : List String :=
  (messages.filter Message.fromCaller).map Message.content

/-- A call, what the provider has of it, and how many texts of the caller there were when the model first replied. -/
structure Dialogue where
  call : CallState
  exchanges : List Exchange
  firstReply : Option ℕ

/-- The dialogue of a call as it begins. -/
def Dialogue.start (book : PhoneBook) : Dialogue := ⟨.start book, [], none⟩

variable (bridge : Bridge) (phoneBookKey : Option String)

/-- The dialogue after an action. -/
def dialogueStep : Action → Dialogue → Dialogue
  | .turn turn, d =>
    let outcome := processDetectedUtterance bridge phoneBookKey turn d.call
    match outcome.request, turn.reply with
    | some request, some reply =>
      ⟨outcome.state, ⟨reply.responseId, request.previousResponseId, request.input, reply.output⟩ :: d.exchanges,
        d.firstReply.or (some (callerTexts outcome.state.transcript).length)⟩
    | _, _ => { d with call := outcome.state }
  | .speak text, d => { d with call := d.call.recordAssistantText text }

/-- A chained request of a turn shows the model the texts of the caller from some place on, each once and in order, and
this place is not after the first reply. -/
def SeesAll : Action → Dialogue → Prop
  | .turn turn, d => ∀ request,
    (processDetectedUtterance bridge phoneBookKey turn d.call).request = some request →
      request.previousResponseId.isSome → ∃ n k, d.firstReply = some n ∧ k ≤ n ∧
        callerContents (request.seen d.exchanges) =
          (callerTexts (processDetectedUtterance bridge phoneBookKey turn d.call).state.transcript).drop k
  | .speak _, _ => True

/-- A turn with a text comes to the request of the standalone model. -/
structure Reached (turn : Turn) (text : String) (s : CallState) : Prop where
  reconciled : (reconcile phoneBookKey turn (some text) (heardState (some text) s)).1 = true
  extracted : (extract bridge phoneBookKey turn (heardState (some text) s).transcript (some text)
    ((reconcile phoneBookKey turn (some text) (heardState (some text) s)).2.recordAssistantTexts turn.meanwhile)).1 = true
  not_fast : (if bridge.autoEndCalls then fastPathEndCallResponse text else none) = none
  standalone : bridge.voice = none ∧ bridge.llmEnabled = true

/-- The request is answered, and the reply accounted for. -/
structure Answered (turn : Turn) (text : String) (s : CallState) : Prop where
  reached : Reached bridge phoneBookKey turn text s
  replied : turn.reply.isSome = true ∧ turn.replyRecorded = true

/-- A turn does not break the chain: where a reply is kept, a turn with a text is answered; and where the model has
replied but no reply is kept, the window of the request of an answered turn has every text since the first reply. -/
def Unbroken : Action → Dialogue → Prop
  | .turn turn, d => ∀ text, callerText bridge turn = some (some text) →
    (d.call.lastReplyResponseId.isSome → Answered bridge phoneBookKey turn text d.call) ∧
    (d.call.lastReplyResponseId = none → Answered bridge phoneBookKey turn text d.call → ∀ n, d.firstReply = some n →
      (callerTexts (d.call.recordCallerText text).transcript).length ≤ n +
        (callerTexts (windowedTranscript (d.call.recordCallerText text).transcript bridge.contextWindowEvents)).length)
  | .speak _, _ => True

/-! ### Texts of the caller -/

theorem callerTexts_append (as bs : List TranscriptEvent) :
    callerTexts (as ++ bs) = callerTexts as ++ callerTexts bs := by
  simp only [callerTexts, List.filter_append, List.map_append]

theorem callerContents_append (as bs : List Message) :
    callerContents (as ++ bs) = callerContents as ++ callerContents bs := by
  simp only [callerContents, List.filter_append, List.map_append]

@[simp] theorem callerTexts_caller (text : String) : callerTexts [.caller text] = [text] := rfl

@[simp] theorem callerTexts_assistants (texts : List String) :
    callerTexts (texts.map TranscriptEvent.assistant) = [] := by
  simp [callerTexts, TranscriptEvent.assistant]

/-- The events that a call records. -/
def Recorded (transcript : List TranscriptEvent) : Prop :=
  ∀ event ∈ transcript, (∃ text, event = .caller text) ∨ ∃ text, event = .assistant text

theorem Recorded.append {as bs : List TranscriptEvent} (has : Recorded as) (hbs : Recorded bs) :
    Recorded (as ++ bs) := by
  intro event hevent
  exact (List.mem_append.mp hevent).elim (has event) (hbs event)

theorem recorded_assistants (texts : List String) : Recorded (texts.map TranscriptEvent.assistant) := by
  intro event hevent
  obtain ⟨text, -, rfl⟩ := List.mem_map.mp hevent
  exact Or.inr ⟨text, rfl⟩

/-- A request that is not chained has every text of the caller in its transcript. -/
theorem callerContents_responseInput_none {transcript : List TranscriptEvent} (h : Recorded transcript) :
    callerContents (responseInput transcript none) = callerTexts transcript := by
  induction transcript with
  | nil => rfl
  | cons event events ih =>
    have hevents := ih fun event hevent => h event (List.mem_cons_of_mem _ hevent)
    obtain ⟨text, rfl⟩ | ⟨text, rfl⟩ := h event List.mem_cons_self
    · exact congrArg (text :: ·) hevents
    · exact hevents

/-- A window of a transcript that ends with a text of the caller ends with it. -/
theorem windowedTranscript_concat (events : List TranscriptEvent) (event : TranscriptEvent) (maxEvents : ℕ) :
    ∃ dropped kept, events = dropped ++ kept ∧ windowedTranscript (events ++ [event]) maxEvents = kept ++ [event] := by
  rw [windowedTranscript]
  split_ifs with h
  · exact ⟨[], events, rfl, rfl⟩
  · rw [not_or, not_le] at h
    have hle : (events ++ [event]).length - maxEvents ≤ events.length := by
      rw [List.length_append, List.length_singleton]
      omega
    refine ⟨events.take ((events ++ [event]).length - maxEvents), events.drop ((events ++ [event]).length - maxEvents),
      (List.take_append_drop _ _).symm, ?_⟩
    rw [List.drop_append_of_le_length hle]

/-- A chained request has the latest text of the caller. -/
theorem responseInput_chained (events : List TranscriptEvent) (text id : String) (maxEvents : ℕ) :
    responseInput (windowedTranscript (events ++ [.caller text]) maxEvents) (some id) = [⟨true, text⟩] := by
  obtain ⟨dropped, kept, -, hwindow⟩ := windowedTranscript_concat events (.caller text) maxEvents
  rw [hwindow]
  unfold responseInput
  rw [List.reverse_append, List.reverse_singleton, List.singleton_append]
  rfl

/-! ### What a turn does -/

variable {bridge phoneBookKey}

theorem reconcile_keeps (turn : Turn) (text : Option String) (s : CallState) :
    (reconcile phoneBookKey turn text s).2.transcript = s.transcript ∧
      (reconcile phoneBookKey turn text s).2.lastReplyResponseId = s.lastReplyResponseId := by
  cases text with
  | none => exact ⟨rfl, rfl⟩
  | some text =>
    rw [reconcile, reconcilePendingEmailConfirmation]
    cases s.pendingEmailConfirmation with
    | none => exact ⟨rfl, rfl⟩
    | some email =>
      cases phoneBookKey with
      | none => exact ⟨rfl, rfl⟩
      | some key =>
        simp only
        split_ifs <;> exact ⟨rfl, rfl⟩

theorem mergeExtracted_keeps (key : String) (turn : Turn) (update : Callers.CallerUpdate) (text : String)
    (s : CallState) : (mergeExtracted bridge key turn update text s).2.transcript = s.transcript ∧
      (mergeExtracted bridge key turn update text s).2.lastReplyResponseId = s.lastReplyResponseId := by
  have hpropose : ∀ candidate, (s.propose candidate).transcript = s.transcript ∧
      (s.propose candidate).lastReplyResponseId = s.lastReplyResponseId := by
    intro candidate
    cases candidate <;> exact ⟨rfl, rfl⟩
  rw [mergeExtracted]
  split_ifs <;> exact hpropose _

theorem extract_keeps (turn : Turn) (history : List TranscriptEvent) (text : Option String) (s : CallState) :
    (extract bridge phoneBookKey turn history text s).2.transcript = s.transcript ∧
      (extract bridge phoneBookKey turn history text s).2.lastReplyResponseId = s.lastReplyResponseId := by
  cases text with
  | none => exact ⟨rfl, rfl⟩
  | some text =>
    unfold extract extractCallerUpdate
    simp only
    split
    · split_ifs
      · exact mergeExtracted_keeps _ _ _ _ _
      · exact ⟨rfl, rfl⟩
    · exact ⟨rfl, rfl⟩

/-- What is queued for playback is recorded as a text of the assistant, or not at all. -/
theorem queueAssistantTts_spec (turn : Turn) (text : String) (s : CallState) :
    (queueAssistantTts turn text s).lastReplyResponseId = s.lastReplyResponseId ∧
      ∃ texts : List String, (queueAssistantTts turn text s).transcript = s.transcript ++ texts.map TranscriptEvent.assistant := by
  rw [queueAssistantTts]
  split_ifs
  · exact ⟨rfl, [text], rfl⟩
  · exact ⟨rfl, [], (List.append_nil _).symm⟩

/-- The answer of a turn adds texts of the assistant only. -/
theorem transcript_answer (bridge : Bridge) (turn : Turn) (history : List TranscriptEvent) (text : Option String) (s : CallState) :
    ∃ texts : List String, (answer bridge turn history text s).state.transcript =
      s.transcript ++ texts.map TranscriptEvent.assistant := by
  have hself : ∃ texts : List String, s.transcript = s.transcript ++ texts.map TranscriptEvent.assistant :=
    ⟨[], (List.append_nil _).symm⟩
  unfold answer
  split
  · split
    · simp only
      split_ifs
      · exact hself
      · exact (queueAssistantTts_spec _ _ _).2
    · exact hself
  · split
    · exact (queueAssistantTts_spec _ _ _).2
    · split_ifs
      · simp only
        split
        · exact (queueAssistantTts_spec _ _ _).2
        · exact hself
      · exact hself

/-- The transcript after a turn: one more text of the caller, where the turn has a text, and texts of the assistant. -/
theorem transcript_process (bridge : Bridge) (phoneBookKey : Option String) (turn : Turn) (s : CallState) :
    ∃ texts : List String, (processDetectedUtterance bridge phoneBookKey turn s).state.transcript =
      (heardState (callerText bridge turn).join s).transcript ++ texts.map TranscriptEvent.assistant := by
  unfold processDetectedUtterance
  cases callerText bridge turn with
  | none => exact ⟨[], (List.append_nil _).symm⟩
  | some text =>
    have hspeaking : ((reconcile phoneBookKey turn text (heardState text s)).2.recordAssistantTexts
        turn.meanwhile).transcript = (heardState text s).transcript ++ turn.meanwhile.map TranscriptEvent.assistant :=
      congrArg (· ++ _) (reconcile_keeps _ _ _).1
    simp only [Option.join_some]
    split_ifs
    · obtain ⟨texts, htexts⟩ := transcript_answer bridge turn (heardState text s).transcript text _
      refine ⟨turn.meanwhile ++ texts, htexts.trans ?_⟩
      rw [(extract_keeps _ _ _ _).1, hspeaking, List.append_assoc, List.map_append]
    · exact ⟨turn.meanwhile, ((extract_keeps _ _ _ _).1).trans hspeaking⟩
    · exact ⟨turn.meanwhile, hspeaking⟩

/-- The state in which a turn answers. -/
def answeringState (bridge : Bridge) (phoneBookKey : Option String) (turn : Turn) (text : String) (s : CallState) :
    CallState :=
  (extract bridge phoneBookKey turn (heardState (some text) s).transcript (some text)
    ((reconcile phoneBookKey turn (some text) (heardState (some text) s)).2.recordAssistantTexts turn.meanwhile)).2

theorem lastReply_answeringState (bridge : Bridge) (phoneBookKey : Option String) (turn : Turn) (text : String) (s : CallState) :
    (answeringState bridge phoneBookKey turn text s).lastReplyResponseId = s.lastReplyResponseId :=
  (extract_keeps _ _ _ _).2.trans (reconcile_keeps _ _ _).2

/-- A turn that comes to the request answers in this state. -/
theorem process_of_reached {turn : Turn} {text : String} {s : CallState}
    (htext : callerText bridge turn = some (some text)) (h : Reached bridge phoneBookKey turn text s) :
    processDetectedUtterance bridge phoneBookKey turn s =
      answer bridge turn (s.recordCallerText text).transcript (some text)
        (answeringState bridge phoneBookKey turn text s) := by
  rw [processDetectedUtterance, htext]
  simp only [h.reconciled, h.extracted, if_true]
  rfl

/-- The request of a turn. -/
def requestOf (bridge : Bridge) (text : String) (s : CallState) : Request :=
  ⟨responseInput (windowedTranscript (s.recordCallerText text).transcript bridge.contextWindowEvents)
    s.lastReplyResponseId, s.lastReplyResponseId⟩

/-- A turn that comes to the request makes it, and keeps the reply where it is accounted for. -/
theorem request_of_reached {turn : Turn} {text : String} {s : CallState}
    (htext : callerText bridge turn = some (some text)) (h : Reached bridge phoneBookKey turn text s) :
    (processDetectedUtterance bridge phoneBookKey turn s).request = some (requestOf bridge text s) ∧
      ((∃ reply, turn.reply = some reply ∧ turn.replyRecorded = true ∧
        (processDetectedUtterance bridge phoneBookKey turn s).state.lastReplyResponseId = reply.responseId) ∨
      (turn.reply = none ∨ turn.replyRecorded = false) ∧
        (processDetectedUtterance bridge phoneBookKey turn s).state.lastReplyResponseId = s.lastReplyResponseId) := by
  have hlast := lastReply_answeringState bridge phoneBookKey turn text s
  rw [process_of_reached htext h]
  unfold answer
  rw [h.standalone.1]
  simp only [Option.bind_some, h.not_fast, h.standalone.2, if_true]
  cases hreply : turn.reply with
  | none => exact ⟨by rw [requestOf, hlast], Or.inr ⟨Or.inl rfl, hlast⟩⟩
  | some reply =>
    cases hrecorded : turn.replyRecorded with
    | false => exact ⟨by rw [requestOf, hlast], Or.inr ⟨Or.inr rfl, hlast⟩⟩
    | true =>
      refine ⟨by rw [requestOf, hlast], Or.inl ⟨reply, rfl, rfl, ?_⟩⟩
      exact (queueAssistantTts_spec _ _ _).1

/-- Without a voice model, every turn that goes on has a text. -/
theorem callerText_ne_some_none {turn : Turn} (hvoice : bridge.voice = none) : callerText bridge turn ≠ some none := by
  have hneeds : needsStt bridge = true := by
    rw [needsStt, hvoice]
    rfl
  intro h
  rw [callerText, if_pos hneeds, Option.bind_eq_some_iff] at h
  obtain ⟨transcription, -, h⟩ := h
  rw [hvoice] at h
  split_ifs at h with hrecorded hblank hnone
  · exact hnone rfl
  · cases Option.some.inj h

/-- An answer without the standalone model makes no request. -/
theorem answer_of_not_standalone (turn : Turn) (history : List TranscriptEvent) (text : Option String) (s : CallState)
    (h : bridge.voice = none → bridge.llmEnabled = true →
      (if bridge.autoEndCalls then text.bind fastPathEndCallResponse else none) ≠ none) :
    (answer bridge turn history text s).request = none ∧
      (answer bridge turn history text s).state.lastReplyResponseId = s.lastReplyResponseId := by
  unfold answer
  cases hvoice : bridge.voice with
  | some requires =>
    cases turn.voiceReply with
    | none => exact ⟨rfl, rfl⟩
    | some reply =>
      refine ⟨rfl, ?_⟩
      simp only
      split_ifs
      · rfl
      · exact (queueAssistantTts_spec _ _ _).1
  | none =>
    cases hfast : if bridge.autoEndCalls then text.bind fastPathEndCallResponse else none with
    | some response => exact ⟨rfl, (queueAssistantTts_spec _ _ _).1⟩
    | none =>
      have hllm : ¬ bridge.llmEnabled = true := fun hllm => h hvoice hllm hfast
      simp only [if_neg hllm, and_self]

/-- A turn that does not come to the request makes none, and the last reply stays. -/
theorem request_of_not_reached {turn : Turn} {s : CallState}
    (h : ∀ text, callerText bridge turn = some (some text) → ¬ Reached bridge phoneBookKey turn text s) :
    (processDetectedUtterance bridge phoneBookKey turn s).request = none ∧
      (processDetectedUtterance bridge phoneBookKey turn s).state.lastReplyResponseId = s.lastReplyResponseId := by
  unfold processDetectedUtterance
  cases htext : callerText bridge turn with
  | none => exact ⟨rfl, rfl⟩
  | some text =>
    have hheard : (heardState text s).lastReplyResponseId = s.lastReplyResponseId := by cases text <;> rfl
    have hspeaking : ((reconcile phoneBookKey turn text (heardState text s)).2.recordAssistantTexts
        turn.meanwhile).lastReplyResponseId = s.lastReplyResponseId := (reconcile_keeps _ _ _).2.trans hheard
    simp only
    split_ifs with hreconciled hextracted
    · have hstandalone : bridge.voice = none → bridge.llmEnabled = true →
          (if bridge.autoEndCalls then text.bind fastPathEndCallResponse else none) ≠ none := by
        intro hvoice hllm hfast
        cases text with
        | none => exact callerText_ne_some_none hvoice htext
        | some text =>
          rw [Option.bind_some] at hfast
          exact h text htext ⟨hreconciled, hextracted, hfast, hvoice, hllm⟩
      obtain ⟨hrequest, hlast⟩ := answer_of_not_standalone turn (heardState text s).transcript text
        (extract bridge phoneBookKey turn (heardState text s).transcript text
          ((reconcile phoneBookKey turn text (heardState text s)).2.recordAssistantTexts turn.meanwhile)).2 hstandalone
      exact ⟨hrequest, hlast.trans ((extract_keeps _ _ _ _).2.trans hspeaking)⟩
    · exact ⟨rfl, ((extract_keeps _ _ _ _).2).trans hspeaking⟩
    · exact ⟨rfl, hspeaking⟩

/-! ### Whole runs -/

/-- The invariant: the conversation of the last reply has the texts of the caller from some place on, which is not after
the first reply. -/
structure Linked (d : Dialogue) : Prop where
  recorded : Recorded d.call.transcript
  first : ∀ n, d.firstReply = some n → n ≤ (callerTexts d.call.transcript).length
  linked : d.call.lastReplyResponseId.isSome → ∃ n k, d.firstReply = some n ∧ k ≤ n ∧
    callerContents (conversation d.exchanges d.call.lastReplyResponseId) = (callerTexts d.call.transcript).drop k

theorem linked_start (book : PhoneBook) : Linked (.start book) where
  recorded := fun _ h => absurd h List.not_mem_nil
  first := by
    intro n h
    cases h
  linked := by
    intro h
    cases h

/-- The texts of the caller after a turn. -/
theorem callerTexts_process (turn : Turn) (s : CallState) :
    callerTexts (processDetectedUtterance bridge phoneBookKey turn s).state.transcript =
      callerTexts s.transcript ++ (callerText bridge turn).join.toList := by
  obtain ⟨texts, htexts⟩ := transcript_process bridge phoneBookKey turn s
  rw [htexts, callerTexts_append, callerTexts_assistants, List.append_nil]
  cases (callerText bridge turn).join with
  | none => exact (List.append_nil _).symm
  | some text => exact callerTexts_append _ _

theorem recorded_process {turn : Turn} {s : CallState} (h : Recorded s.transcript) :
    Recorded (processDetectedUtterance bridge phoneBookKey turn s).state.transcript := by
  obtain ⟨texts, htexts⟩ := transcript_process bridge phoneBookKey turn s
  rw [htexts]
  refine Recorded.append ?_ (recorded_assistants texts)
  cases (callerText bridge turn).join with
  | none => exact h
  | some text => exact h.append fun event hevent => Or.inl ⟨text, List.mem_singleton.mp hevent⟩

/-- A text that a turn adds is after every place in the texts before. -/
theorem drop_concat {texts : List String} {k : ℕ} (h : k ≤ texts.length) (text : String) :
    (texts ++ [text]).drop k = texts.drop k ++ [text] := List.drop_append_of_le_length h

/-- **Chained requests.** While the last reply is linked, the request of a turn shows the model the texts of the caller
from some place on. -/
theorem Linked.seen {d : Dialogue} (h : Linked d) (bridge : Bridge) (text : String) (hsome : d.call.lastReplyResponseId.isSome) :
    ∃ n k, d.firstReply = some n ∧ k ≤ n ∧ callerContents ((requestOf bridge text d.call).seen d.exchanges) =
      (callerTexts d.call.transcript ++ [text]).drop k := by
  obtain ⟨n, k, hn, hk, hlinked⟩ := h.linked hsome
  refine ⟨n, k, hn, hk, ?_⟩
  obtain ⟨id, hid⟩ := Option.isSome_iff_exists.mp hsome
  have hinput : (requestOf bridge text d.call).input = [⟨true, text⟩] := by
    rw [requestOf, hid]
    exact responseInput_chained _ _ _ _
  have hseen : (requestOf bridge text d.call).seen d.exchanges =
      conversation d.exchanges d.call.lastReplyResponseId ++ [⟨true, text⟩] := by
    rw [Request.seen, hinput]
    rfl
  rw [hseen, callerContents_append, hlinked, drop_concat (hk.trans (h.first n hn))]
  rfl

/-- **Requests that are not chained.** The request of a turn shows the model the texts of the caller in its window. -/
theorem Linked.seen_of_none {d : Dialogue} (h : Linked d) (bridge : Bridge) (text : String)
    (hnone : d.call.lastReplyResponseId = none) :
    callerContents ((requestOf bridge text d.call).seen d.exchanges) =
        callerTexts (windowedTranscript (d.call.recordCallerText text).transcript bridge.contextWindowEvents) ∧
      ∃ k, callerTexts (windowedTranscript (d.call.recordCallerText text).transcript bridge.contextWindowEvents) =
        (callerTexts d.call.transcript ++ [text]).drop k ∧ k ≤ (callerTexts d.call.transcript).length := by
  obtain ⟨dropped, kept, hevents, hwindow⟩ :=
    windowedTranscript_concat d.call.transcript (.caller text) bridge.contextWindowEvents
  have hwindow' : windowedTranscript (d.call.recordCallerText text).transcript bridge.contextWindowEvents =
      kept ++ [.caller text] := hwindow
  have hrecorded : Recorded (kept ++ [.caller text]) := by
    refine Recorded.append (fun event hevent => h.recorded event ?_) fun event hevent =>
      Or.inl ⟨text, List.mem_singleton.mp hevent⟩
    rw [hevents]
    exact List.mem_append_right _ hevent
  have hconversation : ∀ exchanges, conversation exchanges none = [] := by
    intro exchanges
    induction exchanges with
    | nil => rfl
    | cons exchange earlier ih => exact ih
  constructor
  · rw [Request.seen, requestOf, hnone, hconversation, List.nil_append, hwindow']
    exact callerContents_responseInput_none hrecorded
  · refine ⟨(callerTexts dropped).length, ?_, ?_⟩
    · rw [hwindow', hevents, callerTexts_append, callerTexts_append, List.append_assoc, List.drop_left]
      rfl
    · rw [hevents, callerTexts_append, List.length_append]
      exact Nat.le_add_right _ _

theorem call_dialogueStep (turn : Turn) (d : Dialogue) :
    (dialogueStep bridge phoneBookKey (.turn turn) d).call =
      (processDetectedUtterance bridge phoneBookKey turn d.call).state := by
  unfold dialogueStep
  simp only
  split <;> rfl

/-- The first reply stays, and is not after the texts of the caller. -/
theorem firstReply_dialogueStep {turn : Turn} {d : Dialogue} (h : Linked d) {n : ℕ}
    (hn : (dialogueStep bridge phoneBookKey (.turn turn) d).firstReply = some n) :
    n ≤ (callerTexts (dialogueStep bridge phoneBookKey (.turn turn) d).call.transcript).length := by
  have hle : (callerTexts d.call.transcript).length ≤
      (callerTexts (processDetectedUtterance bridge phoneBookKey turn d.call).state.transcript).length := by
    rw [callerTexts_process, List.length_append]
    exact Nat.le_add_right _ _
  rw [call_dialogueStep]
  unfold dialogueStep at hn
  simp only at hn
  split at hn
  · obtain hfirst | ⟨-, hfirst⟩ := Option.or_eq_some_iff.mp hn
    · exact (h.first n hfirst).trans hle
    · exact (Option.some.inj hfirst).ge
  · exact (h.first n hn).trans hle

/-- A turn without the request of the standalone model changes nothing that the provider has. -/
theorem dialogueStep_of_not_reached {turn : Turn} {d : Dialogue}
    (h : (processDetectedUtterance bridge phoneBookKey turn d.call).request = none) :
    dialogueStep bridge phoneBookKey (.turn turn) d =
      { d with call := (processDetectedUtterance bridge phoneBookKey turn d.call).state } := by
  unfold dialogueStep
  simp only [h]

theorem dialogueStep_of_reply {turn : Turn} {d : Dialogue} {request : Request} {reply : ResponseResult}
    (h : (processDetectedUtterance bridge phoneBookKey turn d.call).request = some request)
    (hreply : turn.reply = some reply) :
    dialogueStep bridge phoneBookKey (.turn turn) d =
      ⟨(processDetectedUtterance bridge phoneBookKey turn d.call).state,
        ⟨reply.responseId, request.previousResponseId, request.input, reply.output⟩ :: d.exchanges,
        d.firstReply.or (some (callerTexts
          (processDetectedUtterance bridge phoneBookKey turn d.call).state.transcript).length)⟩ := by
  unfold dialogueStep
  simp only [h, hreply]

/-- A reply that is kept links the texts that the model has seen. -/
theorem linked_of_taken {d : Dialogue} (h : Linked d) {turn : Turn} {text : String}
    (htext : callerText bridge turn = some (some text)) (hreached : Reached bridge phoneBookKey turn text d.call)
    (hunbroken : Unbroken bridge phoneBookKey (.turn turn) d) {reply : ResponseResult} (hreply : turn.reply = some reply)
    (hrecorded : turn.replyRecorded = true) :
    ∃ n k, d.firstReply.or (some ((callerTexts d.call.transcript).length + 1)) = some n ∧ k ≤ n ∧
      callerContents ((requestOf bridge text d.call).seen d.exchanges) = (callerTexts d.call.transcript ++ [text]).drop k := by
  obtain ⟨-, hwindow⟩ := hunbroken text htext
  cases hlast : d.call.lastReplyResponseId with
  | some id =>
    obtain ⟨n, k, hn, hk, hseen⟩ := h.seen bridge text (by rw [hlast]; rfl)
    exact ⟨n, k, by rw [hn]; rfl, hk, hseen⟩
  | none =>
    obtain ⟨hseen, k, hdrop, hk⟩ := h.seen_of_none bridge text hlast
    have hanswered : Answered bridge phoneBookKey turn text d.call := ⟨hreached, by rw [hreply]; rfl, hrecorded⟩
    cases hfirst : d.firstReply with
    | none => exact ⟨_, k, rfl, hk.trans (Nat.le_succ _), hseen.trans hdrop⟩
    | some n =>
      refine ⟨n, k, rfl, ?_, hseen.trans hdrop⟩
      have hle := hwindow hlast hanswered n hfirst
      have htexts : callerTexts (d.call.recordCallerText text).transcript = callerTexts d.call.transcript ++ [text] :=
        callerTexts_append _ _
      rw [hdrop, htexts, List.length_drop, List.length_append, List.length_singleton] at hle
      omega

/-- **One action.** What keeps the chain unbroken keeps it linked. -/
theorem Linked.step {a : Action} {d : Dialogue} (h : Linked d) (hunbroken : Unbroken bridge phoneBookKey a d) :
    Linked (dialogueStep bridge phoneBookKey a d) := by
  cases a with
  | speak text =>
    have htexts : callerTexts (d.call.recordAssistantText text).transcript = callerTexts d.call.transcript := by
      refine (callerTexts_append _ _).trans ?_
      exact (congrArg _ (callerTexts_assistants [text])).trans (List.append_nil _)
    refine ⟨h.recorded.append (recorded_assistants [text]), fun n hn => ?_, fun hsome => ?_⟩
    · exact (h.first n hn).trans (congrArg List.length htexts).ge
    · obtain ⟨n, k, hn, hk, hlinked⟩ := h.linked hsome
      exact ⟨n, k, hn, hk, hlinked.trans (congrArg (List.drop k) htexts.symm)⟩
  | turn turn =>
    refine ⟨?_, fun n hn => firstReply_dialogueStep h hn, fun hsome => ?_⟩
    · rw [call_dialogueStep]
      exact recorded_process h.recorded
    · rw [call_dialogueStep] at hsome ⊢
      by_cases hreached : ∃ text, callerText bridge turn = some (some text) ∧
          Reached bridge phoneBookKey turn text d.call
      · obtain ⟨text, htext, hreached⟩ := hreached
        obtain ⟨hrequest, ⟨reply, hreply, hrecorded, hlast⟩ | ⟨hreply, hlast⟩⟩ := request_of_reached htext hreached
        · obtain ⟨n, k, hn, hk, hseen⟩ := linked_of_taken h htext hreached hunbroken hreply hrecorded
          have htexts : callerTexts (processDetectedUtterance bridge phoneBookKey turn d.call).state.transcript =
              callerTexts d.call.transcript ++ [text] := by
            rw [callerTexts_process, htext]
            rfl
          rw [dialogueStep_of_reply hrequest hreply, htexts, hlast, List.length_append]
          rw [hlast] at hsome
          refine ⟨n, k, hn, hk, ?_⟩
          rw [conversation, if_pos ⟨hsome, rfl⟩, callerContents_append, ← hseen]
          exact List.append_nil _
        · rw [hlast] at hsome
          obtain ⟨-, hsomereply, hrecorded⟩ := (hunbroken text htext).1 hsome
          obtain hnone | hfalse := hreply
          · rw [hnone] at hsomereply
            cases hsomereply
          · cases hfalse.symm.trans hrecorded
      · have hnot : ∀ text, callerText bridge turn = some (some text) →
            ¬ Reached bridge phoneBookKey turn text d.call := fun text htext hr => hreached ⟨text, htext, hr⟩
        obtain ⟨hrequest, hlast⟩ := request_of_not_reached hnot
        rw [hlast] at hsome
        obtain ⟨n, k, hn, hk, hlinked⟩ := h.linked hsome
        have htexts : callerTexts (processDetectedUtterance bridge phoneBookKey turn d.call).state.transcript =
            callerTexts d.call.transcript := by
          rw [callerTexts_process]
          cases htext : (callerText bridge turn).join with
          | none => exact List.append_nil _
          | some text =>
            have hsometext := Option.join_eq_some_iff.mp htext
            exact absurd ((hunbroken text hsometext).1 hsome).reached (hnot text hsometext)
        rw [dialogueStep_of_not_reached hrequest, hlast, htexts]
        exact ⟨n, k, hn, hk, hlinked⟩

/-- A turn in a linked dialogue shows the model all texts of the caller since the first reply. -/
theorem Linked.seesAll {a : Action} {d : Dialogue} (h : Linked d) : SeesAll bridge phoneBookKey a d := by
  cases a with
  | speak text => trivial
  | turn turn =>
    intro request hrequest hsome
    by_cases hreached : ∃ text, callerText bridge turn = some (some text) ∧
        Reached bridge phoneBookKey turn text d.call
    · obtain ⟨text, htext, hreached⟩ := hreached
      obtain rfl := Option.some.inj ((request_of_reached htext hreached).1.symm.trans hrequest)
      obtain ⟨n, k, hn, hk, hseen⟩ := h.seen bridge text hsome
      refine ⟨n, k, hn, hk, hseen.trans ?_⟩
      rw [callerTexts_process, htext]
      rfl
    · have hnot : ∀ text, callerText bridge turn = some (some text) →
          ¬ Reached bridge phoneBookKey turn text d.call := fun text htext hr => hreached ⟨text, htext, hr⟩
      cases (request_of_not_reached hnot).1.symm.trans hrequest

/-- **Every run.** In a run whose turns do not break the chain, every chained request shows the model every text of the
caller since the first reply, each once and in order. -/
theorem seesAll_of_unbroken (bridge : Bridge) (phoneBookKey : Option String) (book : PhoneBook) {as : List Action}
    (h : Machine.Along (dialogueStep bridge phoneBookKey) (Unbroken bridge phoneBookKey) as (.start book)) :
    Machine.Along (dialogueStep bridge phoneBookKey) (SeesAll bridge phoneBookKey) as (.start book) :=
  Machine.Along.of_invariant (fun _ _ hlinked hunbroken => hlinked.step hunbroken)
    (fun _ _ hlinked _ => hlinked.seesAll) (linked_start book) h

theorem seesAll_of_unbroken_twoTurns :
    Machine.Along (dialogueStep standaloneBridge none) (SeesAll standaloneBridge none)
      [.turn (workingTurn "Hello." {}), .turn (workingTurn "When are you open?" {})] (.start .default) := by
  refine seesAll_of_unbroken standaloneBridge none .default ⟨fun text htext => ⟨?_, ?_⟩, fun text htext => ⟨?_, ?_⟩, trivial⟩
  · intro hsome
    cases hsome
  · intro hnone hanswered n hn
    cases hn
  · obtain rfl : text = "When are you open?" := by
      have hheard : callerText standaloneBridge (workingTurn "When are you open?" {}) =
          some (some "When are you open?") := by decide +kernel
      exact Option.some.inj (Option.some.inj (htext.symm.trans hheard))
    exact fun _ => ⟨⟨by decide +kernel, by decide +kernel, rfl, rfl, rfl⟩, rfl, rfl⟩
  · exact fun hnone => absurd hnone (by decide +kernel)

/-- The request of the second turn fails, and the third turn sends its own text only. -/
theorem failedTurn_not_seen :
    let first := workingTurn "Hello." {}
    let failed := { workingTurn "I would like to book a table." {} with reply := none }
    let third := workingTurn "For two, please." {}
    let d := Machine.run (dialogueStep standaloneBridge none) [.turn first, .turn failed] (.start .default)
    (processDetectedUtterance standaloneBridge none third d.call).request.map
        (fun request => callerContents (request.seen d.exchanges)) = some ["Hello.", "For two, please."] ∧
      callerTexts (processDetectedUtterance standaloneBridge none third d.call).state.transcript =
        ["Hello.", "I would like to book a table.", "For two, please."] ∧
      ¬ SeesAll standaloneBridge none (.turn third) d := by
  intro first failed third d
  have hseen : (processDetectedUtterance standaloneBridge none third d.call).request.map
      (fun request => callerContents (request.seen d.exchanges)) = some ["Hello.", "For two, please."] := by decide +kernel
  have htexts : callerTexts (processDetectedUtterance standaloneBridge none third d.call).state.transcript =
      ["Hello.", "I would like to book a table.", "For two, please."] := by decide +kernel
  refine ⟨hseen, htexts, fun h => ?_⟩
  obtain ⟨request, hrequest, hcontents⟩ := Option.map_eq_some_iff.mp hseen
  have hchained : (processDetectedUtterance standaloneBridge none third d.call).request.map
      Request.previousResponseId = some (some "resp_1") := by decide +kernel
  rw [hrequest] at hchained
  have hsome : request.previousResponseId.isSome := by
    rw [Option.some.inj hchained]
    rfl
  obtain ⟨n, k, hn, hk, hdrop⟩ := h request hrequest hsome
  have hfirst : d.firstReply = some 1 := by decide +kernel
  obtain rfl := Option.some.inj (hfirst.symm.trans hn)
  rw [hcontents, htexts] at hdrop
  obtain rfl | rfl := Nat.le_one_iff_eq_zero_or_eq_one.mp hk
  · exact absurd hdrop (by decide)
  · exact absurd hdrop (by decide)

end AgentVoice.Turns

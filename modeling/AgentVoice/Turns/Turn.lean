import AgentVoice.Turns.CallerUpdates
import AgentVoice.Turns.Classification
import AgentVoice.Turns.EndCall

/-!
# One turn of a call

`process_detected_utterance` on what it keeps: the transcript of the call, the e-mail address that the call has asked
about, the id of the last reply, and the phone book. What the services answer to a turn, and whether they fail, is the
turn's input. Other tasks speak into the call while a turn waits; all that they change is the transcript.
-/

namespace AgentVoice.Turns

open AgentVoice.Foundations
open AgentVoice.Callers (CallerUpdate PhoneBook mergeUpdate)

/-! ### The transcript -/

/-- `TranscriptEvent`. -/
structure TranscriptEvent where
  role : String
  kind : String
  text : String
  deriving DecidableEq, Repr

/-- What `record_caller_text` pushes. -/
def TranscriptEvent.caller (text : String) : TranscriptEvent := ⟨"caller", "caller.transcript.completed", text⟩

/-- What `record_assistant_text` pushes. -/
def TranscriptEvent.assistant (text : String) : TranscriptEvent := ⟨"assistant", "assistant.tts", text⟩

/-- `windowed_transcript`. -/
def windowedTranscript (events : List TranscriptEvent) (maxEvents : ℕ) : List TranscriptEvent :=
  if maxEvents = 0 ∨ events.length ≤ maxEvents then events else events.drop (events.length - maxEvents)

/-- `caller_text_indicates_profile_update`. -/
def callerTextIndicatesProfileUpdate (text : String) : Bool :=
  let normalized := lowercaseChars (trim text).toList
  !normalized.isEmpty &&
    ["@", "email", "phone book", "address book", "my record", "profile", "preferences", "first name", "last name",
      "surname", "company", "work at", "work for", "calling from", "i'm from", "i am from", "live in", "based in",
      "timezone", "language", "prefer ", "spelt ", "spell ", "spelled ", "correct"].any fun phrase =>
        containsChars normalized phrase.toList

/-- `assistant_prompt_requests_profile_field`. -/
def assistantPromptRequestsProfileField (text : String) : Bool :=
  let normalized := lowercaseChars (trim text).toList
  !normalized.isEmpty &&
    ["what is it", "what's your first name", "what is your first name", "what's your last name",
      "what is your last name", "what's your surname", "what is your surname", "who should i say is calling",
      "could you spell", "can you spell", "spell that", "is that correct", "let me confirm", "just to confirm",
      "confirm whether", "where are you calling from", "which city are you in", "what city are you in"].any fun phrase =>
        containsChars normalized phrase.toList

/-! ### What a turn depends on -/

/-- `MediaBridgeContext`, as far as a turn reads it: whether there is a voice model and whether it needs the
transcription, whether there is a standalone model, and the behaviour. -/
structure Bridge where
  voice : Option Bool
  llmEnabled : Bool
  autoEndCalls : Bool
  contextWindowEvents : ℕ
  isValidTimezone : String → Bool

/-- `ResponseResult`, and what the model has written for it. -/
structure ResponseResult where
  output : String
  text : String
  responseId : Option String
  deriving DecidableEq, Repr

/-- What happens in a turn: what the services answer where they do not fail, and whether the accounting, the phone book
and the speech succeed. -/
structure Turn where
  transcription : Option String
  transcriptionRecorded : Bool
  /-- The clock readings of the two updates of the phone book: for a new record, and at the end. -/
  confirmed : String × String
  confirmedPersisted : Bool
  extraction : Option CallerUpdate
  extractionRecorded : Bool
  extracted : String × String
  voiceReply : Option String
  reply : Option ResponseResult
  replyRecorded : Bool
  /-- The answer is accounted for and queued for playback. -/
  queued : Bool
  /-- What other tasks say in the call while the turn waits for the services. -/
  meanwhile : List String

/-- What is kept of a call, with the phone book. -/
structure CallState where
  transcript : List TranscriptEvent
  pendingEmailConfirmation : Option String
  lastReplyResponseId : Option String
  phoneBook : PhoneBook

/-- A message of a request to the model: whether it is the caller's, and its text. -/
structure Message where
  fromCaller : Bool
  content : String
  deriving DecidableEq, Repr

/-- A request for a reply: `input` and `previous_response_id`. -/
structure Request where
  input : List Message
  previousResponseId : Option String
  deriving DecidableEq, Repr

/-- The state after a turn, and the request for a reply that the turn has made. -/
structure Outcome where
  state : CallState
  request : Option Request

namespace CallState

/-- `record_caller_text`. -/
def recordCallerText (text : String) (s : CallState) : CallState :=
  { s with transcript := s.transcript ++ [.caller text] }

/-- `record_assistant_text`. -/
def recordAssistantText (text : String) (s : CallState) : CallState :=
  { s with transcript := s.transcript ++ [.assistant text] }

/-- What other tasks have said. -/
def recordAssistantTexts (texts : List String) (s : CallState) : CallState :=
  { s with transcript := s.transcript ++ texts.map .assistant }

/-- `set_pending_email_confirmation`. -/
def setPendingEmailConfirmation (email : Option String) (s : CallState) : CallState :=
  { s with pendingEmailConfirmation := email }

/-- The candidate of an update made pending, where there is one. -/
def propose (candidate : Option String) (s : CallState) : CallState :=
  match candidate with
  | some email => s.setPendingEmailConfirmation (some email)
  | none => s

/-- `set_last_reply_response_id`. -/
def setLastReplyResponseId (responseId : Option String) (s : CallState) : CallState :=
  { s with lastReplyResponseId := responseId }

end CallState

/-! ### The steps of a turn -/

/-- Whether the utterance is transcribed. -/
def needsStt (bridge : Bridge) : Bool := bridge.voice.isNone || bridge.llmEnabled || bridge.voice.getD false

/-- The text of the utterance that goes on to the next steps, with `none` where the turn ends here. -/
def callerText (bridge : Bridge) (turn : Turn) : Option (Option String) :=
  if needsStt bridge then
    turn.transcription.bind fun transcription =>
      if turn.transcriptionRecorded then
        if trim transcription = "" then if bridge.voice.isNone then none else some none
        else some (some (trim transcription))
      else none
  else some none

/-- `reconcile_pending_email_confirmation`: whether it succeeds, and the state after it. -/
def reconcilePendingEmailConfirmation (phoneBookKey : Option String) (turn : Turn) (latestCallerText : String)
    (s : CallState) : Bool × CallState :=
  match s.pendingEmailConfirmation with
  | none => (true, s)
  | some pendingEmail =>
    match phoneBookKey with
    | none => (true, s.setPendingEmailConfirmation none)
    | some key =>
      if callerConfirmedPendingValue latestCallerText then
        let s := { s with phoneBook :=
          (mergeUpdate turn.confirmed.1 turn.confirmed.2 key { email := some pendingEmail } s.phoneBook).2 }
        if turn.confirmedPersisted then (true, s.setPendingEmailConfirmation none) else (false, s)
      else if callerRejectedPendingValue latestCallerText then (true, s.setPendingEmailConfirmation none)
      else (true, s)

/-- `should_extract_caller_update`. -/
def shouldExtractCallerUpdate (history : List TranscriptEvent) (s : CallState) (text : String) : Bool :=
  s.pendingEmailConfirmation.isSome || callerTextIndicatesProfileUpdate text ||
    ((history.reverse.find? fun event => event.role = "assistant" ∧ event.kind = "assistant.tts").map fun event =>
      assistantPromptRequestsProfileField event.text).getD false

/-- What a turn does with an extracted update: whether the turn goes on, and the state after it. -/
def mergeExtracted (bridge : Bridge) (key : String) (turn : Turn) (update : CallerUpdate) (text : String)
    (s : CallState) : Bool × CallState :=
  let sanitized := sanitizeCallerUpdate bridge.isValidTimezone update text
  let s := s.propose sanitized.pendingEmailConfirmation
  if turn.extractionRecorded then
    (true, { s with phoneBook := (mergeUpdate turn.extracted.1 turn.extracted.2 key sanitized.update s.phoneBook).2 })
  else (false, s)

/-- The contact extraction of a turn: whether the turn goes on, and the state after it. -/
def extractCallerUpdate (bridge : Bridge) (phoneBookKey : Option String) (turn : Turn) (history : List TranscriptEvent)
    (text : String) (s : CallState) : Bool × CallState :=
  match phoneBookKey, turn.extraction with
  | some key, some update =>
    if bridge.llmEnabled && shouldExtractCallerUpdate history s text then mergeExtracted bridge key turn update text s
    else (true, s)
  | _, _ => (true, s)

/-- `response_input`. -/
def responseInput (transcript : List TranscriptEvent) (previousResponseId : Option String) : List Message :=
  let latestCaller := transcript.reverse.find? fun event =>
    event.role = "caller" ∧ event.kind = "caller.transcript.completed"
  match previousResponseId, latestCaller with
  | some _, some event => [⟨true, event.text⟩]
  | _, _ =>
    (transcript.filter fun event => event.kind = "assistant.tts" ∨ event.kind = "caller.transcript.completed").map
      fun event => ⟨event.role = "caller", event.text⟩

/-- The text that is said for a reply of the standalone model. -/
def spokenText (bridge : Bridge) (text : Option String) (reply : ResponseResult) : String :=
  if bridge.autoEndCalls && (text.map callerRequestedEndCall).getD false then finalizeEndCallResponse (trim reply.text)
  else trim reply.text

/-- `queue_assistant_tts`. -/
def queueAssistantTts (turn : Turn) (text : String) (s : CallState) : CallState :=
  if turn.queued then s.recordAssistantText text else s

/-- The answer of a turn: by the voice model, at once where the caller asks to hang up, or by the standalone model. -/
def answer (bridge : Bridge) (turn : Turn) (history : List TranscriptEvent) (text : Option String) (s : CallState) :
    Outcome :=
  match bridge.voice with
  | some _ =>
    match turn.voiceReply with
    | some reply => ⟨if trim reply = "" then s else queueAssistantTts turn (trim reply) s, none⟩
    | none => ⟨s, none⟩
  | none =>
    match if bridge.autoEndCalls then text.bind fastPathEndCallResponse else none with
    | some response => ⟨queueAssistantTts turn response s, none⟩
    | none =>
      if bridge.llmEnabled then
        let request : Request :=
          ⟨responseInput (windowedTranscript history bridge.contextWindowEvents) s.lastReplyResponseId,
            s.lastReplyResponseId⟩
        match turn.reply, turn.replyRecorded with
        | some reply, true =>
          ⟨queueAssistantTts turn (spokenText bridge text reply) (s.setLastReplyResponseId reply.responseId),
            some request⟩
        | _, _ => ⟨s, some request⟩
      else ⟨s, none⟩

/-- The transcript with the text of the turn. -/
def heardState (text : Option String) (s : CallState) : CallState :=
  match text with
  | some text => s.recordCallerText text
  | none => s

/-- The reconciliation, where the turn has a text. -/
def reconcile (phoneBookKey : Option String) (turn : Turn) (text : Option String) (s : CallState) : Bool × CallState :=
  match text with
  | some text => reconcilePendingEmailConfirmation phoneBookKey turn text s
  | none => (true, s)

/-- The extraction, where the turn has a text. -/
def extract (bridge : Bridge) (phoneBookKey : Option String) (turn : Turn) (history : List TranscriptEvent)
    (text : Option String) (s : CallState) : Bool × CallState :=
  match text with
  | some text => extractCallerUpdate bridge phoneBookKey turn history text s
  | none => (true, s)

/-- `process_detected_utterance`. -/
def processDetectedUtterance (bridge : Bridge) (phoneBookKey : Option String) (turn : Turn) (s : CallState) : Outcome :=
  match callerText bridge turn with
  | none => ⟨s, none⟩
  | some text =>
    let heard := heardState text s
    let reconciled := reconcile phoneBookKey turn text heard
    let speaking := reconciled.2.recordAssistantTexts turn.meanwhile
    if reconciled.1 then
      let extracted := extract bridge phoneBookKey turn heard.transcript text speaking
      if extracted.1 then answer bridge turn heard.transcript text extracted.2 else ⟨extracted.2, none⟩
    else ⟨speaking, none⟩

/-! ### Runs -/

/-- What happens to a call: a turn, or another task speaks into it. -/
inductive Action where
  | turn (turn : Turn)
  | speak (text : String)

/-- The state after an action. -/
def step (bridge : Bridge) (phoneBookKey : Option String) : Action → CallState → CallState
  | .turn turn, s => (processDetectedUtterance bridge phoneBookKey turn s).state
  | .speak text, s => s.recordAssistantText text

/-- A call as it begins. -/
def CallState.start (phoneBook : PhoneBook) : CallState := ⟨[], none, none, phoneBook⟩

/-! ### A call that is answered by the standalone model -/

/-- The standalone model answers, with a window of 24 events. -/
def standaloneBridge : Bridge := ⟨none, true, false, 24, fun _ => true⟩

/-- A turn in which nothing fails. -/
def workingTurn (text : String) (update : CallerUpdate) : Turn where
  transcription := some text
  transcriptionRecorded := true
  confirmed := ("2026-01-01T00:00:00Z", "2026-01-01T00:00:00Z")
  confirmedPersisted := true
  extraction := some update
  extractionRecorded := true
  extracted := ("2026-01-01T00:00:00Z", "2026-01-01T00:00:00Z")
  voiceReply := none
  reply := some ⟨"", "Is it ada@example.org?", some "resp_1"⟩
  replyRecorded := true
  queued := true
  meanwhile := []

end AgentVoice.Turns

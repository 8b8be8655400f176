import AgentVoice.RealtimeVoice.BargeIn
import AgentVoice.RealtimeVoice.EventMapper

/-!
# The session loop

`run_session` waits for the caller's audio, for commands, for provider messages and for its ticker, and reacts to
what comes first. A session is a machine whose commands are what it is given next, or a reaction that fails at one of
its outputs, with which the session ends. `ops` are the operations of a reaction on the queue of provider audio
(`output_eq_run`).
-/

namespace AgentVoice.RealtimeVoice

open AgentVoice.Foundations

/-- The base64 library. -/
structure Base64 where
  encode : List UInt8 → String
  decode : String → Option (List UInt8)

/-- `SessionCommand::Speak`. -/
structure Speak where
  text : String
  voice : Option String
  instructions : Option String

/-- What the websocket delivers. -/
inductive Incoming where
  /-- A text or binary payload that is JSON. -/
  | json (value : Json)
  /-- A payload that is not. -/
  | invalid
  | ping (payload : List UInt8)
  /-- A close message, or the end of the stream. -/
  | closed
  /-- Any other message. -/
  | other
  /-- A read error. -/
  | failed

/-- What `select!` picks. -/
inductive Input where
  | closeNotified
  /-- The caller's audio; `none` when the channel is closed. -/
  | audio (audio : Option (List UInt8))
  /-- A command; `none` when the channel is closed. -/
  | command (command : Option Speak)
  | message (message : Incoming)
  | tick

/-- What the session does. -/
inductive Output where
  /-- Sends an event to the provider. -/
  | send (event : Json)
  | pong (payload : List UInt8)
  | close
  /-- Hands a frame to the sink. -/
  | sinkAudio (frame : List UInt8) (marker : Bool)
  | sinkFlush
  /-- Passes an event on. -/
  | event (event : RealtimeEvent)

/-- The outputs whose failure ends the session. -/
def Output.canFail : Output → Bool
  | .send _ | .pong _ | .sinkAudio _ _ => true
  | .close | .sinkFlush | .event _ => false

/-- `value.map(str::trim).filter(|text| !text.is_empty())`. -/
def trimmed (value : Option String) : Option String := (value.map trim).filter fun text => decide (text ≠ "")

/-- `RealtimeAdapter::speak_events`. -/
def RealtimeAdapter.speakEvents (speak : Speak) : RealtimeAdapter → List Json
  | .openAi =>
    let say := "Say the following text exactly, without adding anything: " ++ speak.text
    let instruction :=
      match trimmed speak.instructions with
      | some instructions => instructions ++ "\n" ++ say
      | none => say
    let voice :=
      match trimmed speak.voice with
      | some voice => [("voice", .str voice)]
      | none => []
    [.obj [("type", .str "conversation.item.create"),
      ("item", .obj [("type", .str "message"), ("role", .str "user"),
        ("content", .arr [.obj [("type", .str "input_text"), ("text", .str instruction)]])])],
      .obj [("type", .str "response.create"), ("response", .obj (("instructions", .str instruction) :: voice))]]
  | .xai =>
    [.obj [("type", .str "conversation.item.create"),
      ("item", .obj [("type", .str "force_message"), ("role", .str "assistant"), ("interruptible", .bool false),
        ("content", .arr [.obj [("type", .str "output_text"), ("text", .str speak.text)]])])]]

/-- The state of `run_session`. -/
structure Session where
  mapper : EventMapper
  output : QueuedAudio
  outputMarker : Bool
  commandOpen : Bool

namespace Session

variable (base64 : Base64)

/-- The state in which `run_session` enters its loop. -/
def new (adapter : RealtimeAdapter) : Session := ⟨EventMapper.new adapter, QueuedAudio.empty, true, true⟩

/-- What the session does about an event of the mapper. -/
def handle (event : RealtimeEvent) (s : Session) : List Output × Session :=
  match event with
  | .audioDelta audio itemId => ([], { s with output := (s.output.push itemId audio).discardOverflow.2 })
  | .speechStarted =>
    let (audioEndMs, output) := s.output.flushForBargeIn
    if s.mapper.responseActive = true then
      let truncate :=
        match output.itemId with
        | some itemId =>
          if 0 < audioEndMs then
            [.send (.obj [("type", .str "conversation.item.truncate"), ("item_id", .str itemId),
              ("content_index", .int 0), ("audio_end_ms", .int audioEndMs)])]
          else []
        | none => []
      ([.sinkFlush, .send (.obj [("type", .str "response.cancel")])] ++ truncate ++ [.event .speechStarted],
        { s with output, outputMarker := true, mapper := { s.mapper with responseActive := false } })
    else ([.sinkFlush, .event .speechStarted], { s with output, outputMarker := true })
  | event => ([.event event], s)

/-- What the session does about the events of the mapper. -/
def handleAll : List RealtimeEvent → Session → List Output × Session
  | [], s => ([], s)
  | event :: events, s =>
    let (outputs, s) := s.handle event
    let (rest, s) := s.handleAll events
    (outputs ++ rest, s)

/-- The event types after which the audio is complete. -/
def finishesAudio (value : Json) : Bool :=
  value.strAt "type" == some "response.output_audio.done" || value.strAt "type" == some "response.done"

/-- Whether a provider event begins a talkspurt. -/
def beginsTalkspurt (value : Json) (s : Session) : Bool :=
  value.strAt "type" == some "response.created" ||
    value.strAt "type" == some "response.output_audio.delta" && !s.mapper.responseActive

/-- The reaction to a provider event. -/
def onEvent (value : Json) (s : Session) : List Output × Session :=
  let outputMarker := s.outputMarker || s.beginsTalkspurt value
  let (mapped, mapper) := s.mapper.map base64.decode value
  let (outputs, s) := { s with outputMarker, mapper }.handleAll mapped
  (outputs, if finishesAudio value then { s with output := s.output.finish } else s)

/-- The reaction to an input: the outputs, and the session unless it ends. -/
def react (input : Input) (s : Session) : List Output × Option Session :=
  match input with
  | .closeNotified => ([.close], none)
  | .audio none => ([.close], none)
  | .audio (some audio) =>
    ([.send (.obj [("type", .str "input_audio_buffer.append"), ("audio", .str (base64.encode audio))])], some s)
  | .command none => ([], some { s with commandOpen := false })
  | .command (some speak) =>
    if IsBlank speak.text then ([], some s)
    else
      ((s.mapper.adapter.speakEvents speak).map .send,
        some { s with outputMarker := true, mapper := { s.mapper with responseActive := true } })
  | .message (.json value) =>
    let (outputs, s) := s.onEvent base64 value
    (outputs, some s)
  | .message .invalid | .message .closed | .message .failed => ([], none)
  | .message (.ping payload) => ([.pong payload], some s)
  | .message .other => ([], some s)
  | .tick =>
    match s.output.nextFrame with
    | (some frame, output) => ([.sinkAudio frame s.outputMarker], some { s with output, outputMarker := false })
    | (none, output) => ([], some { s with output })

/-- A step of the loop. -/
inductive Step where
  /-- It reacts to an input. -/
  | react (input : Input)
  /-- It reacts to an input, and its `n`-th output fails. -/
  | fail (input : Input) (n : ℕ)

/-- Whether an input can come: commands are not received any more once their channel is closed. -/
def accepts (s : Session) : Input → Bool
  | .command _ => s.commandOpen
  | _ => true

/-- The session after a step; none when it has ended. -/
def step : Step → Option Session → Option Session
  | _, none => none
  | .react input, some s => if s.accepts input then (s.react base64 input).2 else some s
  | .fail input n, some s =>
    if s.accepts input && ((s.react base64 input).1[n]?.map Output.canFail).getD false then none else some s

/-- The outputs of a step. -/
def outputs : Step → Option Session → List Output
  | _, none => []
  | .react input, some s => if s.accepts input then (s.react base64 input).1 else []
  | .fail input n, some s =>
    if s.accepts input && ((s.react base64 input).1[n]?.map Output.canFail).getD false then
      (s.react base64 input).1.take n
    else []

/-- The session after a run. -/
def run (adapter : RealtimeAdapter) (steps : List Step) : Option Session :=
  Machine.run (step base64) steps (some (new adapter))

/-! ### The operations on the queue -/

open QueuedAudio (Op)

/-- The operations on the queue for an event of the mapper. -/
def eventOps : RealtimeEvent → List Op
  | .audioDelta audio itemId => [.push itemId audio, .discardOverflow]
  | .speechStarted => [.flushForBargeIn]
  | _ => []

/-- The operations on the queue in a step. -/
def ops : Step → Option Session → List Op
  | .react (.message (.json value)), some s =>
    (s.mapper.map base64.decode value).1.flatMap eventOps ++ if finishesAudio value then [.finish] else []
  | .react .tick, some _ => [.nextFrame]
  | _, _ => []

theorem handle_output (event : RealtimeEvent) (s : Session) :
    (s.handle event).2.output = QueuedAudio.run (eventOps event) s.output := by
  cases event with
  | speechStarted =>
    simp only [handle]
    split <;> rfl
  | audioDelta | inputTranscript | outputTranscript | responseDone | error => rfl

theorem handleAll_output (events : List RealtimeEvent) (s : Session) :
    (s.handleAll events).2.output = QueuedAudio.run (events.flatMap eventOps) s.output := by
  induction events generalizing s with
  | nil => rfl
  | cons event events ih =>
    show ((s.handle event).2.handleAll events).2.output = _
    rw [ih, handle_output, List.flatMap_cons, QueuedAudio.run, QueuedAudio.run, QueuedAudio.run, Machine.run_append]

theorem onEvent_output (value : Json) (s : Session) :
    (s.onEvent base64 value).2.output = QueuedAudio.run (ops base64 (.react (.message (.json value))) (some s)) s.output := by
  have hmapped := handleAll_output (s.mapper.map base64.decode value).1
    { s with outputMarker := s.outputMarker || s.beginsTalkspurt value, mapper := (s.mapper.map base64.decode value).2 }
  simp only [onEvent, ops]
  cases finishesAudio value with
  | false => simpa using hmapped
  | true =>
    rw [if_pos rfl, if_pos rfl, QueuedAudio.run, Machine.run_append]
    exact congrArg QueuedAudio.finish hmapped

/-- The queue after a step that leaves the session running. -/
theorem step_output {step' : Step} {s s' : Session} (h : step base64 step' (some s) = some s') :
    s'.output = QueuedAudio.run (ops base64 step' (some s)) s.output := by
  cases step' with
  | fail input n =>
    simp only [step] at h
    split at h
    · cases h
    · cases h
      rfl
  | react input =>
    simp only [step] at h
    split at h
    · cases input with
      | closeNotified => cases h
      | audio audio =>
        cases audio with
        | none => cases h
        | some audio =>
          cases h
          rfl
      | command speak =>
        cases speak with
        | none =>
          cases h
          rfl
        | some speak =>
          simp only [react] at h
          split at h <;> cases h <;> rfl
      | message message =>
        cases message with
        | json value =>
          cases h
          exact onEvent_output base64 value s
        | invalid | closed | failed => cases h
        | ping payload =>
          cases h
          rfl
        | other =>
          cases h
          rfl
      | tick =>
        simp only [react] at h
        show s'.output = s.output.nextFrame.2
        rcases hframe : s.output.nextFrame with ⟨_ | frame, output⟩
        · rw [hframe] at h
          cases h
          rfl
        · rw [hframe] at h
          cases h
          rfl
    · -- no command is received any more
      cases input with
      | command =>
        cases h
        rfl
      | closeNotified | audio | message | tick => exact absurd rfl ‹_›

/-! ### The account of a run -/

/-- The operations on the queue in a run. -/
def runOps (adapter : RealtimeAdapter) (steps : List Step) : List Op :=
  Machine.outputs (step base64) (ops base64) steps (some (new adapter))

/-- The account of the audio of a run. -/
def account (adapter : RealtimeAdapter) (steps : List Step) : Account := Account.run (runOps base64 adapter steps)

theorem run_concat (adapter : RealtimeAdapter) (steps : List Step) (step' : Step) :
    run base64 adapter (steps ++ [step']) = step base64 step' (run base64 adapter steps) := Machine.run_concat _ _ _

theorem account_concat (adapter : RealtimeAdapter) (steps : List Step) (step' : Step) :
    account base64 adapter (steps ++ [step']) =
      Machine.run Account.step (ops base64 step' (run base64 adapter steps)) (account base64 adapter steps) := by
  rw [account, runOps, Machine.outputs_append, Account.run, Machine.run_append]
  simp only [Machine.outputs, List.append_nil]
  rfl

/-- The queue of a session that runs is the one its account is about. -/
theorem output_eq (adapter : RealtimeAdapter) (steps : List Step) {s : Session}
    (h : run base64 adapter steps = some s) : s.output = (account base64 adapter steps).audio := by
  induction steps using List.reverseRecOn generalizing s with
  | nil =>
    cases h
    rfl
  | append_singleton steps step' ih =>
    rw [run_concat] at h
    cases hbefore : run base64 adapter steps with
    | none =>
      rw [hbefore] at h
      cases step' <;> cases h
    | some s₀ =>
      rw [hbefore] at h
      rw [step_output base64 h, ih hbefore, account_concat, hbefore]
      exact (Account.audio_machine_run _ _).symm

end Session

end AgentVoice.RealtimeVoice

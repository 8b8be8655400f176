import AgentVoice.RealtimeVoice.Session
import AgentVoice.Service.TurnDetector
import Mathlib.Data.List.Chain

/-!
# The RTP stream of a realtime call

`RtpPcmuSink` of `src/service.rs` turns the frames that a session hands out into RTP packets. Its state numbers the packets and
keeps the clock of the stream: a packet inside a talkspurt comes one frame after the packet before it, the first of a
talkspurt as many frames later as time has gone by. Numbers and the clock wrap around; within their range a receiver reads from
two packets how many lie between them and how far they are apart (`follows_stretch`). A packet is marked exactly where a
talkspurt has begun since the packet before it (`marks_of_between`). `rtpStream_sound` says so of every run of a session.
-/

namespace AgentVoice.Service

open AgentVoice.Foundations AgentVoice.RealtimeVoice

/-- `RTP_FRAME_INTERVAL_MS`. -/
def rtpFrameIntervalMs : ℕ := 20

/-- `RtpHeader`, as far as it is set. -/
structure RtpHeader where
  version : UInt8
  marker : Bool
  payloadType : UInt8
  sequenceNumber : UInt16
  timestamp : UInt32
  ssrc : UInt32

/-- A packet, and the instant at which it was sent, in nanoseconds. -/
structure RtpPacket where
  sentAt : ℕ
  header : RtpHeader
  payload : List UInt8

/-- The number that bytes stand for, the first byte being the highest. -/
def fromBeBytes (bytes : List UInt8) : ℕ := bytes.foldl (fun n b => n * 256 + b.toNat) 0

/-- `RtpState`. -/
structure RtpState where
  sequenceNumber : UInt16
  initialTimestamp : UInt32
  ssrc : UInt32
  /-- When the last packet was sent, and with what timestamp. -/
  lastPacket : Option (ℕ × UInt32)

namespace RtpState

/-- `RtpState::new`, after the seed was filled. -/
def new (seed : Vector UInt8 10) : RtpState where
  sequenceNumber := UInt16.ofNat (fromBeBytes [seed[4], seed[5]])
  initialTimestamp := UInt32.ofNat (fromBeBytes [seed[6], seed[7], seed[8], seed[9]])
  ssrc :=
    let ssrc := UInt32.ofNat (fromBeBytes [seed[0], seed[1], seed[2], seed[3]])
    if ssrc = 0 then 1 else ssrc
  lastPacket := none

/-- `RtpState::next_header`. -/
def nextHeader (marker : Bool) (now : ℕ) (s : RtpState) : RtpHeader × RtpState :=
  let timestamp :=
    match s.lastPacket with
    | some (lastSentAt, lastTimestamp) =>
      let elapsedFrames :=
        if marker = true then UInt32.ofNat (max ((now - lastSentAt) / 1000000 / rtpFrameIntervalMs) 1) else 1
      lastTimestamp + UInt32.ofNat telephonyFrameSamples * elapsedFrames
    | none => s.initialTimestamp
  (⟨2, marker, 0, s.sequenceNumber, timestamp, s.ssrc⟩,
    { s with sequenceNumber := s.sequenceNumber + 1, lastPacket := some (now, timestamp) })

end RtpState

/-- A call of `RealtimeAudioSink::send_audio`, with its instant. -/
structure SinkCall where
  now : ℕ
  audio : List UInt8
  marker : Bool

/-- `RtpPcmuSink::send_audio`, call after call. -/
def rtpPackets : List SinkCall → RtpState → List RtpPacket
  | [], _ => []
  | c :: calls, s => ⟨c.now, (s.nextHeader c.marker c.now).1, c.audio⟩ :: rtpPackets calls (s.nextHeader c.marker c.now).2

/-! ### Packet after packet -/

namespace RtpPacket

/-- By how many frames the clock of the stream goes on from one packet to the next. -/
def framesTo (p q : RtpPacket) : ℕ :=
  if q.header.marker = true then max ((q.sentAt - p.sentAt) / 1000000 / rtpFrameIntervalMs) 1 else 1

theorem framesTo_pos (p q : RtpPacket) : 0 < p.framesTo q := by
  unfold framesTo
  split
  · exact lt_of_lt_of_le Nat.one_pos (le_max_right _ _)
  · exact Nat.one_pos

/-- A packet is the next one after another. -/
structure Follows (p q : RtpPacket) : Prop where
  sequenceNumber : q.header.sequenceNumber = p.header.sequenceNumber + 1
  timestamp : q.header.timestamp = p.header.timestamp + UInt32.ofNat (telephonyFrameSamples * p.framesTo q)

end RtpPacket

/-- By how many frames the clock of the stream goes on from a packet through others to the last. -/
def framesOver : RtpPacket → List RtpPacket → ℕ
  | _, [] => 0
  | p, q :: rest => p.framesTo q + framesOver q rest

theorem length_le_framesOver (p : RtpPacket) (rest : List RtpPacket) : rest.length ≤ framesOver p rest := by
  induction rest generalizing p with
  | nil => exact Nat.le_refl _
  | cons q rest ih =>
    rw [List.length_cons, framesOver, Nat.add_comm]
    exact Nat.add_le_add (p.framesTo_pos q) (ih q)

/-- A stretch of unmarked packets goes on frame by frame. -/
theorem framesOver_unmarked (p : RtpPacket) {rest : List RtpPacket} (h : ∀ q ∈ rest, q.header.marker = false) :
    framesOver p rest = rest.length := by
  induction rest generalizing p with
  | nil => rfl
  | cons q rest ih =>
    rw [framesOver, ih q fun r hr => h r (List.mem_cons_of_mem _ hr), RtpPacket.framesTo, h q List.mem_cons_self,
      if_neg Bool.false_ne_true, List.length_cons, Nat.add_comm]

/-- The packet after another has the next number, and a timestamp as many frames later. -/
theorem nextHeader_follows {s : RtpState} {p : RtpPacket} (hlast : s.lastPacket = some (p.sentAt, p.header.timestamp))
    (hnumber : s.sequenceNumber = p.header.sequenceNumber + 1) (c : SinkCall) :
    p.Follows ⟨c.now, (s.nextHeader c.marker c.now).1, c.audio⟩ := by
  refine ⟨hnumber, ?_⟩
  unfold RtpState.nextHeader RtpPacket.framesTo
  rw [hlast]
  dsimp only
  rw [UInt32.ofNat_mul]
  split <;> rfl

/-- **The packets of a sink follow one another.** -/
theorem rtpPackets_follow (calls : List SinkCall) {s : RtpState} {p : RtpPacket}
    (hlast : s.lastPacket = some (p.sentAt, p.header.timestamp)) (hnumber : s.sequenceNumber = p.header.sequenceNumber + 1) :
    (p :: rtpPackets calls s).IsChain RtpPacket.Follows := by
  induction calls generalizing s p with
  | nil => exact .singleton p
  | cons c calls ih =>
    rw [rtpPackets, List.isChain_cons_cons]
    exact ⟨nextHeader_follows hlast hnumber c, ih rfl rfl⟩

theorem rtpPackets_isChain (calls : List SinkCall) (s : RtpState) : (rtpPackets calls s).IsChain RtpPacket.Follows := by
  cases calls with
  | nil => exact .nil
  | cons c calls => exact rtpPackets_follow calls rfl rfl

/-- The packets of a stretch of a stream follow one another. -/
theorem rtpPackets_stretch {calls : List SinkCall} {s : RtpState} {stretch : List RtpPacket} (h : stretch <:+: rtpPackets calls s) :
    stretch.IsChain RtpPacket.Follows := by
  obtain ⟨before, after, hpackets⟩ := h
  have hchain := rtpPackets_isChain calls s
  rw [← hpackets] at hchain
  exact hchain.left_of_append.right_of_append

/-- What two packets of a stretch tell a receiver. -/
theorem follows_stretch {p : RtpPacket} {rest : List RtpPacket} (h : (p :: rest).IsChain RtpPacket.Follows) :
    ((p :: rest).getLast (List.cons_ne_nil _ _)).header.sequenceNumber = p.header.sequenceNumber + UInt16.ofNat rest.length ∧
      ((p :: rest).getLast (List.cons_ne_nil _ _)).header.timestamp =
        p.header.timestamp + UInt32.ofNat (telephonyFrameSamples * framesOver p rest) := by
  induction rest generalizing p with
  | nil => exact ⟨(UInt16.add_zero _).symm, (UInt32.add_zero _).symm⟩
  | cons q rest ih =>
    obtain ⟨hfollows, hrest⟩ := List.isChain_cons_cons.mp h
    obtain ⟨hnumber, htimestamp⟩ := ih hrest
    rw [List.getLast_cons (List.cons_ne_nil _ _)]
    constructor
    · rw [hnumber, hfollows.sequenceNumber, List.length_cons, Nat.add_comm, UInt16.ofNat_add, UInt16.add_assoc]
      rfl
    · rw [htimestamp, hfollows.timestamp, framesOver, Nat.mul_add, UInt32.ofNat_add, UInt32.add_assoc]

/-! ### Talkspurts -/

section Session

variable (base64 : Base64)

/-- A step of the session loop, and its instant. -/
abbrev TimedStep : Type := ℕ × Session.Step

/-- The session after a step. -/
def timedStep (t : TimedStep) (s : Option Session) : Option Session := Session.step base64 t.2 s

/-- The call of the sink that an output is. -/
def sinkCall (now : ℕ) : Output → Option SinkCall
  | .sinkAudio frame marker => some ⟨now, frame, marker⟩
  | _ => none

/-- The calls of the sink in a step. -/
def sinkCalls (t : TimedStep) (s : Option Session) : List SinkCall :=
  (Session.outputs base64 t.2 s).filterMap (sinkCall t.1)

/-- Whether the provider or a command begins a talkspurt: a response is created, its audio comes while none was active, the
caller begins to speak, or the session is told to speak. -/
def startsTalkspurt (t : TimedStep) : Option Session → Prop
  | none => False
  | some s =>
    match t.2 with
    | .react (.message (.json value)) =>
      s.beginsTalkspurt value = true ∨ .speechStarted ∈ (s.mapper.map base64.decode value).1
    | .react (.command (some speak)) => s.commandOpen = true ∧ ¬ IsBlank speak.text
    | _ => False

theorem handle_sinkCalls (event : RealtimeEvent) (s : Session) (now : ℕ) :
    (s.handle event).1.filterMap (sinkCall now) = [] ∧
      ((s.handle event).2.outputMarker = true ↔ s.outputMarker = true ∨ event = .speechStarted) := by
  -- the session is taken apart first, or the queues before and after would be compared
  obtain ⟨mapper, output, marker, commands⟩ := s
  cases event with
  | speechStarted =>
    unfold Session.handle
    dsimp only
    by_cases hactive : mapper.responseActive = true
    · rw [if_pos hactive]
      refine ⟨?_, iff_of_true rfl (.inr rfl)⟩
      cases output.flushForBargeIn.2.itemId with
      | none => rfl
      | some itemId =>
        dsimp only
        split_ifs <;> rfl
    · rw [if_neg hactive]
      exact ⟨rfl, iff_of_true rfl (.inr rfl)⟩
  | audioDelta audio itemId => exact ⟨rfl, (or_iff_left nofun).symm⟩
  | inputTranscript text finalText => exact ⟨rfl, (or_iff_left nofun).symm⟩
  | outputTranscript text finalText => exact ⟨rfl, (or_iff_left nofun).symm⟩
  | responseDone usage => exact ⟨rfl, (or_iff_left nofun).symm⟩
  | error errorType code => exact ⟨rfl, (or_iff_left nofun).symm⟩

theorem handleAll_sinkCalls (events : List RealtimeEvent) (s : Session) (now : ℕ) :
    (s.handleAll events).1.filterMap (sinkCall now) = [] ∧
      ((s.handleAll events).2.outputMarker = true ↔ s.outputMarker = true ∨ .speechStarted ∈ events) := by
  induction events generalizing s with
  | nil => exact ⟨rfl, (or_iff_left List.not_mem_nil).symm⟩
  | cons event events ih =>
    obtain ⟨hcalls, hmarker⟩ := handle_sinkCalls event s now
    obtain ⟨hrest, hmarker'⟩ := ih (s.handle event).2
    constructor
    · show ((s.handle event).1 ++ ((s.handle event).2.handleAll events).1).filterMap (sinkCall now) = []
      rw [List.filterMap_append, hcalls, hrest, List.append_nil]
    · show ((s.handle event).2.handleAll events).2.outputMarker = true ↔ _
      rw [hmarker', hmarker, List.mem_cons, or_assoc]
      exact or_congr_right (or_congr_left eq_comm)

theorem onEvent_sinkCalls (value : Json) (s : Session) (now : ℕ) :
    (s.onEvent base64 value).1.filterMap (sinkCall now) = [] ∧
      ((s.onEvent base64 value).2.outputMarker = true ↔ s.outputMarker = true ∨ s.beginsTalkspurt value = true ∨
        .speechStarted ∈ (s.mapper.map base64.decode value).1) := by
  obtain ⟨hcalls, hmarker⟩ := handleAll_sinkCalls (s.mapper.map base64.decode value).1
    { s with outputMarker := s.outputMarker || s.beginsTalkspurt value, mapper := (s.mapper.map base64.decode value).2 } now
  refine ⟨hcalls, ?_⟩
  rw [Bool.or_eq_true, or_assoc] at hmarker
  rw [← hmarker]
  unfold Session.onEvent
  dsimp only
  split_ifs <;> exact Iff.rfl

/-- Only a tick calls the sink. -/
theorem react_sinkCalls {input : Input} (h : input ≠ .tick) (s : Session) (now : ℕ) :
    (s.react base64 input).1.filterMap (sinkCall now) = [] := by
  cases input with
  | closeNotified => rfl
  | audio audio => cases audio <;> rfl
  | command speak =>
    cases speak with
    | none => rfl
    | some speak =>
      unfold Session.react
      dsimp only
      split_ifs
      · rfl
      · refine List.filterMap_eq_nil_iff.mpr fun o ho => ?_
        obtain ⟨event, -, rfl⟩ := List.mem_map.mp ho
        rfl
  | message message =>
    cases message with
    | json value => exact (onEvent_sinkCalls base64 value s now).1
    | invalid | ping | closed | other | failed => rfl
  | tick => exact absurd rfl h

/-- A call of the sink that fails sends nothing. -/
theorem fail_sinkCalls (now : ℕ) (input : Input) (n : ℕ) (s : Session) :
    sinkCalls base64 (now, .fail input n) (some s) = [] := by
  simp only [sinkCalls, Session.outputs]
  split_ifs with hfails
  swap
  · rfl
  by_cases htick : input = .tick
  · subst htick
    -- the frame would be the first output
    have hlength : (s.react base64 .tick).1.length ≤ 1 := by
      simp only [Session.react]
      split
      · exact Nat.le_refl 1
      · exact Nat.zero_le 1
    cases n with
    | zero => rfl
    | succ n =>
      rw [List.getElem?_eq_none (hlength.trans (Nat.le_add_left 1 n))] at hfails
      simp at hfails
  · refine List.filterMap_eq_nil_iff.mpr fun o ho => ?_
    exact List.filterMap_eq_nil_iff.mp (react_sinkCalls base64 htick s now) o (List.mem_of_mem_take ho)

/-- A tick hands out a frame, if there is one. -/
theorem tick_cases (now : ℕ) (s : Session) :
    (sinkCalls base64 (now, .react .tick) (some s) = [] ∧ ∀ s', timedStep base64 (now, .react .tick) (some s) = some s' →
      (s'.outputMarker = true ↔ s.outputMarker = true ∨ startsTalkspurt base64 (now, .react .tick) (some s))) ∨
    ∃ frame s', frame.length = pcmuBytesPerFrame ∧
      sinkCalls base64 (now, .react .tick) (some s) = [⟨now, frame, s.outputMarker⟩] ∧
      timedStep base64 (now, .react .tick) (some s) = some s' ∧ s'.outputMarker = false := by
  obtain ⟨mapper, output, marker, commands⟩ := s
  rcases hframe : output.nextFrame with ⟨_ | frame, output'⟩
  · have hreact : Session.react base64 .tick ⟨mapper, output, marker, commands⟩ =
        ([], some ⟨mapper, output', marker, commands⟩) := by
      simp only [Session.react, hframe]
    refine .inl ⟨?_, fun s' hs' => ?_⟩
    · show (Session.react base64 .tick ⟨mapper, output, marker, commands⟩).1.filterMap (sinkCall now) = []
      rw [hreact]
      rfl
    · have hstep : (Session.react base64 .tick ⟨mapper, output, marker, commands⟩).2 = some s' := hs'
      rw [hreact] at hstep
      obtain rfl := Option.some.inj hstep
      exact (or_iff_left id).symm
  · have hreact : Session.react base64 .tick ⟨mapper, output, marker, commands⟩ =
        ([.sinkAudio frame marker], some ⟨mapper, output', false, commands⟩) := by
      simp only [Session.react, hframe]
    refine .inr ⟨frame, ⟨mapper, output', false, commands⟩, ((QueuedAudio.sound output).frame _ _ hframe).1, ?_, ?_, rfl⟩
    · show (Session.react base64 .tick ⟨mapper, output, marker, commands⟩).1.filterMap (sinkCall now) = _
      rw [hreact]
      rfl
    · exact congrArg Prod.snd hreact

/-- **What a step does about the stream.** Either it calls the sink for no frame, and the next packet is to be marked if it was
to be or a talkspurt begins; or it is a tick that hands out a frame, after which the next packet is not to be marked. -/
theorem sink_cases (t : TimedStep) (s : Session) :
    (sinkCalls base64 t (some s) = [] ∧ ∀ s', timedStep base64 t (some s) = some s' →
      (s'.outputMarker = true ↔ s.outputMarker = true ∨ startsTalkspurt base64 t (some s))) ∨
    ∃ frame s', frame.length = pcmuBytesPerFrame ∧ sinkCalls base64 t (some s) = [⟨t.1, frame, s.outputMarker⟩] ∧
      timedStep base64 t (some s) = some s' ∧ s'.outputMarker = false := by
  obtain ⟨now, step⟩ := t
  have hunchanged {s' : Session} (hs' : some s = some s') (hstarts : ¬ startsTalkspurt base64 (now, step) (some s)) :
      s'.outputMarker = true ↔ s.outputMarker = true ∨ startsTalkspurt base64 (now, step) (some s) := by
    obtain rfl := Option.some.inj hs'
    exact (or_iff_left hstarts).symm
  cases step with
  | fail input n =>
    refine .inl ⟨fail_sinkCalls base64 now input n s, fun s' hs' => ?_⟩
    simp only [timedStep, Session.step] at hs'
    split_ifs at hs' with hfails
    exact hunchanged hs' id
  | react input =>
    by_cases htick : input = .tick
    · subst htick
      exact tick_cases base64 now s
    refine .inl ⟨?_, fun s' hs' => ?_⟩
    · simp only [sinkCalls, Session.outputs]
      split_ifs
      · exact react_sinkCalls base64 htick s now
      · rfl
    simp only [timedStep, Session.step] at hs'
    cases input with
    | tick => exact absurd rfl htick
    | closeNotified => cases hs'
    | audio audio =>
      cases audio with
      | none => cases hs'
      | some audio => exact hunchanged hs' id
    | command speak =>
      split_ifs at hs' with hopen
      swap
      · refine hunchanged hs' fun hstarts => ?_
        cases speak with
        | none => exact hstarts
        | some speak => exact hopen hstarts.1
      cases speak with
      | none =>
        obtain rfl := Option.some.inj hs'
        exact (or_iff_left id).symm
      | some speak =>
        unfold Session.react at hs'
        dsimp only at hs'
        split_ifs at hs' with hblank
        · exact hunchanged hs' fun hstarts => hstarts.2 hblank
        · obtain rfl := Option.some.inj hs'
          exact iff_of_true rfl (.inr ⟨hopen, hblank⟩)
    | message message =>
      cases message with
      | json value =>
        obtain rfl := Option.some.inj hs'
        exact (onEvent_sinkCalls base64 value s now).2
      | invalid | closed | failed => cases hs'
      | ping | other => exact hunchanged hs' id

/-! ### The stream of a call -/

variable (adapter : RealtimeAdapter)

/-- The session after a run. -/
def sessionAfter (steps : List TimedStep) : Option Session :=
  Machine.run (timedStep base64) steps (some (Session.new adapter))

/-- The calls of the sink in a run. -/
def sinkRun (steps : List TimedStep) : List SinkCall :=
  Machine.outputs (timedStep base64) (sinkCalls base64) steps (some (Session.new adapter))

/-- The packets that are sent in a run. -/
def rtpStream (seed : Vector UInt8 10) (steps : List TimedStep) : List RtpPacket :=
  rtpPackets (sinkRun base64 adapter steps) (RtpState.new seed)

theorem timedStep_none (t : TimedStep) : timedStep base64 t none = none := by
  obtain ⟨now, step⟩ := t
  cases step <;> rfl

theorem sinkCalls_none (t : TimedStep) : sinkCalls base64 t none = [] := by
  obtain ⟨now, step⟩ := t
  cases step <;> rfl

theorem run_none (steps : List TimedStep) : Machine.run (timedStep base64) steps none = none := by
  induction steps with
  | nil => rfl
  | cons t steps ih => rw [Machine.run, timedStep_none, ih]

/-- **The marker over steps that send nothing**: it is kept, or set by the first that begins a talkspurt. -/
theorem outputMarker_of_outputs_nil {between : List TimedStep} {s s' : Session}
    (hcalls : Machine.outputs (timedStep base64) (sinkCalls base64) between (some s) = [])
    (hrun : Machine.run (timedStep base64) between (some s) = some s') :
    s'.outputMarker = true ↔ s.outputMarker = true ∨ ∃ before t after, between = before ++ t :: after ∧
      startsTalkspurt base64 t (Machine.run (timedStep base64) before (some s)) := by
  induction between generalizing s with
  | nil =>
    obtain rfl := Option.some.inj hrun
    refine (or_iff_left ?_).symm
    rintro ⟨before, t, after, hnil, -⟩
    exact List.cons_ne_nil _ _ (List.append_eq_nil_iff.mp hnil.symm).2
  | cons t between ih =>
    obtain ⟨hfirst, hrest⟩ := List.append_eq_nil_iff.mp hcalls
    cases hstep : timedStep base64 t (some s) with
    | none =>
      rw [Machine.run, hstep, run_none] at hrun
      cases hrun
    | some s₁ =>
      rw [hstep] at hrest
      rw [Machine.run, hstep] at hrun
      rcases sink_cases base64 t s with ⟨-, hkeeps⟩ | ⟨_, _, -, hsends, -⟩
      swap
      · rw [hsends] at hfirst
        cases hfirst
      rw [ih hrest hrun, hkeeps s₁ hstep, or_assoc]
      refine or_congr_right ⟨?_, ?_⟩
      · rintro (hstarts | ⟨before, u, after, rfl, hstarts⟩)
        · exact ⟨[], t, between, rfl, hstarts⟩
        · refine ⟨t :: before, u, after, rfl, ?_⟩
          rwa [Machine.run, hstep]
      · rintro ⟨before, u, after, heq, hstarts⟩
        cases before with
        | nil =>
          obtain ⟨rfl, -⟩ := List.cons.inj heq
          exact .inl hstarts
        | cons _ before =>
          obtain ⟨rfl, rfl⟩ := List.cons.inj heq
          rw [Machine.run, hstep] at hstarts
          exact .inr ⟨before, u, after, rfl, hstarts⟩

/-- What a step sends is marked as the session says. -/
theorem marker_of_mem_sinkCalls {t : TimedStep} {s : Option Session} {c : SinkCall} (h : c ∈ sinkCalls base64 t s) :
    c.audio.length = pcmuBytesPerFrame ∧ ∃ s₀, s = some s₀ ∧ c.marker = s₀.outputMarker := by
  cases s with
  | none =>
    rw [sinkCalls_none] at h
    exact absurd h List.not_mem_nil
  | some s₀ =>
    rcases sink_cases base64 t s₀ with ⟨hnone, -⟩ | ⟨frame, _, hlength, hsends, -⟩
    · rw [hnone] at h
      exact absurd h List.not_mem_nil
    · rw [hsends] at h
      obtain rfl := List.mem_singleton.mp h
      exact ⟨hlength, s₀, rfl, rfl⟩

/-- A packet between which and the one before a talkspurt begins is marked, and no other. -/
theorem marks_of_between {before between : List TimedStep} {t u : TimedStep} {c : SinkCall}
    (hsends : sinkCalls base64 t (sessionAfter base64 adapter before) ≠ [])
    (hbetween : Machine.outputs (timedStep base64) (sinkCalls base64) between (sessionAfter base64 adapter (before ++ [t])) = [])
    (hc : c ∈ sinkCalls base64 u (sessionAfter base64 adapter (before ++ t :: between))) :
    c.marker = true ↔ ∃ b v a, between = b ++ v :: a ∧
      startsTalkspurt base64 v (sessionAfter base64 adapter (before ++ t :: b)) := by
  have happend (b : List TimedStep) : sessionAfter base64 adapter (before ++ t :: b) =
      Machine.run (timedStep base64) b (sessionAfter base64 adapter (before ++ [t])) := by
    rw [sessionAfter, sessionAfter, ← Machine.run_append, List.append_assoc, List.singleton_append]
  have hconcat : sessionAfter base64 adapter (before ++ [t]) = timedStep base64 t (sessionAfter base64 adapter before) :=
    Machine.run_concat _ _ _
  obtain ⟨-, s', hs', hmarker⟩ := marker_of_mem_sinkCalls base64 hc
  cases hs : sessionAfter base64 adapter before with
  | none =>
    rw [hs, sinkCalls_none] at hsends
    exact absurd rfl hsends
  | some s =>
    rw [hs] at hsends hconcat
    rcases sink_cases base64 t s with ⟨hnone, -⟩ | ⟨_, s₁, -, -, hstep, hunmarked⟩
    · exact absurd hnone hsends
    rw [hstep] at hconcat
    rw [happend, hconcat] at hs'
    rw [hconcat] at hbetween
    rw [hmarker, outputMarker_of_outputs_nil base64 hbetween hs', hunmarked, or_iff_right Bool.false_ne_true]
    refine exists_congr fun b => exists_congr fun v => exists_congr fun a => ?_
    rw [happend, hconcat]

/-- The first packet is marked. -/
theorem marks_first {before : List TimedStep} {t : TimedStep} {c : SinkCall} (hbefore : sinkRun base64 adapter before = [])
    (hc : c ∈ sinkCalls base64 t (sessionAfter base64 adapter before)) : c.marker = true := by
  obtain ⟨-, s, hs, hmarker⟩ := marker_of_mem_sinkCalls base64 hc
  rw [hmarker]
  exact (outputMarker_of_outputs_nil base64 hbefore hs).mpr (.inl rfl)

end Session

/-! ### What a receiver gets -/

theorem ssrc_ne_zero (seed : Vector UInt8 10) : (RtpState.new seed).ssrc ≠ 0 := by
  unfold RtpState.new
  dsimp only
  split_ifs with hzero
  · decide
  · exact hzero

/-- The packets are the calls of the sink, under one source. -/
theorem mem_rtpPackets {calls : List SinkCall} {s : RtpState} {p : RtpPacket} (h : p ∈ rtpPackets calls s) :
    p.header.version = 2 ∧ p.header.payloadType = 0 ∧ p.header.ssrc = s.ssrc ∧
      ⟨p.sentAt, p.payload, p.header.marker⟩ ∈ calls := by
  induction calls generalizing s with
  | nil => exact absurd h List.not_mem_nil
  | cons c calls ih =>
    rcases List.mem_cons.mp h with rfl | h
    · exact ⟨rfl, rfl, rfl, List.mem_cons_self⟩
    · obtain ⟨hversion, htype, hssrc, hmem⟩ := ih h
      exact ⟨hversion, htype, hssrc, List.mem_cons_of_mem _ hmem⟩

theorem rtpPackets_calls (calls : List SinkCall) (s : RtpState) :
    (rtpPackets calls s).map (fun p => SinkCall.mk p.sentAt p.payload p.header.marker) = calls := by
  induction calls generalizing s with
  | nil => rfl
  | cons c calls ih =>
    rw [rtpPackets, List.map_cons, ih]
    rfl

/-- What the stream of a call is like. -/
structure RtpStreamSound (base64 : Base64) (adapter : RealtimeAdapter) (seed : Vector UInt8 10) (steps : List TimedStep) : Prop where
  /-- Every packet is one frame of PCMU audio of the one source. -/
  packet : ∀ p ∈ rtpStream base64 adapter seed steps, p.header.version = 2 ∧ p.header.payloadType = 0 ∧
    p.header.ssrc = (RtpState.new seed).ssrc ∧ p.header.ssrc ≠ 0 ∧ p.payload.length = pcmuBytesPerFrame
  /-- The packets are what the session hands to its sink, in order. -/
  calls : (rtpStream base64 adapter seed steps).map (fun p => SinkCall.mk p.sentAt p.payload p.header.marker) =
    sinkRun base64 adapter steps
  /-- Fewer than `2 ^ 16` packets apart, the numbers tell how many packets lie between two. -/
  numbers : ∀ p rest, p :: rest <:+: rtpStream base64 adapter seed steps → rest.length < 2 ^ 16 →
    (((p :: rest).getLast (List.cons_ne_nil _ _)).header.sequenceNumber - p.header.sequenceNumber).toNat = rest.length
  /-- Fewer than `2 ^ 32` samples apart, the timestamps tell how far apart two packets are. -/
  timestamps : ∀ p rest, p :: rest <:+: rtpStream base64 adapter seed steps →
    telephonyFrameSamples * framesOver p rest < 2 ^ 32 →
    (((p :: rest).getLast (List.cons_ne_nil _ _)).header.timestamp - p.header.timestamp).toNat =
      telephonyFrameSamples * framesOver p rest
  /-- The clock goes on with every packet, and by one frame with each that is not marked. -/
  pace : ∀ p rest, p :: rest <:+: rtpStream base64 adapter seed steps → rest.length ≤ framesOver p rest ∧
    ((∀ q ∈ rest, q.header.marker = false) → framesOver p rest = rest.length)
  /-- The first packet of a stream is marked. -/
  first : ∀ before t after, steps = before ++ t :: after → sinkRun base64 adapter before = [] →
    ∀ c ∈ sinkCalls base64 t (sessionAfter base64 adapter before), c.marker = true
  /-- Of two packets with none between them the later is marked exactly where a talkspurt began between them. -/
  marked : ∀ before t between u after, steps = before ++ t :: between ++ u :: after →
    sinkCalls base64 t (sessionAfter base64 adapter before) ≠ [] →
    Machine.outputs (timedStep base64) (sinkCalls base64) between (sessionAfter base64 adapter (before ++ [t])) = [] →
    ∀ c ∈ sinkCalls base64 u (sessionAfter base64 adapter (before ++ t :: between)),
      c.marker = true ↔ ∃ b v a, between = b ++ v :: a ∧
        startsTalkspurt base64 v (sessionAfter base64 adapter (before ++ t :: b))

/-- **The stream of every realtime call** is a stream of consecutive packets whose clock goes on frame by frame within a
talkspurt, and with the time that has passed at the beginning of one. -/
theorem rtpStream_sound (base64 : Base64) (adapter : RealtimeAdapter) (seed : Vector UInt8 10) (steps : List TimedStep) :
    RtpStreamSound base64 adapter seed steps where
  packet p hp := by
    obtain ⟨hversion, htype, hssrc, hmem⟩ := mem_rtpPackets hp
    obtain ⟨_, t, _, -, hc⟩ := Machine.mem_outputs_iff.mp hmem
    refine ⟨hversion, htype, hssrc, ?_, (marker_of_mem_sinkCalls base64 hc).1⟩
    rw [hssrc]
    exact ssrc_ne_zero seed
  calls := rtpPackets_calls _ _
  numbers p rest hstretch hlength := by
    obtain ⟨hnumber, -⟩ := follows_stretch (rtpPackets_stretch hstretch)
    rw [hnumber, UInt16.add_comm, UInt16.add_sub_cancel, UInt16.toNat_ofNat', Nat.mod_eq_of_lt hlength]
  timestamps p rest hstretch hframes := by
    obtain ⟨-, htimestamp⟩ := follows_stretch (rtpPackets_stretch hstretch)
    rw [htimestamp, UInt32.add_comm, UInt32.add_sub_cancel, UInt32.toNat_ofNat', Nat.mod_eq_of_lt hframes]
  pace p rest _ := ⟨length_le_framesOver p rest, framesOver_unmarked p⟩
  first _ _ _ _ hbefore _ hc := marks_first base64 adapter hbefore hc
  marked _ _ _ _ _ _ hsends hbetween _ hc := marks_of_between base64 adapter hsends hbetween hc

end AgentVoice.Service

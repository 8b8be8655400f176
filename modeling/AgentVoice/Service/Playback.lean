import AgentVoice.Foundations.Machine
import AgentVoice.RealtimeVoice.QueuedAudio
import Mathlib.Logic.Function.Basic

/-!
# Playback of assistant audio

The speaker channel of a call plays what is sent to it at 8000 samples a second, in the order in which it is sent.
Replies, idle prompts and speak requests send to it at any time; each sets a deadline until which the turn detector
gets no input, and a farewell schedules the BYE. Both are computed from the producer's own audio, from the time when
all of it is sent. They cover the audio that is played as long as each producer finds the channel's other audio
played or covered and sends all of its audio at one time (`protected_of_inTime`); a second segment that is
synthesised while the first one is played, or a second producer, uncovers it (`twoSegments_uncovered`).
-/

namespace AgentVoice.Service

open AgentVoice.Foundations RealtimeVoice

/-- `TELEPHONY_RATE`. -/
def telephonyRate : ℕ := 8000

/-- The samples played in a millisecond. -/
def samplesPerMs : ℕ := telephonyRate / 1000

/-- `pcm_playback_ms`. -/
def pcmPlaybackMs (sampleCount : ℕ) : ℕ := (sampleCount * 1000 + telephonyRate - 1) / telephonyRate

theorem le_pcmPlaybackMs (n : ℕ) : n ≤ samplesPerMs * pcmPlaybackMs n := by
  simp only [samplesPerMs, pcmPlaybackMs, telephonyRate]
  omega

/-- A running `queue_tts_text`. -/
structure QueuedTts where
  /-- How many segments come after the next one. -/
  segmentsAfterNext : ℕ
  totalPlaybackMs : ℕ

/-- A BYE that waits for its time. -/
structure ScheduledBye where
  due : ℕ
  /-- How many samples had been sent when it was scheduled. -/
  sent : ℕ
deriving DecidableEq

/-- `ManagedCall`, as far as playback goes, and its speaker channel. -/
structure ManagedCall where
  /-- In milliseconds. -/
  now : ℕ
  /-- How many samples were sent to the channel, and how many of them are played. -/
  sent : ℕ
  played : ℕ
  inputSuppressedUntil : Option ℕ
  /-- The running `queue_tts_text` calls. -/
  queuing : ℕ → Option QueuedTts
  endRequested : Bool
  endSent : Bool
  bye : Option ScheduledBye

/-- What happens next. -/
inductive Step where
  /-- A millisecond passes. -/
  | tick
  /-- `queue_tts_text` begins, with one segment more than `segments`. -/
  | beginTts (id segments : ℕ)
  /-- The next segment is synthesised and sent. -/
  | segment (id samples : ℕ)
  /-- The synthesis fails, or the caller gives up. -/
  | failTts (id : ℕ)
  /-- The voice model replies. -/
  | voiceReply (samples : ℕ)
  | scheduleEndCall (playbackMs bufferMs : ℕ)
  /-- The wait of `schedule_end_call` is over. -/
  | sendBye
  /-- `end_call`. -/
  | endCall

namespace ManagedCall

/-- A call whose media is ready. -/
def new : ManagedCall := ⟨0, 0, 0, none, fun _ => none, false, false, none⟩

/-- `suppress_input_for`. -/
def suppressInputFor (durationMs : ℕ) (s : ManagedCall) : ManagedCall :=
  let newUntil := s.now + durationMs
  if s.inputSuppressedUntil.all (· < newUntil) then { s with inputSuppressedUntil := some newUntil } else s

/-- `input_is_suppressed`. -/
def inputIsSuppressed (s : ManagedCall) : Bool := s.inputSuppressedUntil.any (s.now < ·)

/-- `speaker_tx.send`. -/
def send (samples : ℕ) (s : ManagedCall) : ManagedCall := { s with sent := s.sent + samples }

/-- The state after a step; a step that cannot happen changes nothing. -/
def step (postTtsInputSuppressionMs : ℕ) : Step → ManagedCall → ManagedCall
  | .tick, s => { s with now := s.now + 1, played := min (s.played + samplesPerMs) s.sent }
  | .beginTts id segments, s =>
    match s.queuing id with
    | some _ => s
    | none => { s with queuing := Function.update s.queuing id (some ⟨segments, 0⟩) }
  | .segment id samples, s =>
    match s.queuing id with
    | none => s
    | some ⟨segments, totalPlaybackMs⟩ =>
      let totalPlaybackMs := saturatingAdd totalPlaybackMs (pcmPlaybackMs samples)
      match segments with
      | segments + 1 =>
        { s.send samples with queuing := Function.update s.queuing id (some ⟨segments, totalPlaybackMs⟩) }
      | 0 =>
        let s := { s.send samples with queuing := Function.update s.queuing id none }
        if totalPlaybackMs > 0 then
          s.suppressInputFor (saturatingAdd totalPlaybackMs postTtsInputSuppressionMs)
        else s
  | .failTts id, s => { s with queuing := Function.update s.queuing id none }
  | .voiceReply samples, s =>
    (s.suppressInputFor (saturatingAdd (pcmPlaybackMs samples) postTtsInputSuppressionMs)).send samples
  | .scheduleEndCall playbackMs bufferMs, s =>
    if s.endRequested then s
    else { s with endRequested := true, bye := some ⟨s.now + saturatingAdd playbackMs bufferMs, s.sent⟩ }
  | .sendBye, s =>
    match s.bye with
    | some bye => if bye.due ≤ s.now then { s with bye := none, endSent := true } else s
    | none => s
  | .endCall, s => { s with endRequested := true, endSent := true }

/-- The call after a run. -/
def run (postTtsInputSuppressionMs : ℕ) (steps : List Step) : ManagedCall :=
  Machine.run (step postTtsInputSuppressionMs) steps new

/-! ### Protected playback -/

/-- While audio is played the input is suppressed, and a BYE is sent after the audio that it waits for. -/
def ProtectedAt : Step → ManagedCall → Prop
  | .tick, s => s.played < s.sent → s.inputIsSuppressed = true
  | .sendBye, s => ∀ bye, s.bye = some bye → bye.due ≤ s.now → bye.sent ≤ s.played
  | _, _ => True

/-- Playback is protected in every state of a run. -/
def Protected (postTtsInputSuppressionMs : ℕ) (steps : List Step) : Prop :=
  Machine.Along (step postTtsInputSuppressionMs) ProtectedAt steps new

/-- The channel's audio, with some more samples, is played within a time. -/
def EndsWithin (s : ManagedCall) (samples ms : ℕ) : Prop := s.sent + samples ≤ s.played + samplesPerMs * ms

/-- The channel's audio, with some more samples, is played before the deadline. -/
def Covers (s : ManagedCall) (samples : ℕ) : Prop := s.EndsWithin samples (s.inputSuppressedUntil.getD 0 - s.now)

/-- A `queue_tts_text` other than `id` has sent audio, and has not set the deadline for it. -/
def OtherQueuing (s : ManagedCall) (id : ℕ) : Prop :=
  ∃ id' call, id' ≠ id ∧ s.queuing id' = some call ∧ 0 < call.totalPlaybackMs

/-- A `queue_tts_text` has sent audio, and has not set the deadline for it. -/
def Queuing (s : ManagedCall) : Prop := ∃ id call, s.queuing id = some call ∧ 0 < call.totalPlaybackMs

/-- What keeps playback protected. -/
def InTime (postTtsInputSuppressionMs : ℕ) : Step → ManagedCall → Prop
  | .tick, s => s.Queuing → s.Covers 0
  | .segment id samples, s => ∀ call, s.queuing id = some call → call.segmentsAfterNext = 0 →
    s.EndsWithin samples (saturatingAdd (saturatingAdd call.totalPlaybackMs (pcmPlaybackMs samples))
      postTtsInputSuppressionMs) ∨ s.Covers samples ∨ s.OtherQueuing id
  | .failTts id, s => ∀ call, s.queuing id = some call → 0 < call.totalPlaybackMs → s.Covers 0 ∨ s.OtherQueuing id
  | .voiceReply samples, s =>
    s.EndsWithin samples (saturatingAdd (pcmPlaybackMs samples) postTtsInputSuppressionMs) ∨ s.Covers samples ∨ s.Queuing
  | .scheduleEndCall playbackMs bufferMs, s =>
    s.endRequested = false → s.EndsWithin 0 (saturatingAdd playbackMs bufferMs)
  | _, _ => True

/-- A BYE waits for the audio sent before it was scheduled. -/
structure Accounted (s : ManagedCall) : Prop where
  played_le : s.played ≤ s.sent
  bye : ∀ bye, s.bye = some bye → bye.sent ≤ s.sent ∧ bye.sent ≤ s.played + samplesPerMs * (bye.due - s.now)

/-- Besides, audio that is not covered was sent by a `queue_tts_text` that still runs. -/
structure Timely (s : ManagedCall) : Prop extends Accounted s where
  covered : s.Covers 0 ∨ s.Queuing

theorem timely_new : new.Timely where
  covered := Or.inl (Nat.zero_le _)
  played_le := Nat.le_refl 0
  bye bye h := by cases h

theorem eq_zero_of_saturatingAdd {total n : ℕ} (h : saturatingAdd total (pcmPlaybackMs n) = 0) : total = 0 ∧ n = 0 := by
  have hle := le_pcmPlaybackMs n
  simp only [saturatingAdd, u64Max] at h
  simp only [samplesPerMs, telephonyRate] at hle
  omega

section Deadline

variable {s : ManagedCall} {d n : ℕ}

theorem until_suppressInputFor : (s.suppressInputFor d).inputSuppressedUntil =
    some (max (s.inputSuppressedUntil.getD 0) (s.now + d)) := by
  unfold suppressInputFor
  cases h : s.inputSuppressedUntil with
  | none => simp
  | some deadline =>
    by_cases hlt : deadline < s.now + d
    · simp [hlt, Nat.max_eq_right hlt.le]
    · simp [h, hlt, Nat.max_eq_left (Nat.le_of_not_lt hlt)]

/-- Only the deadline changes. -/
theorem suppressInputFor_eq : s.suppressInputFor d =
    { s with inputSuppressedUntil := (s.suppressInputFor d).inputSuppressedUntil } := by
  unfold suppressInputFor
  dsimp only
  split
  · rfl
  · rfl

theorem send_suppressInputFor : (s.suppressInputFor d).send n = (s.send n).suppressInputFor d := by
  unfold suppressInputFor send
  dsimp only
  split
  · rfl
  · rfl

theorem covers_suppressInputFor (h : s.EndsWithin n d ∨ s.Covers n) : (s.suppressInputFor d).Covers n := by
  rw [Covers, until_suppressInputFor, Option.getD_some, suppressInputFor_eq]
  simp only [Covers, EndsWithin, samplesPerMs, telephonyRate] at h ⊢
  omega

theorem Accounted.send (h : s.Accounted) : (s.send n).Accounted where
  played_le := h.played_le.trans (Nat.le_add_right _ _)
  bye bye heq := ⟨(h.bye bye heq).1.trans (Nat.le_add_right _ _), (h.bye bye heq).2⟩

theorem Accounted.timely_suppressInputFor (h : s.Accounted) (hcovers : s.EndsWithin 0 d ∨ s.Covers 0 ∨ s.Queuing) :
    (s.suppressInputFor d).Timely := by
  have hcovered : (s.suppressInputFor d).Covers 0 ∨ s.Queuing := by
    rcases hcovers with hends | hcovers | hqueuing
    · exact Or.inl (covers_suppressInputFor (Or.inl hends))
    · exact Or.inl (covers_suppressInputFor (Or.inr hcovers))
    · exact Or.inr hqueuing
  rw [suppressInputFor_eq] at hcovered ⊢
  exact ⟨⟨h.played_le, h.bye⟩, hcovered⟩

/-- A call goes on queuing when another one changes. -/
theorem OtherQueuing.update {id : ℕ} (h : s.OtherQueuing id) (call : Option QueuedTts) :
    ∃ id' call', Function.update s.queuing id call id' = some call' ∧ 0 < call'.totalPlaybackMs := by
  obtain ⟨id', call', hne, hcall, hpos⟩ := h
  exact ⟨id', call', by rw [Function.update_of_ne hne]; exact hcall, hpos⟩

theorem Queuing.other {id : ℕ} (h : s.Queuing)
    (hid : ∀ call, s.queuing id = some call → call.totalPlaybackMs = 0) : s.OtherQueuing id := by
  obtain ⟨id', call, hcall, hpos⟩ := h
  refine ⟨id', call, ?_, hcall, hpos⟩
  rintro rfl
  exact absurd (hid call hcall) hpos.ne'

end Deadline

variable {postTtsInputSuppressionMs : ℕ}

/-- **One step that is in time keeps the call timely.** -/
theorem Timely.step {s : ManagedCall} (h : s.Timely) {a : Step} (hin : InTime postTtsInputSuppressionMs a s) :
    (step postTtsInputSuppressionMs a s).Timely := by
  have haccounted := h.toAccounted
  cases a with
  | tick =>
    have hcovers : s.Covers 0 := h.covered.elim id hin
    refine ⟨⟨Nat.min_le_right _ _, fun bye heq => ?_⟩, Or.inl ?_⟩
    · obtain ⟨hsent, hdue⟩ := h.bye bye heq
      refine ⟨hsent, ?_⟩
      simp only [ManagedCall.step, samplesPerMs, telephonyRate] at hdue ⊢
      omega
    · simp only [Covers, EndsWithin, ManagedCall.step, samplesPerMs, telephonyRate] at hcovers ⊢
      omega
  | beginTts id segments =>
    cases hcall : s.queuing id with
    | some call =>
      simp only [ManagedCall.step, hcall]
      exact h
    | none =>
      simp only [ManagedCall.step, hcall]
      refine ⟨⟨h.played_le, h.bye⟩, h.covered.imp_right fun hqueuing => ?_⟩
      exact (hqueuing.other (by simp [hcall])).update _
  | segment id samples =>
    cases hcall : s.queuing id with
    | none =>
      simp only [ManagedCall.step, hcall]
      exact h
    | some call =>
      obtain ⟨segments, totalPlaybackMs⟩ := call
      have hsent := haccounted.send (n := samples)
      -- a call that has sent nothing leaves the audio as it was
      have hsilent : saturatingAdd totalPlaybackMs (pcmPlaybackMs samples) = 0 →
          s.Covers samples ∨ s.OtherQueuing id := by
        intro hzero
        obtain ⟨rfl, rfl⟩ := eq_zero_of_saturatingAdd hzero
        exact h.covered.imp_right fun hqueuing => hqueuing.other (by simp [hcall])
      cases segments with
      | succ segments =>
        simp only [ManagedCall.step, hcall]
        refine ⟨⟨hsent.played_le, hsent.bye⟩, ?_⟩
        rcases Nat.eq_zero_or_pos (saturatingAdd totalPlaybackMs (pcmPlaybackMs samples)) with hzero | hpos
        · exact (hsilent hzero).imp_right fun hother => hother.update _
        · exact Or.inr ⟨id, _, Function.update_self .., hpos⟩
      | zero =>
        simp only [ManagedCall.step, hcall]
        split
        · refine Accounted.timely_suppressInputFor ⟨hsent.played_le, hsent.bye⟩ ?_
          exact (hin _ hcall rfl).imp_right fun hcovered => hcovered.imp_right fun hother => hother.update none
        · rename_i hzero
          refine ⟨⟨hsent.played_le, hsent.bye⟩, ?_⟩
          exact (hsilent (Nat.eq_zero_of_not_pos hzero)).imp_right fun hother => hother.update _
  | failTts id =>
    refine ⟨⟨h.played_le, h.bye⟩, ?_⟩
    by_cases hsilent : ∀ call, s.queuing id = some call → call.totalPlaybackMs = 0
    · exact h.covered.imp_right fun hqueuing => (hqueuing.other hsilent).update _
    · obtain ⟨call, hcall, hpos⟩ := by simpa using hsilent
      exact (hin call hcall (Nat.pos_of_ne_zero hpos)).imp_right fun hother => hother.update _
  | voiceReply samples =>
    simp only [ManagedCall.step, send_suppressInputFor]
    exact haccounted.send.timely_suppressInputFor hin
  | scheduleEndCall playbackMs bufferMs =>
    cases hrequested : s.endRequested with
    | true =>
      simp only [ManagedCall.step, hrequested, if_true]
      exact h
    | false =>
      simp only [ManagedCall.step, hrequested, Bool.false_eq_true, if_false]
      refine ⟨⟨h.played_le, fun bye heq => ?_⟩, h.covered⟩
      cases heq
      refine ⟨le_rfl, ?_⟩
      have hends : s.sent ≤ s.played + samplesPerMs * saturatingAdd playbackMs bufferMs := hin hrequested
      simpa only [Nat.add_sub_cancel_left] using hends
  | sendBye =>
    cases hbye : s.bye with
    | none =>
      simp only [ManagedCall.step, hbye]
      exact h
    | some bye =>
      simp only [ManagedCall.step, hbye]
      split
      · exact ⟨⟨h.played_le, fun _ heq => by cases heq⟩, h.covered⟩
      · exact h
  | endCall => exact ⟨⟨h.played_le, h.bye⟩, h.covered⟩

/-- A step that is in time is protected in a timely call. -/
theorem Timely.protectedAt {s : ManagedCall} (h : s.Timely) {a : Step} (hin : InTime postTtsInputSuppressionMs a s) :
    ProtectedAt a s := by
  cases a with
  | tick =>
    intro hlt
    have hcovers : s.Covers 0 := h.covered.elim id hin
    cases huntil : s.inputSuppressedUntil with
    | none =>
      simp only [Covers, EndsWithin, huntil, Option.getD_none, Nat.zero_sub] at hcovers
      omega
    | some deadline =>
      simp only [Covers, EndsWithin, huntil, Option.getD_some, samplesPerMs, telephonyRate] at hcovers
      simp only [inputIsSuppressed, huntil, Option.any_some, decide_eq_true_eq]
      omega
  | sendBye =>
    intro bye hbye hdue
    have hplayed := (h.bye bye hbye).2
    rw [Nat.sub_eq_zero_of_le hdue] at hplayed
    exact hplayed
  | beginTts | segment | failTts | voiceReply | scheduleEndCall | endCall => trivial

/-- **Playback is protected** in every run of steps that are in time. -/
theorem protected_of_inTime {steps : List Step}
    (h : Machine.Along (ManagedCall.step postTtsInputSuppressionMs) (InTime postTtsInputSuppressionMs) steps new) :
    Protected postTtsInputSuppressionMs steps :=
  Machine.Along.of_invariant (fun _ _ hs hin => hs.step hin) (fun _ _ hs hin => hs.protectedAt hin) timely_new h

/-- A speak request, a farewell after it, and its BYE. -/
def spokenFarewell : List Step :=
  [.beginTts 0 0, .segment 0 16, .tick, .tick, .voiceReply 8, .scheduleEndCall 1 2, .tick, .tick, .tick, .sendBye]

theorem protected_farewell : Protected 250 spokenFarewell ∧ (run 250 spokenFarewell).endSent = true := by
  refine ⟨protected_of_inTime ⟨trivial, ?_, fun _ => ?_, fun _ => ?_, Or.inl ?_, fun _ => ?_, fun _ => ?_, fun _ => ?_,
    fun _ => ?_, trivial, trivial⟩, by decide +kernel⟩
  · intro call hcall _
    cases hcall
    exact Or.inl (show (16 : ℕ) ≤ _ by decide +kernel)
  · exact show (16 : ℕ) ≤ _ by decide +kernel
  · exact show (16 : ℕ) ≤ _ by decide +kernel
  · exact show (24 : ℕ) ≤ _ by decide +kernel
  · exact show (24 : ℕ) ≤ _ by decide +kernel
  · exact show (24 : ℕ) ≤ _ by decide +kernel
  · exact show (24 : ℕ) ≤ _ by decide +kernel
  · exact show (24 : ℕ) ≤ _ by decide +kernel

/-- While nothing is sent the channel plays on. -/
theorem run_ticks {s : ManagedCall} (hplayed : s.played ≤ s.sent) (ms : ℕ) :
    Machine.run (ManagedCall.step postTtsInputSuppressionMs) (List.replicate ms .tick) s =
      { s with now := s.now + ms, played := min (s.played + samplesPerMs * ms) s.sent } := by
  induction ms generalizing s with
  | zero => simp [Machine.run, Nat.min_eq_left hplayed]
  | succ ms ih =>
    rw [List.replicate_succ, Machine.run, ih (Nat.min_le_right _ _)]
    simp only [ManagedCall.step, samplesPerMs, telephonyRate, ManagedCall.mk.injEq, and_true, true_and]
    omega

/-- The first of two segments is played while the second one is synthesised. -/
def twoSegments : List Step := [.beginTts 0 1, .segment 0 16000]

/-- A farewell and its BYE, while five seconds of a speak request are played. -/
def farewellBehindSpeech : List Step :=
  [.beginTts 0 0, .segment 0 40000, .voiceReply 8000, .scheduleEndCall 1000 750]

theorem twoSegments_uncovered : ¬ Protected 250 (twoSegments ++ [.tick]) ∧
    ¬ Protected 250 (farewellBehindSpeech ++ (List.replicate 1750 .tick ++ [.sendBye])) := by
  constructor
  · intro h
    obtain ⟨htick, -⟩ := Machine.Along.append_right h
    exact absurd (htick (by decide +kernel)) (by decide +kernel)
  · intro h
    obtain ⟨hbye, -⟩ := Machine.Along.append_right (Machine.Along.append_right h)
    rw [run_ticks (by decide +kernel)] at hbye
    exact absurd (hbye ⟨1750, 48000⟩ (by decide +kernel) (by decide +kernel)) (by decide +kernel)

end ManagedCall

end AgentVoice.Service

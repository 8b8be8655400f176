import AgentVoice.Foundations.Stretches
import AgentVoice.Service.Playback

/-!
# Turn detection

`TurnDetector` of `src/service.rs`, which the detection loop of a call pushes the frames of the caller to and resets
while the input is suppressed. The speech frames are the loud items of a stream; the frames that the detector has
in hand are those of an open stretch (`after`), and the utterances are the blocks of the stretches that are long
enough and not cut (`utterances_eq_blocks`).
-/

namespace AgentVoice.Service

open AgentVoice.Foundations

/-- A frame of PCM samples. -/
abbrev Frame := List Int16

/-- `BehaviorConfig`, as far as turn detection goes. -/
structure BehaviorConfig where
  turnSilenceMs : ℕ
  minUtteranceMs : ℕ
  vadThreshold : UInt16

/-- `TELEPHONY_FRAME_SAMPLES`. -/
def telephonyFrameSamples : ℕ := 160

/-- `TurnDetector`. -/
structure TurnDetector where
  buffer : List Int16
  preRoll : List Frame
  speaking : Bool
  silentFrames : ℕ
  speechFrames : ℕ
  silenceFramesNeeded : ℕ
  minFrames : ℕ
  preRollFrames : ℕ
  vadThreshold : Int32
  needed_pos : 0 < silenceFramesNeeded
  preRoll_pos : 0 < preRollFrames

/-- `u64::div_ceil`. -/
def divCeil (a b : ℕ) : ℕ := if 0 < a % b then a / b + 1 else a / b

theorem divCeil_pos {a b : ℕ} (hb : 0 < b) (h : b ≤ a) : 0 < divCeil a b := by
  have hdiv : 0 < a / b := Nat.div_pos h hb
  rw [divCeil]
  split_ifs <;> omega

namespace TurnDetector

/-- The milliseconds of a frame. -/
def frameMs : ℕ := telephonyFrameSamples * 1000 / telephonyRate

/-- `TurnDetector::new`. -/
def new (behavior : BehaviorConfig) : TurnDetector where
  buffer := []
  preRoll := []
  speaking := false
  silentFrames := 0
  speechFrames := 0
  silenceFramesNeeded := divCeil (max behavior.turnSilenceMs frameMs) frameMs
  minFrames := divCeil (max behavior.minUtteranceMs frameMs) frameMs
  preRollFrames := divCeil 250 frameMs
  vadThreshold := Int32.ofNat behavior.vadThreshold.toNat
  needed_pos := divCeil_pos (by decide) (le_max_right _ _)
  preRoll_pos := by decide

/-- `frame_average_amplitude`. -/
def frameAverageAmplitude (frame : Frame) : Int32 :=
  if frame = [] then 0
  else (frame.map fun sample => sample.toInt32.abs).sum / Int32.ofNat frame.length

/-- `is_speech`. -/
def isSpeech (d : TurnDetector) (frame : Frame) : Bool := decide (frameAverageAmplitude frame ≥ d.vadThreshold)

/-- `TurnDetector::finish`. -/
def finish (d : TurnDetector) : Option (List Int16) × TurnDetector :=
  let shouldEmit := d.speaking && decide (d.minFrames ≤ d.speechFrames)
  (if shouldEmit then some d.buffer else none,
    { d with speaking := false, silentFrames := 0, speechFrames := 0, preRoll := [], buffer := [] })

/-- `TurnDetector::reset`. -/
def reset (d : TurnDetector) : TurnDetector :=
  { d with speaking := false, silentFrames := 0, speechFrames := 0, buffer := [], preRoll := [] }

/-- `TurnDetector::remember_pre_roll`. -/
def rememberPreRoll (frame : Frame) (d : TurnDetector) : TurnDetector :=
  let history := if d.preRoll.length = d.preRollFrames then d.preRoll.drop 1 else d.preRoll
  { d with preRoll := history ++ [frame] }

/-- `TurnDetector::push_frame`. -/
def pushFrame (frame : Frame) (d : TurnDetector) : Option (List Int16) × TurnDetector :=
  if d.isSpeech frame then
    let d := if d.speaking then d else { d with buffer := d.buffer ++ d.preRoll.flatten, preRoll := [] }
    (none,
      { d with speaking := true, silentFrames := 0, speechFrames := d.speechFrames + 1, buffer := d.buffer ++ frame })
  else if d.speaking then
    let d := { d with buffer := d.buffer ++ frame, silentFrames := d.silentFrames + 1 }
    if d.silenceFramesNeeded ≤ d.silentFrames then d.finish else (none, d)
  else (none, d.rememberPreRoll frame)

/-- A round of the detection loop: a frame is pushed, or the detector is reset. -/
def round : Input Frame → TurnDetector → Option (List Int16) × TurnDetector
  | .item frame, d => d.pushFrame frame
  | .cut, d => (none, d.reset)

/-- The detection loop: the utterances of the rounds and of the end of the input. -/
def utterances : TurnDetector → List (Input Frame) → List (List Int16)
  | d, [] => d.finish.1.toList
  | d, i :: is => (d.round i).1.toList ++ utterances (d.round i).2 is

/-! ### Blocks -/

/-- The block of a stretch: the frames before the speech that are remembered, and the body. -/
def block (d : TurnDetector) (s : Stretch Frame) : List Frame := s.quiet.rtake d.preRollFrames ++ s.body

/-- A stretch with speech, which is not cut and has enough of it. -/
def Emitted (d : TurnDetector) (s : Stretch Frame) : Prop :=
  s.body ≠ [] ∧ s.ending ≠ .cut ∧ d.minFrames ≤ (d.block s).countP d.isSpeech

instance (d : TurnDetector) : DecidablePred d.Emitted := fun _ => inferInstanceAs (Decidable (_ ∧ _ ∧ _))

/-- A block is contiguous. -/
theorem block_suffix (d : TurnDetector) (s : Stretch Frame) : d.block s <:+ s.quiet ++ s.body := by
  obtain ⟨front, hfront⟩ : ∃ front, front ++ s.quiet.rtake d.preRollFrames = s.quiet :=
    ⟨_, List.take_append_drop _ s.quiet⟩
  refine ⟨front, ?_⟩
  rw [block, ← List.append_assoc, hfront]

/-- The detector with an open stretch in hand. -/
def after (d : TurnDetector) (quiet body : List Frame) : TurnDetector :=
  { d with
    buffer := if body = [] then [] else (quiet.rtake d.preRollFrames ++ body).flatten
    preRoll := if body = [] then quiet.rtake d.preRollFrames else []
    speaking := decide (body ≠ [])
    silentFrames := trailing d.isSpeech body
    speechFrames := body.countP d.isSpeech }

variable {d : TurnDetector} {quiet body : List Frame} {frame : Frame}

@[simp] theorem isSpeech_after : (d.after quiet body).isSpeech = d.isSpeech := rfl

@[simp] theorem after_after (quiet' body' : List Frame) : (d.after quiet' body').after quiet body = d.after quiet body := rfl

/-- A new detector has nothing in hand. -/
theorem new_eq_after (behavior : BehaviorConfig) : new behavior = (new behavior).after [] [] := by
  simp [after, new, List.rtake_nil]

@[simp] theorem reset_after : (d.after quiet body).reset = d.after [] [] := by
  simp [reset, after, List.rtake_nil]

/-- The frames in hand are given out as a block, if they are to be. -/
theorem finish_after (hquiet : ∀ f ∈ quiet, d.isSpeech f = false) (ending : Ending) (hending : ending ≠ .cut) :
    (d.after quiet body).finish =
      (if d.Emitted ⟨quiet, body, ending⟩ then some (d.block ⟨quiet, body, ending⟩).flatten else none, d.after [] []) := by
  have hnone : (quiet.rtake d.preRollFrames).countP d.isSpeech = 0 := by
    refine List.countP_eq_zero.mpr fun f hf => ?_
    rw [hquiet f (List.mem_of_mem_drop hf)]
    exact Bool.false_ne_true
  have hemitted : d.Emitted ⟨quiet, body, ending⟩ ↔ body ≠ [] ∧ d.minFrames ≤ body.countP d.isSpeech := by
    simp only [Emitted, block, List.countP_append, hnone, Nat.zero_add, ne_eq, hending, not_false_eq_true, true_and]
  refine Prod.ext ?_ (by simp [finish, after, List.rtake_nil])
  simp only [hemitted, block]
  by_cases hbody : body = []
  · simp [finish, after, hbody]
  · by_cases hmin : d.minFrames ≤ body.countP d.isSpeech
    · simp [finish, after, hbody, hmin]
    · simp [finish, after, hbody, hmin]

theorem pushFrame_after_of_speech (h : d.isSpeech frame = true) :
    (d.after quiet body).pushFrame frame = (none, d.after quiet (body ++ [frame])) := by
  have htrailing : trailing d.isSpeech (body ++ [frame]) = 0 := trailing_concat_of_loud h
  rw [pushFrame, isSpeech_after, if_pos h]
  by_cases hbody : body = []
  · subst hbody
    rw [List.nil_append] at htrailing
    simp [after, htrailing, h]
  · simp [after, hbody, htrailing, h]

/-- Without its oldest frame, a full pre-roll has one frame less. -/
theorem drop_rtake_succ (n : ℕ) (l : List Frame) :
    (if (l.rtake (n + 1)).length = n + 1 then (l.rtake (n + 1)).drop 1 else l.rtake (n + 1)) = l.rtake n := by
  simp only [List.rtake, List.length_drop]
  split_ifs with hfull
  · rw [List.drop_drop]
    congr 1
    omega
  · congr 1
    omega

/-- A quiet frame before the speech is remembered. -/
theorem pushFrame_after_of_idle (h : d.isSpeech frame = false) :
    (d.after quiet []).pushFrame frame = (none, d.after (quiet ++ [frame]) []) := by
  obtain ⟨n, hn⟩ := Nat.exists_eq_succ_of_ne_zero d.preRoll_pos.ne'
  have hroll : (quiet ++ [frame]).rtake d.preRollFrames =
      (if (quiet.rtake d.preRollFrames).length = d.preRollFrames then (quiet.rtake d.preRollFrames).drop 1
        else quiet.rtake d.preRollFrames) ++ [frame] := by
    rw [hn, drop_rtake_succ, List.rtake_concat_succ]
  rw [pushFrame, isSpeech_after, if_neg (by rw [h]; exact Bool.false_ne_true)]
  simp [after, rememberPreRoll, hroll]

/-- A quiet frame in a body belongs to it, and ends it where the run of quiet frames is long enough. -/
theorem pushFrame_after_of_quiet (h : d.isSpeech frame = false) (hbody : body ≠ []) :
    (d.after quiet body).pushFrame frame =
      if d.silenceFramesNeeded ≤ trailing d.isSpeech (body ++ [frame]) then (d.after quiet (body ++ [frame])).finish
      else (none, d.after quiet (body ++ [frame])) := by
  rw [pushFrame, isSpeech_after, if_neg (by rw [h]; exact Bool.false_ne_true)]
  simp [after, hbody, trailing_concat_of_quiet h, h]

/-! ### Stretches -/

/-- Quiet frames before the speech are only remembered. -/
theorem utterances_quiet (more : List Frame) (hmore : ∀ f ∈ more, d.isSpeech f = false) (is : List (Input Frame)) :
    ∀ quiet, utterances (d.after quiet []) (more.map .item ++ is) = utterances (d.after (quiet ++ more) []) is := by
  induction more with
  | nil =>
    intro quiet
    rw [List.map_nil, List.nil_append, List.append_nil]
  | cons frame more ih =>
    intro quiet
    have hstep : (d.after quiet []).pushFrame frame = (none, d.after (quiet ++ [frame]) []) :=
      pushFrame_after_of_idle (hmore frame List.mem_cons_self)
    rw [List.map_cons, List.cons_append, utterances, round, hstep, Option.toList_none, List.nil_append,
      ih fun f hf => hmore f (List.mem_cons_of_mem _ hf), List.append_assoc, List.singleton_append]

/-- The frames of a body are taken up, as long as it lasts. -/
theorem utterances_body (back : List Frame) (is : List (Input Frame)) :
    ∀ body, (∀ f ∈ (body ++ back).head?, d.isSpeech f = true) →
      (∀ front, body <+: front → front <+: body ++ back → front ≠ body →
        trailing d.isSpeech front < d.silenceFramesNeeded) →
      utterances (d.after quiet body) (back.map .item ++ is) = utterances (d.after quiet (body ++ back)) is := by
  induction back with
  | nil =>
    intro body _ _
    rw [List.map_nil, List.nil_append, List.append_nil]
  | cons frame back ih =>
    intro body hstarts hlasts
    have hsplit : body ++ frame :: back = body ++ [frame] ++ back := by rw [List.append_assoc, List.singleton_append]
    have hstep : (d.after quiet body).pushFrame frame = (none, d.after quiet (body ++ [frame])) := by
      cases hspeech : d.isSpeech frame with
      | true => exact pushFrame_after_of_speech hspeech
      | false =>
        have hbody : body ≠ [] := by
          rintro rfl
          rw [hstarts frame rfl] at hspeech
          exact Bool.noConfusion hspeech
        have hopen := hlasts (body ++ [frame]) (List.prefix_append _ _) (hsplit ▸ List.prefix_append _ _) (by simp)
        rw [pushFrame_after_of_quiet hspeech hbody, if_neg (Nat.not_le.mpr hopen)]
    rw [List.map_cons, List.cons_append, utterances, round, hstep, Option.toList_none, List.nil_append, hsplit]
    refine ih (body ++ [frame]) (hsplit ▸ hstarts) fun front hfrom hto hne => ?_
    refine hlasts front ((List.prefix_append _ _).trans hfrom) (hsplit ▸ hto) ?_
    rintro rfl
    have hlength := hfrom.length_le
    rw [List.length_append, List.length_singleton] at hlength
    omega

/-- What a stretch gives out. -/
def emission (d : TurnDetector) (s : Stretch Frame) : List (List Int16) :=
  if d.Emitted s then [(d.block s).flatten] else []

/-- A stretch gives out its block, and leaves nothing in hand. -/
theorem utterances_stretch {s : Stretch Frame} (h : s.Valid d.isSpeech d.silenceFramesNeeded) (is : List (Input Frame)) :
    (s.ending ≠ .finish →
        utterances (d.after [] []) (s.inputs ++ is) = d.emission s ++ utterances (d.after [] []) is) ∧
      (s.ending = .finish → utterances (d.after [] []) s.inputs = d.emission s) := by
  obtain ⟨quiet, body, ending⟩ := s
  have hquiet (is : List (Input Frame)) :
      utterances (d.after [] []) (quiet.map .item ++ is) = utterances (d.after quiet []) is :=
    utterances_quiet quiet h.quiet is []
  have hfinish : ending ≠ .cut → (d.after quiet body).finish =
      (if d.Emitted ⟨quiet, body, ending⟩ then some (d.block ⟨quiet, body, ending⟩).flatten else none, d.after [] []) :=
    finish_after h.quiet ending
  have hemission : (if d.Emitted ⟨quiet, body, ending⟩ then some (d.block ⟨quiet, body, ending⟩).flatten
      else none).toList = d.emission ⟨quiet, body, ending⟩ := by
    rw [emission]
    split_ifs <;> rfl
  -- as long as the body does not end in silence, all of it is taken up
  have hbody (hopen : ending ≠ .silence) (is : List (Input Frame)) :
      utterances (d.after quiet []) (body.map .item ++ is) = utterances (d.after quiet body) is := by
    refine utterances_body body is [] h.starts fun front _ hto _ => ?_
    by_cases hall : front = body
    · rw [hall]
      exact Nat.not_le.mp (mt h.ends.mpr hopen)
    · exact h.lasts front hto hall
  cases ending with
  | silence =>
    refine ⟨fun _ => ?_, fun h => Ending.noConfusion h⟩
    have hends := h.ends.mp rfl
    obtain rfl | ⟨body, last, rfl⟩ := List.eq_nil_or_concat' body
    · exact absurd hends (Nat.not_le.mpr d.needed_pos)
    · -- the last frame is the one that the patience ends with
      have hlast : d.isSpeech last = false := by
        rw [Bool.eq_false_iff]
        intro hspeech
        rw [trailing_concat_of_loud hspeech] at hends
        exact absurd hends (Nat.not_le.mpr d.needed_pos)
      have hnonempty : body ≠ [] := by
        rintro rfl
        exact Bool.noConfusion ((h.starts last rfl).symm.trans hlast)
      have hopen (is : List (Input Frame)) :
          utterances (d.after quiet []) (body.map .item ++ is) = utterances (d.after quiet body) is := by
        refine utterances_body body is [] (fun f hf => h.starts f ?_) fun front _ hto hne => ?_
        · obtain ⟨first, rest, rfl⟩ := List.exists_cons_of_ne_nil hnonempty
          exact hf
        · refine h.lasts front (hto.trans (List.prefix_append _ _)) ?_
          rintro rfl
          have hlength := hto.length_le
          rw [List.nil_append, List.length_append, List.length_singleton] at hlength
          omega
      have hstep : (d.after quiet body).pushFrame last = (d.after quiet (body ++ [last])).finish := by
        rw [pushFrame_after_of_quiet hlast hnonempty, if_pos hends]
      rw [Stretch.inputs, if_neg Ending.noConfusion, List.append_nil, List.map_append, List.map_append, List.append_assoc,
        List.append_assoc, hquiet, hopen, List.map_singleton, List.singleton_append, utterances, round, hstep,
        hfinish Ending.noConfusion, hemission]
  | cut =>
    refine ⟨fun _ => ?_, fun h => Ending.noConfusion h⟩
    have hcut : d.emission ⟨quiet, body, .cut⟩ = [] := if_neg fun h => h.2.1 rfl
    rw [Stretch.inputs, if_pos rfl, List.map_append, List.append_assoc, List.append_assoc, hquiet,
      hbody Ending.noConfusion, List.singleton_append, utterances, round, reset_after, Option.toList_none, hcut]
  | finish =>
    refine ⟨fun h => absurd rfl h, fun _ => ?_⟩
    rw [Stretch.inputs, if_neg Ending.noConfusion, List.map_append, List.append_assoc, hquiet, hbody Ending.noConfusion,
      utterances, hfinish Ending.noConfusion, hemission]

/-- **The utterances of the detection loop are the blocks of the stretches**, whichever the stretches are. -/
theorem utterances_eq_emissions {is : List (Input Frame)} {ss : List (Stretch Frame)}
    (h : Partition d.isSpeech d.silenceFramesNeeded is ss) : utterances (d.after [] []) is = ss.flatMap d.emission := by
  induction h with
  | last hvalid hending =>
    rw [(utterances_stretch hvalid []).2 hending, List.flatMap_cons, List.flatMap_nil, List.append_nil]
  | cons hvalid hending _ ih => rw [(utterances_stretch hvalid _).1 hending, ih, List.flatMap_cons]

/-- **Turn detection partitions the audio**: the rounds fall into stretches, and of whatever stretches they fall into,
the utterances are the blocks of those that have enough speech and are not cut, in order and unaltered. -/
theorem utterances_eq_blocks (behavior : BehaviorConfig) (is : List (Input Frame)) :
    (∃ ss, Partition (new behavior).isSpeech (new behavior).silenceFramesNeeded is ss) ∧
      ∀ ss, Partition (new behavior).isSpeech (new behavior).silenceFramesNeeded is ss →
        utterances (new behavior) is =
            (ss.filter fun s => (new behavior).Emitted s).map (fun s => ((new behavior).block s).flatten) ∧
          is = ss.flatMap Stretch.inputs ∧ ∀ s ∈ ss, (new behavior).block s <:+ s.quiet ++ s.body := by
  refine ⟨exists_partition (new behavior).needed_pos is, fun ss h => ⟨?_, h.inputs, fun s _ => block_suffix _ s⟩⟩
  rw [new_eq_after, utterances_eq_emissions h]
  have hflat : ∀ ss : List (Stretch Frame), ss.flatMap (new behavior).emission =
      (ss.filter fun s => (new behavior).Emitted s).map fun s => ((new behavior).block s).flatten := by
    intro ss
    induction ss with
    | nil => rfl
    | cons s ss ih =>
      rw [List.flatMap_cons, ih, emission]
      by_cases hs : (new behavior).Emitted s
      · rw [if_pos hs, List.filter_cons_of_pos (by simpa using hs), List.map_cons, List.singleton_append]
      · rw [if_neg hs, List.filter_cons_of_neg (by simpa using hs), List.nil_append]
  exact hflat ss

end TurnDetector

end AgentVoice.Service

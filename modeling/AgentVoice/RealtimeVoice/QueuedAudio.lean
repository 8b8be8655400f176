import AgentVoice.Foundations.Machine
import Mathlib.Algebra.Group.Nat.Defs
import Mathlib.Order.MinMax
import Mathlib.Order.Nat

/-!
# The queue of provider audio

`QueuedAudio` holds the audio that a provider generated and that the ticker has not handed out yet. Audio is pushed
at the back; a tick takes a frame from the front, an overflow drops frames from the front, and a barge-in drops
everything. Bytes are conserved: what was pushed is what was handed out, what was dropped and what is still queued,
in this order (`conservation`).
-/

namespace AgentVoice.RealtimeVoice

open AgentVoice.Foundations

/-- `PCMU_BYTES_PER_FRAME`. -/
def pcmuBytesPerFrame : ℕ := 160

/-- `MAX_QUEUED_OUTPUT_BYTES`. -/
def maxQueuedOutputBytes : ℕ := 160000

/-- `PCMU_SILENCE`. -/
def pcmuSilence : UInt8 := 0xFF

/-- `u64::MAX`. -/
def u64Max : ℕ := 2 ^ 64 - 1

/-- `u64::saturating_add`. -/
def saturatingAdd (a b : ℕ) : ℕ := min (a + b) u64Max

/-- `QueuedAudio`. -/
structure QueuedAudio where
  bytes : List UInt8
  itemId : Option String
  generatedBytes : ℕ
  flushedBytes : ℕ
  finished : Bool
  deriving DecidableEq, Repr

namespace QueuedAudio

/-- `QueuedAudio::default`. -/
def empty : QueuedAudio := ⟨[], none, 0, 0, false⟩

/-- The queue for an item: its counts start again when another item's audio comes. -/
def forItem (itemId : Option String) (q : QueuedAudio) : QueuedAudio :=
  if itemId = q.itemId then q else { q with itemId, generatedBytes := 0, flushedBytes := 0 }

/-- `QueuedAudio::push`. -/
def push (itemId : Option String) (audio : List UInt8) (q : QueuedAudio) : QueuedAudio :=
  let q := q.forItem itemId
  { q with
    generatedBytes := saturatingAdd q.generatedBytes audio.length
    bytes := q.bytes ++ audio
    finished := false }

/-- `QueuedAudio::discard_overflow`: how many bytes were dropped. -/
def discardOverflow (q : QueuedAudio) : ℕ × QueuedAudio :=
  let excess := q.bytes.length - maxQueuedOutputBytes
  let frames := (excess + (pcmuBytesPerFrame - 1)) / pcmuBytesPerFrame
  let dropped := min (frames * pcmuBytesPerFrame) q.bytes.length
  (dropped, { q with bytes := q.bytes.drop dropped, flushedBytes := saturatingAdd q.flushedBytes dropped })

/-- `QueuedAudio::finish`. -/
def finish (q : QueuedAudio) : QueuedAudio := { q with finished := true }

/-- `QueuedAudio::next_frame`: the last frame of a finished queue is filled up with silence. -/
def nextFrame (q : QueuedAudio) : Option (List UInt8) × QueuedAudio :=
  if q.bytes.length < pcmuBytesPerFrame then
    if q.finished = false ∨ q.bytes = [] then (none, q)
    else
      let bytes := q.bytes ++ List.replicate (pcmuBytesPerFrame - q.bytes.length) pcmuSilence
      (some (bytes.take pcmuBytesPerFrame), { q with bytes := bytes.drop pcmuBytesPerFrame })
  else (some (q.bytes.take pcmuBytesPerFrame), { q with bytes := q.bytes.drop pcmuBytesPerFrame })

/-- `QueuedAudio::flush_for_barge_in`: how many milliseconds of the item were played. -/
def flushForBargeIn (q : QueuedAudio) : ℕ × QueuedAudio :=
  let unplayed := saturatingAdd q.bytes.length q.flushedBytes
  let played := q.generatedBytes - unplayed
  (played / 8, { q with flushedBytes := unplayed, bytes := [] })

/-- An operation on the queue. -/
inductive Op where
  | push (itemId : Option String) (audio : List UInt8)
  | discardOverflow
  | finish
  | nextFrame
  | flushForBargeIn
  deriving DecidableEq, Repr

/-- The queue after an operation. -/
def step : Op → QueuedAudio → QueuedAudio
  | .push itemId audio, q => q.push itemId audio
  | .discardOverflow, q => q.discardOverflow.2
  | .finish, q => q.finish
  | .nextFrame, q => q.nextFrame.2
  | .flushForBargeIn, q => q.flushForBargeIn.2

/-- The queue after a run. -/
def run (ops : List Op) (q : QueuedAudio) : QueuedAudio := Machine.run step ops q

/-! ### What the operations do -/

@[simp] theorem push_bytes (itemId : Option String) (audio : List UInt8) (q : QueuedAudio) :
    (q.push itemId audio).bytes = q.bytes ++ audio := by
  simp only [push, forItem]
  split <;> rfl

@[simp] theorem push_itemId (itemId : Option String) (audio : List UInt8) (q : QueuedAudio) :
    (q.push itemId audio).itemId = itemId := by
  simp only [push, forItem]
  split <;> simp_all

/-- How many bytes an overflow drops: whole frames, and no more than are queued. -/
theorem discardOverflow_spec (q : QueuedAudio) :
    ∃ frames, q.discardOverflow.1 = frames * pcmuBytesPerFrame ∧ q.discardOverflow.1 ≤ q.bytes.length ∧
      q.discardOverflow.2.bytes = q.bytes.drop q.discardOverflow.1 ∧
      q.discardOverflow.2.bytes.length ≤ maxQueuedOutputBytes := by
  refine ⟨(q.bytes.length - maxQueuedOutputBytes + (pcmuBytesPerFrame - 1)) / pcmuBytesPerFrame, ?_, ?_, rfl, ?_⟩
  · simp only [discardOverflow, pcmuBytesPerFrame, maxQueuedOutputBytes]
    omega
  · exact min_le_right _ _
  · simp only [discardOverflow, List.length_drop, pcmuBytesPerFrame, maxQueuedOutputBytes]
    omega

-- the queue is taken apart first: comparing it with the one before the drop would compute the number of frames
theorem discardOverflow_itemId (q : QueuedAudio) : q.discardOverflow.2.itemId = q.itemId := by
  cases q
  rfl

theorem discardOverflow_generatedBytes (q : QueuedAudio) :
    q.discardOverflow.2.generatedBytes = q.generatedBytes := by
  cases q
  rfl

theorem discardOverflow_flushedBytes (q : QueuedAudio) :
    q.discardOverflow.2.flushedBytes = saturatingAdd q.flushedBytes q.discardOverflow.1 := by
  rw [discardOverflow]

/-- What a tick does: nothing, or it takes a frame of queued bytes, which silence fills up only where the queue is
finished and this empties it. -/
theorem nextFrame_cases (q : QueuedAudio) :
    q.nextFrame = (none, q) ∨ ∃ padding, padding ≤ pcmuBytesPerFrame ∧
      q.nextFrame = (some (q.bytes.take pcmuBytesPerFrame ++ List.replicate padding pcmuSilence),
        { q with bytes := q.bytes.drop pcmuBytesPerFrame }) ∧
      (q.bytes.take pcmuBytesPerFrame).length + padding = pcmuBytesPerFrame ∧
      (0 < padding → q.finished = true ∧ q.bytes.length < pcmuBytesPerFrame) := by
  by_cases hshort : q.bytes.length < pcmuBytesPerFrame
  · by_cases hidle : q.finished = false ∨ q.bytes = []
    · exact Or.inl (by rw [nextFrame, if_pos hshort, if_pos hidle])
    · have hfinished : q.finished = true := by
        rw [← Bool.not_eq_false]
        exact fun h => hidle (Or.inl h)
      refine Or.inr ⟨pcmuBytesPerFrame - q.bytes.length, Nat.sub_le _ _, ?_, ?_, fun _ => ⟨hfinished, hshort⟩⟩
      · have hlength : (q.bytes ++ List.replicate (pcmuBytesPerFrame - q.bytes.length) pcmuSilence).length =
            pcmuBytesPerFrame := by
          rw [List.length_append, List.length_replicate]
          omega
        rw [nextFrame, if_pos hshort, if_neg hidle]
        dsimp only
        rw [List.take_of_length_le hlength.le, List.drop_of_length_le hlength.le, List.take_of_length_le hshort.le,
          List.drop_of_length_le hshort.le]
      · rw [List.take_of_length_le hshort.le]
        omega
  · refine Or.inr ⟨0, Nat.zero_le _, ?_, ?_, fun h => absurd h (lt_irrefl 0)⟩
    · rw [nextFrame, if_neg hshort]
      simp
    · rw [List.length_take]
      omega

@[simp] theorem flushForBargeIn_bytes (q : QueuedAudio) : q.flushForBargeIn.2.bytes = [] := rfl

/-! ### Conservation -/

/-- The bytes an operation pushes. -/
def pushed : Op → QueuedAudio → List UInt8
  | .push _ audio, _ => audio
  | _, _ => []

/-- The bytes an operation takes: those of the frame it returns, without the padding, or those it drops. -/
def taken : Op → QueuedAudio → List UInt8
  | .nextFrame, q => (q.nextFrame.1.getD []).take q.bytes.length
  | .discardOverflow, q => q.bytes.take q.discardOverflow.1
  | .flushForBargeIn, q => q.bytes
  | _, _ => []

theorem taken_nextFrame (q : QueuedAudio) : q.bytes = taken .nextFrame q ++ q.nextFrame.2.bytes := by
  rcases nextFrame_cases q with h | ⟨padding, -, h, hlength, hpadding⟩
  · simp [taken, h]
  · simp only [taken, h, Option.getD_some]
    cases padding with
    | zero =>
      rw [List.replicate_zero, List.append_nil, List.take_take, min_eq_right, List.take_append_drop]
      rw [List.length_take] at hlength
      omega
    | succ n =>
      have hshort := (hpadding n.succ_pos).2.le
      rw [List.take_of_length_le hshort, List.drop_of_length_le hshort, List.take_left', List.append_nil]
      rfl

/-- One operation conserves the bytes. -/
theorem step_conserves (op : Op) (q : QueuedAudio) : q.bytes ++ pushed op q = taken op q ++ (step op q).bytes := by
  cases op with
  | push itemId audio => simp [pushed, taken, step]
  | discardOverflow =>
    obtain ⟨_, -, -, hbytes, -⟩ := discardOverflow_spec q
    simp [pushed, taken, step, hbytes]
  | finish => simp [pushed, taken, step, finish]
  | nextFrame =>
    show q.bytes ++ [] = taken .nextFrame q ++ q.nextFrame.2.bytes
    rw [List.append_nil, ← taken_nextFrame]
  | flushForBargeIn => simp [pushed, taken, step]

/-- What the operations of the queue keep, from any queue. -/
structure Sound (q : QueuedAudio) : Prop where
  /-- A frame has its full length: it is what is taken from the queue, and silence behind it only where that
  empties a finished queue. -/
  frame : ∀ frame q', q.nextFrame = (some frame, q') → frame.length = pcmuBytesPerFrame ∧
    ∃ padding, frame = taken .nextFrame q ++ List.replicate padding pcmuSilence ∧
      (0 < padding → q.finished = true ∧ q'.bytes = [])
  /-- An overflow drops whole frames from the front. -/
  overflow : ∃ frames, (taken .discardOverflow q).length = frames * pcmuBytesPerFrame ∧
    q.discardOverflow.1 = frames * pcmuBytesPerFrame ∧
    q.bytes = taken .discardOverflow q ++ q.discardOverflow.2.bytes
  /-- An overflow leaves no more than the limit. -/
  bounded : q.discardOverflow.2.bytes.length ≤ maxQueuedOutputBytes

theorem sound (q : QueuedAudio) : q.Sound := by
  obtain ⟨frames, hframes, hle, hbytes, hbounded⟩ := discardOverflow_spec q
  refine ⟨fun frame q' h => ?_, ⟨frames, ?_, hframes, ?_⟩, hbounded⟩
  · rcases nextFrame_cases q with hnone | ⟨padding, -, hsome, hlength, hpadding⟩
    · rw [hnone] at h
      cases h
    · cases hsome.symm.trans h
      have htaken : taken .nextFrame q = q.bytes.take pcmuBytesPerFrame := by
        have hconserved := taken_nextFrame q
        rw [hsome] at hconserved
        exact List.append_cancel_right (hconserved.symm.trans (List.take_append_drop _ _).symm)
      refine ⟨by rw [List.length_append, List.length_replicate, hlength], padding, by rw [htaken], fun hpos => ?_⟩
      exact ⟨(hpadding hpos).1, List.drop_of_length_le (hpadding hpos).2.le⟩
  · rw [taken, List.length_take, min_eq_left hle, hframes]
  · rw [taken, hbytes, List.take_append_drop]

/-- **Conservation.** What was pushed in a run is what was handed out, without the padding, what was dropped, and
what is still queued, in this order; and every state of the run is sound. -/
theorem conservation (ops : List Op) :
    Machine.outputs step pushed ops empty = Machine.outputs step taken ops empty ++ (run ops empty).bytes ∧
      (run ops empty).Sound :=
  ⟨Machine.outputs_conserved step_conserves ops empty, sound _⟩

end QueuedAudio

end AgentVoice.RealtimeVoice

import AgentVoice.RealtimeVoice.QueuedAudio
import Mathlib.Data.List.Basic

/-!
# What was played of an item

`flush_for_barge_in` derives how much of the current item was played from three counts: the bytes generated for the
item, the bytes dropped since its first audio came, and the bytes that are queued. An `Account` follows the audio
itself: every queued byte is stamped with its item and with its turn, the number of item changes before it, and so
are the bytes that were handed out and dropped. The counts are those of the account (`Balanced`), and the flush
returns the bytes of the turn that were handed out, less the bytes of earlier turns that were dropped in it
(`flush_eq`).
-/

namespace AgentVoice.RealtimeVoice

open AgentVoice.Foundations QueuedAudio

/-- A byte of audio, its item and its turn. -/
structure Stamped where
  byte : UInt8
  item : Option String
  turn : ℕ
  deriving DecidableEq, Repr

/-- Audio of an item and a turn. -/
def stamp (item : Option String) (turn : ℕ) (audio : List UInt8) : List Stamped :=
  audio.map fun byte => ⟨byte, item, turn⟩

theorem mem_stamp {item : Option String} {turn : ℕ} {audio : List UInt8} {s : Stamped}
    (h : s ∈ stamp item turn audio) : s.item = item ∧ s.turn = turn := by
  obtain ⟨_, -, rfl⟩ := List.mem_map.mp h
  exact ⟨rfl, rfl⟩

/-- How many bytes are of a turn. -/
def ofTurn (turn : ℕ) (l : List Stamped) : ℕ := l.countP fun s => decide (s.turn = turn)

@[simp] theorem ofTurn_append (turn : ℕ) (l m : List Stamped) : ofTurn turn (l ++ m) = ofTurn turn l + ofTurn turn m :=
  List.countP_append

theorem ofTurn_take_drop (turn : ℕ) (l : List Stamped) (n : ℕ) :
    ofTurn turn (l.take n) + ofTurn turn (l.drop n) = ofTurn turn l := by
  rw [← ofTurn_append, List.take_append_drop]

theorem ofTurn_stamp (item : Option String) (turn : ℕ) (audio : List UInt8) :
    ofTurn turn (stamp item turn audio) = audio.length := by
  simp [ofTurn, stamp, List.countP_map, Function.comp_def]

theorem ofTurn_eq_zero {turn : ℕ} {l : List Stamped} (h : ∀ s ∈ l, s.turn ≠ turn) : ofTurn turn l = 0 := by
  rw [ofTurn, List.countP_eq_zero]
  exact fun s hs => by simpa using h s hs

theorem ofTurn_eq_length {turn : ℕ} {l : List Stamped} (h : ∀ s ∈ l, s.turn = turn) : ofTurn turn l = l.length := by
  rw [ofTurn, List.countP_eq_length]
  exact fun s hs => by simpa using h s hs

/-- The queue, and where its bytes come from and went to. -/
structure Account where
  audio : QueuedAudio
  turn : ℕ
  /-- The queued bytes. -/
  queued : List Stamped
  /-- The bytes handed out so far. -/
  handed : List Stamped
  /-- The bytes dropped in this turn. -/
  dropped : List Stamped
  deriving DecidableEq, Repr

namespace Account

/-- The account of the empty queue. -/
def empty : Account := ⟨QueuedAudio.empty, 0, [], [], []⟩

/-- The account for an item: another item begins a turn. -/
def forItem (itemId : Option String) (a : Account) : Account :=
  if itemId = a.audio.itemId then a
  else { a with audio := a.audio.forItem itemId, turn := a.turn + 1, dropped := [] }

/-- More audio of the item. -/
def push (bytes : List UInt8) (a : Account) : Account :=
  { a with
    audio := a.audio.push a.audio.itemId bytes
    queued := a.queued ++ stamp a.audio.itemId a.turn bytes }

/-- What an operation takes from the queue is dropped. -/
def drop (op : Op) (a : Account) : Account :=
  let out := (taken op a.audio).length
  { a with
    audio := QueuedAudio.step op a.audio
    queued := a.queued.drop out
    dropped := a.dropped ++ a.queued.take out }

/-- What a tick takes from the queue is handed out. -/
def handOut (a : Account) : Account :=
  let out := (taken .nextFrame a.audio).length
  { a with
    audio := a.audio.nextFrame.2
    queued := a.queued.drop out
    handed := a.handed ++ a.queued.take out }

/-- The account after an operation. -/
def step : Op → Account → Account
  | .push itemId bytes, a => (a.forItem itemId).push bytes
  | .nextFrame, a => a.handOut
  | .discardOverflow, a => a.drop .discardOverflow
  | .finish, a => a.drop .finish
  | .flushForBargeIn, a => a.drop .flushForBargeIn

/-- The account after a run. -/
def run (ops : List Op) : Account := Machine.run step ops empty

/-- The bytes generated in this turn. -/
def generated (a : Account) : ℕ := ofTurn a.turn a.handed + ofTurn a.turn a.queued + ofTurn a.turn a.dropped

/-- The bytes of earlier turns that were dropped in this one. -/
def droppedOlder (a : Account) : ℕ := a.dropped.countP fun s => decide (s.turn ≠ a.turn)

/-- The bytes of the current item that were handed out. -/
def handedOut (a : Account) : ℕ := a.handed.countP fun s => decide (s.item = a.audio.itemId)

/-- The bytes of the current item that were handed out in earlier turns. -/
def handedBefore (a : Account) : ℕ :=
  a.handed.countP fun s => decide (s.item = a.audio.itemId ∧ s.turn ≠ a.turn)

/-- All bytes of the account. -/
def all (a : Account) : List Stamped := a.handed ++ (a.queued ++ a.dropped)

/-- The account agrees with the queue and its counts. -/
structure Balanced (a : Account) : Prop where
  bytes : a.queued.map Stamped.byte = a.audio.bytes
  /-- The queue is in the order of the turns. -/
  ordered : a.queued.Pairwise fun s t => s.turn ≤ t.turn
  turn_le : ∀ s ∈ a.all, s.turn ≤ a.turn
  item_eq : ∀ s ∈ a.all, s.turn = a.turn → s.item = a.audio.itemId
  generated_eq : a.audio.generatedBytes = min a.generated u64Max
  flushed_eq : a.audio.flushedBytes = min a.dropped.length u64Max
  /-- Once a byte of the turn is handed out, no older byte is queued. -/
  older_gone : ∀ s ∈ a.handed, s.turn = a.turn → ∀ t ∈ a.queued, t.turn = a.turn

theorem Balanced.empty : Account.empty.Balanced where
  bytes := rfl
  ordered := List.Pairwise.nil
  turn_le := by simp [all, Account.empty]
  item_eq := by simp [all, Account.empty]
  generated_eq := rfl
  flushed_eq := rfl
  older_gone := by simp [Account.empty]

/-! ### One operation -/

section Step

variable {a : Account}

theorem saturatingAdd_min (m n : ℕ) : saturatingAdd (min m u64Max) n = min (m + n) u64Max := by
  rw [saturatingAdd]
  omega

theorem forItem_itemId (itemId : Option String) : (a.forItem itemId).audio.itemId = itemId := by
  unfold forItem QueuedAudio.forItem
  split
  · exact Eq.symm ‹_›
  · rfl

/-- The audio of the item is pushed on the queue for the item. -/
theorem forItem_push (itemId : Option String) (bytes : List UInt8) :
    ((a.forItem itemId).push bytes).audio = a.audio.push itemId bytes := by
  rw [push, forItem_itemId]
  unfold forItem
  split
  · rfl
  · rename_i hother
    simp only [QueuedAudio.push, QueuedAudio.forItem, if_neg hother, if_true]

/-- **Another item.** No byte is of the new turn yet. -/
theorem Balanced.forItem (h : a.Balanced) (itemId : Option String) : (a.forItem itemId).Balanced := by
  unfold Account.forItem QueuedAudio.forItem
  split
  · exact h
  · rename_i hother
    have hold : ∀ l : List Stamped, (∀ s ∈ l, s ∈ a.all) → ∀ s ∈ l, s.turn ≠ a.turn + 1 :=
      fun l hl s hs => (Nat.lt_succ_of_le (h.turn_le s (hl s hs))).ne
    have hhanded : ∀ s ∈ a.handed, s ∈ a.all := fun s hs => by simp [all, hs]
    have hqueued : ∀ s ∈ a.queued, s ∈ a.all := fun s hs => by simp [all, hs]
    exact
      { bytes := h.bytes
        ordered := h.ordered
        turn_le := fun s hs => by
          simp only [all, List.append_nil, List.mem_append] at hs
          exact (h.turn_le s (hs.elim (hhanded s) (hqueued s))).trans (Nat.le_succ _)
        item_eq := fun s hs hturn => by
          simp only [all, List.append_nil, List.mem_append] at hs
          exact absurd hturn (hs.elim (hold _ hhanded s) (hold _ hqueued s))
        generated_eq := by
          simp only [generated, ofTurn_eq_zero (hold _ hhanded), ofTurn_eq_zero (hold _ hqueued)]
          rfl
        flushed_eq := by simp
        older_gone := fun s hs hturn => absurd hturn (hold _ hhanded s hs) }

/-- **More audio of the item.** -/
theorem Balanced.push (h : a.Balanced) (bytes : List UInt8) : (a.push bytes).Balanced where
  bytes := by
    show (a.queued ++ stamp a.audio.itemId a.turn bytes).map Stamped.byte = _
    rw [List.map_append, h.bytes, Account.push, push_bytes]
    simp [stamp, Function.comp_def]
  ordered := by
    refine List.pairwise_append.mpr ⟨h.ordered, ?_, fun s hs t ht => ?_⟩
    · exact List.pairwise_of_forall_mem_list fun s hs t ht => by rw [(mem_stamp hs).2, (mem_stamp ht).2]
    · rw [(mem_stamp ht).2]
      exact h.turn_le s (by simp [all, hs])
  turn_le := fun s hs => by
    simp only [all, Account.push, List.mem_append] at hs
    rcases hs with hs | (hs | hs) | hs
    · exact h.turn_le s (by simp [all, hs])
    · exact h.turn_le s (by simp [all, hs])
    · exact (mem_stamp hs).2.le
    · exact h.turn_le s (by simp [all, hs])
  item_eq := fun s hs hturn => by
    simp only [all, Account.push, List.mem_append] at hs
    rw [Account.push, push_itemId]
    rcases hs with hs | (hs | hs) | hs
    · exact h.item_eq s (by simp [all, hs]) hturn
    · exact h.item_eq s (by simp [all, hs]) hturn
    · exact (mem_stamp hs).1
    · exact h.item_eq s (by simp [all, hs]) hturn
  generated_eq := by
    have hgenerated : (a.push bytes).generated = a.generated + bytes.length := by
      simp only [generated, Account.push, ofTurn_append, ofTurn_stamp]
      omega
    rw [hgenerated]
    simp only [Account.push, QueuedAudio.push, QueuedAudio.forItem, if_true]
    rw [h.generated_eq, saturatingAdd_min]
  flushed_eq := by
    simp only [Account.push, QueuedAudio.push, QueuedAudio.forItem, if_true]
    exact h.flushed_eq
  older_gone := fun s hs hturn t ht => by
    rcases List.mem_append.mp ht with ht | ht
    · exact h.older_gone s hs hturn t ht
    · exact (mem_stamp ht).2

/-- What an operation takes is at the front of the queue. -/
theorem Balanced.taken_eq (h : a.Balanced) {op : Op} (hpush : pushed op a.audio = []) :
    (taken op a.audio).length ≤ a.queued.length ∧
      (a.queued.drop (taken op a.audio).length).map Stamped.byte = (QueuedAudio.step op a.audio).bytes := by
  have hconserved := step_conserves op a.audio
  rw [hpush, List.append_nil, ← h.bytes] at hconserved
  constructor
  · have hlength := congrArg List.length hconserved
    rw [List.length_map, List.length_append] at hlength
    omega
  · rw [List.map_drop, hconserved, List.drop_left]

/-- **A tick.** -/
theorem Balanced.handOut (h : a.Balanced) : a.handOut.Balanced := by
  obtain ⟨-, hbytes⟩ := @Balanced.taken_eq _ h .nextFrame rfl
  have hkept : a.audio.nextFrame.2 = { a.audio with bytes := a.audio.nextFrame.2.bytes } := by
    rcases nextFrame_cases a.audio with hnone | ⟨_, -, hsome, -⟩
    · rw [hnone]
    · rw [hsome]
  set out := (taken .nextFrame a.audio).length
  have hsplit : ∀ s, s ∈ a.queued.take out ∨ s ∈ a.queued.drop out → s ∈ a.all := fun s hs =>
    List.mem_append_right _ (List.mem_append_left _ (hs.elim List.mem_of_mem_take List.mem_of_mem_drop))
  have hmem : ∀ s ∈ a.handOut.all, s ∈ a.all := fun s hs => by
    simp only [all, Account.handOut, List.mem_append] at hs
    rcases hs with (hs | hs) | hs | hs
    · exact List.mem_append_left _ hs
    · exact hsplit s (Or.inl hs)
    · exact hsplit s (Or.inr hs)
    · exact List.mem_append_right _ (List.mem_append_right _ hs)
  exact
    { bytes := hbytes
      ordered := h.ordered.sublist (List.drop_sublist _ _)
      turn_le := fun s hs => h.turn_le s (hmem s hs)
      item_eq := fun s hs hturn => by
        rw [Account.handOut, hkept]
        exact h.item_eq s (hmem s hs) hturn
      generated_eq := by
        have hgenerated : a.handOut.generated = a.generated := by
          have := ofTurn_take_drop a.turn a.queued (taken .nextFrame a.audio).length
          simp only [generated, Account.handOut, ofTurn_append]
          omega
        rw [hgenerated, Account.handOut, hkept]
        exact h.generated_eq
      flushed_eq := by
        rw [Account.handOut, hkept]
        exact h.flushed_eq
      older_gone := fun s hs hturn t ht => by
        -- a byte of the turn that is handed out came before the rest of the queue
        rcases List.mem_append.mp hs with hs | hs
        · exact h.older_gone s hs hturn t (List.mem_of_mem_drop ht)
        · have hordered := h.ordered
          rw [← List.take_append_drop out a.queued, List.pairwise_append] at hordered
          exact le_antisymm (h.turn_le t (hsplit t (Or.inr ht))) (hturn ▸ hordered.2.2 s hs t ht) }

/-- **A drop**, by an overflow or a barge-in. -/
theorem Balanced.drop (h : a.Balanced) {op : Op} (hpush : pushed op a.audio = [])
    (hitem : (QueuedAudio.step op a.audio).itemId = a.audio.itemId)
    (hgenerated : (QueuedAudio.step op a.audio).generatedBytes = a.audio.generatedBytes)
    (hflushed : (QueuedAudio.step op a.audio).flushedBytes =
      saturatingAdd a.audio.flushedBytes (taken op a.audio).length) : (a.drop op).Balanced := by
  obtain ⟨hout, hbytes⟩ := h.taken_eq hpush
  set out := (taken op a.audio).length
  have hmem : ∀ s, s ∈ a.handed ++ (a.queued.drop out ++ (a.dropped ++ a.queued.take out)) → s ∈ a.all := fun s hs => by
    simp only [List.mem_append] at hs
    rcases hs with hs | hs | hs | hs
    · exact List.mem_append_left _ hs
    · exact List.mem_append_right _ (List.mem_append_left _ (List.mem_of_mem_drop hs))
    · exact List.mem_append_right _ (List.mem_append_right _ hs)
    · exact List.mem_append_right _ (List.mem_append_left _ (List.mem_of_mem_take hs))
  exact
    { bytes := hbytes
      ordered := h.ordered.sublist (List.drop_sublist _ _)
      turn_le := fun s hs => h.turn_le s (hmem s hs)
      item_eq := fun s hs hturn => (h.item_eq s (hmem s hs) hturn).trans hitem.symm
      generated_eq := by
        have := ofTurn_take_drop a.turn a.queued (taken op a.audio).length
        have hsame : (a.drop op).generated = a.generated := by
          simp only [generated, Account.drop, ofTurn_append]
          omega
        rw [hsame]
        exact hgenerated.trans h.generated_eq
      flushed_eq := by
        refine hflushed.trans ?_
        rw [h.flushed_eq, saturatingAdd_min, Account.drop, List.length_append, List.length_take, min_eq_left hout]
      older_gone := fun s hs hturn t ht => h.older_gone s hs hturn t (List.mem_of_mem_drop ht) }

/-- **Every operation keeps the account balanced.** -/
theorem Balanced.step (op : Op) (h : a.Balanced) : (step op a).Balanced := by
  cases op with
  | push itemId bytes => exact (h.forItem itemId).push bytes
  | nextFrame => exact h.handOut
  | discardOverflow =>
    refine h.drop rfl (discardOverflow_itemId _) (discardOverflow_generatedBytes _) ?_
    obtain ⟨_, -, hle, -⟩ := discardOverflow_spec a.audio
    rw [taken, List.length_take, min_eq_left hle]
    exact discardOverflow_flushedBytes a.audio
  | finish =>
    refine h.drop rfl rfl rfl ?_
    show a.audio.flushedBytes = saturatingAdd a.audio.flushedBytes 0
    rw [h.flushed_eq, saturatingAdd_min, Nat.add_zero]
  | flushForBargeIn =>
    refine h.drop rfl rfl rfl ?_
    show saturatingAdd a.audio.bytes.length a.audio.flushedBytes = saturatingAdd a.audio.flushedBytes a.audio.bytes.length
    rw [saturatingAdd, saturatingAdd, Nat.add_comm]

end Step

/-! ### Runs -/

theorem audio_step (op : Op) (a : Account) : (step op a).audio = QueuedAudio.step op a.audio := by
  cases op with
  | push itemId bytes => exact forItem_push itemId bytes
  | nextFrame | discardOverflow | finish | flushForBargeIn => rfl

theorem audio_machine_run (ops : List Op) (a : Account) :
    (Machine.run step ops a).audio = QueuedAudio.run ops a.audio := by
  induction ops generalizing a with
  | nil => rfl
  | cons op ops ih =>
    show (Machine.run step ops (step op a)).audio = QueuedAudio.run ops (QueuedAudio.step op a.audio)
    rw [ih, audio_step]

/-- The queue of the account is the queue. -/
theorem audio_run (ops : List Op) : (run ops).audio = QueuedAudio.run ops QueuedAudio.empty :=
  audio_machine_run ops empty

theorem balanced_run (ops : List Op) : (run ops).Balanced :=
  Machine.run_invariant (fun op _ h => h.step op) Balanced.empty ops

/-- The bytes of this turn that were handed out. -/
def handedNow (a : Account) : ℕ := ofTurn a.turn a.handed

variable {a : Account}

/-- **What the flush returns**: the bytes of the turn that were handed out, less the older ones dropped in it. -/
theorem Balanced.flush_eq (h : a.Balanced) (hfits : a.generated ≤ u64Max) :
    a.audio.flushForBargeIn.1 = (a.handedNow - a.droppedOlder) / 8 := by
  have hqueued : a.audio.bytes.length = a.queued.length := by rw [← h.bytes, List.length_map]
  have hdropped : a.dropped.length = ofTurn a.turn a.dropped + a.droppedOlder := by
    have hsplit := List.length_eq_countP_add_countP (fun s => decide (s.turn = a.turn)) (l := a.dropped)
    simpa [ofTurn, droppedOlder] using hsplit
  have hle : ofTurn a.turn a.queued ≤ a.queued.length := List.countP_le_length
  have hgenerated : a.generated = a.handedNow + ofTurn a.turn a.queued + ofTurn a.turn a.dropped := rfl
  have hplayed : a.audio.flushForBargeIn.1 = (a.generated - (a.queued.length + a.dropped.length)) / 8 := by
    simp only [flushForBargeIn, saturatingAdd, h.generated_eq, h.flushed_eq, hqueued]
    congr 1
    omega
  rw [hplayed]
  congr 1
  rcases Nat.eq_zero_or_pos a.handedNow with hnone | hsome
  · -- nothing of the turn was handed out
    omega
  · obtain ⟨s, hs, hturn⟩ := List.countP_pos_iff.mp hsome
    have hall : ofTurn a.turn a.queued = a.queued.length :=
      ofTurn_eq_length (h.older_gone s hs (of_decide_eq_true hturn))
    omega

/-- What was handed out of the item is of this turn or of an earlier one. -/
theorem Balanced.handedOut_eq (h : a.Balanced) : a.handedOut = a.handedBefore + a.handedNow := by
  have hsplit : ∀ l : List Stamped, (∀ s ∈ l, s.turn = a.turn → s.item = a.audio.itemId) →
      l.countP (fun s => decide (s.item = a.audio.itemId)) =
        l.countP (fun s => decide (s.item = a.audio.itemId ∧ s.turn ≠ a.turn)) + ofTurn a.turn l := by
    intro l hl
    induction l with
    | nil => rfl
    | cons s l ih =>
      have hrest := ih fun t ht => hl t (List.mem_cons_of_mem _ ht)
      rw [ofTurn] at hrest ⊢
      rw [List.countP_cons, List.countP_cons, List.countP_cons, hrest]
      by_cases hturn : s.turn = a.turn
      · have hitem := hl s (by simp) hturn
        simp [hitem, hturn]
        omega
      · simp [hturn]
        omega
  exact hsplit a.handed fun s hs => h.item_eq s (List.mem_append_left _ hs)

/-- **The flush is exact**, after every run in which the item's bytes fit their counter, exactly where neither the
older bytes that were dropped since the item became current nor its bytes of earlier turns make a difference. -/
theorem flush_exact_iff (ops : List Op) (hfits : (run ops).generated ≤ u64Max) :
    (QueuedAudio.run ops QueuedAudio.empty).flushForBargeIn.1 = (run ops).handedOut / 8 ↔
      ((run ops).handedNow - (run ops).droppedOlder) / 8 = ((run ops).handedBefore + (run ops).handedNow) / 8 := by
  have h := balanced_run ops
  rw [← audio_run, h.flush_eq hfits, h.handedOut_eq]

/-- A frame of an item is queued when the next item begins; the caller interrupts both, and a late frame of the
second item is played. -/
def lateAudio : List Op :=
  [.push (some "item-a") (List.replicate 160 1), .discardOverflow, .push (some "item-b") (List.replicate 160 2),
    .discardOverflow, .flushForBargeIn, .push (some "item-b") (List.replicate 160 3), .discardOverflow, .nextFrame]

theorem flush_exact_iff_lateAudio :
    (QueuedAudio.run lateAudio QueuedAudio.empty).flushForBargeIn.1 = (run lateAudio).handedOut / 8 ↔
      ((run lateAudio).handedNow - (run lateAudio).droppedOlder) / 8 =
        ((run lateAudio).handedBefore + (run lateAudio).handedNow) / 8 :=
  flush_exact_iff lateAudio (by decide +kernel)

/-- A frame of the item was played, and the next flush says that nothing was. -/
theorem flush_undercounts :
    (QueuedAudio.run lateAudio QueuedAudio.empty).flushForBargeIn.1 = 0 ∧ (run lateAudio).handedOut / 8 = 20 := by
  decide +kernel

end Account

end AgentVoice.RealtimeVoice

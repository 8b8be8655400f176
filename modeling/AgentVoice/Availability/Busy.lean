import AgentVoice.Availability.Policy
import AgentVoice.Foundations.Result

/-!
# Busy time

The search tests a candidate against the merged busy intervals of both calendars
(`bufferedIsFree`), the submission tests the booked slot against the two raw lists
(`busyOverlaps`). Both are questions about the same set of instants, those that some busy interval
covers: merging keeps that set (`covered_mergeBusyIntervals`), so the two tests agree
(`bufferedIsFree_merge_iff`).
-/

namespace AgentVoice.Availability

open AgentVoice.Foundations HalfOpen

/-- `buffered_is_free`. -/
def bufferedIsFree (candidateStart candidateEnd buffer : ℤ) (busy : List BusyInterval) :
    Except AvailabilityError Bool := do
  let bufferedStart ← checkedAdd candidateStart (-buffer)
  let bufferedEnd ← checkedAdd candidateEnd buffer
  return busy.all fun i => decide (bufferedEnd ≤ i.start) || decide (i.stop ≤ bufferedStart)

/-- `busy_overlaps` of `src/pa/service.rs`. -/
def busyOverlaps (intervals : List BusyInterval) (startsAt endsAt : ℤ) : Bool :=
  intervals.any fun i => decide (i.start < endsAt) && decide (startsAt < i.stop)

/-! ### Merging keeps the covered instants -/

/-- Joining touching intervals, as the merge loop does, is the union of the two. -/
theorem covered_absorb {previous interval : BusyInterval} {rest : List BusyInterval}
    (h : previous.start ≤ interval.start) :
    covered (absorb (previous :: rest) interval) = covered (previous :: rest) ∪ interval.points := by
  simp only [absorb]
  split_ifs with htouch hlonger
  · have hjoin : (⟨previous.start, interval.stop, previous.start_lt_stop.trans hlonger⟩ : BusyInterval) =
        join previous interval := by
      simp [join, max_eq_right hlonger.le]
    rw [hjoin, covered_cons, points_join h htouch, covered_cons, Set.union_right_comm]
  · -- the interval lies inside the previous one
    have hsub : interval.points ⊆ previous.points := Set.Ico_subset_Ico h (not_lt.mp hlonger)
    rw [covered_cons, Set.union_right_comm, Set.union_eq_left.mpr hsub]
  · rw [covered_cons, Set.union_comm]

/-- The loop never moves the start of the last merged interval past the interval it absorbed. -/
theorem head_start_absorb {merged : List BusyInterval} {interval : BusyInterval}
    (h : ∀ p ∈ merged.head?, p.start ≤ interval.start) :
    ∀ p ∈ (absorb merged interval).head?, p.start ≤ interval.start := by
  cases merged with
  | nil => simp [absorb]
  | cons previous rest =>
    have hp : previous.start ≤ interval.start := h previous rfl
    simp only [absorb]
    split_ifs <;> simp [hp]

/-- The loop over intervals in order of their starts, from any merged list that starts before them. -/
theorem covered_foldl_absorb (intervals : List BusyInterval) {merged : List BusyInterval}
    (hsorted : intervals.Pairwise fun a b => a.start ≤ b.start)
    (hhead : ∀ p ∈ merged.head?, ∀ i ∈ intervals, p.start ≤ i.start) :
    covered (intervals.foldl absorb merged) = covered merged ∪ covered intervals := by
  induction intervals generalizing merged with
  | nil => simp
  | cons i intervals ih =>
    obtain ⟨hi, htail⟩ := List.pairwise_cons.mp hsorted
    have hstep : covered (absorb merged i) = covered merged ∪ i.points := by
      cases merged with
      | nil => simp [absorb]
      | cons previous rest => exact covered_absorb (hhead previous rfl i (by simp))
    have hnext : ∀ p ∈ (absorb merged i).head?, ∀ j ∈ intervals, p.start ≤ j.start := fun p hp j hj =>
      (head_start_absorb (fun q hq => hhead q hq i (by simp)) p hp).trans (hi j hj)
    rw [List.foldl_cons, ih htail hnext, hstep, covered_cons, Set.union_assoc]

/-- **Merging keeps the covered instants.** -/
theorem covered_mergeBusyIntervals (outlookBusy googleBusy : List BusyInterval) :
    covered (mergeBusyIntervals outlookBusy googleBusy) = covered outlookBusy ∪ covered googleBusy := by
  set le : BusyInterval → BusyInterval → Bool := fun a b => decide (a.start ≤ b.start) with hle
  set intervals := (outlookBusy ++ googleBusy).mergeSort le with hintervals
  have hsorted : intervals.Pairwise fun a b => a.start ≤ b.start := by
    have htrans : ∀ a b c : BusyInterval, le a b = true → le b c = true → le a c = true := by
      intro a b c hab hbc
      simp only [hle, decide_eq_true_eq] at *
      omega
    have htotal : ∀ a b : BusyInterval, (le a b || le b a) = true := by
      intro a b
      simp only [hle, Bool.or_eq_true, decide_eq_true_eq]
      omega
    have := List.pairwise_mergeSort htrans htotal (outlookBusy ++ googleBusy)
    exact this.imp fun h => by simpa [hle] using h
  have hmerged : covered (mergeBusyIntervals outlookBusy googleBusy) = covered (intervals.foldl absorb []) :=
    covered_congr fun i => by simp [mergeBusyIntervals, hintervals, hle]
  rw [hmerged, covered_foldl_absorb intervals hsorted (by simp), covered_nil, Set.empty_union, ← covered_append]
  exact covered_congr fun i => List.mem_mergeSort

/-! ### The two tests -/

theorem bufferedIsFree_eq {s e buffer : ℤ} (hs : InRange (s - buffer)) (he : InRange (e + buffer))
    (busy : List BusyInterval) :
    bufferedIsFree s e buffer busy = .ok (decide (∀ i ∈ busy, Clear (s - buffer) (e + buffer) i)) := by
  unfold bufferedIsFree
  rw [checkedAdd_of_inRange (u := s) (d := -buffer) hs, checkedAdd_of_inRange he]
  simp only [ok_bind, pure_eq_ok, ← sub_eq_add_neg, Except.ok.injEq]
  rw [Bool.eq_iff_iff, decide_eq_true_iff, List.all_eq_true]
  simp only [Bool.or_eq_true, decide_eq_true_eq, Clear]

theorem bufferedIsFree_eq_true_iff {s e buffer : ℤ} (h : s - buffer < e + buffer) (hs : InRange (s - buffer))
    (he : InRange (e + buffer)) (busy : List BusyInterval) :
    bufferedIsFree s e buffer busy = .ok true ↔
      Disjoint (Set.Ico (s - buffer) (e + buffer)) (covered busy) := by
  rw [bufferedIsFree_eq hs he, Except.ok.injEq, decide_eq_true_iff, forall_clear_iff h]

theorem busyOverlaps_eq_false_iff {a b : ℤ} (h : a < b) (intervals : List BusyInterval) :
    busyOverlaps intervals a b = false ↔ Disjoint (Set.Ico a b) (covered intervals) := by
  rw [← forall_clear_iff h]
  simp only [busyOverlaps, List.any_eq_false, Bool.and_eq_true, decide_eq_true_eq, Clear, not_and]
  exact forall₂_congr fun i _ => by omega

/-- **The search-time test on the merged lists and the raw test on each list agree.** -/
theorem bufferedIsFree_merge_iff {s e buffer : ℤ} (h : s - buffer < e + buffer) (hs : InRange (s - buffer))
    (he : InRange (e + buffer)) (outlookBusy googleBusy : List BusyInterval) :
    bufferedIsFree s e buffer (mergeBusyIntervals outlookBusy googleBusy) = .ok true ↔
      busyOverlaps outlookBusy (s - buffer) (e + buffer) = false ∧
        busyOverlaps googleBusy (s - buffer) (e + buffer) = false := by
  rw [bufferedIsFree_eq_true_iff h hs he, covered_mergeBusyIntervals, Set.disjoint_union_right,
    busyOverlaps_eq_false_iff h, busyOverlaps_eq_false_iff h]

end AgentVoice.Availability

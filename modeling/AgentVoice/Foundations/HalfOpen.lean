import Mathlib.Order.CompletePartialOrder
import Mathlib.Order.Interval.Set.Disjoint

/-!
# Half-open intervals

Non-empty intervals `[start, stop)` over a linear order, the points a list of them covers, and what
it means for a range to keep clear of them. Keeping clear is a statement about the covered points
only (`forall_clear_iff`), so lists that cover the same points answer alike, however they cut them
into intervals. Of the lists that cover the same points, at most one is in ascending order with gaps
between its intervals (`Separated.unique`).
-/

namespace AgentVoice.Foundations

variable {α : Type*} [LinearOrder α]

/-- A non-empty interval `[start, stop)`. -/
@[ext]
structure HalfOpen (α : Type*) [LinearOrder α] where
  start : α
  stop : α
  /-- The interval is not empty. -/
  start_lt_stop : start < stop

namespace HalfOpen

/-- The points of the interval. -/
def points (i : HalfOpen α) : Set α := Set.Ico i.start i.stop

/-- The points covered by a list of intervals. -/
def covered (l : List (HalfOpen α)) : Set α := {x | ∃ i ∈ l, x ∈ i.points}

/-- `[a, b)` ends before the interval starts, or starts after it ends. -/
def Clear (a b : α) (i : HalfOpen α) : Prop := b ≤ i.start ∨ i.stop ≤ a

instance (a b : α) (i : HalfOpen α) : Decidable (Clear a b i) := inferInstanceAs (Decidable (_ ∨ _))

theorem clear_iff_disjoint {a b : α} (h : a < b) (i : HalfOpen α) :
    Clear a b i ↔ Disjoint (Set.Ico a b) i.points := by
  rw [points, Set.Ico_disjoint_Ico, Clear]
  have hi := i.start_lt_stop
  constructor
  · rintro (hb | ha)
    · exact (min_le_left _ _).trans (hb.trans (le_max_right _ _))
    · exact (min_le_right _ _).trans (ha.trans (le_max_left _ _))
  · intro hle
    rcases min_le_iff.mp hle with hb | hs
    · exact Or.inl ((le_max_iff.mp hb).resolve_left (not_le.mpr h))
    · exact Or.inr ((le_max_iff.mp hs).resolve_right (not_le.mpr hi))

/-- **A range is clear of every interval exactly when it misses every covered point.** -/
theorem forall_clear_iff {a b : α} (h : a < b) (l : List (HalfOpen α)) :
    (∀ i ∈ l, Clear a b i) ↔ Disjoint (Set.Ico a b) (covered l) := by
  simp only [clear_iff_disjoint h, Set.disjoint_left, covered, Set.mem_ofPred_eq, not_exists, not_and]
  exact ⟨fun hl x hx i hi => hl i hi hx, fun hl i hi x hx => hl hx i hi⟩

@[simp] theorem covered_nil : covered ([] : List (HalfOpen α)) = ∅ := by simp [covered]

@[simp] theorem covered_cons (i : HalfOpen α) (l : List (HalfOpen α)) :
    covered (i :: l) = i.points ∪ covered l := by
  ext x
  simp [covered]

@[simp] theorem covered_append (l m : List (HalfOpen α)) : covered (l ++ m) = covered l ∪ covered m := by
  ext x
  simp [covered, or_and_right, exists_or]

theorem covered_congr {l m : List (HalfOpen α)} (h : ∀ i, i ∈ l ↔ i ∈ m) : covered l = covered m := by
  ext x
  simp [covered, h]

/-- Two intervals that overlap or touch, the second not starting first, joined into one. -/
def join (i j : HalfOpen α) : HalfOpen α :=
  ⟨i.start, max i.stop j.stop, i.start_lt_stop.trans_le (le_max_left _ _)⟩

theorem points_join {i j : HalfOpen α} (h : i.start ≤ j.start) (htouch : j.start ≤ i.stop) :
    (join i j).points = i.points ∪ j.points := by
  have hi := i.start_lt_stop
  have hj := j.start_lt_stop
  rw [points, points, points, Set.Ico_union_Ico' htouch (h.trans hj.le)]
  simp [join, min_eq_left h]

/-! ### Separated lists -/

/-- Intervals in ascending order that neither overlap nor touch. -/
def Separated (l : List (HalfOpen α)) : Prop := l.Pairwise fun i j => i.stop < j.start

theorem start_mem_points (i : HalfOpen α) : i.start ∈ i.points := ⟨le_rfl, i.start_lt_stop⟩

theorem Separated.sorted {l : List (HalfOpen α)} (h : Separated l) : l.Pairwise fun i j => i.start < j.start :=
  List.Pairwise.imp (fun {i _} hij => i.start_lt_stop.trans hij) h

/-- The first interval of a separated list starts with the first covered point. -/
theorem Separated.start_le {i : HalfOpen α} {l : List (HalfOpen α)} (h : Separated (i :: l)) {x : α}
    (hx : x ∈ covered (i :: l)) : i.start ≤ x := by
  obtain ⟨j, hj, hxj⟩ := hx
  rcases List.mem_cons.mp hj with rfl | hj
  · exact hxj.1
  · have hsep := (List.pairwise_cons.mp h).1 j hj
    exact i.start_lt_stop.le.trans (hsep.le.trans hxj.1)

/-- The point where an interval of a separated list stops is not covered. -/
theorem Separated.stop_not_mem {i : HalfOpen α} {l : List (HalfOpen α)} (h : Separated (i :: l)) :
    i.stop ∉ covered (i :: l) := by
  rintro ⟨j, hj, hxj⟩
  rcases List.mem_cons.mp hj with rfl | hj
  · exact lt_irrefl _ hxj.2
  · exact not_lt.mpr hxj.1 ((List.pairwise_cons.mp h).1 j hj)

/-- What the later intervals of a separated list cover. -/
theorem Separated.covered_tail {i : HalfOpen α} {l : List (HalfOpen α)} (h : Separated (i :: l)) :
    covered l = {x | x ∈ covered (i :: l) ∧ i.stop ≤ x} := by
  ext x
  constructor
  · rintro ⟨j, hj, hxj⟩
    have hsep := (List.pairwise_cons.mp h).1 j hj
    exact ⟨⟨j, List.mem_cons_of_mem _ hj, hxj⟩, hsep.le.trans hxj.1⟩
  · rintro ⟨⟨j, hj, hxj⟩, hstop⟩
    rcases List.mem_cons.mp hj with rfl | hj
    · exact absurd hxj.2 (not_lt.mpr hstop)
    · exact ⟨j, hj, hxj⟩

theorem Separated.stop_le {i j : HalfOpen α} {l m : List (HalfOpen α)} (hi : Separated (i :: l))
    (hstart : i.start = j.start) (hcovered : covered (i :: l) = covered (j :: m)) : j.stop ≤ i.stop := by
  by_contra hlt
  refine hi.stop_not_mem ?_
  rw [hcovered]
  exact ⟨j, List.mem_cons_self, hstart ▸ i.start_lt_stop.le, not_le.mp hlt⟩

/-- **A set of points has at most one separated list of intervals.** -/
theorem Separated.unique {l m : List (HalfOpen α)} (hl : Separated l) (hm : Separated m)
    (hcovered : covered l = covered m) : l = m := by
  induction l generalizing m with
  | nil =>
    cases m with
    | nil => rfl
    | cons j m =>
      have hj : j.start ∈ covered (j :: m) := ⟨j, List.mem_cons_self, j.start_mem_points⟩
      rw [← hcovered, covered_nil] at hj
      exact absurd hj (Set.notMem_empty _)
  | cons i l ih =>
    have hi : i.start ∈ covered (i :: l) := ⟨i, List.mem_cons_self, i.start_mem_points⟩
    cases m with
    | nil =>
      rw [hcovered, covered_nil] at hi
      exact absurd hi (Set.notMem_empty _)
    | cons j m =>
      have hj : j.start ∈ covered (j :: m) := ⟨j, List.mem_cons_self, j.start_mem_points⟩
      have hstart : i.start = j.start := le_antisymm (hl.start_le (hcovered ▸ hj)) (hm.start_le (hcovered ▸ hi))
      have hstop : i.stop = j.stop :=
        le_antisymm (hm.stop_le hstart.symm hcovered.symm) (hl.stop_le hstart hcovered)
      obtain rfl : i = j := HalfOpen.ext hstart hstop
      have htail : covered l = covered m := by rw [hl.covered_tail, hm.covered_tail, hcovered]
      rw [ih (List.pairwise_cons.mp hl).2 (List.pairwise_cons.mp hm).2 htail]

end HalfOpen

end AgentVoice.Foundations

import AgentVoice.Availability.Busy

/-!
# The merged busy list

The merge loop sees the intervals of both calendars in order of their starts. What it has merged so
far is separated, and the next interval starts no earlier than the last merged one (`Merging`); a
touching interval is joined to the last one, any other is put behind it with a gap.

So the merged list is the separated list of the busy instants, and there is only one: it depends
neither on the order of the intervals nor on the calendar they come from, and merging it again
changes nothing (`mergeBusyIntervals_canonical`).
-/

namespace AgentVoice.Availability

open AgentVoice.Foundations HalfOpen

/-! ### The loop -/

/-- What the loop keeps: the merged intervals, last one first, are separated. -/
def Merging (merged : List BusyInterval) : Prop := merged.Pairwise fun j i => i.stop < j.start

theorem merging_nil : Merging [] := List.Pairwise.nil

/-- The last merged interval may grow, since it is compared by its start only. -/
theorem Merging.grow {previous longer : BusyInterval} {rest : List BusyInterval} (h : Merging (previous :: rest))
    (hstart : longer.start = previous.start) : Merging (longer :: rest) := by
  obtain ⟨hprevious, hrest⟩ := List.pairwise_cons.mp h
  refine List.pairwise_cons.mpr ⟨fun i hi => ?_, hrest⟩
  rw [hstart]
  exact hprevious i hi

theorem Merging.absorb {merged : List BusyInterval} {interval : BusyInterval} (h : Merging merged) :
    Merging (absorb merged interval) := by
  cases merged with
  | nil => exact List.pairwise_singleton _ _
  | cons previous rest =>
    simp only [Availability.absorb]
    split_ifs with htouch hlonger
    · exact h.grow rfl
    · exact h
    · -- the gap before the new interval lies behind every earlier one
      have hgap : previous.stop < interval.start := not_le.mp htouch
      refine List.pairwise_cons.mpr ⟨fun i hi => ?_, h⟩
      rcases List.mem_cons.mp hi with rfl | hi
      · exact hgap
      · have hearlier := (List.pairwise_cons.mp h).1 i hi
        exact hearlier.trans (previous.start_lt_stop.trans hgap)

theorem Merging.foldl_absorb {merged : List BusyInterval} (h : Merging merged) (intervals : List BusyInterval) :
    Merging (intervals.foldl Availability.absorb merged) := by
  induction intervals generalizing merged with
  | nil => exact h
  | cons interval intervals ih => exact ih h.absorb

/-! ### The merged list -/

theorem separated_mergeBusyIntervals (outlookBusy googleBusy : List BusyInterval) :
    Separated (mergeBusyIntervals outlookBusy googleBusy) :=
  List.pairwise_reverse.mpr (merging_nil.foldl_absorb _)

/-- **A separated list of the busy instants is the merged list.** -/
theorem mergeBusyIntervals_eq {outlookBusy googleBusy merged : List BusyInterval} (hmerged : Separated merged)
    (hcovered : covered merged = covered outlookBusy ∪ covered googleBusy) :
    mergeBusyIntervals outlookBusy googleBusy = merged :=
  (separated_mergeBusyIntervals _ _).unique hmerged ((covered_mergeBusyIntervals _ _).trans hcovered.symm)

theorem covered_perm {outlookBusy googleBusy busy : List BusyInterval} (h : (outlookBusy ++ googleBusy).Perm busy) :
    covered outlookBusy ∪ covered googleBusy = covered busy := by
  rw [← covered_append]
  exact covered_congr fun i => h.mem_iff

/-- **The merged list is the canonical union.** It is sorted with a gap between any two intervals, it covers what the
two lists cover, any distribution of the same intervals over the two calendars gives the same list, and merging the
merged list again, however it is distributed, gives it back. -/
theorem mergeBusyIntervals_canonical (outlookBusy googleBusy : List BusyInterval) :
    ((mergeBusyIntervals outlookBusy googleBusy).Pairwise fun i j => i.start < j.start) ∧
      ((mergeBusyIntervals outlookBusy googleBusy).Pairwise fun i j => i.stop < j.start) ∧
      covered (mergeBusyIntervals outlookBusy googleBusy) = covered outlookBusy ∪ covered googleBusy ∧
      (∀ outlookBusy' googleBusy', (outlookBusy' ++ googleBusy').Perm (outlookBusy ++ googleBusy) →
        mergeBusyIntervals outlookBusy' googleBusy' = mergeBusyIntervals outlookBusy googleBusy) ∧
      ∀ outlookBusy' googleBusy', (outlookBusy' ++ googleBusy').Perm (mergeBusyIntervals outlookBusy googleBusy) →
        mergeBusyIntervals outlookBusy' googleBusy' = mergeBusyIntervals outlookBusy googleBusy := by
  have hseparated := separated_mergeBusyIntervals outlookBusy googleBusy
  have hcovered := covered_mergeBusyIntervals outlookBusy googleBusy
  refine ⟨hseparated.sorted, hseparated, hcovered, fun outlookBusy' googleBusy' hperm => ?_,
    fun outlookBusy' googleBusy' hperm => ?_⟩
  · refine mergeBusyIntervals_eq hseparated ?_
    rw [hcovered, covered_perm hperm, covered_append]
  · exact mergeBusyIntervals_eq hseparated (covered_perm hperm).symm

end AgentVoice.Availability

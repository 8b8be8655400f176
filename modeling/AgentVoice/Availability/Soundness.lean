import AgentVoice.Availability.Recheck
import AgentVoice.Availability.Specification

/-!
# What the slot search returns may be offered

Whatever the bounds of the search are, and also where it stops at a date that overflows, each slot that it returns is one
that its loops can find, and so one of `slotSpec` (`mem_slotSpec_of_availableSlots`).
-/

namespace AgentVoice.Availability

open AgentVoice.Foundations

namespace Search

variable {q : Search} {date l : ℤ} {window : WorkingWindow} {slots slots' : List ℤ} {flow : Flow}

/-- A pass of the innermost loop adds its candidate or nothing. -/
theorem tryStart_adds (h : q.tryStart date window l slots = .ok (flow, slots')) :
    slots' = slots ∨ ∃ s ∈ q.slotsAt date window l, slots' = slots ++ [s] := by
  unfold tryStart at h
  by_cases hlead : q.roundedLeadLocal ≤ l
  · rw [if_pos hlead] at h
    cases hu : localToUtc q.policy.timezone l with
    | none =>
      rw [hu] at h
      cases h
      exact .inl rfl
    | some u =>
      simp only [hu] at h
      split at h
      · cases h
      · split at h
        · cases h
          exact .inl rfl
        · split at h
          · rename_i hcond
            obtain ⟨free, hfree, h⟩ := bind_eq_ok_iff.mp h
            cases free with
            | false =>
              cases h
              exact .inl rfl
            | true =>
              cases h
              obtain ⟨hs, he⟩ := inRange_of_bufferedIsFree hfree
              rw [bufferedIsFree_eq hs he, Except.ok.injEq, decide_eq_true_iff] at hfree
              exact .inr ⟨u, mem_slotsAt.mpr ⟨hlead, hu, hcond.1, hcond.2.1, hcond.2.2, hfree⟩, rfl⟩
          · cases h
            exact .inl rfl
  · rw [if_neg hlead] at h
    cases h
    exact .inl rfl

/-- Slots that the loops can find on some dates. -/
def Finds (q : Search) (dates : List ℤ) (slots : List ℤ) : Prop := ∀ s ∈ slots, s ∈ dates.flatMap q.dateSlots

theorem finds_scanWindow {dates : List ℤ} (hdate : date ∈ dates) (hwindow : window ∈ q.policy.windows (weekdayOf date))
    (hslots : q.Finds dates slots) (h : q.scanWindow date window slots = .ok (flow, slots')) : q.Finds dates slots' := by
  unfold scanWindow at h
  cases hfirst : ceilWindowGrid date window.startsAt with
  | none =>
    rw [hfirst] at h
    cases h
    exact hslots
  | some first =>
    rw [hfirst] at h
    refine scan_preserves (P := q.Finds dates) (fun l hl slots flow slots' hslots hstep => ?_) hslots h
    rcases tryStart_adds hstep with rfl | ⟨s, hs, rfl⟩
    · exact hslots
    · intro s' hs'
      rcases List.mem_append.mp hs' with hs' | hs'
      · exact hslots s' hs'
      · obtain rfl := List.mem_singleton.mp hs'
        have htimes : l ∈ windowTimes date window := by
          rw [windowTimes, hfirst]
          exact hl
        exact List.mem_flatMap.mpr ⟨date, hdate, List.mem_flatMap.mpr ⟨window, hwindow, List.mem_flatMap.mpr ⟨l, htimes, hs⟩⟩⟩

end Search

variable {policy : AvailabilityPolicy} {now : OffsetDateTime} {duration : ℤ} {outlookBusy googleBusy : List BusyInterval}
  {limit : ℕ} {slots : List ℤ}

/-- The slots of a search are among those that its loops can find. -/
theorem mem_visibleSlots_of_availableSlots
    (h : availableSlots policy now duration outlookBusy googleBusy limit = .ok slots) {s : ℤ} (hs : s ∈ slots) :
    s ∈ visibleSlots policy now.unixNanos duration outlookBusy googleBusy limit := by
  unfold availableSlots at h
  split_ifs at h
  · cases h
    cases hs
  · obtain ⟨horizonEnd, hhorizon, h⟩ := bind_eq_ok_iff.mp h
    obtain ⟨leadTime, hlead, h⟩ := bind_eq_ok_iff.mp h
    rw [checkedAdd_of_inRange (inRange_of_checkedAdd hhorizon)] at hhorizon
    rw [checkedAdd_of_inRange (inRange_of_checkedAdd hlead)] at hlead
    obtain rfl := Except.ok.inj hhorizon
    obtain rfl := Except.ok.inj hlead
    obtain ⟨⟨flow, found⟩, hscan, h⟩ := bind_eq_ok_iff.mp h
    cases h
    simp only [OffsetDateTime.toUtc_unixNanos] at hscan
    refine scan_preserves (P := (searchOf policy now.unixNanos duration outlookBusy googleBusy limit).Finds
      (searchedDates policy now.unixNanos)) (fun date hdate slots flow slots' hslots hstep => ?_)
      (fun _ hnone => absurd hnone List.not_mem_nil) hscan s hs
    exact scan_preserves (P := (searchOf policy now.unixNanos duration outlookBusy googleBusy limit).Finds
      (searchedDates policy now.unixNanos))
      (fun window hwindow _ _ _ hslots hstep => Search.finds_scanWindow hdate hwindow hslots hstep) hslots hstep

/-- **Every slot that a search returns may be offered.** -/
theorem mem_slotSpec_of_availableSlots (hd : 0 < duration)
    (h : availableSlots policy now duration outlookBusy googleBusy limit = .ok slots) {s : ℤ} (hs : s ∈ slots) :
    s ∈ slotSpec policy now.unixNanos duration outlookBusy googleBusy :=
  ((mem_visibleSlots_iff hd).mp (mem_visibleSlots_of_availableSlots h hs)).1

end AgentVoice.Availability

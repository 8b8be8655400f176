import AgentVoice.Availability.Slots

/-!
# The recheck at submission time

Before a booking is created, `submit_request` asks both calendars again and refuses the slot when a
busy interval overlaps the slot with its buffer. `recheck_agrees` compares this with the test of the
search: over the same busy data the two give the same answer, so a slot that was offered is not
refused for a busy reason, and the other way round.
-/

namespace AgentVoice.Availability

open AgentVoice.Foundations

/-- The overlap test of `submit_request`, with its buffered range. -/
def recheckOverlaps (policy : AvailabilityPolicy) (startsAt endsAt : ℤ) (outlookBusy googleBusy : List BusyInterval) :
    Except AvailabilityError Bool := do
  let recheckStart ← checkedAdd startsAt (-policy.meetingBuffer)
  let recheckEnd ← checkedAdd endsAt policy.meetingBuffer
  return busyOverlaps outlookBusy recheckStart recheckEnd || busyOverlaps googleBusy recheckStart recheckEnd

theorem recheckOverlaps_eq {policy : AvailabilityPolicy} {s e : ℤ} (hs : InRange (s - policy.meetingBuffer))
    (he : InRange (e + policy.meetingBuffer)) (outlookBusy googleBusy : List BusyInterval) :
    recheckOverlaps policy s e outlookBusy googleBusy =
      .ok (busyOverlaps outlookBusy (s - policy.meetingBuffer) (e + policy.meetingBuffer) ||
        busyOverlaps googleBusy (s - policy.meetingBuffer) (e + policy.meetingBuffer)) := by
  unfold recheckOverlaps
  rw [checkedAdd_of_inRange (u := s) (d := -policy.meetingBuffer) hs, checkedAdd_of_inRange he]
  simp only [ok_bind, pure_eq_ok, ← sub_eq_add_neg]

/-- Every slot is free over the given busy intervals. -/
def AllFree (duration buffer : ℤ) (busy : List BusyInterval) (slots : List ℤ) : Prop :=
  ∀ s ∈ slots, bufferedIsFree s (s + duration) buffer busy = .ok true

/-- A pass of the innermost loop adds a slot only after testing it. -/
theorem allFree_of_tryStart {q : Search} {date : ℤ} {window : WorkingWindow} {l : ℤ} {slots slots' : List ℤ}
    {flow : Flow} (h : q.tryStart date window l slots = .ok (flow, slots'))
    (hslots : AllFree q.duration q.policy.meetingBuffer q.busy slots) :
    AllFree q.duration q.policy.meetingBuffer q.busy slots' := by
  unfold Search.tryStart at h
  by_cases hlead : q.roundedLeadLocal ≤ l
  · rw [if_pos hlead] at h
    cases hu : localToUtc q.policy.timezone l with
    | none =>
      rw [hu] at h
      cases h
      exact hslots
    | some u =>
      simp only [hu] at h
      split at h
      · cases h
      · split at h
        · cases h
          exact hslots
        · split at h
          · obtain ⟨free, hfree, h⟩ := bind_eq_ok_iff.mp h
            cases free with
            | false =>
              cases h
              exact hslots
            | true =>
              cases h
              intro s hs
              rcases List.mem_append.mp hs with hs | hs
              · exact hslots s hs
              · rw [List.mem_singleton.mp hs]
                exact hfree
          · cases h
            exact hslots
  · rw [if_neg hlead] at h
    cases h
    exact hslots

/-- **Every slot the search returns was free**, over the busy data it was given. -/
theorem allFree_availableSlots {policy : AvailabilityPolicy} {now : OffsetDateTime} {duration : ℤ}
    {outlookBusy googleBusy : List BusyInterval} {limit : ℕ} {slots : List ℤ}
    (h : availableSlots policy now duration outlookBusy googleBusy limit = .ok slots) :
    AllFree duration policy.meetingBuffer (mergeBusyIntervals outlookBusy googleBusy) slots := by
  unfold availableSlots at h
  have hnone : AllFree duration policy.meetingBuffer (mergeBusyIntervals outlookBusy googleBusy) [] := by
    simp [AllFree]
  split_ifs at h
  · cases h
    exact hnone
  · obtain ⟨horizonEnd, hhorizon, h⟩ := bind_eq_ok_iff.mp h
    obtain ⟨leadTime, hlead, h⟩ := bind_eq_ok_iff.mp h
    obtain ⟨⟨flow, found⟩, hscan, h⟩ := bind_eq_ok_iff.mp h
    cases h
    -- each loop preserves that the slots collected so far were free
    refine scan_preserves (P := AllFree _ _ _) (fun date _ slots flow slots' hslots hdate => ?_) hnone hscan
    refine scan_preserves (P := AllFree _ _ _) (fun window _ slots flow slots' hslots hwindow => ?_) hslots hdate
    unfold Search.scanWindow at hwindow
    split at hwindow
    · cases hwindow
      exact hslots
    · exact scan_preserves (P := AllFree _ _ _) (fun l _ slots flow slots' hslots hl => allFree_of_tryStart hl hslots)
        hslots hwindow

/-- A free answer means that the buffered range did not overflow. -/
theorem inRange_of_bufferedIsFree {s e buffer : ℤ} {busy : List BusyInterval} {free : Bool}
    (h : bufferedIsFree s e buffer busy = .ok free) : InRange (s - buffer) ∧ InRange (e + buffer) := by
  obtain ⟨bufferedStart, hstart, h⟩ := bind_eq_ok_iff.mp h
  obtain ⟨bufferedEnd, hend, -⟩ := bind_eq_ok_iff.mp h
  exact ⟨inRange_of_checkedAdd hstart, inRange_of_checkedAdd hend⟩

/-- **Search and recheck agree.** For a candidate of positive duration whose buffered range does not
overflow, the search accepts it over the merged busy intervals exactly when the raw test finds no
overlap on either calendar; and a slot that a search with this buffer returned is not refused by the
recheck over the same busy data. -/
theorem recheck_agrees (outlookBusy googleBusy : List BusyInterval) {start duration buffer : ℤ}
    (hduration : 0 < duration) (hbuffer : 0 ≤ buffer) (hs : InRange (start - buffer))
    (he : InRange (start + duration + buffer)) :
    (bufferedIsFree start (start + duration) buffer (mergeBusyIntervals outlookBusy googleBusy) = .ok true ↔
      busyOverlaps outlookBusy (start - buffer) (start + duration + buffer) = false ∧
        busyOverlaps googleBusy (start - buffer) (start + duration + buffer) = false) ∧
    ∀ policy : AvailabilityPolicy, policy.meetingBuffer = buffer →
      (bufferedIsFree start (start + duration) buffer (mergeBusyIntervals outlookBusy googleBusy) = .ok true ↔
        recheckOverlaps policy start (start + duration) outlookBusy googleBusy = .ok false) ∧
      ∀ now limit slots, availableSlots policy now duration outlookBusy googleBusy limit = .ok slots →
        start ∈ slots → recheckOverlaps policy start (start + duration) outlookBusy googleBusy = .ok false := by
  have hrange : start - buffer < start + duration + buffer := by omega
  have hagree := bufferedIsFree_merge_iff hrange hs he outlookBusy googleBusy
  refine ⟨hagree, ?_⟩
  rintro policy rfl
  have hrecheck : bufferedIsFree start (start + duration) policy.meetingBuffer
        (mergeBusyIntervals outlookBusy googleBusy) = .ok true ↔
      recheckOverlaps policy start (start + duration) outlookBusy googleBusy = .ok false := by
    rw [hagree, recheckOverlaps_eq hs he, Except.ok.injEq, Bool.or_eq_false_iff]
  exact ⟨hrecheck, fun now limit slots hslots hmem => hrecheck.mp (allFree_availableSlots hslots start hmem)⟩

/-- A quarter of an hour with five minutes of buffer, between two busy intervals that touch its
buffered range. -/
theorem recheck_agrees_touching :
    bufferedIsFree 0 (0 + 900 * second) (300 * second)
      (mergeBusyIntervals [⟨-900 * second, -300 * second, by decide⟩] [⟨1200 * second, 1800 * second, by decide⟩]) =
        .ok true :=
  (recheck_agrees _ _ (by decide) (by decide) (by decide) (by decide)).1.mpr ⟨by decide, by decide⟩

end AgentVoice.Availability

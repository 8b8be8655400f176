import AgentVoice.Availability.Policy
import Mathlib

/-!
# The policy's table of windows

The windows of a policy come as entries of a weekday and a list, in any order, a weekday as often as
the caller likes. `AvailabilityPolicy::new` sorts each entry, appends it to its weekday, sorts the
weekday again, and then looks at neighbours only.

The table of a weekday holds all windows given for it (`sortWindows_indexWindows_perm`), by their
start. In such a list, neighbours that keep clear of each other and windows that share no time of
day are one thing (`noNeighboursOverlap_iff_pairwise`), and the second does not depend on the order.
-/

namespace AgentVoice.Availability

open AgentVoice.Foundations

/-- All windows given for a weekday, as they were given. -/
def givenWindows (windows : List (Weekday × List WorkingWindow)) (w : Weekday) : List WorkingWindow :=
  (windows.filter fun entry => entry.1 = w).flatMap fun entry => entry.2

namespace WorkingWindow

/-- A time of day, in nanoseconds since midnight, lies in the window. -/
def Covers (a : WorkingWindow) (t : ℕ) : Prop := a.startsAt.nanos ≤ t ∧ t < a.endsAt.nanos

/-- Two windows share a time of day. -/
def Overlaps (a b : WorkingWindow) : Prop := ∃ t, a.Covers t ∧ b.Covers t

/-- One window is over when the other begins. -/
def Before (a b : WorkingWindow) : Prop := a.endsAt.nanos ≤ b.startsAt.nanos

theorem Overlaps.symm {a b : WorkingWindow} (h : a.Overlaps b) : b.Overlaps a := by
  obtain ⟨t, ha, hb⟩ := h
  exact ⟨t, hb, ha⟩

theorem Before.not_overlaps {a b : WorkingWindow} (h : a.Before b) : ¬a.Overlaps b := by
  rintro ⟨t, ha, hb⟩
  exact absurd (ha.2.trans_le h) (not_lt.mpr hb.1)

/-- Of two windows without a common time of day, the one that starts first is over first. -/
theorem before_of_not_overlaps {a b : WorkingWindow} (hstart : a.startsAt.nanos ≤ b.startsAt.nanos)
    (h : ¬a.Overlaps b) : a.Before b := by
  by_contra hover
  exact h ⟨b.startsAt.nanos, ⟨hstart, not_le.mp hover⟩, ⟨le_rfl, b.start_lt_end⟩⟩

/-- Windows are not empty, so two of them are not both before each other. -/
theorem Before.asymm {a b : WorkingWindow} (hab : a.Before b) (hba : b.Before a) : False := by
  have ha := a.start_lt_end
  have hb := b.start_lt_end
  simp only [Before] at hab hba
  omega

end WorkingWindow

/-! ### Sorting -/

theorem sortWindows_perm (ws : List WorkingWindow) : (sortWindows ws).Perm ws := List.mergeSort_perm _ _

/-- `sort_by_key` leaves the list in the order of its keys. -/
theorem sortWindows_sorted (ws : List WorkingWindow) :
    (sortWindows ws).Pairwise fun a b => a.startsAt.nanos ≤ b.startsAt.nanos := by
  have hsorted : (sortWindows ws).Pairwise fun a b => decide (a.startsAt.nanos ≤ b.startsAt.nanos) :=
    List.pairwise_mergeSort
      (fun a b c hab hbc => decide_eq_true ((of_decide_eq_true hab).trans (of_decide_eq_true hbc)))
      (fun a b => by simpa using le_total a.startsAt.nanos b.startsAt.nanos) ws
  exact hsorted.imp fun h => of_decide_eq_true h

/-- The loop over the entries, from any table of the weekday. -/
theorem indexWindows_foldl_perm (windows : List (Weekday × List WorkingWindow)) (w : Weekday)
    (acc : List WorkingWindow) :
    (windows.foldl (fun acc entry => if entry.1 = w then acc ++ sortWindows entry.2 else acc) acc).Perm
      (acc ++ givenWindows windows w) := by
  induction windows generalizing acc with
  | nil => simp [givenWindows]
  | cons entry windows ih =>
    rw [List.foldl_cons]
    refine (ih _).trans ?_
    by_cases hw : entry.1 = w
    · rw [if_pos hw]
      have hgiven : givenWindows (entry :: windows) w = entry.2 ++ givenWindows windows w := by
        simp [givenWindows, hw]
      rw [hgiven, ← List.append_assoc]
      exact ((sortWindows_perm entry.2).append_left acc).append_right _
    · rw [if_neg hw]
      have hgiven : givenWindows (entry :: windows) w = givenWindows windows w := by
        simp [givenWindows, hw]
      rw [hgiven]

/-- A weekday's list holds the windows given for it, each as often as it was given. -/
theorem sortWindows_indexWindows_perm (windows : List (Weekday × List WorkingWindow)) (w : Weekday) :
    (sortWindows (indexWindows windows w)).Perm (givenWindows windows w) :=
  (sortWindows_perm _).trans (indexWindows_foldl_perm windows w [])

/-! ### Neighbours -/

theorem noNeighboursOverlap_of_pairwise {ws : List WorkingWindow}
    (h : ws.Pairwise WorkingWindow.Before) : NoNeighboursOverlap ws := by
  induction h with
  | nil => trivial
  | @cons a ws hbefore _ ih =>
    cases ws with
    | nil => trivial
    | cons b rest => exact ⟨hbefore b List.mem_cons_self, ih⟩

/-- In a list sorted by start, looking at the neighbours finds every overlap, nested windows and equal
starts included. -/
theorem noNeighboursOverlap_iff_pairwise {ws : List WorkingWindow}
    (hsorted : ws.Pairwise fun a b => a.startsAt.nanos ≤ b.startsAt.nanos) :
    NoNeighboursOverlap ws ↔ ws.Pairwise fun a b => ¬a.Overlaps b := by
  constructor
  · intro h
    exact h.pairwise.imp fun hbefore => WorkingWindow.Before.not_overlaps hbefore
  · intro h
    refine noNeighboursOverlap_of_pairwise ?_
    exact hsorted.imp₂ (fun _ _ hstart hclear => WorkingWindow.before_of_not_overlaps hstart hclear) h

/-- The check of `new` on a weekday's list, in terms of the windows as they were given. -/
theorem noNeighboursOverlap_iff_given (windows : List (Weekday × List WorkingWindow)) (w : Weekday) :
    NoNeighboursOverlap (sortWindows (indexWindows windows w)) ↔
      (givenWindows windows w).Pairwise fun a b => ¬a.Overlaps b := by
  rw [noNeighboursOverlap_iff_pairwise (sortWindows_sorted _)]
  exact (sortWindows_indexWindows_perm windows w).pairwise_iff fun h hover => h hover.symm

/-- Lists of the same windows, each before the ones that follow it, are the same list. -/
theorem eq_of_perm_of_before {l m : List WorkingWindow} (hl : l.Pairwise WorkingWindow.Before)
    (hm : m.Pairwise WorkingWindow.Before) (hperm : l.Perm m) : l = m :=
  hperm.eq_of_pairwise (fun _ _ _ _ hab hba => (hab.asymm hba).elim) hl hm

/-! ### The constructor -/

section New

variable (parseTimezone : String → Option Zone) (timezone : String)
  (windows : List (Weekday × List WorkingWindow)) (minimumNotice bookingHorizon meetingBuffer : ℤ)

/-- What the constructor asks of its arguments. -/
def PolicyAccepted : Prop :=
  (parseTimezone (trim timezone)).isSome ∧ 0 ≤ minimumNotice ∧ 0 < bookingHorizon ∧ 0 ≤ meetingBuffer ∧
    ∀ w, (givenWindows windows w).Pairwise fun a b => ¬a.Overlaps b

theorem AvailabilityPolicy.new_ok_iff :
    (∃ policy, AvailabilityPolicy.new parseTimezone timezone windows minimumNotice bookingHorizon
      meetingBuffer = .ok policy) ↔
      PolicyAccepted parseTimezone timezone windows minimumNotice bookingHorizon meetingBuffer := by
  unfold AvailabilityPolicy.new PolicyAccepted
  simp only [← noNeighboursOverlap_iff_given]
  cases parseTimezone (trim timezone) with
  | none => simp
  | some zone =>
    by_cases hn : minimumNotice < 0
    · simp [hn, not_le.mpr hn]
    by_cases hh : bookingHorizon ≤ 0
    · simp [hn, hh, not_lt.mpr hh]
    by_cases hb : meetingBuffer < 0
    · simp [hn, hh, hb, not_le.mpr hb]
    by_cases hw : ∀ w, NoNeighboursOverlap (sortWindows (indexWindows windows w))
    · simp [hn, hh, hb, hw, not_lt.mp hn, not_le.mp hh, not_lt.mp hb]
    · simp [hn, hh, hb, hw]

/-- A policy keeps the table that was checked. -/
theorem AvailabilityPolicy.windows_of_new {policy : AvailabilityPolicy}
    (h : AvailabilityPolicy.new parseTimezone timezone windows minimumNotice bookingHorizon
      meetingBuffer = .ok policy) (w : Weekday) :
    policy.windows w = sortWindows (indexWindows windows w) := by
  unfold AvailabilityPolicy.new at h
  cases hzone : parseTimezone (trim timezone) with
  | none =>
    simp only [hzone] at h
    cases h
  | some zone =>
    simp only [hzone] at h
    split_ifs at h with hn hh hb hw
    cases h
    rfl

/-- Entries that give every weekday the same windows make the same policy, or fail alike. -/
theorem AvailabilityPolicy.new_congr {reordered : List (Weekday × List WorkingWindow)}
    (h : ∀ w, (givenWindows reordered w).Perm (givenWindows windows w)) :
    AvailabilityPolicy.new parseTimezone timezone reordered minimumNotice bookingHorizon meetingBuffer =
      AvailabilityPolicy.new parseTimezone timezone windows minimumNotice bookingHorizon
        meetingBuffer := by
  have hcheck : ∀ w, NoNeighboursOverlap (sortWindows (indexWindows reordered w)) ↔
      NoNeighboursOverlap (sortWindows (indexWindows windows w)) := by
    intro w
    rw [noNeighboursOverlap_iff_given, noNeighboursOverlap_iff_given]
    exact (h w).pairwise_iff fun hclear hover => hclear hover.symm
  by_cases hw : ∀ w, NoNeighboursOverlap (sortWindows (indexWindows windows w))
  · have htable : ∀ w, sortWindows (indexWindows reordered w) = sortWindows (indexWindows windows w) := by
      intro w
      refine eq_of_perm_of_before ((hcheck w).mpr (hw w)).pairwise (hw w).pairwise ?_
      exact (sortWindows_indexWindows_perm reordered w).trans
        ((h w).trans (sortWindows_indexWindows_perm windows w).symm)
    simp only [AvailabilityPolicy.new, htable]
  · have hw' : ¬∀ w, NoNeighboursOverlap (sortWindows (indexWindows reordered w)) := by
      simpa only [hcheck] using hw
    unfold AvailabilityPolicy.new
    cases hzone : parseTimezone (trim timezone) with
    | none => simp only [hzone]
    | some zone => simp only [hzone, dif_neg hw, dif_neg hw']

/-- The constructor succeeds exactly when it should, a weekday's list is then all windows given for
it, each over before the next begins, and the order in which windows are given does not matter. -/
theorem AvailabilityPolicy.new_normalises :
    ((∃ policy, AvailabilityPolicy.new parseTimezone timezone windows minimumNotice bookingHorizon
        meetingBuffer = .ok policy) ↔
      PolicyAccepted parseTimezone timezone windows minimumNotice bookingHorizon meetingBuffer) ∧
    (∀ policy, AvailabilityPolicy.new parseTimezone timezone windows minimumNotice bookingHorizon
        meetingBuffer = .ok policy →
      ∀ w, (policy.windows w).Perm (givenWindows windows w) ∧
        (policy.windows w).Pairwise WorkingWindow.Before) ∧
    ∀ reordered, (∀ w, (givenWindows reordered w).Perm (givenWindows windows w)) →
      AvailabilityPolicy.new parseTimezone timezone reordered minimumNotice bookingHorizon
          meetingBuffer =
        AvailabilityPolicy.new parseTimezone timezone windows minimumNotice bookingHorizon
          meetingBuffer := by
  refine ⟨new_ok_iff _ _ _ _ _ _, fun policy hnew w => ⟨?_, policy.windows_disjoint w⟩, ?_⟩
  · rw [windows_of_new _ _ _ _ _ _ hnew w]
    exact sortWindows_indexWindows_perm windows w
  · intro reordered h
    exact new_congr _ _ _ _ _ _ h

end New

end AgentVoice.Availability

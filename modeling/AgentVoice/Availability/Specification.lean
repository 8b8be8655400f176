import AgentVoice.Availability.Slots
import AgentVoice.Foundations.FirstElements
import Mathlib.Data.Int.Interval

/-!
# What the slot search should return, and when it does

`slotSpec` is the set of instants that may be offered, in declarative form: earliest occurrences of
grid times in working windows, within notice and horizon, ending inside the window, clear of both
calendars. The search should return the first `limit` of them in ascending order.

The loops visit candidates in the order of the *local* clock and bound them by local dates and the
local lead time, so what they see is the part of the specification that these local filters pass
(`Visible`), in local order. `availableSlots_isFirst_iff` says exactly when that is the same thing:
each of the first slots passes the local filters, and no later slot is earlier on the local clock.
When the clock is set back across midnight the last slots before the change lie on a local date
after the last date of the loop; `availableSlots_misses_slot` shows one on such a night.
-/

namespace AgentVoice.Availability

open AgentVoice.Foundations

variable (policy : AvailabilityPolicy) (now duration : ℤ) (outlookBusy googleBusy : List BusyInterval)

/-! ### The specification -/

/-- The instants that may be offered. -/
def slotSpec : Set ℤ :=
  {s | ∃ l, IsLeast {u | policy.timezone.toLocal u = l} s ∧ l % quarter = 0 ∧
    ∃ window ∈ policy.windows (weekdayOf (dateOf l)),
      atTime (dateOf l) window.startsAt.nanos ≤ l ∧ l < atTime (dateOf l) window.endsAt.nanos ∧
      now + policy.minimumNotice ≤ s ∧ s + duration ≤ now + policy.bookingHorizon ∧
      dateOf (policy.timezone.toLocal (s + duration)) = dateOf l ∧
      policy.timezone.toLocal (s + duration) ≤ atTime (dateOf l) window.endsAt.nanos ∧
      (∀ w, IsLeast {u | policy.timezone.toLocal u = atTime (dateOf l) window.endsAt.nanos} w →
        s + duration ≤ w) ∧
      ∀ i, i ∈ outlookBusy ∨ i ∈ googleBusy →
        Disjoint (Set.Ico (s - policy.meetingBuffer) (s + duration + policy.meetingBuffer)) i.points}

/-- What the local filters of the loops let pass: a local start on one of the searched dates, and
not before the rounded local lead time. -/
def Visible (s : ℤ) : Prop :=
  ceilLocalGrid (policy.timezone.toLocal (now + policy.minimumNotice)) ≤ policy.timezone.toLocal s ∧
    dateOf (policy.timezone.toLocal now) ≤ dateOf (policy.timezone.toLocal s) ∧
    dateOf (policy.timezone.toLocal s) ≤ dateOf (policy.timezone.toLocal (now + policy.bookingHorizon))

instance (s : ℤ) : Decidable (Visible policy now s) := inferInstanceAs (Decidable (_ ∧ _))

/-- The dates of the outermost loop. -/
def searchedDates : List ℤ :=
  dateRange (dateOf (policy.timezone.toLocal now))
    (dateOf (policy.timezone.toLocal (now + policy.bookingHorizon)))

/-- The search that `availableSlots` runs. -/
def searchOf (limit : ℕ) : Search where
  policy
  duration
  leadTime := now + policy.minimumNotice
  horizonEnd := now + policy.bookingHorizon
  roundedLeadLocal := ceilLocalGrid (policy.timezone.toLocal (now + policy.minimumNotice))
  busy := mergeBusyIntervals outlookBusy googleBusy
  limit

/-- The search stays inside the supported range of dates. -/
def NoDateOverflow : Prop :=
  InRange (now + policy.bookingHorizon) ∧ InRange (now + policy.minimumNotice) ∧
    ∀ u, dateOf (policy.timezone.toLocal u) ∈ searchedDates policy now →
      InRange u ∧ InRange (u + duration) ∧ InRange (u - policy.meetingBuffer) ∧
        InRange (u + duration + policy.meetingBuffer)

/-- All slots the loops can find, in the order in which they find them. -/
def visibleSlots (limit : ℕ) : List ℤ :=
  (searchedDates policy now).flatMap (searchOf policy now duration outlookBusy googleBusy limit).dateSlots

variable {policy now duration outlookBusy googleBusy}

/-- **The search returns the first `limit` slots its loops can find.** -/
theorem availableSlots_eq {start : OffsetDateTime} (hd : 0 < duration)
    (hno : NoDateOverflow policy start.unixNanos duration) (limit : ℕ) :
    availableSlots policy start duration outlookBusy googleBusy limit =
      .ok ((visibleSlots policy start.unixNanos duration outlookBusy googleBusy limit).take limit) := by
  obtain ⟨hhorizon, hlead, hsearch⟩ := hno
  unfold availableSlots
  rw [if_neg (not_le.mpr hd)]
  by_cases hlimit : limit = 0
  · rw [if_pos hlimit, hlimit, List.take_zero]
  · rw [if_neg hlimit]
    simp only [OffsetDateTime.toUtc_unixNanos]
    rw [checkedAdd_of_inRange hhorizon, checkedAdd_of_inRange hlead]
    have hsearch' : (searchOf policy start.unixNanos duration outlookBusy googleBusy limit).NoOverflow
        (searchedDates policy start.unixNanos) := hsearch
    have hcollects : Collects limit (searchOf policy start.unixNanos duration outlookBusy googleBusy limit).dateSlots
        (searchOf policy start.unixNanos duration outlookBusy googleBusy limit).scanDate
        (searchedDates policy start.unixNanos) :=
      fun date hdate acc hacc => Search.scanDate_eq hsearch' hdate hacc
    have hroom : ([] : List ℤ).length < limit := Nat.pos_of_ne_zero hlimit
    have hscan := hcollects.scan hroom
    simp only [searchOf, searchedDates] at hscan
    simp only [ok_bind, pure_eq_ok, hscan, collected_snd, List.nil_append, visibleSlots, searchedDates, searchOf]

/-! ### The slots the loops can find -/

theorem candidateEndsWithin_iff {timezone : Zone} {date u : ℤ} {windowEnd : TimeOfDay} :
    candidateEndsWithinWorkingWindow timezone date windowEnd u = true ↔
      dateOf (timezone.toLocal u) = date ∧ timezone.toLocal u ≤ atTime date windowEnd.nanos ∧
        ∀ w, IsLeast {v | timezone.toLocal v = atTime date windowEnd.nanos} w → u ≤ w := by
  have hlocal : dateOf (timezone.toLocal u) ≠ date ∨ windowEnd.nanos < (timeOf (timezone.toLocal u)).nanos ↔
      ¬ (dateOf (timezone.toLocal u) = date ∧ timezone.toLocal u ≤ atTime date windowEnd.nanos) := by
    simp only [dateOf, timeOf, atTime, nanosPerDay]
    omega
  simp only [candidateEndsWithinWorkingWindow, hlocal, ← localToUtc_eq_some_iff]
  by_cases h : dateOf (timezone.toLocal u) = date ∧ timezone.toLocal u ≤ atTime date windowEnd.nanos
  · rw [if_neg (not_not.mpr h)]
    cases localToUtc timezone (atTime date windowEnd.nanos) <;> simp [h]
  · rw [if_pos h]
    simp only [Bool.false_eq_true, false_iff]
    exact fun h' => h ⟨h'.1, h'.2.1⟩

/-- A slot of the loops, in the terms of the specification. -/
theorem mem_slotsAt_iff (hd : 0 < duration) {limit : ℕ} {date l s : ℤ} {window : WorkingWindow} :
    s ∈ (searchOf policy now duration outlookBusy googleBusy limit).slotsAt date window l ↔
      ceilLocalGrid (policy.timezone.toLocal (now + policy.minimumNotice)) ≤ l ∧
        IsLeast {u | policy.timezone.toLocal u = l} s ∧
        now + policy.minimumNotice ≤ s ∧ s + duration ≤ now + policy.bookingHorizon ∧
        (dateOf (policy.timezone.toLocal (s + duration)) = date ∧
          policy.timezone.toLocal (s + duration) ≤ atTime date window.endsAt.nanos ∧
          ∀ w, IsLeast {u | policy.timezone.toLocal u = atTime date window.endsAt.nanos} w → s + duration ≤ w) ∧
        ∀ i, i ∈ outlookBusy ∨ i ∈ googleBusy →
          Disjoint (Set.Ico (s - policy.meetingBuffer) (s + duration + policy.meetingBuffer)) i.points := by
  have hfree : (∀ i ∈ mergeBusyIntervals outlookBusy googleBusy,
        HalfOpen.Clear (s - policy.meetingBuffer) (s + duration + policy.meetingBuffer) i) ↔
      ∀ i, i ∈ outlookBusy ∨ i ∈ googleBusy →
        Disjoint (Set.Ico (s - policy.meetingBuffer) (s + duration + policy.meetingBuffer)) i.points := by
    have hb := policy.meetingBuffer_nonneg
    have hlt : s - policy.meetingBuffer < s + duration + policy.meetingBuffer := by omega
    rw [HalfOpen.forall_clear_iff hlt, covered_mergeBusyIntervals, ← HalfOpen.covered_append,
      ← HalfOpen.forall_clear_iff hlt]
    simp only [List.mem_append, HalfOpen.clear_iff_disjoint hlt]
  rw [← localToUtc_eq_some_iff, ← candidateEndsWithin_iff, ← hfree]
  exact Search.mem_slotsAt

/-- The windows of the searched dates, grid time by grid time. -/
theorem mem_visibleSlots_iff (hd : 0 < duration) {limit : ℕ} {s : ℤ} :
    s ∈ visibleSlots policy now duration outlookBusy googleBusy limit ↔
      s ∈ slotSpec policy now duration outlookBusy googleBusy ∧ Visible policy now s := by
  simp only [visibleSlots, Search.dateSlots, Search.windowSlots, List.mem_flatMap, mem_slotsAt_iff hd]
  constructor
  · rintro ⟨date, hdate, window, hwindow, l, hl, hlead, hleast, hnotice, hhorizon, ⟨hsame, hend, hfirst⟩, hclear⟩
    obtain ⟨h1, h2, h3⟩ := Search.mem_windowTimes.mp hl
    obtain rfl := Search.dateOf_mem_windowTimes hl
    have hlocal : policy.timezone.toLocal s = l := hleast.1
    refine ⟨⟨l, hleast, h3, window, hwindow, h1, h2, hnotice, hhorizon, hsame, hend, hfirst, hclear⟩, ?_⟩
    rw [Visible, hlocal]
    exact ⟨hlead, mem_dateRange.mp hdate⟩
  · rintro ⟨⟨l, hleast, h3, window, hwindow, h1, h2, hnotice, hhorizon, hsame, hend, hfirst, hclear⟩, hvisible⟩
    have hlocal : policy.timezone.toLocal s = l := hleast.1
    rw [Visible, hlocal] at hvisible
    exact ⟨dateOf l, mem_dateRange.mpr hvisible.2, window, hwindow, l, Search.mem_windowTimes.mpr ⟨h1, h2, h3⟩,
      hvisible.1, hleast, hnotice, hhorizon, ⟨hsame, hend, hfirst⟩, hclear⟩

/-- The loops run forward on the local clock. -/
theorem pairwise_visibleSlots (hd : 0 < duration) (limit : ℕ) :
    (visibleSlots policy now duration outlookBusy googleBusy limit).Pairwise fun x y =>
      policy.timezone.toLocal x < policy.timezone.toLocal y := by
  set q := searchOf policy now duration outlookBusy googleBusy limit with hq
  have hlocal : ∀ {date window l x}, x ∈ q.slotsAt date window l → policy.timezone.toLocal x = l :=
    fun hx => ((mem_slotsAt_iff hd).mp hx).2.1.1
  have hwindow : ∀ {date window x}, x ∈ q.windowSlots date window →
      policy.timezone.toLocal x ∈ Search.windowTimes date window := by
    intro date window x hx
    obtain ⟨l, hl, hxl⟩ := List.mem_flatMap.mp hx
    rwa [hlocal hxl]
  have hdateOf : ∀ {date x}, x ∈ q.dateSlots date → dateOf (policy.timezone.toLocal x) = date := by
    intro date x hx
    obtain ⟨window, -, hxw⟩ := List.mem_flatMap.mp hx
    exact Search.dateOf_mem_windowTimes (hwindow hxw)
  -- within one window the grid is ascending
  have hin : ∀ date window, (q.windowSlots date window).Pairwise fun x y =>
      policy.timezone.toLocal x < policy.timezone.toLocal y := by
    intro date window
    refine List.pairwise_flatMap.mpr ⟨fun l _ => q.slotsAt_pairwise date l window _, ?_⟩
    refine (Search.windowTimes_pairwise date window).imp fun {l m} hlm x hx y hy => ?_
    rw [hlocal hx, hlocal hy]
    exact hlm
  -- the windows of one date follow each other, and so do the dates
  refine List.pairwise_flatMap.mpr ⟨fun date _ => List.pairwise_flatMap.mpr ⟨fun window _ => hin date window, ?_⟩, ?_⟩
  · refine (policy.windows_disjoint (weekdayOf date)).imp fun {a b} hab x hx y hy => ?_
    obtain ⟨-, hxa, -⟩ := Search.mem_windowTimes.mp (hwindow hx)
    obtain ⟨hyb, -, -⟩ := Search.mem_windowTimes.mp (hwindow hy)
    simp only [atTime] at hxa hyb
    omega
  · refine (pairwise_dateRange _ _).imp fun {d e} hde x hx y hy => ?_
    have h1 := hdateOf hx
    have h2 := hdateOf hy
    simp only [dateOf, nanosPerDay] at h1 h2
    omega

theorem slotSpec_finite : (slotSpec policy now duration outlookBusy googleBusy).Finite := by
  refine (Set.finite_Icc (now + policy.minimumNotice) (now + policy.bookingHorizon - duration)).subset ?_
  rintro s ⟨l, -, -, window, -, -, -, hnotice, hhorizon, -⟩
  exact ⟨hnotice, by omega⟩

/-! ### When the search returns what it should -/

/-- The slots the loops can find, cut after `limit`, against the specification. -/
theorem take_visibleSlots_isFirst_iff (hd : 0 < duration) (limit : ℕ) :
    IsFirst limit (slotSpec policy now duration outlookBusy googleBusy)
        ((visibleSlots policy now duration outlookBusy googleBusy limit).take limit) ↔
      ∀ s, AmongFirst limit (slotSpec policy now duration outlookBusy googleBusy) s →
        Visible policy now s ∧
          ∀ s' ∈ slotSpec policy now duration outlookBusy googleBusy, Visible policy now s' → s < s' →
            policy.timezone.toLocal s < policy.timezone.toLocal s' := by
  have hmem : ∀ x, x ∈ visibleSlots policy now duration outlookBusy googleBusy limit ↔
      x ∈ slotSpec policy now duration outlookBusy googleBusy ∧ Visible policy now x :=
    fun x => mem_visibleSlots_iff hd
  rw [isFirst_take_iff policy.timezone.toLocal slotSpec_finite (pairwise_visibleSlots hd limit)
    fun x hx => ((hmem x).mp hx).1]
  simp only [hmem]
  refine forall₂_congr fun s hs => ?_
  have hspec : s ∈ slotSpec policy now duration outlookBusy googleBusy := by
    obtain ⟨r, hr, hsr⟩ := hs
    exact hr.mem s hsr
  exact ⟨fun ⟨h1, h2⟩ => ⟨h1.2, fun s' hs' hv hlt => h2 s' ⟨hs', hv⟩ hlt⟩,
    fun ⟨h1, h2⟩ => ⟨⟨hspec, h1⟩, fun s' hs' hlt => h2 s' hs'.1 hs'.2 hlt⟩⟩

/-- **Exactly when the search returns the first `limit` slots.** The result of the search lists the
first `limit` elements of the specification in ascending order if and only if each of these first
elements passes the local filters, and no later slot that passes them is earlier, or at the same
time, on the local clock. -/
theorem availableSlots_isFirst_iff {start : OffsetDateTime} (hd : 0 < duration)
    (hno : NoDateOverflow policy start.unixNanos duration) (limit : ℕ) :
    (∃ slots, availableSlots policy start duration outlookBusy googleBusy limit = .ok slots ∧
        IsFirst limit (slotSpec policy start.unixNanos duration outlookBusy googleBusy) slots) ↔
      ∀ s, AmongFirst limit (slotSpec policy start.unixNanos duration outlookBusy googleBusy) s →
        Visible policy start.unixNanos s ∧
          ∀ s' ∈ slotSpec policy start.unixNanos duration outlookBusy googleBusy,
            Visible policy start.unixNanos s' → s < s' →
              policy.timezone.toLocal s < policy.timezone.toLocal s' := by
  rw [availableSlots_eq hd hno]
  simp only [Except.ok.injEq, exists_eq_left']
  exact take_visibleSlots_isFirst_iff hd limit

/-! ### A night on which a slot is missed -/

/-- A zone with one clock change, at the instant `change`. -/
def Zone.withChange (change before after : ℤ) : Zone where
  offset u := if u < change then before else after
  fromLocal l :=
    if l - before * second < change then
      if change ≤ l - after * second then .ambiguous (l - before * second) (l - after * second)
      else .single (l - before * second)
    else if change ≤ l - after * second then .single (l - after * second)
    else .none
  mem_fromLocal l u := by
    split_ifs <;> simp only [LocalResult.instants, List.mem_cons, List.not_mem_nil, or_false, false_iff] <;> omega

/-- Antarctica/Casey around 4 March 2010, 15:00 UTC, when its clocks went from +11:00 back to +08:00
and so from Friday 02:00 to Thursday 23:00. -/
def casey : Zone := Zone.withChange (1267714800 * second) 39600 28800

/-- Midnight to two o'clock. -/
def afterMidnight : WorkingWindow := ⟨.midnight, ⟨7200000000000, by decide⟩, by decide⟩

/-- A policy that works on Fridays after midnight and looks three and a half hours ahead. -/
def caseyPolicy : AvailabilityPolicy where
  timezoneName := "Antarctica/Casey"
  timezone := casey
  windows w := if w = .fri then [afterMidnight] else []
  minimumNotice := 0
  bookingHorizon := 12600 * second
  meetingBuffer := 0
  windows_disjoint w := by
    split
    · exact List.pairwise_singleton _ _
    · exact List.Pairwise.nil
  minimumNotice_nonneg := le_rfl
  bookingHorizon_pos := by decide
  meetingBuffer_nonneg := le_rfl

/-- 4 March 2010, 12:00 UTC: Thursday 23:00 in Casey. -/
def caseyNow : OffsetDateTime := ⟨1267704000 * second, 0⟩

/-- Friday 00:00 in Casey, 13:00 UTC, is bookable. -/
theorem mem_slotSpec_casey : 1267707600 * second ∈ slotSpec caseyPolicy caseyNow.unixNanos (900 * second) [] [] := by
  refine ⟨casey.toLocal (1267707600 * second), (localToUtc_eq_some_iff _ _ _).mp (by decide), by decide, afterMidnight,
    by decide, by decide, by decide, by decide, by decide, by decide, by decide, ?_, by simp⟩
  intro w hw
  have hend : localToUtc caseyPolicy.timezone
      (atTime (dateOf (casey.toLocal (1267707600 * second))) afterMidnight.endsAt.nanos) =
        some (1267725600 * second) := by decide
  have := (localToUtc_eq_some_iff _ _ _).mpr hw
  rw [hend] at this
  cases this
  decide

/-- **The search misses a slot before a clock change across midnight.** At the end of the horizon the
local date in Casey is Thursday again, so the loop never looks at Friday's window, although its
first quarter of an hour lies before the change and inside the horizon. -/
theorem availableSlots_misses_slot :
    ∃ slots, availableSlots caseyPolicy caseyNow (900 * second) [] [] 1 = .ok slots ∧
      ¬ IsFirst 1 (slotSpec caseyPolicy caseyNow.unixNanos (900 * second) [] []) slots := by
  refine ⟨[], by decide, fun h => ?_⟩
  have := (h.rest _ mem_slotSpec_casey (by simp)).1
  simp at this

/-- The search at Casey, in the terms of the exact condition. -/
theorem casey_isFirst_iff :
    0 < 900 * second ∧ NoDateOverflow caseyPolicy caseyNow.unixNanos (900 * second) ∧
      ((∃ slots, availableSlots caseyPolicy caseyNow (900 * second) [] [] 1 = .ok slots ∧
          IsFirst 1 (slotSpec caseyPolicy caseyNow.unixNanos (900 * second) [] []) slots) ↔
        ∀ s, AmongFirst 1 (slotSpec caseyPolicy caseyNow.unixNanos (900 * second) [] []) s →
          Visible caseyPolicy caseyNow.unixNanos s ∧
            ∀ s' ∈ slotSpec caseyPolicy caseyNow.unixNanos (900 * second) [] [],
              Visible caseyPolicy caseyNow.unixNanos s' → s < s' →
                caseyPolicy.timezone.toLocal s < caseyPolicy.timezone.toLocal s') := by
  have hno : NoDateOverflow caseyPolicy caseyNow.unixNanos (900 * second) := by
    refine ⟨by decide, by decide, fun u hu => ?_⟩
    have hu' := mem_dateRange.mp hu
    have hfirst : dateOf (caseyPolicy.timezone.toLocal caseyNow.unixNanos) = 14672 := by decide
    have hlast : dateOf (caseyPolicy.timezone.toLocal (caseyNow.unixNanos + caseyPolicy.bookingHorizon)) = 14672 := by
      decide
    rw [hfirst, hlast] at hu'
    have hoffset : casey.offset u = 39600 ∨ casey.offset u = 28800 := by
      simp only [casey, Zone.withChange]
      split
      · exact Or.inl rfl
      · exact Or.inr rfl
    have hbuffer : caseyPolicy.meetingBuffer = 0 := rfl
    simp only [dateOf, Zone.toLocal, nanosPerDay, show caseyPolicy.timezone = casey from rfl, second] at hu'
    simp only [InRange, OffsetDateTime.InRange, hbuffer, second]
    omega
  exact ⟨by decide, hno, availableSlots_isFirst_iff (by decide) hno 1⟩

end AgentVoice.Availability

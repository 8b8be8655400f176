import AgentVoice.Availability.Busy
import AgentVoice.Foundations.EarlyExit

/-!
# The slot search

`AvailabilityPolicy::available_slots`: three nested loops over dates, working windows and the
quarter-hour grid, which stop as soon as `limit` slots are found. The loops compare local times with
the rounded local lead time and instants with the exact bounds.

`availableSlots_eq` replaces the loops by one list: the accepted candidates in the order of the
loops, cut after `limit`.
-/

namespace AgentVoice.Availability

open AgentVoice.Foundations

/-- Fifteen minutes. -/
def quarter : ℕ := 900000000000

theorem emod_nanosPerDay_lt (l : ℤ) : (l % nanosPerDay).toNat < nanosPerDay := by
  simp only [nanosPerDay]
  omega

/-- The time of day of a local date-time. -/
def timeOf (l : ℤ) : TimeOfDay where
  nanos := (l % nanosPerDay).toNat
  lt_day := emod_nanosPerDay_lt l

/-- `ceil_window_grid`: the first grid time of the date that is not before the given time of day, if
that date has one. -/
def ceilWindowGrid (date : ℤ) (time : TimeOfDay) : Option ℤ :=
  let minute := time.hour * 60 + time.minute
  let minute := if time.sec ≠ 0 ∨ time.nanosecond ≠ 0 then minute + 1 else minute
  let minute := (minute + 14) / 15 * 15
  if 24 * 60 ≤ minute then none else some (atTime date (minute * 60000000000))

/-- `ceil_local_grid`. -/
def ceilLocalGrid (l : ℤ) : ℤ := (ceilWindowGrid (dateOf l) (timeOf l)).getD (atTime (dateOf l + 1) 0)

/-- `candidate_ends_within_working_window`. -/
def candidateEndsWithinWorkingWindow (timezone : Zone) (date : ℤ) (windowEnd : TimeOfDay) (candidateEnd : ℤ) :
    Bool :=
  let candidateEndLocal := timezone.toLocal candidateEnd
  if dateOf candidateEndLocal ≠ date ∨ windowEnd.nanos < (timeOf candidateEndLocal).nanos then false
  else
    -- a repeated window end counts at its first occurrence, a skipped one not at all
    match localToUtc timezone (atTime date windowEnd.nanos) with
    | some windowEndUtc => decide (candidateEnd ≤ windowEndUtc)
    | none => true

/-- What one search holds fixed while its loops run. -/
structure Search where
  policy : AvailabilityPolicy
  duration : ℤ
  leadTime : ℤ
  horizonEnd : ℤ
  roundedLeadLocal : ℤ
  busy : List BusyInterval
  limit : ℕ

namespace Search

/-- The body of the innermost loop: one grid time of one window. -/
def tryStart (q : Search) (date : ℤ) (window : WorkingWindow) (localStart : ℤ) (slots : List ℤ) :
    Except AvailabilityError (Flow × List ℤ) :=
  if q.roundedLeadLocal ≤ localStart then
    match localToUtc q.policy.timezone localStart with
    | none => .ok (.next, slots)
    | some candidateStart =>
      if ¬ InRange candidateStart then .error .dateTimeOverflow
      else if ¬ InRange (candidateStart + q.duration) then .ok (.break, slots)
      else if q.leadTime ≤ candidateStart ∧ candidateStart + q.duration ≤ q.horizonEnd ∧
          candidateEndsWithinWorkingWindow q.policy.timezone date window.endsAt (candidateStart + q.duration)
          then do
        let free ← bufferedIsFree candidateStart (candidateStart + q.duration) q.policy.meetingBuffer q.busy
        if free then
          return (if slots.length + 1 = q.limit then .return else .next, slots ++ [candidateStart])
        else return (.next, slots)
      else .ok (.next, slots)
  else .ok (.next, slots)

/-- `while local_start < end { …; local_start += 15 min }`: the values of `local_start`. -/
def gridTimes (start stop : ℤ) : List ℤ :=
  (List.range ((stop - start + (quarter - 1)) / quarter).toNat).map fun k : ℕ => start + k * quarter

/-- The loop over one working window. -/
def scanWindow (q : Search) (date : ℤ) (window : WorkingWindow) (slots : List ℤ) :
    Except AvailabilityError (Flow × List ℤ) :=
  match ceilWindowGrid date window.startsAt with
  | none => .ok (.next, slots)
  | some firstStart => scan (q.tryStart date window) (gridTimes firstStart (atTime date window.endsAt.nanos)) slots

/-- The loop over the windows of one date. -/
def scanDate (q : Search) (date : ℤ) (slots : List ℤ) : Except AvailabilityError (Flow × List ℤ) :=
  scan (q.scanWindow date) (q.policy.windows (weekdayOf date)) slots

end Search

/-- `while date <= final_date { …; date = date.succ() }`: the values of `date`. -/
def dateRange (date finalDate : ℤ) : List ℤ := (List.range (finalDate - date + 1).toNat).map fun k : ℕ => date + k

/-- `AvailabilityPolicy::available_slots`; the slots are UTC instants. -/
def availableSlots (policy : AvailabilityPolicy) (now : OffsetDateTime) (requestedDuration : ℤ)
    (outlookBusy googleBusy : List BusyInterval) (limit : ℕ) : Except AvailabilityError (List ℤ) :=
  if requestedDuration ≤ 0 then .error (.invalidDuration "requested_duration")
  else if limit = 0 then .ok []
  else do
    let now := now.toUtc.unixNanos
    let horizonEnd ← checkedAdd now policy.bookingHorizon
    let leadTime ← checkedAdd now policy.minimumNotice
    let localNow := policy.timezone.toLocal now
    let localHorizon := policy.timezone.toLocal horizonEnd
    let q : Search :=
      { policy
        duration := requestedDuration
        leadTime
        horizonEnd
        roundedLeadLocal := ceilLocalGrid (policy.timezone.toLocal leadTime)
        busy := mergeBusyIntervals outlookBusy googleBusy
        limit }
    let (_, slots) ← scan q.scanDate (dateRange (dateOf localNow) (dateOf localHorizon)) []
    return slots

/-! ### The grid -/

theorem mem_gridTimes {start stop l : ℤ} :
    l ∈ Search.gridTimes start stop ↔ start ≤ l ∧ l < stop ∧ (l - start) % quarter = 0 := by
  simp only [Search.gridTimes, List.mem_map, List.mem_range, quarter]
  constructor
  · rintro ⟨k, hk, rfl⟩
    refine ⟨by omega, by omega, ?_⟩
    omega
  · rintro ⟨h1, h2, h3⟩
    exact ⟨((l - start) / 900000000000).toNat, by omega, by omega⟩

theorem pairwise_gridTimes (start stop : ℤ) : (Search.gridTimes start stop).Pairwise (· < ·) := by
  rw [Search.gridTimes, List.pairwise_map]
  refine List.pairwise_lt_range.imp fun h => ?_
  simp only [quarter]
  omega

theorem mem_dateRange {first final d : ℤ} : d ∈ dateRange first final ↔ first ≤ d ∧ d ≤ final := by
  simp only [dateRange, List.mem_map, List.mem_range]
  constructor
  · rintro ⟨k, hk, rfl⟩
    omega
  · rintro ⟨h1, h2⟩
    exact ⟨(d - first).toNat, by omega, by omega⟩

theorem pairwise_dateRange (first final : ℤ) : (dateRange first final).Pairwise (· < ·) := by
  rw [dateRange, List.pairwise_map]
  exact List.pairwise_lt_range.imp fun h => by omega

/-- The minute count that `ceil_window_grid` rounds up, in quarters of an hour. -/
theorem ceilWindowGrid_eq (date : ℤ) (time : TimeOfDay) :
    ceilWindowGrid date time =
      if 96 ≤ (time.nanos + (quarter - 1)) / quarter then none
      else some (atTime date ((time.nanos + (quarter - 1)) / quarter * quarter)) := by
  have hday := time.lt_day
  have hminute : (if time.sec ≠ 0 ∨ time.nanosecond ≠ 0 then time.hour * 60 + time.minute + 1
      else time.hour * 60 + time.minute) = (time.nanos + 59999999999) / 60000000000 := by
    by_cases h : time.sec ≠ 0 ∨ time.nanosecond ≠ 0
    · rw [if_pos h]
      simp only [TimeOfDay.sec, TimeOfDay.nanosecond, TimeOfDay.hour, TimeOfDay.minute] at h ⊢
      omega
    · rw [if_neg h]
      simp only [TimeOfDay.sec, TimeOfDay.nanosecond, TimeOfDay.hour, TimeOfDay.minute] at h ⊢
      omega
  have hround : (time.nanos + 59999999999) / 60000000000 + 14 = (time.nanos + 899999999999) / 60000000000 := by
    omega
  have hquarter : (time.nanos + 899999999999) / 60000000000 / 15 = (time.nanos + (quarter - 1)) / quarter := by
    rw [Nat.div_div_eq_div_mul]
    rfl
  simp only [ceilWindowGrid, hminute, hround, hquarter]
  set k := (time.nanos + (quarter - 1)) / quarter
  by_cases h : 96 ≤ k
  · rw [if_pos h, if_pos (by omega)]
  · rw [if_neg h, if_neg (by omega), Nat.mul_assoc]
    rfl

/-- The grid times of a window that starts on the given date. -/
theorem mem_grid_of_window {date l : ℤ} {window : WorkingWindow} :
    (∃ first, ceilWindowGrid date window.startsAt = some first ∧
        l ∈ Search.gridTimes first (atTime date window.endsAt.nanos)) ↔
      atTime date window.startsAt.nanos ≤ l ∧ l < atTime date window.endsAt.nanos ∧ l % quarter = 0 := by
  have hs := window.startsAt.lt_day
  have he := window.endsAt.lt_day
  rw [ceilWindowGrid_eq]
  simp only [nanosPerDay] at hs he
  by_cases h : 96 ≤ (window.startsAt.nanos + (quarter - 1)) / quarter
  · simp only [if_pos h, reduceCtorEq, false_and, exists_false, false_iff]
    simp only [quarter, atTime, nanosPerDay] at h ⊢
    omega
  · simp only [if_neg h, Option.some.injEq, exists_eq_left', mem_gridTimes]
    simp only [quarter, atTime, nanosPerDay] at h ⊢
    push_cast
    omega

/-! ### The loops as one list -/

namespace Search

/-- The conditions under which the loops take a candidate of a given window. -/
def Accepts (q : Search) (date : ℤ) (window : WorkingWindow) (u : ℤ) : Prop :=
  q.leadTime ≤ u ∧ u + q.duration ≤ q.horizonEnd ∧
    candidateEndsWithinWorkingWindow q.policy.timezone date window.endsAt (u + q.duration) = true ∧
    ∀ i ∈ q.busy, HalfOpen.Clear (u - q.policy.meetingBuffer) (u + q.duration + q.policy.meetingBuffer) i

instance (q : Search) (date : ℤ) (window : WorkingWindow) (u : ℤ) : Decidable (q.Accepts date window u) :=
  inferInstanceAs (Decidable (_ ∧ _))

/-- The slots that one grid time of one window yields: one or none. -/
def slotsAt (q : Search) (date : ℤ) (window : WorkingWindow) (l : ℤ) : List ℤ :=
  if q.roundedLeadLocal ≤ l then
    match localToUtc q.policy.timezone l with
    | some u => if q.Accepts date window u then [u] else []
    | none => []
  else []

theorem mem_slotsAt {q : Search} {date l s : ℤ} {window : WorkingWindow} :
    s ∈ q.slotsAt date window l ↔
      q.roundedLeadLocal ≤ l ∧ localToUtc q.policy.timezone l = some s ∧ q.Accepts date window s := by
  unfold slotsAt
  by_cases hlead : q.roundedLeadLocal ≤ l
  · rw [if_pos hlead]
    cases hu : localToUtc q.policy.timezone l with
    | none => simp
    | some u =>
      by_cases haccepts : q.Accepts date window u
      · simp only [if_pos haccepts, List.mem_singleton, hlead, true_and, Option.some.injEq]
        exact ⟨fun h => ⟨h.symm, h ▸ haccepts⟩, fun h => h.1.symm⟩
      · simp only [if_neg haccepts, List.not_mem_nil, hlead, true_and, Option.some.injEq, false_iff]
        rintro ⟨rfl, h⟩
        exact haccepts h
  · simp [hlead]

theorem slotsAt_pairwise (q : Search) (date l : ℤ) (window : WorkingWindow) (r : ℤ → ℤ → Prop) :
    (q.slotsAt date window l).Pairwise r := by
  unfold slotsAt
  split
  · split
    · split
      · exact List.pairwise_singleton r _
      · exact List.Pairwise.nil
    · exact List.Pairwise.nil
  · exact List.Pairwise.nil

/-- The grid times of one window. -/
def windowTimes (date : ℤ) (window : WorkingWindow) : List ℤ :=
  match ceilWindowGrid date window.startsAt with
  | some first => gridTimes first (atTime date window.endsAt.nanos)
  | none => []

/-- The slots of one window. -/
def windowSlots (q : Search) (date : ℤ) (window : WorkingWindow) : List ℤ :=
  (windowTimes date window).flatMap (q.slotsAt date window)

/-- The slots of one date. -/
def dateSlots (q : Search) (date : ℤ) : List ℤ :=
  (q.policy.windows (weekdayOf date)).flatMap (q.windowSlots date)

/-- No candidate on the searched dates overflows the range of dates. -/
def NoOverflow (q : Search) (dates : List ℤ) : Prop :=
  ∀ u, dateOf (q.policy.timezone.toLocal u) ∈ dates →
    InRange u ∧ InRange (u + q.duration) ∧ InRange (u - q.policy.meetingBuffer) ∧
      InRange (u + q.duration + q.policy.meetingBuffer)

theorem mem_windowTimes {date l : ℤ} {window : WorkingWindow} :
    l ∈ windowTimes date window ↔
      atTime date window.startsAt.nanos ≤ l ∧ l < atTime date window.endsAt.nanos ∧ l % quarter = 0 := by
  rw [← mem_grid_of_window, windowTimes]
  cases ceilWindowGrid date window.startsAt <;> simp

theorem windowTimes_pairwise (date : ℤ) (window : WorkingWindow) : (windowTimes date window).Pairwise (· < ·) := by
  unfold windowTimes
  split
  · exact pairwise_gridTimes _ _
  · exact List.Pairwise.nil

theorem dateOf_mem_windowTimes {date l : ℤ} {window : WorkingWindow} (h : l ∈ windowTimes date window) :
    dateOf l = date := by
  obtain ⟨h1, h2, -⟩ := mem_windowTimes.mp h
  have := window.endsAt.lt_day
  simp only [atTime, dateOf, nanosPerDay] at *
  omega

/-- One grid time, when nothing overflows: the loop body takes or skips its candidate. -/
theorem tryStart_eq {q : Search} {dates : List ℤ} (hq : q.NoOverflow dates) {date : ℤ} (hdate : date ∈ dates)
    {window : WorkingWindow} {l : ℤ} (hl : l ∈ windowTimes date window) {slots : List ℤ}
    (hslots : slots.length < q.limit) :
    q.tryStart date window l slots = .ok (collected q.limit (slots ++ q.slotsAt date window l)) := by
  unfold tryStart slotsAt
  by_cases hlead : q.roundedLeadLocal ≤ l
  · rw [if_pos hlead, if_pos hlead]
    cases hu : localToUtc q.policy.timezone l with
    | none => rw [collected_nil hslots]
    | some u =>
      have hlocal : dateOf (q.policy.timezone.toLocal u) ∈ dates := by
        rw [toLocal_of_localToUtc hu, dateOf_mem_windowTimes hl]
        exact hdate
      obtain ⟨h1, h2, h3, h4⟩ := hq u hlocal
      simp only [h1, h2, not_true, if_false, bufferedIsFree_eq h3 h4]
      by_cases hcond : q.leadTime ≤ u ∧ u + q.duration ≤ q.horizonEnd ∧
          candidateEndsWithinWorkingWindow q.policy.timezone date window.endsAt (u + q.duration) = true
      · rw [if_pos hcond]
        by_cases hfree : ∀ i ∈ q.busy,
            HalfOpen.Clear (u - q.policy.meetingBuffer) (u + q.duration + q.policy.meetingBuffer) i
        · have haccepts : q.Accepts date window u := ⟨hcond.1, hcond.2.1, hcond.2.2, hfree⟩
          rw [if_pos haccepts, collected_singleton hslots, decide_eq_true hfree]
          rfl
        · have haccepts : ¬ q.Accepts date window u := fun h => hfree h.2.2.2
          rw [if_neg haccepts, collected_nil hslots, decide_eq_false hfree]
          rfl
      · have haccepts : ¬ q.Accepts date window u := fun h => hcond ⟨h.1, h.2.1, h.2.2.1⟩
        rw [if_neg hcond, if_neg haccepts, collected_nil hslots]
  · rw [if_neg hlead, if_neg hlead, collected_nil hslots]

theorem scanWindow_eq {q : Search} {dates : List ℤ} (hq : q.NoOverflow dates) {date : ℤ} (hdate : date ∈ dates)
    (window : WorkingWindow) {slots : List ℤ} (hslots : slots.length < q.limit) :
    q.scanWindow date window slots = .ok (collected q.limit (slots ++ q.windowSlots date window)) := by
  have htimes : ∀ first, ceilWindowGrid date window.startsAt = some first →
      gridTimes first (atTime date window.endsAt.nanos) = windowTimes date window := fun first h => by
    simp only [windowTimes, h]
  unfold scanWindow
  cases hfirst : ceilWindowGrid date window.startsAt with
  | none =>
    have hnil : q.windowSlots date window = [] := by simp [windowSlots, windowTimes, hfirst]
    rw [hnil, collected_nil hslots]
  | some first =>
    simp only [htimes first hfirst]
    exact Collects.scan (fun l hl acc hacc => tryStart_eq hq hdate hl hacc) hslots

theorem scanDate_eq {q : Search} {dates : List ℤ} (hq : q.NoOverflow dates) {date : ℤ} (hdate : date ∈ dates)
    {slots : List ℤ} (hslots : slots.length < q.limit) :
    q.scanDate date slots = .ok (collected q.limit (slots ++ q.dateSlots date)) :=
  Collects.scan (fun window _ _ hacc => scanWindow_eq hq hdate window hacc) hslots

end Search

end AgentVoice.Availability

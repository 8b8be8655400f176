import AgentVoice.Foundations.HalfOpen
import AgentVoice.Foundations.Rfc3339
import AgentVoice.Foundations.Text
import Mathlib.Algebra.Order.Group.Unbundled.Int
import Mathlib.Data.Int.ConditionallyCompleteOrder
import Mathlib.Data.List.Sort
import Mathlib.Order.ConditionallyCompleteLattice.Basic

/-!
# The availability policy

The values of `src/pa/availability.rs`: busy intervals, working windows, the owner's policy, and the
time zone the policy is evaluated in. Instants are nanoseconds since the Unix epoch (UTC), local
date-times are nanoseconds on the same scale as a clock on the wall shows them, and dates are day
numbers.

The validating constructors become structures whose fields carry what was validated: a working
window is not empty, the windows of a weekday do not overlap, the policy's durations are not
negative.
-/

namespace AgentVoice.Availability

open AgentVoice.Foundations

/-- A time of day, in nanoseconds since midnight. -/
structure TimeOfDay where
  nanos : ℕ
  lt_day : nanos < nanosPerDay
  deriving DecidableEq, Repr

namespace TimeOfDay

/-- `Time::MIDNIGHT`. -/
def midnight : TimeOfDay := ⟨0, by decide⟩

def hour (t : TimeOfDay) : ℕ := t.nanos / 3600000000000

def minute (t : TimeOfDay) : ℕ := t.nanos / 60000000000 % 60

def sec (t : TimeOfDay) : ℕ := t.nanos / 1000000000 % 60

def nanosecond (t : TimeOfDay) : ℕ := t.nanos % 1000000000

end TimeOfDay

/-- `AvailabilityError`. -/
inductive AvailabilityError where
  | invalidBusyInterval (startsAt endsAt : ℤ)
  | invalidWorkingWindow (startsAt endsAt : TimeOfDay)
  | invalidTimezone (timezone : String)
  | invalidDuration (field : String)
  | dateTimeOverflow
  deriving DecidableEq, Repr

/-- The range of instants a UTC `OffsetDateTime` can hold. -/
def InRange (u : ℤ) : Prop := (⟨u, 0⟩ : OffsetDateTime).InRange

instance (u : ℤ) : Decidable (InRange u) := inferInstanceAs (Decidable (OffsetDateTime.InRange _))

/-- `checked_add`, on UTC values. -/
def checkedAdd (u d : ℤ) : Except AvailabilityError ℤ :=
  if InRange (u + d) then .ok (u + d) else .error .dateTimeOverflow

theorem checkedAdd_of_inRange {u d : ℤ} (h : InRange (u + d)) : checkedAdd u d = .ok (u + d) :=
  if_pos h

theorem inRange_of_checkedAdd {u d v : ℤ} (h : checkedAdd u d = .ok v) : InRange (u + d) := by
  by_contra hout
  rw [checkedAdd, if_neg hout] at h
  cases h

/-! ### Busy intervals -/

/-- `BusyInterval`: a half-open UTC interval with a positive length. -/
abbrev BusyInterval := HalfOpen ℤ

/-- `BusyInterval::new`. -/
def BusyInterval.new (startsAt endsAt : OffsetDateTime) : Except AvailabilityError BusyInterval :=
  if h : startsAt.toUtc.unixNanos < endsAt.toUtc.unixNanos then .ok ⟨_, _, h⟩
  else .error (.invalidBusyInterval startsAt.unixNanos endsAt.unixNanos)

/-- One pass of the merge loop. The merged list is kept with its last interval first, so its head is
`merged.last_mut()`. -/
def absorb : List BusyInterval → BusyInterval → List BusyInterval
  | [], interval => [interval]
  | previous :: rest, interval =>
    if interval.start ≤ previous.stop then
      if h : previous.stop < interval.stop then
        ⟨previous.start, interval.stop, previous.start_lt_stop.trans h⟩ :: rest
      else previous :: rest
    else interval :: previous :: rest

/-- `merge_busy_intervals`. -/
def mergeBusyIntervals (outlookBusy googleBusy : List BusyInterval) : List BusyInterval :=
  let intervals := (outlookBusy ++ googleBusy).mergeSort fun a b => decide (a.start ≤ b.start)
  (intervals.foldl absorb []).reverse

/-! ### Working windows -/

/-- `WorkingWindow`: a non-empty stretch of a day. -/
structure WorkingWindow where
  startsAt : TimeOfDay
  endsAt : TimeOfDay
  start_lt_end : startsAt.nanos < endsAt.nanos
  deriving DecidableEq

/-- `WorkingWindow::new`. -/
def WorkingWindow.new (startsAt endsAt : TimeOfDay) : Except AvailabilityError WorkingWindow :=
  if h : startsAt.nanos < endsAt.nanos then .ok ⟨startsAt, endsAt, h⟩
  else .error (.invalidWorkingWindow startsAt endsAt)

/-- `Weekday`. -/
inductive Weekday where
  | mon | tue | wed | thu | fri | sat | sun
  deriving DecidableEq, Repr

/-- `date.weekday()`; day 0, 1 January 1970, was a Thursday. -/
def weekdayOf (date : ℤ) : Weekday :=
  match (date + 3) % 7 with
  | 0 => .mon
  | 1 => .tue
  | 2 => .wed
  | 3 => .thu
  | 4 => .fri
  | 5 => .sat
  | _ => .sun

/-! ### Local time -/

/-- The date of a local date-time. -/
def dateOf (l : ℤ) : ℤ := l / nanosPerDay

/-- The local date-time `t` nanoseconds into a date. -/
def atTime (date : ℤ) (t : ℕ) : ℤ := date * nanosPerDay + t

/-- `chrono::LocalResult`. -/
inductive LocalResult where
  | none
  | single (u : ℤ)
  | ambiguous (u v : ℤ)
  deriving DecidableEq, Repr

/-- The instants of a local result. -/
def LocalResult.instants : LocalResult → List ℤ
  | .none => []
  | .single u => [u]
  | .ambiguous u v => [u, v]

/-- A time zone: the offset in force at each instant, and the lookup of the instants at which a
local time is shown. The lookup returns all of them, and there are at most two. -/
structure Zone where
  /-- Seconds east of UTC, at a UTC instant. -/
  offset : ℤ → ℤ
  fromLocal : ℤ → LocalResult
  mem_fromLocal : ∀ l u, u ∈ (fromLocal l).instants ↔ u + offset u * second = l

/-- The local time shown at an instant (`with_timezone(tz).naive_local()`). -/
def Zone.toLocal (zone : Zone) (u : ℤ) : ℤ := u + zone.offset u * second

/-- `local_to_utc`: the earliest instant at which a local time is shown, if there is one. -/
def localToUtc (zone : Zone) (l : ℤ) : Option ℤ :=
  match zone.fromLocal l with
  | .single u => some u
  | .ambiguous u v => some (min u v)
  | .none => none

theorem localToUtc_eq_some_iff (zone : Zone) (l u : ℤ) :
    localToUtc zone l = some u ↔ IsLeast {v | zone.toLocal v = l} u := by
  have hmem := zone.mem_fromLocal l
  unfold localToUtc
  simp only [IsLeast, lowerBounds, Zone.toLocal, Set.mem_ofPred_eq, ← hmem]
  cases zone.fromLocal l with
  | none => simp [LocalResult.instants]
  | single v =>
    simp only [LocalResult.instants, List.mem_singleton, Option.some.injEq, forall_eq]
    exact ⟨fun h => ⟨h.symm, h.ge⟩, fun h => h.1.symm⟩
  | ambiguous v w =>
    simp only [LocalResult.instants, List.mem_cons, List.not_mem_nil, or_false, Option.some.injEq,
      forall_eq_or_imp, forall_eq]
    omega

theorem toLocal_of_localToUtc {zone : Zone} {l u : ℤ} (h : localToUtc zone l = some u) : zone.toLocal u = l :=
  ((localToUtc_eq_some_iff zone l u).mp h).1

/-! ### The policy -/

/-- `AvailabilityPolicy`: time zone, working hours and booking constraints of the owner. -/
structure AvailabilityPolicy where
  timezoneName : String
  timezone : Zone
  windows : Weekday → List WorkingWindow
  minimumNotice : ℤ
  bookingHorizon : ℤ
  meetingBuffer : ℤ
  /-- Windows of one weekday are in order and do not overlap. -/
  windows_disjoint : ∀ w, (windows w).Pairwise fun a b => a.endsAt.nanos ≤ b.startsAt.nanos
  minimumNotice_nonneg : 0 ≤ minimumNotice
  bookingHorizon_pos : 0 < bookingHorizon
  meetingBuffer_nonneg : 0 ≤ meetingBuffer

/-- `sort_by_key(|window| window.starts_at())`. -/
def sortWindows (ws : List WorkingWindow) : List WorkingWindow :=
  ws.mergeSort fun a b => decide (a.startsAt.nanos ≤ b.startsAt.nanos)

/-- The per-weekday table: every given entry is sorted and appended to its weekday. -/
def indexWindows (windows : List (Weekday × List WorkingWindow)) (w : Weekday) : List WorkingWindow :=
  windows.foldl (fun acc entry => if entry.1 = w then acc ++ sortWindows entry.2 else acc) []

/-- Neighbouring windows do not overlap (`windows(2)`). -/
def NoNeighboursOverlap : List WorkingWindow → Prop
  | a :: b :: rest => a.endsAt.nanos ≤ b.startsAt.nanos ∧ NoNeighboursOverlap (b :: rest)
  | _ => True

instance decidableNoNeighboursOverlap : ∀ ws, Decidable (NoNeighboursOverlap ws)
  | [] => isTrue trivial
  | [_] => isTrue trivial
  | a :: b :: rest =>
    have := decidableNoNeighboursOverlap (b :: rest)
    inferInstanceAs (Decidable (a.endsAt.nanos ≤ b.startsAt.nanos ∧ NoNeighboursOverlap (b :: rest)))

/-- Windows that do not overlap their neighbours do not overlap at all: each is non-empty. -/
theorem NoNeighboursOverlap.pairwise {ws : List WorkingWindow} (h : NoNeighboursOverlap ws) :
    ws.Pairwise fun a b => a.endsAt.nanos ≤ b.startsAt.nanos := by
  induction ws with
  | nil => exact List.Pairwise.nil
  | cons a ws ih =>
    cases ws with
    | nil => exact List.pairwise_singleton _ _
    | cons b rest =>
      obtain ⟨hab, hrest⟩ := h
      have hpair := ih hrest
      refine List.pairwise_cons.mpr ⟨fun c hc => ?_, hpair⟩
      rcases List.mem_cons.mp hc with rfl | hc
      · exact hab
      · exact hab.trans (b.start_lt_end.le.trans ((List.pairwise_cons.mp hpair).1 c hc))

instance : DecidablePred fun f : Weekday → List WorkingWindow => ∀ w, NoNeighboursOverlap (f w) := fun f =>
  decidable_of_iff
    (NoNeighboursOverlap (f .mon) ∧ NoNeighboursOverlap (f .tue) ∧ NoNeighboursOverlap (f .wed) ∧
      NoNeighboursOverlap (f .thu) ∧ NoNeighboursOverlap (f .fri) ∧ NoNeighboursOverlap (f .sat) ∧
      NoNeighboursOverlap (f .sun))
    ⟨fun h w => by cases w <;> simp [h], fun h => ⟨h _, h _, h _, h _, h _, h _, h _⟩⟩

/-- `AvailabilityPolicy::new`; `parseTimezone` is the IANA lookup of the time-zone database. -/
def AvailabilityPolicy.new (parseTimezone : String → Option Zone) (timezone : String)
    (windows : List (Weekday × List WorkingWindow)) (minimumNotice bookingHorizon meetingBuffer : ℤ) :
    Except AvailabilityError AvailabilityPolicy :=
  let timezoneName := trim timezone
  match parseTimezone timezoneName with
  | none => .error (.invalidTimezone timezoneName)
  | some zone =>
    if hn : minimumNotice < 0 then .error (.invalidDuration "minimum_notice")
    else if hh : bookingHorizon ≤ 0 then .error (.invalidDuration "booking_horizon")
    else if hb : meetingBuffer < 0 then .error (.invalidDuration "meeting_buffer")
    else if hw : ∀ w, NoNeighboursOverlap (sortWindows (indexWindows windows w)) then
      .ok
        { timezoneName
          timezone := zone
          windows := fun w => sortWindows (indexWindows windows w)
          minimumNotice
          bookingHorizon
          meetingBuffer
          windows_disjoint := fun w => (hw w).pairwise
          minimumNotice_nonneg := not_lt.mp hn
          bookingHorizon_pos := not_le.mp hh
          meetingBuffer_nonneg := not_lt.mp hb }
    else .error (.invalidWorkingWindow .midnight .midnight)

end AgentVoice.Availability

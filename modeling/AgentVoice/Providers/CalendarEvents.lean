import AgentVoice.Foundations.Result
import AgentVoice.Foundations.Rfc3339
import AgentVoice.Providers.Values
import AgentVoice.Store.AppointmentQuotes

/-!
# Calendar events at the provider boundary

The interval, the drafts of an owner's event and of a proposal, and the event of `src/pa/providers.rs`. A draft is valid
just where its key, its title, its interval and its time zone each are (`OwnerEventDraft.new_eq_ok_iff`,
`GoogleProposalDraft.fromOwner_eq_ok_iff`).
-/

namespace AgentVoice.Providers

open AgentVoice.Foundations AgentVoice.Domain AgentVoice.Store

/-- `MAX_PROVIDER_ID_LENGTH`, `MAX_CALENDAR_TITLE_LENGTH` and `MAX_TIMEZONE_LENGTH`. -/
def maxProviderIdLength : ℕ := 256

/-- Whether a text is an identifier of a provider. -/
def IsProviderIdentifier (value : String) : Prop :=
  ¬IsBlank value ∧ byteLength value ≤ maxProviderIdLength ∧ isAscii value = true ∧ hasControl value = false

instance (value : String) : Decidable (IsProviderIdentifier value) := inferInstanceAs (Decidable (_ ∧ _))

/-- `validate_identifier`. -/
def validateIdentifier (value : String) (field : ProviderInputField) : ProviderResult String := do
  require (IsProviderIdentifier value) (.invalidInput field)
  return value

/-- Whether a text is the title of a calendar event. -/
def IsCalendarTitle (value : String) : Prop :=
  ¬IsBlank value ∧ byteLength value ≤ maxProviderIdLength ∧ hasControl value = false

instance (value : String) : Decidable (IsCalendarTitle value) := inferInstanceAs (Decidable (_ ∧ _))

/-- `validate_calendar_title`. -/
def validateCalendarTitle (value : String) : ProviderResult String := do
  require (IsCalendarTitle value) (.invalidInput .title)
  return value

/-- Whether a text names a time zone, at the provider boundary. -/
def IsCalendarTimezone (timezones : Timezones) (value : String) : Prop :=
  ¬IsBlank value ∧ byteLength value ≤ maxProviderIdLength ∧ trim value = value ∧ (timezones value).isSome = true

instance (timezones : Timezones) (value : String) : Decidable (IsCalendarTimezone timezones value) :=
  inferInstanceAs (Decidable (_ ∧ _))

/-- `validate_timezone`. -/
def validateTimezone (timezones : Timezones) (value : String) : ProviderResult String := do
  require (IsCalendarTimezone timezones value) (.invalidInput .timezone)
  return value

/-- Whether the nanoseconds of an instant fit 64 bits (`timestamp_nanos_opt`). -/
def FitsNanos (instant : ℤ) : Prop := -2 ^ 63 ≤ instant ∧ instant < 2 ^ 63

instance (instant : ℤ) : Decidable (FitsNanos instant) := inferInstanceAs (Decidable (_ ∧ _))

/-- `TimeRange`, in nanoseconds since the epoch. -/
structure TimeRange where
  start : ℤ
  stop : ℤ
  start_fits : FitsNanos start
  stop_fits : FitsNanos stop
  start_lt_stop : start < stop
  deriving DecidableEq

/-- `TimeRange::new`. -/
def TimeRange.new (start stop : ℤ) : ProviderResult TimeRange :=
  if h : FitsNanos start ∧ FitsNanos stop ∧ start < stop then .ok ⟨start, stop, h.1, h.2.1, h.2.2⟩
  else .error (.invalidInput .timeRange)

/-- `OwnerEventDraft`. -/
structure OwnerEventDraft where
  operationKey : String
  title : String
  timeRange : TimeRange
  timezone : String
  deriving DecidableEq

/-- `OwnerEventDraft::new`. -/
def OwnerEventDraft.new (timezones : Timezones) (operationKey title : String) (timeRange : TimeRange)
    (timezone : String) : ProviderResult OwnerEventDraft := do
  let operationKey ← validateIdentifier operationKey .operationKey
  let title ← validateCalendarTitle title
  let timezone ← validateTimezone timezones timezone
  return ⟨operationKey, title, timeRange, timezone⟩

/-- `Rsvp`. -/
inductive Rsvp where
  | needsAction | accepted | declined | tentative
  deriving DecidableEq, Repr

/-- `CalendarAttendee`. -/
structure CalendarAttendee where
  address : MailAddress
  rsvp : Rsvp
  deriving DecidableEq

/-- `CalendarEvent`. -/
structure CalendarEvent where
  providerEventId : String
  operationKey : String
  title : String
  timeRange : TimeRange
  timezone : String
  attendees : List CalendarAttendee
  lastModifiedAt : ℤ
  deriving DecidableEq

/-- `GoogleProposalDraft`; the owner is its one attendee. -/
structure GoogleProposalDraft where
  operationKey : String
  pendingTitle : String
  timeRange : TimeRange
  timezone : String
  owner : CalendarAttendee
  deriving DecidableEq

/-- `GoogleProposalDraft::from_owner`. -/
def GoogleProposalDraft.fromOwner (timezones : Timezones) (operationKey pendingTitle : String) (timeRange : TimeRange)
    (timezone : String) (owner : CalendarAttendee) : ProviderResult GoogleProposalDraft := do
  require (owner.rsvp = .needsAction) (.invalidInput .attendeeRsvp)
  let operationKey ← validateIdentifier operationKey .operationKey
  let pendingTitle ← validateCalendarTitle pendingTitle
  let timezone ← validateTimezone timezones timezone
  return ⟨operationKey, pendingTitle, timeRange, timezone, owner⟩

/-! ### What is valid -/

/-- A text that is returned where a check holds. -/
theorem checked_eq_ok_iff {p : Prop} [Decidable p] {e : ProviderError} {value text : String} :
    (do require p e; return value : ProviderResult String) = .ok text ↔ p ∧ text = value := by
  rw [bind_eq_ok_iff]
  constructor
  · rintro ⟨_, hp, hvalue⟩
    exact ⟨require_eq_ok_iff.mp hp, (Except.ok.inj hvalue).symm⟩
  · rintro ⟨hp, rfl⟩
    exact ⟨(), require_of hp _, rfl⟩

theorem validateIdentifier_eq_ok_iff {value text : String} {field : ProviderInputField} :
    validateIdentifier value field = .ok text ↔ IsProviderIdentifier value ∧ text = value := checked_eq_ok_iff

theorem validateCalendarTitle_eq_ok_iff {value text : String} :
    validateCalendarTitle value = .ok text ↔ IsCalendarTitle value ∧ text = value := checked_eq_ok_iff

theorem validateTimezone_eq_ok_iff {timezones : Timezones} {value text : String} :
    validateTimezone timezones value = .ok text ↔ IsCalendarTimezone timezones value ∧ text = value := checked_eq_ok_iff

theorem TimeRange.new_eq_ok_iff {start stop : ℤ} {range : TimeRange} :
    TimeRange.new start stop = .ok range ↔ FitsNanos start ∧ FitsNanos stop ∧ range.start = start ∧ range.stop = stop := by
  rw [TimeRange.new]
  constructor
  · intro h
    split at h
    · rename_i hfits
      obtain rfl := Except.ok.inj h
      exact ⟨hfits.1, hfits.2.1, rfl, rfl⟩
    · cases h
  · rintro ⟨hstart, hstop, rfl, rfl⟩
    rw [dif_pos ⟨hstart, hstop, range.start_lt_stop⟩]

/-- **What makes a draft of an owner's event valid.** -/
theorem OwnerEventDraft.new_eq_ok_iff {timezones : Timezones} {operationKey title timezone : String} {range : TimeRange}
    {draft : OwnerEventDraft} :
    OwnerEventDraft.new timezones operationKey title range timezone = .ok draft ↔
      IsProviderIdentifier operationKey ∧ IsCalendarTitle title ∧ IsCalendarTimezone timezones timezone ∧
        draft = ⟨operationKey, title, range, timezone⟩ := by
  simp only [OwnerEventDraft.new, bind_eq_ok_iff, validateIdentifier_eq_ok_iff, validateCalendarTitle_eq_ok_iff,
    validateTimezone_eq_ok_iff]
  constructor
  · rintro ⟨_, ⟨hkey, rfl⟩, _, ⟨htitle, rfl⟩, _, ⟨hzone, rfl⟩, h⟩
    exact ⟨hkey, htitle, hzone, (Except.ok.inj h).symm⟩
  · rintro ⟨hkey, htitle, hzone, rfl⟩
    exact ⟨_, ⟨hkey, rfl⟩, _, ⟨htitle, rfl⟩, _, ⟨hzone, rfl⟩, rfl⟩

/-- **What makes a draft of a proposal valid.** -/
theorem GoogleProposalDraft.fromOwner_eq_ok_iff {timezones : Timezones} {operationKey pendingTitle timezone : String}
    {range : TimeRange} {owner : CalendarAttendee} {draft : GoogleProposalDraft} :
    GoogleProposalDraft.fromOwner timezones operationKey pendingTitle range timezone owner = .ok draft ↔
      owner.rsvp = .needsAction ∧ IsProviderIdentifier operationKey ∧ IsCalendarTitle pendingTitle ∧
        IsCalendarTimezone timezones timezone ∧ draft = ⟨operationKey, pendingTitle, range, timezone, owner⟩ := by
  simp only [GoogleProposalDraft.fromOwner, bind_eq_ok_iff, require_eq_ok_iff, validateIdentifier_eq_ok_iff,
    validateCalendarTitle_eq_ok_iff, validateTimezone_eq_ok_iff]
  constructor
  · rintro ⟨_, hrsvp, _, ⟨hkey, rfl⟩, _, ⟨htitle, rfl⟩, _, ⟨hzone, rfl⟩, h⟩
    exact ⟨hrsvp, hkey, htitle, hzone, (Except.ok.inj h).symm⟩
  · rintro ⟨hrsvp, hkey, htitle, hzone, rfl⟩
    exact ⟨(), hrsvp, _, ⟨hkey, rfl⟩, _, ⟨htitle, rfl⟩, _, ⟨hzone, rfl⟩, rfl⟩

end AgentVoice.Providers

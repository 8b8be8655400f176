import AgentVoice.Foundations.SagaQuestions
import AgentVoice.PaService.SubmissionConvergence

/-!
# The calendars that all bookings share

Requests are booked in the calendar of Google and owner tasks in that of Outlook, and each asks both for busy times first.
Here both calendars are one list of bookings, in which others may remove anything and add what they like before every answer. A busy list that
is answered shows all that the calendar holds within the range that was asked for (`Reports`). What the service booked is
marked, so that its bookings can be told from those of others; the service does not see the mark.
-/

namespace AgentVoice.PaService

open AgentVoice.Foundations AgentVoice.Domain AgentVoice.Providers AgentVoice.Availability AgentVoice.Store
open scoped List

/-- A calendar of the owner. -/
inductive CalendarName where
  | outlook | google
  deriving DecidableEq

/-- An event of a calendar, and whether the service created it. -/
structure CalendarBooking where
  calendar : CalendarName
  event : CalendarEvent
  own : Bool

/-- The bookings of both calendars, the last one last. -/
abbrev Bookings := List CalendarBooking

/-- What a provider is asked for. -/
inductive ProviderCall where
  | listBusy (calendar : CalendarName) (range : TimeRange)
  | find (calendar : CalendarName) (key : String)
  | create (calendar : CalendarName) (key : String) (range : TimeRange)

/-- Whether a call creates an event. -/
def ProviderCall.Creates : ProviderCall → Prop
  | .create _ _ _ => True
  | _ => False

/-- What decides an answer: what others did to the calendars before it, the intervals that are said to be busy, whether a
lookup fails, and the event that is created. -/
structure BookingOracle where
  /-- The bookings that others left. -/
  left : CalendarBooking → Bool
  added : List (CalendarName × CalendarEvent)
  busy : ProviderResult (List BusyInterval)
  lookup : Option ProviderError
  event : CalendarEvent
  creation : Creation

/-- A booking misses the times from the one instant to the other. -/
def CalendarBooking.Misses (start stop : ℤ) (b : CalendarBooking) : Prop :=
  b.event.timeRange.stop ≤ start ∨ stop ≤ b.event.timeRange.start

/-- A booking lies within a busy interval, as far as it lies within a range. -/
def CalendarBooking.ShownIn (busy : List BusyInterval) (range : TimeRange) (b : CalendarBooking) : Prop :=
  ∃ i ∈ busy, i.start ≤ max b.event.timeRange.start range.start ∧ min b.event.timeRange.stop range.stop ≤ i.stop

instance (start stop : ℤ) (b : CalendarBooking) : Decidable (b.Misses start stop) := inferInstanceAs (Decidable (_ ∨ _))

instance (busy : List BusyInterval) (range : TimeRange) (b : CalendarBooking) : Decidable (b.ShownIn busy range) :=
  inferInstanceAs (Decidable (∃ i ∈ busy, _))

namespace Bookings

variable (w : Bookings)

/-- The bookings of the service. -/
def own : Bookings := w.filter (·.own)

/-- A busy list shows every booking of a calendar within a range. -/
def Reports (calendar : CalendarName) (range : TimeRange) (busy : List BusyInterval) : Prop :=
  ∀ b ∈ w, b.calendar = calendar → ¬ b.Misses range.start range.stop → b.ShownIn busy range

instance (calendar : CalendarName) (range : TimeRange) (busy : List BusyInterval) :
    Decidable (Reports w calendar range busy) := inferInstanceAs (Decidable (∀ b ∈ w, _ → _ → _))

/-- The bookings after what others did. -/
def afterOthers (o : BookingOracle) : Bookings :=
  w.filter o.left ++ o.added.map fun entry => ⟨entry.1, entry.2, false⟩

/-- The event of a calendar under a key. -/
def eventUnder (calendar : CalendarName) (key : String) : Option CalendarEvent :=
  (w.find? fun b => b.calendar = calendar ∧ b.event.operationKey = key).map (·.event)

/-- Creates an event under a key, at the times that are asked for: one that is there is left, and is the event. -/
def create (calendar : CalendarName) (key : String) (range : TimeRange) (event : CalendarEvent) : CalendarEvent × Bookings :=
  match eventUnder w calendar key with
  | some existing => (existing, w)
  | none =>
    ({ event with operationKey := key, timeRange := range },
      w ++ [⟨calendar, { event with operationKey := key, timeRange := range }, true⟩])

/-- The busy list that is answered. A list that does not show all bookings is no answer. -/
def busyAnswer (o : BookingOracle) (calendar : CalendarName) (range : TimeRange) : ProviderResult (List BusyInterval) := do
  let busy ← o.busy
  require (Reports w calendar range busy) .unavailable
  return busy

/-- What is answered, and the bookings after that, where others are done. -/
def answerNow (o : BookingOracle) : ProviderCall → CalendarAnswer × Bookings
  | .listBusy calendar range => (⟨.error .notFound, busyAnswer w o calendar range⟩, w)
  | .find calendar key =>
    match o.lookup with
    | some error => (⟨.error error, o.busy⟩, w)
    | none => (⟨okOr (eventUnder w calendar key) .notFound, o.busy⟩, w)
  | .create calendar key range =>
    match o.creation with
    | .refused error => (⟨.error error, o.busy⟩, w)
    | .lost error => (⟨.error error, o.busy⟩, (create w calendar key range o.event).2)
    | .answered => (⟨.ok (create w calendar key range o.event).1, o.busy⟩, (create w calendar key range o.event).2)

/-- What a provider answers. -/
def answer (o : BookingOracle) (call : ProviderCall) : CalendarAnswer × Bookings := answerNow (afterOthers w o) o call

/-- The bookings of the service in a calendar miss the times from the one instant to the other. -/
def ClearIn (calendar : CalendarName) (start stop : ℤ) : Prop := ∀ b ∈ own w, b.calendar = calendar → b.Misses start stop

/-- All bookings of the service do. -/
def Clear (start stop : ℤ) : Prop := ∀ b ∈ own w, b.Misses start stop

variable {w} {w' : Bookings} {o : BookingOracle} {calendar : CalendarName} {key : String} {range : TimeRange}
  {event : CalendarEvent} {start stop : ℤ}

theorem clear_of_clearIn (houtlook : ClearIn w .outlook start stop) (hgoogle : ClearIn w .google start stop) :
    Clear w start stop := by
  intro b hb
  cases hcalendar : b.calendar with
  | outlook => exact houtlook b hb hcalendar
  | google => exact hgoogle b hb hcalendar

theorem Clear.narrow (h : Clear w start stop) {start' stop' : ℤ} (hstart : start ≤ start') (hstop : stop' ≤ stop) :
    Clear w start' stop' := fun b hb => (h b hb).imp (fun h => h.trans hstart) fun h => hstop.trans h

/-! ### What others do, and what is answered -/

/-- **Others add nothing to the bookings of the service.** -/
theorem own_afterOthers : own (afterOthers w o) <+ own w := by
  rw [afterOthers, own, List.filter_append]
  have hadded : (o.added.map fun entry => (⟨entry.1, entry.2, false⟩ : CalendarBooking)).filter (·.own) = [] := by
    refine List.filter_eq_nil_iff.mpr fun b hb => ?_
    obtain ⟨entry, -, rfl⟩ := List.mem_map.mp hb
    exact Bool.false_ne_true
  rw [hadded, List.append_nil]
  exact List.filter_sublist.filter _

/-- An answer that creates nothing leaves the bookings as others left them. -/
theorem answer_bookings {call : ProviderCall} (h : ¬ call.Creates) : (answer w o call).2 = afterOthers w o := by
  cases call with
  | listBusy calendar range => rfl
  | find calendar key =>
    rw [answer, answerNow]
    cases o.lookup <;> rfl
  | create calendar key range => exact absurd trivial h

/-- A creation adds one booking to those of the service, or none. -/
theorem own_create : own (create w calendar key range event).2 <+
    own w ++ [⟨calendar, { event with operationKey := key, timeRange := range }, true⟩] := by
  rw [create]
  cases eventUnder w calendar key with
  | some existing => exact List.sublist_append_left _ _
  | none =>
    rw [own, own, List.filter_append]
    exact List.Sublist.refl _

/-- **A creation that is asked for** adds one booking to those of the service, at the times that were asked for, or none. -/
theorem own_answer_create : ∃ event : CalendarEvent, event.timeRange = range ∧
    own (answer w o (.create calendar key range)).2 <+ own w ++ [⟨calendar, event, true⟩] := by
  refine ⟨{ o.event with operationKey := key, timeRange := range }, rfl, ?_⟩
  have hothers : own (afterOthers w o) <+ own w ++ [⟨calendar, { o.event with operationKey := key, timeRange := range }, true⟩] :=
    own_afterOthers.trans (List.sublist_append_left _ _)
  have hcreated : own (create (afterOthers w o) calendar key range o.event).2 <+
      own w ++ [⟨calendar, { o.event with operationKey := key, timeRange := range }, true⟩] :=
    own_create.trans (own_afterOthers.append_right _)
  rw [answer, answerNow]
  cases o.creation with
  | refused error => exact hothers
  | lost error => exact hcreated
  | answered => exact hcreated

/-- **A busy list without overlaps shows the calendar to be clear.** -/
theorem clearIn_of_busyAnswer {busy : List BusyInterval} (h : (answer w o (.listBusy calendar range)).1.busy = .ok busy)
    (hfree : busyOverlaps busy range.start range.stop = false) :
    ClearIn (answer w o (.listBusy calendar range)).2 calendar range.start range.stop := by
  obtain ⟨shown, -, hrest⟩ := bind_eq_ok_iff.mp h
  obtain ⟨_, hreports, hbusy⟩ := bind_eq_ok_iff.mp hrest
  obtain rfl := Except.ok.inj hbusy
  have hreports' := require_eq_ok_iff.mp hreports
  intro b hb hcalendar
  by_contra hmisses
  obtain ⟨i, hi, hstart, hstop⟩ := hreports' b (List.mem_of_mem_filter hb) hcalendar hmisses
  -- the part of the booking within the range is not empty, so the interval that shows it overlaps the range
  have hbooking := b.event.timeRange.start_lt_stop
  have hrange := range.start_lt_stop
  rw [CalendarBooking.Misses, not_or, not_le, not_le] at hmisses
  have hfirst : i.start < range.stop := hstart.trans_lt (max_lt hmisses.2 hrange)
  have hlast : range.start < i.stop := (lt_min hmisses.1 hrange).trans_le hstop
  have hoverlaps : busyOverlaps shown range.start range.stop = true :=
    List.any_eq_true.mpr ⟨i, hi, by rw [decide_eq_true hfirst, decide_eq_true hlast]; rfl⟩
  rw [hoverlaps] at hfree
  cases hfree

/-! ### Bookings of the service that do not clash -/

/-- How far from other bookings a calendar is booked: requests keep a buffer. -/
def margin (buffer : ℤ) : CalendarName → ℤ
  | .google => buffer
  | .outlook => 0

variable (w) in
/-- **No booking of the service clashes with an earlier one**: a request keeps a buffer from all that was booked before it,
and a task does not overlap it. -/
def ClashFree (buffer : ℤ) : Prop :=
  (own w).Pairwise fun earlier later =>
    earlier.Misses (later.event.timeRange.start - margin buffer later.calendar)
      (later.event.timeRange.stop + margin buffer later.calendar)

theorem ClashFree.sublist {buffer : ℤ} (h : ClashFree w buffer) (hsublist : own w' <+ own w) : ClashFree w' buffer :=
  List.Pairwise.sublist hsublist h

theorem Clear.sublist (h : Clear w start stop) (hsublist : own w' <+ own w) : Clear w' start stop :=
  fun b hb => h b (hsublist.subset hb)

theorem ClearIn.sublist (h : ClearIn w calendar start stop) (hsublist : own w' <+ own w) : ClearIn w' calendar start stop :=
  fun b hb => h b (hsublist.subset hb)

/-- **A booking where the calendars are clear** clashes with nothing. -/
theorem ClashFree.create {buffer : ℤ} (h : ClashFree w buffer)
    (hclear : Clear w (range.start - margin buffer calendar) (range.stop + margin buffer calendar)) :
    ClashFree (answer w o (.create calendar key range)).2 buffer := by
  obtain ⟨event, hevent, hsublist⟩ : ∃ event : CalendarEvent, event.timeRange = range ∧
      own (answer w o (.create calendar key range)).2 <+ own w ++ [⟨calendar, event, true⟩] := own_answer_create
  refine List.Pairwise.sublist hsublist (List.pairwise_append.mpr ⟨h, List.pairwise_singleton _ _, ?_⟩)
  intro b hb later hlater
  obtain rfl := List.mem_singleton.mp hlater
  rw [hevent]
  exact hclear b hb

/-- Bookings that do not clash do not overlap. -/
theorem ClashFree.apart {buffer : ℤ} (hbuffer : 0 ≤ buffer) (h : ClashFree w buffer) :
    (own w).Pairwise fun b b' => b.Misses b'.event.timeRange.start b'.event.timeRange.stop := by
  have hmargin : ∀ calendar, 0 ≤ margin buffer calendar := by
    intro calendar
    cases calendar with
    | google => exact hbuffer
    | outlook => exact le_rfl
  refine List.Pairwise.imp (fun {b b'} hmisses => ?_) h
  exact hmisses.imp (fun h => h.trans (sub_le_self _ (hmargin _))) fun h => (le_add_of_nonneg_right (hmargin _)).trans h

end Bookings

end AgentVoice.PaService

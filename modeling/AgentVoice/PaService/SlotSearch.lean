import AgentVoice.Availability.Soundness
import AgentVoice.PaService.PreparedRequest
import AgentVoice.Providers.CalendarEvents
import AgentVoice.Store.QuoteOrigins

/-!
# Searching slots

`PaService::search_slots` asks both calendars what is busy, lets the policy choose slots and saves them as a quote. A search
that fails saves nothing, and what a search returns is what is read back from then on. Where only searches save quotes,
every quote in the tables was offered by the policy over what both calendars answered to one search (`OfferedBy`), and every
request that is prepared is for a slot of such a quote (`searchSlots_offers`).
-/

namespace AgentVoice.PaService

open AgentVoice.Foundations AgentVoice.Domain AgentVoice.Providers AgentVoice.Availability AgentVoice.Store

/-! ### The model -/

/-- What a calendar provider is asked for. -/
inductive BusyCall where
  | listOutlookBusy (range : TimeRange)
  | listGoogleBusy (range : TimeRange)
  deriving DecidableEq

/-- What a calendar provider answers. -/
abbrev BusyAnswer := ProviderResult (List BusyInterval)

/-- What a caller asks `search_slots` for, and the identifier that is drawn for its quote. -/
structure SearchArguments where
  kind : AppointmentKind
  now : OffsetDateTime
  limit : ℕ
  quoteId : QuoteId

/-- `AvailabilitySearch`. -/
structure AvailabilitySearch where
  quote : Quote
  appointmentKind : AppointmentKind
  timezone : String
  offeredSlots : List AppointmentSlot
  deriving DecidableEq

/-- The offer of a quote. -/
def AvailabilitySearch.ofStored (stored : StoredAppointmentQuote) : AvailabilitySearch :=
  ⟨stored.quote, stored.appointmentKind, stored.timezone, stored.offeredSlots⟩

/-- The times that the calendars are asked about. -/
def searchRange (policy : AvailabilityPolicy) (now : OffsetDateTime) : ServiceResult TimeRange := do
  let horizonEnd ← okOr (now.checkedAdd policy.bookingHorizon) (.availability .dateTimeOverflow)
  let providerStart ← okOr (now.checkedAdd (-policy.meetingBuffer)) (.availability .dateTimeOverflow)
  let providerEnd ← okOr (horizonEnd.checkedAdd policy.meetingBuffer) (.availability .dateTimeOverflow)
  let _ ← okOr (now.checkedAdd Quote.validFor) (.availability .dateTimeOverflow)
  let start ← toChronoUtc providerStart
  let stop ← toChronoUtc providerEnd
  replaceError (TimeRange.new start stop) (.invalidInput "time_range")

/-- The slot from an instant on. -/
def offeredSlot (kind : AppointmentKind) (startsAt : ℤ) : ServiceResult AppointmentSlot := do
  let endsAt ← okOr ((⟨startsAt, 0⟩ : OffsetDateTime).checkedAdd kind.duration) (.availability .dateTimeOverflow)
  AppointmentSlot.new ⟨startsAt, 0⟩ endsAt (.invalidInput "appointment_slot")

/-- The slots that are offered over what is busy. -/
def offeredSlots (policy : AvailabilityPolicy) (a : SearchArguments) (outlookBusy googleBusy : List BusyInterval) :
    ServiceResult (List AppointmentSlot) := do
  let starts ← (availableSlots policy a.now.toUtc a.kind.duration outlookBusy googleBusy a.limit).mapError .availability
  require (starts ≠ []) .noAvailability
  starts.mapM (offeredSlot a.kind)

/-- `PaService::search_slots`. -/
def searchSlots (timezones : Timezones) (policy : AvailabilityPolicy) (a : SearchArguments) :
    Operation BusyCall BusyAnswer AvailabilitySearch := do
  Saga.ensure (a.limit ≠ 0 ∧ a.limit ≤ maxAppointmentQuoteSlots) (.invalidInput "limit")
  let range ← Saga.ofResult (searchRange policy a.now.toUtc)
  let outlook ← Saga.query (.listOutlookBusy range)
  let outlookBusy ← Saga.ofResult (outlook.mapError .outlookCalendar)
  let google ← Saga.query (.listGoogleBusy range)
  let googleBusy ← Saga.ofResult (google.mapError .googleCalendar)
  let slots ← Saga.ofResult (offeredSlots policy a outlookBusy googleBusy)
  let stored ← Saga.store .store fun _ =>
    saveAppointmentQuote timezones ⟨a.quoteId, a.now.toUtc⟩ a.kind policy.timezoneName slots
  return .ofStored stored

/-! ### Where a quote comes from -/

/-- A call of a provider and its answer. -/
abbrev BusyExchange := BusyCall × BusyAnswer

/-- Around a search other calls of the store are made, and a provider may answer anything; what was asked and answered is
recorded. -/
def busySurroundings (env : Environment) :
    Saga.Surroundings Command BusyAnswer Database (List BusyExchange) BusyCall BusyAnswer where
  interfere := step env
  answer oracle call exchanges := (oracle, (call, oracle) :: exchanges)

/-- What searches have asked, one after another, the latest exchange first: each its question to Outlook, and then, once
that is answered, the one to Google. -/
inductive Searched : List BusyExchange → Prop
  | nil : Searched []
  | outlook {exchanges} (range : TimeRange) (answer : BusyAnswer) (before : Searched exchanges) :
      Searched ((.listOutlookBusy range, answer) :: exchanges)
  | google {exchanges} (range : TimeRange) (outlookBusy : List BusyInterval) (answer : BusyAnswer)
      (before : Searched exchanges) :
      Searched ((.listGoogleBusy range, answer) :: (.listOutlookBusy range, .ok outlookBusy) :: exchanges)

/-- One search was told by both calendars what is busy from the buffer before an instant to the buffer after the horizon:
its two exchanges stand next to each other. -/
def BusyShown (policy : AvailabilityPolicy) (now : ℤ) (outlookBusy googleBusy : List BusyInterval)
    (exchanges : List BusyExchange) : Prop :=
  ∃ range : TimeRange, range.start = now - policy.meetingBuffer ∧
    range.stop = now + policy.bookingHorizon + policy.meetingBuffer ∧
    [(.listGoogleBusy range, .ok googleBusy), (.listOutlookBusy range, .ok outlookBusy)] <:+: exchanges

/-- A quote was offered over what is busy: its slots are the ones that were found at the time of its issue, they are as
long as the appointment, and the policy allows each of them. -/
structure OfferedOver (policy : AvailabilityPolicy) (outlookBusy googleBusy : List BusyInterval)
    (q : StoredAppointmentQuote) : Prop where
  timezone : q.timezone = policy.timezoneName
  found : ∃ now limit, now.unixNanos = q.quote.issuedAt.unixNanos ∧ limit ≤ maxAppointmentQuoteSlots ∧
    availableSlots policy now q.appointmentKind.duration outlookBusy googleBusy limit =
      .ok (q.offeredSlots.map (·.startsAt.unixNanos))
  duration : ∀ slot ∈ q.offeredSlots, slot.endsAt.unixNanos = slot.startsAt.unixNanos + q.appointmentKind.duration
  allowed : ∀ slot ∈ q.offeredSlots, slot.startsAt.unixNanos ∈
    slotSpec policy q.quote.issuedAt.unixNanos q.appointmentKind.duration outlookBusy googleBusy

/-- A quote was offered over what one search was told at the time of its issue. -/
def OfferedBy (policy : AvailabilityPolicy) (exchanges : List BusyExchange) (q : StoredAppointmentQuote) : Prop :=
  ∃ outlookBusy googleBusy, BusyShown policy q.quote.issuedAt.unixNanos outlookBusy googleBusy exchanges ∧
    OfferedOver policy outlookBusy googleBusy q

variable {env : Environment} {policy : AvailabilityPolicy} {db db' : Database} {exchanges exchanges' : List BusyExchange}

/-- What was shown stays so while more is asked. -/
theorem OfferedBy.cons {q : StoredAppointmentQuote} (h : OfferedBy policy exchanges q) (exchange : BusyExchange) :
    OfferedBy policy (exchange :: exchanges) q := by
  obtain ⟨outlookBusy, googleBusy, ⟨range, hstart, hstop, hasked⟩, hover⟩ := h
  exact ⟨outlookBusy, googleBusy, ⟨range, hstart, hstop, List.infix_cons hasked⟩, hover⟩

theorem OfferedBy.moves {q q' : StoredAppointmentQuote} (h : OfferedBy policy exchanges q) (hmoves : q.MovesTo q') :
    OfferedBy policy exchanges q' := by
  obtain ⟨outlookBusy, googleBusy, hshown, hzone, hfound, hduration, hallowed⟩ := h
  rw [← hmoves.quote] at hshown hfound hallowed
  rw [← hmoves.appointmentKind, ← hmoves.offeredSlots] at hfound hduration hallowed
  exact ⟨outlookBusy, googleBusy, hshown, hmoves.timezone.trans hzone, hfound, hduration, hallowed⟩

/-- The times that are asked about lie around the horizon. -/
theorem searchRange_eq_ok {now : OffsetDateTime} {range : TimeRange} (h : searchRange policy now = .ok range) :
    range.start = now.unixNanos - policy.meetingBuffer ∧
      range.stop = now.unixNanos + policy.bookingHorizon + policy.meetingBuffer := by
  obtain ⟨horizonEnd, hhorizon, h⟩ := bind_eq_ok_iff.mp h
  obtain ⟨providerStart, hstart, h⟩ := bind_eq_ok_iff.mp h
  obtain ⟨providerEnd, hend, h⟩ := bind_eq_ok_iff.mp h
  obtain ⟨_, -, h⟩ := bind_eq_ok_iff.mp h
  obtain ⟨start, hstart', h⟩ := bind_eq_ok_iff.mp h
  obtain ⟨stop, hstop', h⟩ := bind_eq_ok_iff.mp h
  obtain ⟨-, -, hrangeStart, hrangeStop⟩ := TimeRange.new_eq_ok_iff.mp (replaceError_eq_ok_iff.mp h)
  obtain ⟨rfl, -⟩ := OffsetDateTime.checkedAdd_eq_some_iff.mp (okOr_eq_ok_iff.mp hhorizon)
  obtain ⟨rfl, -⟩ := OffsetDateTime.checkedAdd_eq_some_iff.mp (okOr_eq_ok_iff.mp hstart)
  obtain ⟨rfl, -⟩ := OffsetDateTime.checkedAdd_eq_some_iff.mp (okOr_eq_ok_iff.mp hend)
  obtain ⟨_, -, hstart'⟩ := bind_eq_ok_iff.mp hstart'
  obtain ⟨_, -, hstop'⟩ := bind_eq_ok_iff.mp hstop'
  obtain rfl := Except.ok.inj hstart'
  obtain rfl := Except.ok.inj hstop'
  exact ⟨hrangeStart, hrangeStop⟩

theorem map_interval_eq {f : ℤ → ℤ × ℤ} {starts : List ℤ} {slots : List AppointmentSlot}
    (h : List.Forall₂ (fun s slot => slot.interval = f s) starts slots) : slots.map (·.interval) = starts.map f := by
  induction h with
  | nil => rfl
  | cons hslot _ ih => rw [List.map_cons, List.map_cons, hslot, ih]

/-- The slots that are offered start where the policy chose, and are as long as the appointment. -/
theorem offeredSlots_eq_ok {a : SearchArguments} {outlookBusy googleBusy : List BusyInterval} {slots : List AppointmentSlot}
    (h : offeredSlots policy a outlookBusy googleBusy = .ok slots) :
    ∃ starts, availableSlots policy a.now.toUtc a.kind.duration outlookBusy googleBusy a.limit = .ok starts ∧
      slots.map (·.interval) = starts.map fun s => (s, s + a.kind.duration) := by
  obtain ⟨starts, hstarts, h⟩ := bind_eq_ok_iff.mp h
  obtain ⟨_, -, h⟩ := bind_eq_ok_iff.mp h
  refine ⟨starts, mapError_eq_ok_iff.mp hstarts, map_interval_eq ((mapM_eq_ok_iff_forall₂.mp h).imp fun s slot hslot => ?_)⟩
  obtain ⟨endsAt, hend, hnew⟩ := bind_eq_ok_iff.mp hslot
  obtain ⟨rfl, -⟩ := OffsetDateTime.checkedAdd_eq_some_iff.mp (okOr_eq_ok_iff.mp hend)
  obtain ⟨hstarts, hends⟩ := AppointmentSlot.new_eq_ok_iff.mp hnew
  rw [AppointmentSlot.interval, hstarts, hends]

/-- A quote that was saved with chosen slots is offered. -/
theorem offeredBy_of_saved {a : SearchArguments} {outlookBusy googleBusy : List BusyInterval} {slots : List AppointmentSlot}
    (hlimit : a.limit ≤ maxAppointmentQuoteSlots) (hslots : offeredSlots policy a outlookBusy googleBusy = .ok slots)
    (hshown : BusyShown policy a.now.unixNanos outlookBusy googleBusy exchanges) {q : StoredAppointmentQuote}
    (hsame : q.quote.Same ⟨a.quoteId, a.now.toUtc⟩) (hkind : q.appointmentKind = a.kind)
    (hzone : q.timezone = policy.timezoneName) (hintervals : q.offeredSlots.map (·.interval) = slots.map (·.interval)) :
    OfferedBy policy exchanges q := by
  obtain ⟨starts, hstarts, hpairs⟩ := offeredSlots_eq_ok hslots
  rw [hpairs] at hintervals
  have hissued : q.quote.issuedAt.unixNanos = a.now.unixNanos := hsame.2
  have hstartsAt : starts = q.offeredSlots.map (·.startsAt.unixNanos) := by
    have hfirst := congrArg (List.map Prod.fst) hintervals
    simp only [List.map_map, Function.comp_def, AppointmentSlot.interval, List.map_id'] at hfirst
    exact hfirst.symm
  have hfound : availableSlots policy a.now.toUtc q.appointmentKind.duration outlookBusy googleBusy a.limit =
      .ok (q.offeredSlots.map (·.startsAt.unixNanos)) := by rw [hkind, hstarts, hstartsAt]
  refine ⟨outlookBusy, googleBusy, by rwa [hissued], hzone, ⟨a.now.toUtc, a.limit, hissued.symm, hlimit, hfound⟩,
    fun slot hslot => ?_, fun slot hslot => ?_⟩
  · have hmem : slot.interval ∈ starts.map fun s => (s, s + a.kind.duration) := by
      rw [← hintervals]
      exact List.mem_map_of_mem hslot
    obtain ⟨s, -, hs⟩ := List.mem_map.mp hmem
    obtain ⟨hstart, hend⟩ := Prod.mk.inj hs
    rw [← hend, ← hstart, hkind]
  · have hmem : slot.startsAt.unixNanos ∈ q.offeredSlots.map (·.startsAt.unixNanos) := List.mem_map_of_mem hslot
    have hspec := mem_slotSpec_of_availableSlots q.appointmentKind.duration_pos hfound hmem
    rwa [OffsetDateTime.toUtc_unixNanos, ← hissued] at hspec

/-! ### The contract of a search -/

/-- What holds throughout: all quotes were offered, over what searches have asked, and since some tables only changes were
made. -/
structure Searching (env : Environment) (policy : AvailabilityPolicy) (since db : Database) (exchanges : List BusyExchange) :
    Prop where
  reachable : Reachable env db
  changes : Changes env since db
  searched : Searched exchanges
  offered : ∀ quoteId q, appointmentQuoteById env.timezones quoteId db = .ok q → OfferedBy policy exchanges q

/-- A turn around a search: its call is made or fails, its questions are answered, or another call is made, which saves no
quote. -/
def SearchTurn : Saga.Turn SystemTime StoreError Command BusyAnswer → Prop
  | .interfere c => c.savesQuote = false
  | _ => True

/-- What may happen around a search. -/
def searching (env : Environment) (policy : AvailabilityPolicy) (since : Database) :
    Saga.Setting SystemTime StoreError Database BusyCall BusyAnswer Command BusyAnswer (List BusyExchange) where
  surroundings := busySurroundings env
  allowed := SearchTurn
  asks _ _ _ := True
  stops := Searching env policy since

section Contract

variable {since : Database}

theorem Searching.interfere (h : Searching env policy since db exchanges) {c : Command} (hc : c.savesQuote = false) :
    Searching env policy since (step env c db) exchanges := by
  have hconsistent := h.reachable.consistent
  refine ⟨h.reachable.run [c], h.changes.trans (step_changes hconsistent c), h.searched, fun quoteId q hq => ?_⟩
  cases hrun : (c.transaction env).run db with
  | error e =>
    rw [step_of_error hrun] at hq
    exact h.offered quoteId q hq
  | ok r =>
    obtain ⟨u, after⟩ := r
    rw [step_of_ok hrun] at hq
    obtain ⟨q₀, hq₀, hmoves⟩ := offer_before hconsistent hrun hc hq
    exact (h.offered quoteId q₀ hq₀).moves hmoves

/-- **What holds throughout and what was exchanged is stable.** -/
theorem stable_searching (Q : List BusyExchange → Prop) :
    Saga.Stable (searching env policy since) fun db exchanges => Searching env policy since db exchanges ∧ Q exchanges where
  interfere _ _ _ hc h := ⟨h.1.interfere hc, h.2⟩
  stops _ _ h := h.1

/-- A question adds its exchange to those before. -/
theorem busy_triple {α : Type} {Q : List BusyExchange → Prop} {call : BusyCall}
    {f : BusyAnswer → Operation BusyCall BusyAnswer α} {R : ServiceResult α → Database → List BusyExchange → Prop}
    (hsearched : ∀ answer exchanges, Searched exchanges → Q exchanges → Searched ((call, answer) :: exchanges))
    (hnext : ∀ answer, Saga.Triple (searching env policy since)
      (fun db exchanges => Searching env policy since db exchanges ∧
        ∃ before, exchanges = (call, answer) :: before ∧ Searched before ∧ Q before) (f answer) R) :
    Saga.Triple (searching env policy since) (fun db exchanges => Searching env policy since db exchanges ∧ Q exchanges)
      (Saga.query call >>= f) R := by
  refine Saga.Triple.query_bind (stable_searching Q) (fun _ _ _ => trivial) fun oracle answer _ => ?_
  refine (hnext answer).weaken ?_ fun _ _ _ h => h
  rintro db exchanges' ⟨exchanges, ⟨hsearching, h⟩, hanswer⟩
  obtain ⟨rfl, rfl⟩ := Prod.mk.inj hanswer
  refine ⟨⟨hsearching.reachable, hsearching.changes, hsearched _ _ hsearching.searched h, fun quoteId q hq => ?_⟩,
    exchanges, rfl, hsearching.searched, h⟩
  exact (hsearching.offered quoteId q hq).cons _

/-- What a search promises of its result: the quote that was asked for, as it is read back. -/
def SearchEnds (env : Environment) (policy : AvailabilityPolicy) (since : Database) (a : SearchArguments)
    (r : ServiceResult AvailabilitySearch) (db : Database) (exchanges : List BusyExchange) : Prop :=
  Searching env policy since db exchanges ∧ ∀ found, r = .ok found → ∃ q,
    appointmentQuoteById env.timezones a.quoteId db = .ok q ∧ found = .ofStored q ∧ q.appointmentKind = a.kind

/-- The quote that a search saves is offered, and the others stay so. -/
theorem Searching.saved {a : SearchArguments} (h : Searching env policy since db exchanges)
    (hlimit : a.limit ≤ maxAppointmentQuoteSlots) {outlookBusy googleBusy : List BusyInterval}
    (hshown : BusyShown policy a.now.unixNanos outlookBusy googleBusy exchanges) {slots : List AppointmentSlot}
    (hslots : offeredSlots policy a outlookBusy googleBusy = .ok slots) {q : StoredAppointmentQuote} {db' : Database}
    (hrun : (saveAppointmentQuote env.timezones ⟨a.quoteId, a.now.toUtc⟩ a.kind policy.timezoneName slots).run db =
      .ok (q, db')) :
    Searching env policy since db' exchanges ∧ appointmentQuoteById env.timezones a.quoteId db' = .ok q ∧
      q.appointmentKind = a.kind := by
  obtain ⟨⟨hq, hsame, hkind, hzone, hintervals⟩, hrows⟩ := saveAppointmentQuote_stores hrun
  have hc := h.reachable.consistent
  have hrun' : ((Command.saveAppointmentQuote ⟨a.quoteId, a.now.toUtc⟩ a.kind policy.timezoneName slots).transaction env).run
      db = .ok ((), db') := Tx.run_discard_eq_ok_iff.mpr ⟨q, hrun⟩
  have hchanges := Command.changes hc hrun'
  refine ⟨⟨h.reachable.call (c := .saveAppointmentQuote ⟨a.quoteId, a.now.toUtc⟩ a.kind policy.timezoneName slots) rfl hrun,
    h.changes.trans hchanges, h.searched, fun quoteId' q' hq' => ?_⟩, hq, hkind⟩
  obtain ⟨row, hrow, -⟩ := appointmentQuoteById_eq_ok_iff.mp hq'
  obtain ⟨hmem, hid⟩ := Table.byKey_eq_some hrow
  rcases hrows row hmem with hmem | hsaved
  · obtain ⟨q₀, hq₀⟩ := hc.exists_quote ⟨row, hmem, hid⟩
    obtain ⟨q'', hq'', hmoves⟩ := hchanges.movesTo hc hq₀
    obtain rfl := Except.ok.inj (hq'.symm.trans hq'')
    exact (h.offered quoteId' q₀ hq₀).moves hmoves
  · obtain rfl : quoteId' = a.quoteId := QuoteId.ext (hid.symm.trans hsaved)
    obtain rfl := Except.ok.inj (hq'.symm.trans hq)
    exact offeredBy_of_saved hlimit hslots hshown hsame hkind hzone hintervals

/-- **The contract of `search_slots`.** -/
theorem searchSlots_triple (a : SearchArguments) :
    Saga.Triple (searching env policy since) (fun db exchanges => Searching env policy since db exchanges ∧ True)
      (searchSlots env.timezones policy a) (SearchEnds env policy since a) := by
  refine Saga.Triple.ensure_bind (fun hlimit => ?_) fun _ _ _ h => ⟨h.1, nofun⟩
  refine Saga.Triple.ofResult_bind (fun range hrange => ?_) fun _ _ _ _ h => ⟨h.1, nofun⟩
  refine busy_triple (fun answer _ hsearched _ => .outlook range answer hsearched) fun outlook => ?_
  refine Saga.Triple.ofResult_bind (fun outlookBusy houtlook => ?_) fun _ _ _ _ h => ⟨h.1, nofun⟩
  obtain rfl := mapError_eq_ok_iff.mp houtlook
  refine busy_triple ?_ fun google => ?_
  · rintro answer _ - ⟨before, rfl, hbefore, -⟩
    exact .google range outlookBusy answer hbefore
  refine Saga.Triple.ofResult_bind (fun googleBusy hgoogle => ?_) fun _ _ _ _ h => ⟨h.1, nofun⟩
  refine Saga.Triple.ofResult_bind (fun slots hslots => ?_) fun _ _ _ _ h => ⟨h.1, nofun⟩
  obtain rfl := mapError_eq_ok_iff.mp hgoogle
  obtain ⟨hstart, hstop⟩ := searchRange_eq_ok hrange
  refine Saga.Triple.weaken (P := fun db exchanges => Searching env policy since db exchanges ∧
    BusyShown policy a.now.unixNanos outlookBusy googleBusy exchanges) ?_ ?_ fun _ _ _ h => h
  rotate_left
  · rintro db _ ⟨hsearching, _, rfl, -, before, rfl, -⟩
    exact ⟨hsearching, range, hstart, hstop, [], before, rfl⟩
  refine Saga.Triple.store_bind (R := fun q db exchanges => Searching env policy since db exchanges ∧
    appointmentQuoteById env.timezones a.quoteId db = .ok q ∧ q.appointmentKind = a.kind)
    (stable_searching (BusyShown policy a.now.unixNanos outlookBusy googleBusy)) ?_ (fun _ _ _ _ _ h _ => ⟨h.1, nofun⟩)
    (fun _ _ _ _ h => ⟨h.1, nofun⟩) fun q => Saga.Triple.pure fun db exchanges h => ⟨h.1, fun found hfound => ?_⟩
  · rintro clock q db db' exchanges - ⟨hsearching, hshown⟩ hrun
    exact hsearching.saved hlimit.2 hshown hslots hrun
  · obtain rfl := Except.ok.inj hfound
    exact ⟨q, h.2.1, rfl, h.2.2⟩

end Contract

/-! ### A search that fails -/

/-- A turn in which nothing else changes the store. -/
def NothingElse : Saga.Turn SystemTime StoreError Command BusyAnswer → Prop
  | .interfere _ => False
  | _ => True

/-- A search around which nothing else changes the store, until it stops. -/
def alone (env : Environment) (since : Database) :
    Saga.Setting SystemTime StoreError Database BusyCall BusyAnswer Command BusyAnswer (List BusyExchange) where
  surroundings := busySurroundings env
  allowed := NothingElse
  asks _ _ _ := True
  stops db _ := db = since

theorem stable_alone {since : Database} : Saga.Stable (alone env since) fun db _ => db = since where
  interfere _ _ _ hnone _ := hnone.elim
  stops _ _ h := h

theorem alone_triple {since : Database} {α : Type} {call : BusyCall} {f : BusyAnswer → Operation BusyCall BusyAnswer α}
    {R : ServiceResult α → Database → List BusyExchange → Prop}
    (hnext : ∀ answer, Saga.Triple (alone env since) (fun db _ => db = since) (f answer) R) :
    Saga.Triple (alone env since) (fun db _ => db = since) (Saga.query call >>= f) R := by
  refine Saga.Triple.query_bind stable_alone (fun _ _ _ => trivial) fun oracle answer _ => ?_
  refine (hnext answer).weaken ?_ fun _ _ _ h => h
  rintro db _ ⟨_, rfl, -⟩
  rfl

/-- **A search that returns no slots saves nothing.** -/
theorem searchSlots_alone {since : Database} (a : SearchArguments) :
    Saga.Triple (alone env since) (fun db _ => db = since) (searchSlots env.timezones policy a)
      fun r db _ => (∀ found, r ≠ .ok found) → db = since := by
  refine Saga.Triple.ensure_bind (fun _ => ?_) fun _ _ _ h _ => h
  refine Saga.Triple.ofResult_bind (fun _ _ => ?_) fun _ _ _ _ h _ => h
  refine alone_triple fun _ => ?_
  refine Saga.Triple.ofResult_bind (fun _ _ => ?_) fun _ _ _ _ h _ => h
  refine alone_triple fun _ => ?_
  refine Saga.Triple.ofResult_bind (fun _ _ => ?_) fun _ _ _ _ h _ => h
  refine Saga.Triple.ofResult_bind (fun slots _ => ?_) fun _ _ _ _ h _ => h
  refine Saga.Triple.store_bind (R := fun _ _ _ => True) stable_alone (fun _ _ _ _ _ _ _ _ => trivial)
    (fun _ _ _ _ _ h _ _ => h) (fun _ _ _ _ h _ => h) fun q => Saga.Triple.pure fun _ _ _ hnone => ?_
  exact absurd rfl (hnone _)

/-! ### Histories -/

/-- A search. -/
def search (env : Environment) (policy : AvailabilityPolicy) (a : SearchArguments)
    (turns : List (Saga.Turn SystemTime StoreError Command BusyAnswer)) (s : Database × List BusyExchange) :
    Saga.Ran Database (List BusyExchange) BusyCall ServiceError AvailabilitySearch :=
  Saga.run (busySurroundings env) turns (searchSlots env.timezones policy a) s.1 s.2

/-- What happens over time: searches, and other calls of the store. -/
abbrev SearchEpisode := Saga.Episode SearchArguments SystemTime StoreError Command BusyAnswer

/-- The tables and the exchanges after searches and other calls. -/
def afterSearches (env : Environment) (policy : AvailabilityPolicy) (episodes : List SearchEpisode)
    (s : Database × List BusyExchange) : Database × List BusyExchange :=
  Machine.run (Saga.Episode.step (busySurroundings env) (searchSlots env.timezones policy)) episodes s

/-- The turns of an episode. -/
def IsSearchEpisode : SearchEpisode → Prop
  | .attempt _ turns => ∀ t ∈ turns, SearchTurn t
  | .interfere c => c.savesQuote = false

/-- A request is for a slot that was offered: one of the quote with its id. -/
def ForOffered (env : Environment) (policy : AvailabilityPolicy) (s : Database × List BusyExchange) (p : PreparedRequest) :
    Prop :=
  ∃ q, appointmentQuoteById env.timezones p.quoteId s.1 = .ok q ∧ OfferedBy policy s.2 q ∧ p.kind = q.appointmentKind ∧
    p.timezone = q.timezone ∧ ∃ slot ∈ q.offeredSlots, p.startsAt.unixNanos = slot.startsAt.unixNanos ∧
      p.endsAt.unixNanos = slot.endsAt.unixNanos

/-- How searches go on: each asked Outlook and then Google; every quote was offered; a search that returns no slots leaves
the tables; what a search returns is what is read back, whatever comes after; and every request that is prepared is for a
slot that was offered. -/
structure Offers (env : Environment) (policy : AvailabilityPolicy) (s : Database × List BusyExchange) : Prop where
  searched : Searched s.2
  offered : ∀ quoteId q, appointmentQuoteById env.timezones quoteId s.1 = .ok q → OfferedBy policy s.2 q
  refused : ∀ a turns, (∀ t ∈ turns, NothingElse t) → (∀ found, (search env policy a turns s).result ≠ some (.ok found)) →
    (search env policy a turns s).store = s.1
  returned : ∀ a turns, (∀ t ∈ turns, SearchTurn t) → ∀ found, (search env policy a turns s).result = some (.ok found) →
    found.appointmentKind = a.kind ∧ ∀ later, (∀ e ∈ later, IsSearchEpisode e) → ∃ q,
      appointmentQuoteById env.timezones a.quoteId
        (afterSearches env policy later ((search env policy a turns s).store, (search env policy a turns s).world)).1 = .ok q ∧
      .ofStored q = found
  prepared : ∀ clock a time (between : List Command) time' p db', Saga.run (storeSurroundings env)
      (.call time :: (between.map .interfere ++ [.call time'])) (prepareRequest env.timezones clock a) s.1 () =
        ⟨some (.ok p), db', (), []⟩ → ForOffered env policy s p

/-- A search keeps its contract. -/
theorem search_ends {since : Database} {a : SearchArguments}
    {turns : List (Saga.Turn SystemTime StoreError Command BusyAnswer)} (hturns : ∀ t ∈ turns, SearchTurn t)
    {s : Database × List BusyExchange} (h : Searching env policy since s.1 s.2) :
    Searching env policy since (search env policy a turns s).store (search env policy a turns s).world ∧
      ∀ found, (search env policy a turns s).result = some (.ok found) → ∃ q,
        appointmentQuoteById env.timezones a.quoteId (search env policy a turns s).store = .ok q ∧ found = .ofStored q ∧
        q.appointmentKind = a.kind := by
  obtain ⟨-, hstops, hreturns⟩ := searchSlots_triple a turns hturns s.1 s.2 ⟨h, trivial⟩
  refine ⟨?_, fun found hfound => (hreturns _ hfound).2 found rfl⟩
  cases hresult : (search env policy a turns s).result with
  | none => exact hstops hresult
  | some r => exact (hreturns r hresult).1

/-- **A history keeps what holds throughout.** -/
theorem afterSearches_searching {since : Database} {episodes : List SearchEpisode} (hepisodes : ∀ e ∈ episodes, IsSearchEpisode e)
    {s : Database × List BusyExchange} (h : Searching env policy since s.1 s.2) :
    Searching env policy since (afterSearches env policy episodes s).1 (afterSearches env policy episodes s).2 := by
  refine Saga.Episode.run_invariant (x := searching env policy since) (I := Searching env policy since) ?_
    (fun c db exchanges hc h => h.interfere hc) ?_ h
  · exact fun a turns hturns db exchanges h => (search_ends (a := a) (s := (db, exchanges)) hturns h).1
  · intro e he
    have hepisode := hepisodes e he
    cases e with
    | interfere c => exact hepisode
    | attempt a turns => exact hepisode

/-- The offer of a quote outlasts every history. -/
theorem Searching.offer {since : Database} (h : Searching env policy since db exchanges) (hsince : Consistent env since)
    {quoteId : QuoteId} {q : StoredAppointmentQuote} (hq : appointmentQuoteById env.timezones quoteId since = .ok q) :
    ∃ q', appointmentQuoteById env.timezones quoteId db = .ok q' ∧
      AvailabilitySearch.ofStored q' = AvailabilitySearch.ofStored q := by
  obtain ⟨q', hq', hmoves⟩ := h.changes.movesTo hsince hq
  refine ⟨q', hq', ?_⟩
  rw [AvailabilitySearch.ofStored, hmoves.quote, hmoves.appointmentKind, hmoves.timezone, hmoves.offeredSlots]
  rfl

/-- A draft that is asked for starts with a slot of its quote. -/
theorem draft_eq_ok {a : PrepareArguments} {quoted : StoredAppointmentQuote} {draft : AppointmentDraft}
    (h : a.draft quoted = .ok draft) : quoted.appointmentKind = a.expectedKind ∧
      ∃ slot ∈ quoted.offeredSlots, draft.startsAt = slot.startsAt ∧ draft.kind = a.expectedKind := by
  obtain ⟨_, hkind, h⟩ := bind_eq_ok_iff.mp h
  obtain ⟨slot, hslot, h⟩ := bind_eq_ok_iff.mp h
  obtain rfl := Except.ok.inj h
  exact ⟨require_eq_ok_iff.mp hkind, slot, List.mem_of_getElem? (okOr_eq_ok_iff.mp hslot), rfl, rfl⟩

/-- **A request that is prepared is for a slot of its quote**, whatever is called between its two calls. -/
theorem forOffered_of_prepareRequest {s : Database × List BusyExchange} (hc : Reachable env s.1)
    (hoffered : ∀ quoteId q, appointmentQuoteById env.timezones quoteId s.1 = .ok q → OfferedBy policy s.2 q)
    {clock : LocalClock} {a : PrepareArguments} {time time' : SystemTime} {between : List Command} {p : PreparedRequest}
    (h : Saga.run (storeSurroundings env) (.call time :: (between.map .interfere ++ [.call time']))
      (prepareRequest env.timezones clock a) s.1 () = ⟨some (.ok p), db', (), []⟩) : ForOffered env policy s p := by
  obtain ⟨quoted, draft, prepared, hquoted, hdraft, hprepare, hp⟩ := prepareRequest_ran h
  obtain ⟨hprepared, -, -, stored, hstored, -, hsame⟩ :=
    prepareAppointmentDraftFromQuote_prepares (hc.run between).consistent hprepare
  obtain ⟨stored', recap, hstored', -, rfl⟩ := preparedRequest_eq_ok hp
  obtain rfl := Option.some.inj (hstored.symm.trans hstored')
  obtain ⟨hkindExpected, slot, hslot, hstart, hkind⟩ := draft_eq_ok hdraft
  have hcall : ((Command.prepareAppointmentDraftFromQuote a.quoteId a.slotIndex a.sourceId draft a.now.toUtc).transaction
      env).run (run env between s.1) = .ok ((), db') := Tx.run_discard_eq_ok_iff.mpr ⟨prepared, hprepare⟩
  have hchanges : Changes env s.1 db' :=
    (run_changes hc.consistent between).trans (Command.changes (hc.run between).consistent hcall)
  obtain ⟨prepared', hprepared', hmoves⟩ := hchanges.movesTo hc.consistent hquoted
  obtain rfl := Except.ok.inj (hprepared.symm.trans hprepared')
  obtain ⟨-, -, hsameKind, hsameStart, -⟩ := hsame
  have hofferedQuoted := hoffered _ _ hquoted
  obtain ⟨_, _, -, hover⟩ := id hofferedQuoted
  have hstartsAt : stored.draft.startsAt.unixNanos = slot.startsAt.unixNanos := hsameStart.trans (congrArg (·.unixNanos) hstart)
  have hkinds : stored.draft.kind = quoted.appointmentKind := hsameKind.trans (hkind.trans hkindExpected.symm)
  have hquoteId : prepared.quote.id = a.quoteId := id_of_appointmentQuoteById hprepared
  refine ⟨quoted, by rw [← hquoteId] at hquoted; exact hquoted, hofferedQuoted, hkinds, hmoves.timezone, slot, hslot,
    hstartsAt, ?_⟩
  show stored.draft.startsAt.unixNanos + stored.draft.kind.duration = slot.endsAt.unixNanos
  rw [hover.duration slot hslot, hstartsAt, hkinds]

/-- Empty tables hold no quote. -/
theorem searching_empty (env : Environment) (policy : AvailabilityPolicy) : Searching env policy .empty .empty [] := by
  refine ⟨⟨[], rfl⟩, .refl, .nil, fun quoteId q hq => ?_⟩
  obtain ⟨row, hrow, -⟩ := appointmentQuoteById_eq_ok_iff.mp hq
  exact absurd (Table.byKey_eq_some hrow).1 List.not_mem_nil

/-- **Searches offer what the policy offers**, in every history of searches and of calls that save no quote, from empty
tables. -/
theorem searchSlots_offers {episodes : List SearchEpisode} (hepisodes : ∀ e ∈ episodes, IsSearchEpisode e) :
    Offers env policy (afterSearches env policy episodes (.empty, [])) := by
  have h := afterSearches_searching (s := (.empty, [])) hepisodes (searching_empty env policy)
  generalize afterSearches env policy episodes (.empty, []) = s at h
  refine ⟨h.searched, h.offered, ?_, ?_, ?_⟩
  · intro a turns hturns hnone
    have hmeets : Saga.Meets (alone env s.1) _ (search env policy a turns s) := searchSlots_alone a turns hturns s.1 s.2 rfl
    obtain ⟨-, hstops, hreturns⟩ := hmeets
    cases hresult : (search env policy a turns s).result with
    | none => exact hstops hresult
    | some r => exact hreturns r hresult fun found hfound => hnone found (hfound ▸ hresult)
  · intro a turns hturns found hfound
    obtain ⟨hends, hreturned⟩ := search_ends (a := a) hturns h
    obtain ⟨q, hq, rfl, hkind⟩ := hreturned found hfound
    refine ⟨hkind, fun later hlater => ?_⟩
    have hsince : Searching env policy (search env policy a turns s).store (search env policy a turns s).store
        (search env policy a turns s).world := ⟨hends.reachable, .refl, hends.searched, hends.offered⟩
    exact (afterSearches_searching (s := (_, _)) hlater hsince).offer hends.reachable.consistent hq
  · intro clock a time between time' p db' hrun
    exact forOffered_of_prepareRequest h.reachable h.offered hrun

/-- A time zone library that knows Casey. -/
def caseyOnly : Environment :=
  ⟨fun value => if value = "Antarctica/Casey" then some "Antarctica/Casey" else none, ⟨fun _ => "", fun _ => none⟩⟩

/-- A search in Casey, an hour before the window of 12 March 2010, while nothing is busy. -/
def caseySearches : List SearchEpisode :=
  [.attempt ⟨.callback, ⟨1268319600 * second, 0⟩, 1, someQuoteId⟩ [.answer (.ok []), .answer (.ok []), .call newYear]]

theorem searchSlots_offers_casey :
    Offers caseyOnly caseyPolicy (afterSearches caseyOnly caseyPolicy caseySearches (.empty, [])) ∧
      (afterSearches caseyOnly caseyPolicy caseySearches (.empty, [])).1.appointmentQuotes.length = 1 := by
  refine ⟨searchSlots_offers ?_, by decide +kernel⟩
  intro e he
  obtain rfl := List.mem_singleton.mp he
  intro t ht
  simp only [List.mem_cons, List.not_mem_nil, or_false] at ht
  rcases ht with rfl | rfl | rfl <;> trivial

/-- The search in Casey is made at 23:00 there. -/
example : OffsetDateTime.format ⟨1268319600 * second, 8 * 3600⟩ = some "2010-03-11T23:00:00+08:00" := by decide +kernel

end AgentVoice.PaService

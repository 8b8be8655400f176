import AgentVoice.PaService.Resumption
import AgentVoice.Store.QuoteLifecycle
import Mathlib

/-!
# Prepared requests

`prepare_request` selects a slot of a quote, stores the draft of the appointment and returns what was stored, with a
recap in the local time of the quote. `submit_request` takes such a request back, loads its quote and its draft again
and validates the request against them (`validate_prepared_request`) before it asks a provider. What is loaded later is
what was stored, so the request that was returned is valid and every other one is refused, unless the draft starts at
an offset other than UTC: a draft that was already stored under the key, the source and the quote of the request is
taken over with the offset it was stored with, and then no request is valid (`prepareRequest_submittable_iff`).
-/

namespace AgentVoice.PaService

open AgentVoice.Foundations AgentVoice.Domain AgentVoice.Providers AgentVoice.Store

/-! ### The model -/

/-- What a clock in a time zone shows at an instant: its date as `%Y-%m-%d` and its time as `%H:%M`. -/
structure LocalClock where
  date : String → ℤ → String
  time : String → ℤ → String

/-- The instants of the calendar library, in seconds. -/
def chronoMin : ℤ := -8334601228800

def chronoMax : ℤ := 8210266876799

/-- `to_chrono_utc`, as nanoseconds since the epoch. -/
def toChronoUtc (value : OffsetDateTime) : ServiceResult ℤ := do
  require (chronoMin ≤ value.unixTimestamp ∧ value.unixTimestamp ≤ chronoMax) (.availability .dateTimeOverflow)
  return value.unixNanos

/-- The kind of an appointment, in a recap. -/
def kindText : AppointmentKind → String
  | .callback => "Callback"
  | .meeting => "Meeting"

/-- Whether the requester is included, in a recap. -/
def inclusionText (included : Bool) : String :=
  if included = true then "requester included" else "requester not included"

/-- `appointment_recap`. -/
def appointmentRecap (timezones : Timezones) (clock : LocalClock) (draft : AppointmentDraft) (timezone : String) :
    ServiceResult String := do
  let zone ← okOr (timezones timezone) (.store (storedRecordInvalid "appointment quote"))
  let start ← toChronoUtc draft.startsAt
  return kindText draft.kind ++ " for " ++ draft.caller.name ++ " <" ++ draft.caller.email.value ++ "> on " ++
    clock.date zone start ++ " at " ++ clock.time zone start ++ " (" ++ zone ++ "); " ++
      inclusionText draft.requesterIncluded ++ "."

/-- `PreparedRequest`. -/
structure PreparedRequest where
  draftId : ℤ
  quoteId : QuoteId
  sourceId : String
  idempotencyKey : IdempotencyKey
  caller : CallerIdentity
  kind : AppointmentKind
  startsAt : OffsetDateTime
  endsAt : OffsetDateTime
  timezone : String
  requesterIncluded : Bool
  recap : String
  deriving DecidableEq

/-- `==` on prepared requests. -/
def PreparedRequest.Same (p r : PreparedRequest) : Prop :=
  p.draftId = r.draftId ∧ p.quoteId = r.quoteId ∧ p.sourceId = r.sourceId ∧ p.idempotencyKey = r.idempotencyKey ∧
    p.caller = r.caller ∧ p.kind = r.kind ∧ p.startsAt.Same r.startsAt ∧ p.endsAt.Same r.endsAt ∧
    p.timezone = r.timezone ∧ p.requesterIncluded = r.requesterIncluded ∧ p.recap = r.recap

instance (p r : PreparedRequest) : Decidable (p.Same r) := inferInstanceAs (Decidable (_ ∧ _))

/-- What a caller asks `prepare_request` for. -/
structure PrepareArguments where
  quoteId : QuoteId
  slotIndex : ℕ
  caller : CallerIdentity
  expectedKind : AppointmentKind
  requesterIncluded : Option Bool
  sourceId : String
  idempotencyKey : IdempotencyKey
  now : OffsetDateTime

/-- The draft that is asked for, from the quote that was loaded. -/
def PrepareArguments.draft (a : PrepareArguments) (quoted : StoredAppointmentQuote) : ServiceResult AppointmentDraft := do
  require (quoted.appointmentKind = a.expectedKind) (.store (.conflict "appointment quote"))
  let slot ← okOr quoted.offeredSlots[a.slotIndex]?
    (if quoted.appointmentDraft.isSome then .store (.conflict "appointment quote")
      else .store (.invalidInput "slot_index"))
  let requesterIncluded := a.requesterIncluded.getD a.expectedKind.requesterIncludedByDefault
  return ⟨a.quoteId, a.caller, a.expectedKind, slot.startsAt, requesterIncluded, a.idempotencyKey⟩

/-- The request for a quote and its draft. -/
def requestOf (prepared : StoredAppointmentQuote) (stored : StoredAppointmentDraft) (draftId : ℤ) (recap : String) :
    PreparedRequest where
  draftId := draftId
  quoteId := prepared.quote.id
  sourceId := stored.sourceId
  idempotencyKey := stored.draft.idempotencyKey
  caller := stored.draft.caller
  kind := stored.draft.kind
  startsAt := stored.draft.startsAt
  endsAt := stored.draft.endsAt
  timezone := prepared.timezone
  requesterIncluded := stored.draft.requesterIncluded
  recap := recap

/-- The request for a quote that was prepared. -/
def preparedRequest (timezones : Timezones) (clock : LocalClock) (prepared : StoredAppointmentQuote) :
    ServiceResult PreparedRequest := do
  let stored ← okOr prepared.appointmentDraft (.store (storedRecordInvalid "appointment quote"))
  let draftId ← okOr prepared.appointmentDraftId (.store (storedRecordInvalid "appointment quote"))
  let recap ← appointmentRecap timezones clock stored.draft prepared.timezone
  return requestOf prepared stored draftId recap

variable {θ ρ : Type}

/-- `PaService::prepare_request`. -/
def prepareRequest (timezones : Timezones) (clock : LocalClock) (a : PrepareArguments) :
    Operation θ ρ PreparedRequest := do
  let quoted ← Saga.store .store fun _ => decodeAppointmentQuoteById timezones a.quoteId
  let draft ← Saga.ofResult (a.draft quoted)
  let prepared ← Saga.store .store fun _ =>
    prepareAppointmentDraftFromQuote timezones a.quoteId a.slotIndex a.sourceId draft a.now.toUtc
  Saga.ofResult (preparedRequest timezones clock prepared)

/-- The slot of a quote that was selected. -/
def selectedSlot (quote : StoredAppointmentQuote) : Option AppointmentSlot :=
  quote.selectedSlotIndex.bind fun index => quote.offeredSlots[index]?

/-- What is wanted of a request, the draft and the slot of its quote. -/
def Matches (prepared : PreparedRequest) (quote : StoredAppointmentQuote) (stored : StoredAppointmentDraft)
    (slot : AppointmentSlot) (recap : String) : Prop :=
  prepared.draftId = stored.id ∧ prepared.quoteId = quote.quote.id ∧ prepared.sourceId = stored.sourceId ∧
    prepared.idempotencyKey = stored.draft.idempotencyKey ∧ prepared.caller = stored.draft.caller ∧
    prepared.kind = stored.draft.kind ∧ prepared.startsAt.Same stored.draft.startsAt ∧
    prepared.endsAt.Same stored.draft.endsAt ∧ prepared.timezone = quote.timezone ∧
    prepared.requesterIncluded = stored.draft.requesterIncluded ∧ slot.startsAt.Same stored.draft.startsAt ∧
    slot.endsAt.Same stored.draft.endsAt ∧ stored.draft.startsAt.offsetSeconds = 0 ∧
    stored.draft.endsAt.offsetSeconds = 0 ∧ recap = prepared.recap ∧ stored.draft.quoteId = quote.quote.id ∧
    stored.draft.startsAt.unixNanos < stored.draft.endsAt.unixNanos

instance (prepared : PreparedRequest) (quote : StoredAppointmentQuote) (stored : StoredAppointmentDraft)
    (slot : AppointmentSlot) (recap : String) : Decidable (Matches prepared quote stored slot recap) :=
  inferInstanceAs (Decidable (_ ∧ _))

/-- `validate_prepared_request`. -/
def validatePreparedRequest (timezones : Timezones) (clock : LocalClock) (prepared : PreparedRequest)
    (quote : StoredAppointmentQuote) (stored : StoredAppointmentDraft) : ServiceResult Unit := do
  let slot ← okOr (selectedSlot quote) (.store (storedRecordInvalid "appointment quote"))
  let expectedRecap ← appointmentRecap timezones clock stored.draft quote.timezone
  require (Matches prepared quote stored slot expectedRecap) (.store (.conflict "prepared appointment request"))

/-- Validates a request against the quote that was loaded for it, and the draft of the quote. -/
def admitLoaded (timezones : Timezones) (clock : LocalClock) (prepared : PreparedRequest)
    (quote : StoredAppointmentQuote) : ServiceResult (StoredAppointmentQuote × StoredAppointmentDraft) := do
  let stored ← okOr quote.appointmentDraft (.store (storedRecordInvalid "appointment quote"))
  validatePreparedRequest timezones clock prepared quote stored
  return (quote, stored)

/-- The opening of `PaService::submit_request`: loads the quote and the draft of a request and validates it. -/
def admitRequest (timezones : Timezones) (clock : LocalClock) (owner : Option MailAddress) (prepared : PreparedRequest) :
    Operation θ ρ (StoredAppointmentQuote × StoredAppointmentDraft) := do
  let _ ← Saga.ofResult (okOr owner .ownerNotConfigured)
  let quote ← Saga.store .store fun _ => loadAppointmentQuoteByDraftId timezones prepared.draftId
  Saga.ofResult (admitLoaded timezones clock prepared quote)

/-! ### What preparing returns -/

section Preparing

variable {env : Environment} {clock : LocalClock} {db db' : Database}

/-- A request that was returned: the quote was loaded, its slot made a draft, and the draft was prepared. -/
theorem prepareRequest_ran {a : PrepareArguments} {time time' : SystemTime} {between : List Command}
    {p : PreparedRequest} (h : Saga.run (storeSurroundings env) (.call time :: (between.map .interfere ++ [.call time']))
      (prepareRequest env.timezones clock a) db () = ⟨some (.ok p), db', (), []⟩) :
    ∃ quoted draft prepared, appointmentQuoteById env.timezones a.quoteId db = .ok quoted ∧ a.draft quoted = .ok draft ∧
      (prepareAppointmentDraftFromQuote env.timezones a.quoteId a.slotIndex a.sourceId draft a.now.toUtc).run
        (run env between db) = .ok (prepared, db') ∧
      preparedRequest env.timezones clock prepared = .ok p := by
  obtain ⟨quoted, s, hload, hrest⟩ := Saga.run_call_store_eq_ok h
  obtain ⟨hquoted, rfl⟩ := decodeAppointmentQuoteById_run_eq_ok_iff.mp hload
  cases hdraft : a.draft quoted with
  | error e =>
    rw [hdraft] at hrest
    have hresult := congrArg Saga.Ran.result hrest
    cases between <;> cases hresult
  | ok draft =>
    rw [hdraft] at hrest
    have hcall : Saga.run (storeSurroundings env) [.call time']
        (Saga.bind (Saga.store ServiceError.store fun _ =>
          prepareAppointmentDraftFromQuote env.timezones a.quoteId a.slotIndex a.sourceId draft a.now.toUtc)
          fun prepared => Saga.ofResult (preparedRequest env.timezones clock prepared)) (run env between s) () =
        ⟨some (.ok p), db', (), []⟩ :=
      (Saga.run_interfere_call (storeSurroundings env) between [.call time'] _ _ s ()).symm.trans hrest
    obtain ⟨prepared, s', hprepare, hlast⟩ := Saga.run_call_store_eq_ok hcall
    have hresult := congrArg Saga.Ran.result hlast
    have hstore : s' = db' := congrArg Saga.Ran.store hlast
    rw [hstore] at hprepare
    exact ⟨quoted, draft, prepared, hquoted, hdraft, hprepare, Option.some.inj hresult⟩

theorem preparedRequest_eq_ok {timezones : Timezones} {prepared : StoredAppointmentQuote} {p : PreparedRequest}
    (h : preparedRequest timezones clock prepared = .ok p) :
    ∃ stored recap, prepared.appointmentDraft = some stored ∧
      appointmentRecap timezones clock stored.draft prepared.timezone = .ok recap ∧
      p = requestOf prepared stored stored.id recap := by
  obtain ⟨stored, hstored, h⟩ := bind_eq_ok_iff.mp h
  obtain ⟨draftId, hdraftId, h⟩ := bind_eq_ok_iff.mp h
  obtain ⟨recap, hrecap, h⟩ := bind_eq_ok_iff.mp h
  obtain rfl := Except.ok.inj h
  rw [okOr_eq_ok_iff] at hstored hdraftId
  rw [StoredAppointmentQuote.appointmentDraftId, hstored, Option.map_some] at hdraftId
  exact ⟨stored, recap, hstored, hrecap, by rw [Option.some.inj hdraftId]⟩

/-! ### What validating wants -/

/-- The error of a request that is refused. -/
abbrev requestConflict : ServiceError := .store (.conflict "prepared appointment request")

/-- **A request is valid for its quote and its draft** when it is the one that preparing returned, and the draft
starts in UTC. -/
theorem validatePreparedRequest_eq {quote : StoredAppointmentQuote} {stored : StoredAppointmentDraft} {recap : String}
    (hselects : quote.Selects stored db)
    (hrecap : appointmentRecap env.timezones clock stored.draft quote.timezone = .ok recap) (r : PreparedRequest) :
    validatePreparedRequest env.timezones clock r quote stored =
      require (r.Same (requestOf quote stored stored.id recap) ∧ stored.draft.startsAt.offsetSeconds = 0)
        requestConflict := by
  obtain ⟨index, slot, hindex, hslot, hstarts, hends⟩ := hselects.slot
  have hselected : selectedSlot quote = some slot := by
    rw [selectedSlot, hindex]
    exact hslot
  have horder : stored.draft.startsAt.unixNanos < stored.draft.endsAt.unixNanos :=
    Int.lt_add_of_pos_right _ (AppointmentKind.duration_pos _)
  have hmatches : Matches r quote stored slot recap ↔
      r.Same (requestOf quote stored stored.id recap) ∧ stored.draft.startsAt.offsetSeconds = 0 := by
    constructor
    · rintro ⟨h1, h2, h3, h4, h5, h6, h7, h8, h9, h10, -, -, hutc, -, hr, -, -⟩
      exact ⟨⟨h1, h2, h3, h4, h5, h6, h7, h8, h9, h10, hr.symm⟩, hutc⟩
    · rintro ⟨⟨h1, h2, h3, h4, h5, h6, h7, h8, h9, h10, hr⟩, hutc⟩
      exact ⟨h1, h2, h3, h4, h5, h6, h7, h8, h9, h10, hstarts.symm, hends.symm, hutc, hutc, hr.symm,
        hselects.quoteId, horder⟩
  rw [validatePreparedRequest, hselected, okOr_some, ok_bind, hrecap, ok_bind]
  unfold require
  exact if_congr hmatches rfl rfl

/-- A submission of a request that is refused ends before it asks a provider. -/
theorem run_admitRequest_refused {r : PreparedRequest} {quote : StoredAppointmentQuote} {stored : StoredAppointmentDraft}
    (hload : (loadAppointmentQuoteByDraftId env.timezones r.draftId).run db = .ok (quote, db))
    (hstored : quote.appointmentDraft = some stored) {e : ServiceError}
    (hrefused : validatePreparedRequest env.timezones clock r quote stored = .error e) (owner : MailAddress)
    (time : SystemTime) :
    Saga.run (storeSurroundings env) [.call time] (admitRequest env.timezones clock (some owner) r) db () =
      ⟨some (.error e), db, (), []⟩ := by
  have hadmit : admitLoaded env.timezones clock r quote = .error e := by
    rw [admitLoaded, hstored, okOr_some, ok_bind, hrefused]
    rfl
  have hrun : Saga.run (storeSurroundings env) [.call time] (admitRequest env.timezones clock (some owner) r) db () =
      Saga.run (storeSurroundings env) ([] : List (Saga.Turn SystemTime StoreError Command Empty))
        (Saga.ofResult (admitLoaded env.timezones clock r quote) : Operation Empty Empty _) db () :=
    Saga.run_call_store_of_ok (t := fun _ => loadAppointmentQuoteByDraftId env.timezones r.draftId) time hload []
      ServiceError.store (fun quote => Saga.ofResult (admitLoaded env.timezones clock r quote)) ()
  rw [hrun, hadmit]
  rfl

/-- A request can be submitted from now on: whatever other calls do, its quote and its draft are found by the draft's
id, the request is valid for them, every other request is refused, and a submission refuses another request for the
draft without asking a provider. -/
def Submittable (env : Environment) (clock : LocalClock) (p : PreparedRequest) (db : Database) : Prop :=
  ∀ later : List Command, ∃ quote stored,
    (loadAppointmentQuoteByDraftId env.timezones p.draftId).run (run env later db) = .ok (quote, run env later db) ∧
    quote.appointmentDraft = some stored ∧
    validatePreparedRequest env.timezones clock p quote stored = .ok () ∧
    ∀ r : PreparedRequest, ¬r.Same p →
      validatePreparedRequest env.timezones clock r quote stored = .error requestConflict ∧
      (r.draftId = p.draftId → ∀ (owner : MailAddress) (time : SystemTime),
        Saga.run (storeSurroundings env) [.call time] (admitRequest env.timezones clock (some owner) r)
          (run env later db) () = ⟨some (.error requestConflict), run env later db, (), []⟩)

/-- **A request that preparing returned can be submitted** just where its draft starts in UTC. -/
theorem submittable_iff (hreachable : Reachable env db) {quoteId : QuoteId} {prepared : StoredAppointmentQuote}
    (hprepared : appointmentQuoteById env.timezones quoteId db = .ok prepared) {stored : StoredAppointmentDraft}
    (hstored : prepared.appointmentDraft = some stored) {recap : String}
    (hrecap : appointmentRecap env.timezones clock stored.draft prepared.timezone = .ok recap) :
    Submittable env clock (requestOf prepared stored stored.id recap) db ↔
      stored.draft.startsAt.offsetSeconds = 0 := by
  have hc := hreachable.consistent
  constructor
  · intro h
    obtain ⟨quote, stored', hload, hstored', hvalid, -⟩ := h []
    have hload' := hc.loadAppointmentQuoteByDraftId_run hprepared hstored
    obtain ⟨rfl, -⟩ := Prod.mk.inj (Except.ok.inj (hload.symm.trans hload'))
    obtain rfl := Option.some.inj (hstored'.symm.trans hstored)
    rw [validatePreparedRequest_eq (selects_of_appointmentQuoteById hprepared hstored) hrecap,
      require_eq_ok_iff] at hvalid
    exact hvalid.2
  · intro hutc later
    obtain ⟨quote, hquote, hmoves⟩ := (run_changes hc later).movesTo hc hprepared
    have hdraft := hmoves.appointmentDraft stored hstored
    have hrequest : requestOf prepared stored stored.id recap = requestOf quote stored stored.id recap := by
      rw [requestOf, requestOf, hmoves.quote, hmoves.timezone]
    have hload := (run_consistent hc later).loadAppointmentQuoteByDraftId_run hquote hdraft
    have hvalidate : ∀ r : PreparedRequest, validatePreparedRequest env.timezones clock r quote stored =
        require (r.Same (requestOf quote stored stored.id recap) ∧ stored.draft.startsAt.offsetSeconds = 0)
          requestConflict :=
      validatePreparedRequest_eq (selects_of_appointmentQuoteById hquote hdraft) (hmoves.timezone ▸ hrecap)
    refine ⟨quote, stored, hload, hdraft, ?_, fun r hne => ?_⟩
    · rw [hvalidate, hrequest]
      exact require_of ⟨⟨rfl, rfl, rfl, rfl, rfl, rfl, rfl, rfl, rfl, rfl, rfl⟩, hutc⟩ _
    · have hrefused : validatePreparedRequest env.timezones clock r quote stored = .error requestConflict := by
        rw [hvalidate]
        exact require_of_not (fun h => hne (hrequest ▸ h.1)) _
      refine ⟨hrefused, fun hid owner time => ?_⟩
      refine run_admitRequest_refused ?_ hdraft hrefused owner time
      rw [hid]
      exact hload

/-! ### Which requests can be submitted -/

/-- The draft of a quote, if it has one, starts in UTC. -/
def DraftInUtc (quoteId : QuoteId) (db : Database) : Prop :=
  ∀ row ∈ db.appointmentDrafts, ∀ stored, decodeAppointmentRow row = .ok stored → stored.draft.quoteId = quoteId →
    stored.draft.startsAt.offsetSeconds = 0

/-- A quote has one draft. -/
theorem draftInUtc_iff (hc : Consistent env db) {row : AppointmentStoredRow} (hrow : row ∈ db.appointmentDrafts)
    {stored : StoredAppointmentDraft} (hdecode : decodeAppointmentRow row = .ok stored) :
    DraftInUtc stored.draft.quoteId db ↔ stored.draft.startsAt.offsetSeconds = 0 := by
  constructor
  · intro h
    exact h row hrow stored hdecode rfl
  · intro h row' hrow' stored' hdecode' hquote
    have hsame : row'.quoteId = row.quoteId := by
      rw [← (decodeAppointmentRow_eq_ok hdecode').2.2.2, ← (decodeAppointmentRow_eq_ok hdecode).2.2.2, hquote]
    obtain rfl := hc.appointmentDrafts.eq (fun _ _ hclash => hclash.symm) hrow' hrow (.inr (.inr (.inr hsame)))
    obtain rfl := Except.ok.inj (hdecode'.symm.trans hdecode)
    exact h

/-- The draft that is asked for belongs to the quote and starts in UTC, as the slots of the quote do. -/
theorem PrepareArguments.draft_utc {a : PrepareArguments} {quoted : StoredAppointmentQuote} {draft : AppointmentDraft}
    (hquoted : appointmentQuoteById env.timezones a.quoteId db = .ok quoted) (h : a.draft quoted = .ok draft) :
    draft.quoteId = a.quoteId ∧ draft.startsAt.offsetSeconds = 0 := by
  obtain ⟨_, -, h⟩ := bind_eq_ok_iff.mp h
  obtain ⟨slot, hslot, h⟩ := bind_eq_ok_iff.mp h
  obtain rfl := Except.ok.inj h
  exact ⟨rfl, offeredSlots_utc hquoted slot (List.mem_of_getElem? (okOr_eq_ok_iff.mp hslot))⟩

/-- The draft that a preparation leaves starts in UTC just where a draft that was there before does. -/
theorem draftInUtc_before_iff (hc : Consistent env db) {quoteId : QuoteId} {slotIndex : ℕ} {sourceId : String}
    {draft : AppointmentDraft} {now : OffsetDateTime} {prepared : StoredAppointmentQuote}
    (h : (prepareAppointmentDraftFromQuote env.timezones quoteId slotIndex sourceId draft now).run db =
      .ok (prepared, db')) (hquote : draft.quoteId = quoteId) (hutc : draft.startsAt.offsetSeconds = 0)
    {stored : StoredAppointmentDraft} (hstored : prepared.appointmentDraft = some stored) :
    DraftInUtc quoteId db ↔ stored.draft.startsAt.offsetSeconds = 0 := by
  have hsource := validateSourceId_of_prepares h
  rcases prepareAppointmentDraftFromQuote_run_eq_ok hc.quote_id h with ⟨rfl, hprepared, -⟩ | hprepared
  · have hselects := selects_of_appointmentQuoteById hprepared hstored
    obtain ⟨row, hrow, hdecode⟩ := hselects.row
    rw [← draftInUtc_iff hc hrow hdecode, hselects.quoteId, id_of_appointmentQuoteById hprepared]
  · obtain ⟨-, -, -, saved, db₁, hsave, hsaved⟩ := hprepared.selects hc hsource
    obtain rfl := Option.some.inj (hstored.symm.trans hsaved)
    rcases saveAppointmentDraftInTransaction_run_eq_ok hsource hsave with
      ⟨row, -, hdecode, -, -, rfl, -, hfresh⟩ | ⟨-, row, hrow, hdecode, -, hsame⟩
    · -- No draft of the quote was there.
      refine iff_of_true ?_ hutc
      intro row' hrow' stored' hdecode' hquote'
      have hother := (hfresh row' hrow').2.2
      rw [← (decodeAppointmentRow_eq_ok hdecode').2.2.2, ← (decodeAppointmentRow_eq_ok hdecode).2.2.2, hquote',
        hquote] at hother
      exact absurd rfl hother
    · rw [← draftInUtc_iff hc hrow hdecode, hsame.1, hquote]

/-- **Which prepared requests can be submitted**: those of a quote whose draft, where it had one before it was
prepared, starts in UTC. -/
theorem prepareRequest_submittable_iff (hreachable : Reachable env db) {a : PrepareArguments} {time time' : SystemTime}
    {between : List Command} {p : PreparedRequest}
    (h : Saga.run (storeSurroundings env) (.call time :: (between.map .interfere ++ [.call time']))
      (prepareRequest env.timezones clock a) db () = ⟨some (.ok p), db', (), []⟩) :
    Submittable env clock p db' ↔ DraftInUtc a.quoteId (run env between db) := by
  obtain ⟨quoted, draft, prepared, hquoted, hdraft, hprepare, hrequest⟩ := prepareRequest_ran h
  have hreached := hreachable.run between
  obtain ⟨hquote, hutc⟩ := PrepareArguments.draft_utc hquoted hdraft
  obtain ⟨hprepared, -⟩ := prepareAppointmentDraftFromQuote_prepares hreached.consistent hprepare
  obtain ⟨stored, recap, hstored, hrecap, rfl⟩ := preparedRequest_eq_ok hrequest
  have hreached' : Reachable env db' := by
    refine hreached.call (c := .prepareAppointmentDraftFromQuote a.quoteId a.slotIndex a.sourceId draft a.now.toUtc)
      ?_ hprepare
    rfl
  rw [submittable_iff hreached' hprepared hstored hrecap,
    draftInUtc_before_iff hreached.consistent hprepare hquote hutc hstored]

end Preparing

/-! ### A draft at another offset -/

/-- A clock that shows the same day and time at every instant. -/
def stoppedClock : LocalClock := ⟨fun _ _ => "2026-01-01", fun _ _ => "12:00"⟩

/-- Issues a quote of one slot, at noon. -/
def noonQuote : List Command :=
  [.saveAppointmentQuote ⟨someQuoteId, newYear.instant⟩ .callback "UTC"
    [⟨noon, ⟨noon.unixNanos + 900 * second, 0⟩, by decide⟩]]

/-- Asks for a callback at noon. -/
def noonArguments : PrepareArguments where
  quoteId := someQuoteId
  slotIndex := 0
  caller := ⟨"Grace", ⟨"grace@example.com", by decide⟩, by decide, by decide⟩
  expectedKind := .callback
  requesterIncluded := none
  sourceId := "source-1"
  idempotencyKey := ⟨"callback-key", by decide, by decide⟩
  now := newYear.instant

/-- Stores the draft of the same callback, written two hours east of UTC. -/
def draftEastOfUtc : Command :=
  .saveAppointmentDraft "source-1"
    ⟨someQuoteId, noonArguments.caller, .callback, ⟨noon.unixNanos, 7200⟩, false, noonArguments.idempotencyKey⟩

/-- What preparing the callback ends with. -/
def noonPrepared (between : List Command) : Saga.Ran Database Unit Empty ServiceError PreparedRequest :=
  Saga.run (storeSurroundings utcOnly) (.call newYear :: (between.map .interfere ++ [.call newYear]))
    (prepareRequest utcOnly.timezones stoppedClock noonArguments) (run utcOnly noonQuote .empty) ()

/-- What validating says of the request that preparing returned, against what is loaded again. -/
def revalidated (ran : Saga.Ran Database Unit Empty ServiceError PreparedRequest) : Option (ServiceResult Unit) :=
  match ran.result with
  | some (.ok p) =>
    match (loadAppointmentQuoteByDraftId utcOnly.timezones p.draftId).run ran.store with
    | .ok (quote, _) =>
      quote.appointmentDraft.map (validatePreparedRequest utcOnly.timezones stoppedClock p quote)
    | .error _ => none
  | _ => none

theorem revalidated_eq_some {ran : Saga.Ran Database Unit Empty ServiceError PreparedRequest} {r : ServiceResult Unit}
    (h : revalidated ran = some r) : ∃ p quote stored db, ran.result = some (.ok p) ∧
      (loadAppointmentQuoteByDraftId utcOnly.timezones p.draftId).run ran.store = .ok (quote, db) ∧
      quote.appointmentDraft = some stored ∧ validatePreparedRequest utcOnly.timezones stoppedClock p quote stored = r := by
  unfold revalidated at h
  split at h
  · rename_i p hresult
    split at h
    · rename_i quote db hload
      obtain ⟨stored, hstored, hvalid⟩ := Option.map_eq_some_iff.mp h
      exact ⟨p, quote, stored, db, hresult, hload, hstored, hvalid⟩
    · cases h
  · cases h

/-- A run that can ask nothing is told by its result and its store. -/
theorem ran_of_result {α : Type} {ran : Saga.Ran Database Unit Empty ServiceError α} {r : ServiceResult α}
    (h : ran.result = some r) : ran = ⟨some r, ran.store, (), []⟩ := by
  obtain ⟨result, store, world, asked⟩ := ran
  obtain rfl : result = some r := h
  cases asked with
  | nil => rfl
  | cons question => exact nomatch question.1

theorem prepareRequest_submittable_iff_noon :
    ∃ p, (noonPrepared []).result = some (.ok p) ∧ Submittable utcOnly stoppedClock p (noonPrepared []).store := by
  obtain ⟨p, -, -, -, hresult, -⟩ := revalidated_eq_some (show revalidated (noonPrepared []) = some (.ok ()) by
    decide +kernel)
  have hran := ran_of_result hresult
  have hnone : (run utcOnly noonQuote .empty).appointmentDrafts = [] := by decide +kernel
  refine ⟨p, hresult, (prepareRequest_submittable_iff ⟨noonQuote, rfl⟩ hran).mpr ?_⟩
  intro row hrow
  rw [run, Machine.run, hnone] at hrow
  cases hrow

/-- **The draft that is taken over makes the request invalid.** A draft of the callback is stored two hours east of
UTC, between the calls of the preparation; the preparation takes it over, and the request is refused at once. -/
theorem eastOfUtc_refused :
    Reachable utcOnly (run utcOnly noonQuote .empty) ∧
      ∃ p quote stored db, (noonPrepared [draftEastOfUtc]).result = some (.ok p) ∧
        (loadAppointmentQuoteByDraftId utcOnly.timezones p.draftId).run (noonPrepared [draftEastOfUtc]).store =
          .ok (quote, db) ∧
        quote.appointmentDraft = some stored ∧
        validatePreparedRequest utcOnly.timezones stoppedClock p quote stored = .error requestConflict := by
  refine ⟨⟨noonQuote, rfl⟩, revalidated_eq_some ?_⟩
  decide +kernel

end AgentVoice.PaService

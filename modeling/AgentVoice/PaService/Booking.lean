import AgentVoice.PaService.SlotSearch
import AgentVoice.PaService.SubmissionConvergence

/-!
# From a search to an event

Searches, a preparation and submissions, one after another. The request that a preparation returns opens a submission
(`Submission.opened`), and whatever is attempted then, an event is asked for only at the times of a slot that a search
offered with the quote of the request, and only after both calendars were free again (`booked_as_offered`).
-/

namespace AgentVoice.PaService

open AgentVoice.Foundations AgentVoice.Domain AgentVoice.Providers AgentVoice.Availability AgentVoice.Store

/-- The submission that a request opens: its quote and its draft, as they are stored. -/
def Submission.opened (service : SubmissionService) (p : PreparedRequest) (db : Database) (events : List CalendarEvent) :
    Option Submission := do
  let owner ← service.owner
  let quote ← (appointmentQuoteById service.env.timezones p.quoteId db).toOption
  let stored ← quote.appointmentDraft
  return ⟨service, owner, quote, stored, db, events⟩

/-- How a request is booked after searches: submissions of it converge, and an event is asked for only at the times of an
offered slot of the quote with the request's id. -/
structure Books (policy : AvailabilityPolicy) (searched : Database × List BusyExchange) (p : PreparedRequest) (g : Submission)
    (s : Database × Calendars) : Prop where
  converges : g.Converges s
  offered : ∀ a turns, (∀ t ∈ turns, Submission.IsTurn t) → ∀ asked ∈ (g.attempt a turns s).asked, ∀ draft,
    asked.1 = .createProposal draft →
      ∃ q, appointmentQuoteById g.service.env.timezones p.quoteId searched.1 = .ok q ∧ OfferedBy policy searched.2 q ∧
        ∃ slot ∈ q.offeredSlots, draft.timeRange.start = slot.startsAt.unixNanos ∧
          draft.timeRange.stop = slot.endsAt.unixNanos

variable {service : SubmissionService} {policy : AvailabilityPolicy}

/-- A request that was prepared opens a submission of what was prepared. -/
theorem opened_of_prepareRequest {owner : MailAddress} (howner : service.owner = some owner) {db db' : Database}
    (hreachable : Reachable service.env db) {a : PrepareArguments} {time time' : SystemTime} {between : List Command}
    {p : PreparedRequest}
    (h : Saga.run (storeSurroundings service.env) (.call time :: (between.map .interfere ++ [.call time']))
      (prepareRequest service.env.timezones service.clock a) db () = ⟨some (.ok p), db', (), []⟩)
    (hopen : ∀ q, appointmentQuoteById service.env.timezones p.quoteId db' = .ok q → q.state ≠ .consumed)
    {events : List CalendarEvent} (hevents : events.countP (fun e => e.operationKey == proposalOperationKey p.draftId) ≤ 1) :
    ∃ g, Submission.opened service p db' events = some g ∧ g.Opens ∧ g.service = service ∧
      g.stored.draft.startsAt = p.startsAt ∧ g.stored.draft.endsAt = p.endsAt := by
  obtain ⟨quoted, draft, prepared, hquoted, -, hprepare, hp⟩ := prepareRequest_ran h
  obtain ⟨hprepared, hstate, -, -⟩ := prepareAppointmentDraftFromQuote_prepares (hreachable.run between).consistent hprepare
  obtain ⟨stored, recap, hstored, -, rfl⟩ := preparedRequest_eq_ok hp
  have hreached : Reachable service.env db' := (hreachable.run between).call
    (c := .prepareAppointmentDraftFromQuote a.quoteId a.slotIndex a.sourceId draft a.now.toUtc) rfl hprepare
  have hquote : appointmentQuoteById service.env.timezones prepared.quote.id db' = .ok prepared := by
    rwa [id_of_appointmentQuoteById hprepared]
  have hnot : prepared.state ≠ .consumed := hopen prepared hquote
  refine ⟨⟨service, owner, prepared, stored, db', events⟩, ?_, ⟨howner, hreached, hquote, ?_, hstored, hevents⟩, rfl, rfl, rfl⟩
  · show (do
      let owner ← service.owner
      let quote ← (appointmentQuoteById service.env.timezones prepared.quote.id db').toOption
      let stored ← quote.appointmentDraft
      return (⟨service, owner, quote, stored, db', events⟩ : Submission)) = _
    rw [howner, hquote]
    show (prepared.appointmentDraft.bind fun stored => some (⟨service, owner, prepared, stored, db', events⟩ : Submission)) = _
    rw [hstored]
    rfl
  · show prepared.state = .prepared
    cases hcase : prepared.state with
    | issued => exact absurd hcase hstate
    | prepared => rfl
    | consumed => exact absurd hcase hnot

/-- **An event is booked as it was offered.** After every history of searches, and of other calls that save no quote, every
request that is prepared opens a submission, unless its quote was consumed. In every history of attempts to submit it, an
event is asked for only at the times of a slot that a search offered with the quote of the request, and once both calendars
were free again; the rows and the event of the submission are there once. -/
theorem booked_as_offered {owner : MailAddress} (howner : service.owner = some owner) {searches : List SearchEpisode}
    (hsearches : ∀ e ∈ searches, IsSearchEpisode e) {a : PrepareArguments} {time time' : SystemTime} {between : List Command}
    {p : PreparedRequest} {db' : Database}
    (h : Saga.run (storeSurroundings service.env) (.call time :: (between.map .interfere ++ [.call time']))
      (prepareRequest service.env.timezones service.clock a) (afterSearches service.env policy searches (.empty, [])).1 () =
        ⟨some (.ok p), db', (), []⟩)
    (hopen : ∀ q, appointmentQuoteById service.env.timezones p.quoteId db' = .ok q → q.state ≠ .consumed)
    {events : List CalendarEvent} (hevents : events.countP (fun e => e.operationKey == proposalOperationKey p.draftId) ≤ 1) :
    ∃ g, Submission.opened service p db' events = some g ∧ ∀ episodes, (∀ e ∈ episodes, g.IsEpisode e) →
      Books policy (afterSearches service.env policy searches (.empty, [])) p g (g.after episodes g.opening) := by
  have hsearched := afterSearches_searching (s := (.empty, [])) hsearches (searching_empty service.env policy)
  obtain ⟨q, hq, hoffered, -, -, slot, hslot, hslotStarts, hslotEnds⟩ :=
    forOffered_of_prepareRequest hsearched.reachable hsearched.offered h
  obtain ⟨g, hg, hopens, hservice, hstarts, hends⟩ := opened_of_prepareRequest howner hsearched.reachable h hopen hevents
  refine ⟨g, hg, fun episodes hepisodes => ?_⟩
  have hconverges := (Submission.after_underway hopens hopens.underway hepisodes).converges hopens
  refine ⟨hconverges, fun b turns hturns asked hasked draft hdraft => ?_⟩
  obtain ⟨-, -, hdraftStarts, hdraftStops, -⟩ := (hconverges.asks b turns hturns asked hasked draft hdraft).proposes
  refine ⟨q, by rwa [hservice], hoffered, slot, hslot, ?_, ?_⟩
  · rw [hdraftStarts, hstarts, hslotStarts]
  · rw [hdraftStops, hends, hslotEnds]

/-- A service in Casey, whose JSON library writes the notification of a callback at midnight. -/
def caseyService : SubmissionService where
  env.timezones := caseyOnly.timezones
  env.json := .writing
    ⟨some pendingProposalTitle, some ⟨1268323200 * second, 0⟩, some ⟨1268324100 * second, 0⟩, some "Antarctica/Casey",
      some .callback, some .pending⟩
    "\x7b\"title\":\"Pending assistant request\",\"starts_at\":[2010,70,16,0,0,0,0,0,0],\"ends_at\":[2010,70,16,15,0,0,0,0,0],\"timezone\":\"Antarctica/Casey\",\"appointment_kind\":\"callback\",\"proposal_state\":\"pending\"\x7d"
  crypto := Submission.ownerDigest
  clock := stoppedClock
  owner := some theOwner

/-- Asks for the slot that the search in Casey found. -/
def caseyArguments : PrepareArguments := { noonArguments with now := ⟨1268319600 * second, 0⟩ }

/-- What is prepared: a callback at midnight. -/
def caseyRequest : PreparedRequest where
  draftId := 1
  quoteId := someQuoteId
  sourceId := "source-1"
  idempotencyKey := noonArguments.idempotencyKey
  caller := noonArguments.caller
  kind := .callback
  startsAt := ⟨1268323200 * second, 0⟩
  endsAt := ⟨1268324100 * second, 0⟩
  timezone := "Antarctica/Casey"
  requesterIncluded := false
  recap := "Callback for Grace <grace@example.com> on 2026-01-01 at 12:00 (Antarctica/Casey); requester not included."

/-- The preparation after the search in Casey. -/
def caseyPrepared : Saga.Ran Database Unit Empty ServiceError PreparedRequest :=
  Saga.run (storeSurroundings caseyService.env) [.call newYear, .call newYear]
    (prepareRequest caseyService.env.timezones stoppedClock caseyArguments)
    (afterSearches caseyService.env caseyPolicy caseySearches (.empty, [])).1 ()

theorem booked_as_offered_casey :
    ∃ g, Submission.opened caseyService caseyRequest caseyPrepared.store [] = some g ∧
      ∀ episodes, (∀ e ∈ episodes, g.IsEpisode e) →
        Books caseyPolicy (afterSearches caseyService.env caseyPolicy caseySearches (.empty, [])) caseyRequest g
          (g.after episodes g.opening) := by
  have hsearches : ∀ e ∈ caseySearches, IsSearchEpisode e := by
    intro e he
    obtain rfl := List.mem_singleton.mp he
    intro t ht
    simp only [List.mem_cons, List.not_mem_nil, or_false] at ht
    rcases ht with rfl | rfl | rfl <;> trivial
  have hresult : caseyPrepared.result = some (.ok caseyRequest) := by decide +kernel
  have hstate : (appointmentQuoteById caseyService.env.timezones someQuoteId caseyPrepared.store).map (·.state) =
      .ok .prepared := by decide +kernel
  have hran : Saga.run (storeSurroundings caseyService.env) (.call newYear :: (([] : List Command).map .interfere ++ [.call newYear]))
      (prepareRequest caseyService.env.timezones caseyService.clock caseyArguments)
      (afterSearches caseyService.env caseyPolicy caseySearches (.empty, [])).1 () =
        ⟨some (.ok caseyRequest), caseyPrepared.store, (), []⟩ := ran_of_result hresult
  refine booked_as_offered (rfl : caseyService.owner = some theOwner) hsearches hran (fun q hq hconsumed => ?_) (Nat.zero_le 1)
  have hq' : appointmentQuoteById caseyService.env.timezones someQuoteId caseyPrepared.store = .ok q := hq
  rw [hq'] at hstate
  cases hconsumed.symm.trans (Except.ok.inj hstate)

end AgentVoice.PaService

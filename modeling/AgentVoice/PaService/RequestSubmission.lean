import AgentVoice.PaService.OwnerTasks
import AgentVoice.PaService.SubmissionTime

/-!
# Submitting requests

`PaService::submit_request` takes a prepared request back. It loads and validates the quote and its draft, consumes the
quote into a pending proposal, finds or creates the event of the proposal with the calendar provider, attaches the event,
enqueues the notifications of the owner and of the requester and logs what it did. Where an earlier attempt has left some
of this behind, it goes on from there. The calls of the calendar providers are the questions of the saga.
-/

namespace AgentVoice.PaService

open AgentVoice.Foundations AgentVoice.Domain AgentVoice.Providers AgentVoice.Availability AgentVoice.Auth AgentVoice.Store

variable {θ ρ : Type}

/-! ### Derived identities -/

/-- `PENDING_PROPOSAL_TITLE`. -/
def pendingProposalTitle : String := "Pending assistant request"

def proposalKey (draftId : ℤ) : String := "pa-proposal-draft-" ++ idText draftId

def proposalSource (draftId : ℤ) : String := "pa-proposal-source-draft-" ++ idText draftId

/-- `proposal_operation_key`. -/
def proposalOperationKey (draftId : ℤ) : String := "pa-google-proposal-draft-" ++ idText draftId

/-- `owner_fingerprint`. -/
def ownerFingerprint (crypto : Crypto) (owner : String) : String := lowerHex (crypto.sha256 owner.toUTF8)

/-- `event_mapping_source`. -/
def eventMappingSource (crypto : Crypto) (proposalId : ℤ) (owner : MailAddress) : String :=
  "pa-event-source-" ++ idText proposalId ++ "-" ++ ownerFingerprint crypto owner.value

/-- Who is told of a proposal. -/
inductive Recipient where
  | owner | requester
  deriving DecidableEq

namespace Recipient

/-- The key of the notification of a recipient. -/
def notificationKey : Recipient → ℤ → String
  | owner, proposalId => "pa-notify-owner-" ++ idText proposalId
  | requester, proposalId => "pa-notify-requester-" ++ idText proposalId

/-- The key of the audit event of a notification. -/
def auditKey : Recipient → ℤ → String
  | owner, proposalId => "pa-audit-notification-enqueued-owner-" ++ idText proposalId
  | requester, proposalId => "pa-audit-notification-enqueued-requester-" ++ idText proposalId

/-- The audit event of a notification. -/
def audit (r : Recipient) (proposalId notificationId : ℤ) : AuditEntry :=
  ⟨r.auditKey proposalId, .notificationEnqueued, .notification, idText notificationId⟩

/-- The notification of a recipient. -/
def notification (r : Recipient) (proposalId mappingId : ℤ) (recipient : NotificationRecipient)
    (template : NotificationTemplateData) (consumedAt : OffsetDateTime) : EnqueueRequest where
  idempotencyKey := r.notificationKey proposalId
  proposalId := some proposalId
  eventMappingId := some mappingId
  kind := .proposalRequested
  recipient
  templateData := template
  availableAt := consumedAt

end Recipient

/-- The audit event of a request. -/
def requestAudit (draftId : ℤ) : AuditEntry :=
  ⟨"pa-audit-request-submitted-" ++ idText draftId, .requestSubmitted, .appointmentRequest, idText draftId⟩

/-- The audit event of a proposal. -/
def proposalAudit (proposalId : ℤ) : AuditEntry :=
  ⟨"pa-audit-proposal-created-" ++ idText proposalId, .proposalCreated, .proposal, idText proposalId⟩

/-! ### What an attempt works on -/

/-- The libraries and the owner of a service. -/
structure SubmissionService where
  env : Environment
  crypto : Crypto
  clock : LocalClock
  owner : Option MailAddress

/-- What a caller asks `submit_request` for, under the policy of the service. -/
structure SubmitRequestArguments where
  policy : AvailabilityPolicy
  prepared : PreparedRequest
  now : OffsetDateTime

/-- A request that was admitted: its quote and its draft, and the instant that is stored. -/
structure AdmittedRequest where
  owner : MailAddress
  quote : StoredAppointmentQuote
  stored : StoredAppointmentDraft
  durableNow : OffsetDateTime

/-- `SubmittedRequest`. -/
structure SubmittedRequest where
  proposalId : ℤ
  eventMappingId : ℤ
  ownerNotificationId : ℤ
  requesterNotificationId : Option ℤ
  state : ProposalState
  deriving DecidableEq

/-- A call of a calendar provider. -/
inductive ProposalCall where
  | listOutlookBusy (range : TimeRange)
  | listGoogleBusy (range : TimeRange)
  | findProposal (draft : GoogleProposalDraft)
  | createProposal (draft : GoogleProposalDraft)
  deriving DecidableEq

/-! ### Admitting -/

/-- The state of a quote allows its submission at an instant. -/
def ensureSubmittable (quote : StoredAppointmentQuote) (now : OffsetDateTime) : ServiceResult Unit :=
  match quote.state with
  | .prepared => do
    require (¬ now.unixNanos < quote.quote.issuedAt.unixNanos) (.store .appointmentQuoteNotYetValid)
    require (¬ quote.quote.expiresAt.unixNanos ≤ now.unixNanos) (.store .appointmentQuoteExpired)
  | .consumed => .ok ()
  | .issued => .error (.store (.conflict "appointment quote"))

/-- The instant that is stored for a submission. -/
def submissionInstant (quote : StoredAppointmentQuote) (now : OffsetDateTime) : ServiceResult OffsetDateTime := do
  ensureSubmittable quote now
  canonicalizeSubmissionTimestamp now quote.quote.issuedAt quote.quote.expiresAt

/-- The opening of `PaService::submit_request`. -/
def admitSubmission (service : SubmissionService) (a : SubmitRequestArguments) : Operation θ ρ AdmittedRequest := do
  let owner ← Saga.ofResult (okOr service.owner .ownerNotConfigured)
  let admitted ← admitRequest service.env.timezones service.clock (some owner) a.prepared
  let durableNow ← Saga.ofResult (submissionInstant admitted.1 a.now.toUtc)
  return ⟨owner, admitted.1, admitted.2, durableNow⟩

/-! ### What is there already -/

/-- `validate_existing_proposal`. -/
def validateExistingProposal (proposal : StoredProposal) (draftId : ℤ) : ServiceResult Unit :=
  require (proposal.source.appointmentDraftId = some draftId ∧ proposal.idempotencyKey = proposalKey draftId ∧
    proposal.sourceId = proposalSource draftId ∧ proposal.state = .pending)
    (.store (.conflict "appointment request proposal"))

/-- `validate_existing_mapping`. -/
def validateExistingMapping (mapping : StoredEventMapping) (proposalId : ℤ) (expectedSource : String)
    (draft : AppointmentDraft) : ServiceResult Unit :=
  require (mapping.proposalId = proposalId ∧ mapping.provider = "google_calendar" ∧
    mapping.sourceId = expectedSource ∧ SameInstant mapping.startsAt (some draft.startsAt) ∧
    SameInstant mapping.endsAt (some draft.endsAt)) (.store (.conflict "appointment request mapping"))

/-- The proposal that a quote was consumed into. -/
def existingProposal (r : AdmittedRequest) : Operation θ ρ (Option StoredProposal) :=
  match r.quote.proposalId with
  | none => pure none
  | some proposalId => do
    let proposal ← Saga.store .store fun _ => loadProposalById proposalId
    Saga.ofResult (validateExistingProposal proposal r.stored.id)
    return some proposal

/-- The mapping of a proposal that was looked up; there may be none. -/
def mappingFound (crypto : Crypto) (r : AdmittedRequest) (proposal : StoredProposal) :
    StoreResult StoredEventMapping → ServiceResult (Option StoredEventMapping)
  | .ok mapping => do
    validateExistingMapping mapping proposal.id (eventMappingSource crypto proposal.id r.owner) r.stored.draft
    return some mapping
  | .error error => if error = .notFound "event mapping" then .ok none else .error (.store error)

/-- The proposal with its mapping, where both are there. -/
def existingMapping (crypto : Crypto) (r : AdmittedRequest) :
    Option StoredProposal → Operation θ ρ (Option (StoredProposal × StoredEventMapping))
  | none => pure none
  | some proposal => do
    let loaded ← Saga.attempt fun _ => loadEventMappingByProposalId proposal.id
    let mapping ← Saga.ofResult (mappingFound crypto r proposal loaded)
    return mapping.map (proposal, ·)

/-! ### The event of a proposal -/

/-- The event that is to be found or created for a draft. -/
def googleProposalDraft (timezones : Timezones) (r : AdmittedRequest) : ServiceResult GoogleProposalDraft := do
  let start ← toChronoUtc r.stored.draft.startsAt
  let stop ← toChronoUtc r.stored.draft.endsAt
  let timeRange ← replaceError (TimeRange.new start stop) (.invalidInput "time_range")
  (GoogleProposalDraft.fromOwner timezones (proposalOperationKey r.stored.id) pendingProposalTitle timeRange
    r.quote.timezone ⟨r.owner, .needsAction⟩).mapError .googleCalendar

/-- `validate_pending_google_event`. -/
def validatePendingGoogleEvent (event : CalendarEvent) (draft : GoogleProposalDraft) (owner : MailAddress) :
    ServiceResult CalendarEvent := do
  require (event.operationKey = draft.operationKey ∧ event.title = draft.pendingTitle ∧
    event.timeRange = draft.timeRange ∧ event.timezone = draft.timezone ∧ event.attendees = [⟨owner, .needsAction⟩])
    (.googleCalendar .conflict)
  return event

/-- The times of a draft with the buffer of a policy around them. -/
def recheckRange (policy : AvailabilityPolicy) (draft : AppointmentDraft) :
    ServiceResult (OffsetDateTime × OffsetDateTime × TimeRange) := do
  let recheckStart ← okOr (draft.startsAt.checkedAdd (-policy.meetingBuffer)) (.availability .dateTimeOverflow)
  let recheckEnd ← okOr (draft.endsAt.checkedAdd policy.meetingBuffer) (.availability .dateTimeOverflow)
  let start ← toChronoUtc recheckStart
  let stop ← toChronoUtc recheckEnd
  let range ← replaceError (TimeRange.new start stop) (.invalidInput "time_range")
  return (recheckStart, recheckEnd, range)

/-- Asks both calendars whether the times of a draft, with the buffer around them, are taken by now. -/
def recheckCalendars (policy : AvailabilityPolicy) (draft : AppointmentDraft) : Operation ProposalCall CalendarAnswer Bool := do
  let recheck ← Saga.ofResult (recheckRange policy draft)
  let outlook ← Saga.query (.listOutlookBusy recheck.2.2)
  let outlookBusy ← Saga.ofResult (outlook.busy.mapError .outlookCalendar)
  let google ← Saga.query (.listGoogleBusy recheck.2.2)
  let googleBusy ← Saga.ofResult (google.busy.mapError .googleCalendar)
  return busyOverlaps outlookBusy recheck.1.unixNanos recheck.2.1.unixNanos ||
    busyOverlaps googleBusy recheck.1.unixNanos recheck.2.1.unixNanos

/-- What a lookup says of an event: where it is not found there may be none. -/
def eventFound (draft : GoogleProposalDraft) (owner : MailAddress) :
    ProviderResult CalendarEvent → ServiceResult (Option CalendarEvent)
  | .ok event => do
    let event ← validatePendingGoogleEvent event draft owner
    return some event
  | .error .notFound => .ok none
  | .error error => .error (.googleCalendar error)

/-- Looks an event up. -/
def findProposal (draft : GoogleProposalDraft) (owner : MailAddress) :
    Operation ProposalCall CalendarAnswer (Option CalendarEvent) := do
  let answer ← Saga.query (.findProposal draft)
  Saga.ofResult (eventFound draft owner answer.event)

/-- Before the quote is consumed, both calendars are asked; times that are taken may be taken by the event itself, which
an attempt that stopped has created. -/
def findWhereTaken (policy : AvailabilityPolicy) (r : AdmittedRequest) (draft : GoogleProposalDraft) :
    Option StoredProposal → Operation ProposalCall CalendarAnswer (Option CalendarEvent)
  | some _ => pure none
  | none => do
    let taken ← recheckCalendars policy r.stored.draft
    if taken = true then do
      let found ← findProposal draft r.owner
      let event ← Saga.ofResult (okOr found .noAvailability)
      return some event
    else return none

/-- Looks an event up, unless it was found already. -/
def findUnlessFound (draft : GoogleProposalDraft) (owner : MailAddress) :
    Option CalendarEvent → Operation ProposalCall CalendarAnswer (Option CalendarEvent)
  | some event => pure (some event)
  | none => findProposal draft owner

/-- The proposal of a request: that which is there, or that which the quote is consumed into. -/
def takeProposal (timezones : Timezones) (r : AdmittedRequest) : Option StoredProposal → Operation θ ρ StoredProposal
  | some proposal => pure proposal
  | none => Saga.store .store fun clock => submitAppointmentQuote timezones r.quote.quote.id r.stored.id
      (proposalKey r.stored.id) (proposalSource r.stored.id) r.durableNow clock

/-- What is wanted before an event is created: enough notice where the quote is not consumed, and free calendars where
it is. -/
def ensureCreatable (a : SubmitRequestArguments) (r : AdmittedRequest) :
    Option StoredProposal → Operation ProposalCall CalendarAnswer Unit
  | none => do
    let cutoff ← Saga.ofResult (okOr (a.now.toUtc.checkedAdd a.policy.minimumNotice) (.availability .dateTimeOverflow))
    Saga.ensure (¬ r.stored.draft.startsAt.unixNanos < cutoff.unixNanos) .noAvailability
  | some _ => do
    let taken ← recheckCalendars a.policy r.stored.draft
    Saga.ensure (taken = false) .noAvailability

/-- The proposal of a request with its event, which is created where it was not found. -/
def placeEvent (timezones : Timezones) (a : SubmitRequestArguments) (r : AdmittedRequest)
    (existing : Option StoredProposal) (draft : GoogleProposalDraft) :
    Option CalendarEvent → Operation ProposalCall CalendarAnswer (StoredProposal × CalendarEvent)
  | some event => do
    let proposal ← takeProposal timezones r existing
    return (proposal, event)
  | none => do
    ensureCreatable a r existing
    let proposal ← takeProposal timezones r existing
    let answer ← Saga.query (.createProposal draft)
    let event ← Saga.ofResult (answer.event.mapError .googleCalendar)
    let event ← Saga.ofResult (validatePendingGoogleEvent event draft r.owner)
    return (proposal, event)

/-- The proposal of a request with the mapping of its event, where the mapping is not there already. -/
def placeProposal (service : SubmissionService) (a : SubmitRequestArguments) (r : AdmittedRequest)
    (existing : Option StoredProposal) : Operation ProposalCall CalendarAnswer (StoredProposal × StoredEventMapping) := do
  let draft ← Saga.ofResult (googleProposalDraft service.env.timezones r)
  let found ← findWhereTaken a.policy r draft existing
  let found ← findUnlessFound draft r.owner found
  let placed ← placeEvent service.env.timezones a r existing draft found
  let mapping ← Saga.store .store fun clock => attachEventMapping placed.1.id "google_calendar"
    placed.2.providerEventId (eventMappingSource service.crypto placed.1.id r.owner) (some r.stored.draft.startsAt)
    (some r.stored.draft.endsAt) clock
  return (placed.1, mapping)

/-! ### Notifications and audit events -/

/-- Enqueues the notification of the requester, where the requester is included. -/
def notifyRequester (json : TemplateJson) (r : AdmittedRequest) (proposalId mappingId : ℤ)
    (template : NotificationTemplateData) (consumedAt : OffsetDateTime) : Operation θ ρ (Option ℤ) :=
  if r.stored.draft.requesterIncluded = true then do
    let requester ← Saga.ofResult ((NotificationRecipient.new r.stored.draft.caller.email.value).mapError .store)
    let notification ← Saga.store .store fun clock =>
      enqueueNotification json (Recipient.requester.notification proposalId mappingId requester template consumedAt) clock
    return some notification.id
  else pure none

/-- `append_submission_audit`. -/
def appendSubmissionAudit (entry : AuditEntry) (occurredAt : OffsetDateTime) : Operation θ ρ Unit := do
  let _ ← Saga.store .store fun clock => appendAuditEvent entry occurredAt clock
  return ()

/-- Logs the notification of the requester, where there is one. -/
def auditRequester (proposalId : ℤ) (occurredAt : OffsetDateTime) : Option ℤ → Operation θ ρ Unit
  | some notificationId => appendSubmissionAudit (Recipient.requester.audit proposalId notificationId) occurredAt
  | none => pure ()

/-- What the notifications say. -/
def proposalFields (r : AdmittedRequest) : TemplateFields where
  title := some pendingProposalTitle
  startsAt := some r.stored.draft.startsAt
  endsAt := some r.stored.draft.endsAt
  timezone := some r.quote.timezone
  appointmentKind := some r.stored.draft.kind
  proposalState := some .pending

/-- Enqueues the notifications of a proposal and logs the submission. -/
def announce (json : TemplateJson) (timezones : Timezones) (r : AdmittedRequest) (proposalId mappingId : ℤ) :
    Operation θ ρ SubmittedRequest := do
  let quote ← Saga.store .store fun _ => decodeAppointmentQuoteById timezones r.quote.quote.id
  let consumedAt ← Saga.ofResult (okOr quote.consumedAt (.store (storedRecordInvalid "appointment quote")))
  let template ← Saga.ofResult ((NotificationTemplateData.new (proposalFields r)).mapError .store)
  let ownerRecipient ← Saga.ofResult ((NotificationRecipient.new r.owner.value).mapError .store)
  let ownerNotification ← Saga.store .store fun clock =>
    enqueueNotification json (Recipient.owner.notification proposalId mappingId ownerRecipient template consumedAt) clock
  let requesterNotificationId ← notifyRequester json r proposalId mappingId template consumedAt
  appendSubmissionAudit (requestAudit r.stored.id) consumedAt
  appendSubmissionAudit (proposalAudit proposalId) consumedAt
  appendSubmissionAudit (Recipient.owner.audit proposalId ownerNotification.id) consumedAt
  auditRequester proposalId consumedAt requesterNotificationId
  return ⟨proposalId, mappingId, ownerNotification.id, requesterNotificationId, .pending⟩

/-! ### The whole attempt -/

/-- The proposal of a request with its mapping: those that are there, or those that are placed. -/
def resolveProposal (service : SubmissionService) (a : SubmitRequestArguments) (r : AdmittedRequest) :
    Operation ProposalCall CalendarAnswer (StoredProposal × StoredEventMapping) := do
  let existing ← existingProposal r
  let mapped ← existingMapping service.crypto r existing
  match mapped with
  | some placed => pure placed
  | none => placeProposal service a r existing

/-- `PaService::submit_request`. -/
def submitRequest (service : SubmissionService) (a : SubmitRequestArguments) :
    Operation ProposalCall CalendarAnswer SubmittedRequest := do
  let r ← admitSubmission service a
  let placed ← resolveProposal service a r
  announce service.env.json service.env.timezones r placed.1.id placed.2.id

end AgentVoice.PaService

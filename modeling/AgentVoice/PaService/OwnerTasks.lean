import AgentVoice.Availability.Busy
import AgentVoice.PaService.OwnerVerification
import AgentVoice.PaService.PreparedRequest
import AgentVoice.PaService.RecordMessage
import AgentVoice.Providers.CalendarEvents
import AgentVoice.Store.PlacementHistory

/-!
# Owner tasks

`PaService::prepare_owner_task` stores the draft of a task and its placement; `PaService::submit_owner_task` loads them
again, finds or creates the owner's event with the calendar provider, records the event with the placement and appends
an audit event. The calls of the calendar providers are the questions of the saga.
-/

namespace AgentVoice.PaService

open AgentVoice.Foundations AgentVoice.Domain AgentVoice.Providers AgentVoice.Availability AgentVoice.Store

variable {θ ρ : Type}

/-! ### Preparing -/

/-- `PreparedOwnerTask`. -/
structure PreparedOwnerTask where
  ownerTaskDraftId : ℤ
  startsAt : OffsetDateTime
  endsAt : OffsetDateTime
  timezone : String
  operationKey : String
  deriving DecidableEq

/-- What a caller asks `prepare_owner_task` for. -/
structure OwnerTaskArguments where
  draft : OwnerTaskDraft
  sourceId : Option String
  startsAt : OffsetDateTime
  timezone : String
  operationKey : String
  verified : OwnerVerified
  callerNumber : String
  now : OffsetDateTime

/-- The placement that is asked for. -/
def OwnerTaskArguments.placement (a : OwnerTaskArguments) : ServiceResult PlacementRequest := do
  a.verified.validateAt a.callerNumber a.now
  let startsAt ← canonicalOwnerTime a.startsAt "starts_at"
  let endsAt ← okOr (startsAt.checkedAdd (a.draft.duration.minutes * minute)) (.invalidInput "ends_at")
  return ⟨startsAt, endsAt, a.timezone, a.operationKey, a.verified.fingerprint⟩

/-- Whether what was stored is what was asked for. -/
def OwnerTaskArguments.IsStoredAs (a : OwnerTaskArguments) (r : PlacementRequest) (stored : StoredOwnerTaskDraft)
    (placement : StoredOwnerTaskPlacement) : Prop :=
  stored.draft.Same a.draft ∧ stored.sourceId = a.sourceId ∧ r.IsContentOf placement ∧
    placement.ownerTaskDraftId = stored.id

instance (a : OwnerTaskArguments) (r : PlacementRequest) (stored : StoredOwnerTaskDraft)
    (placement : StoredOwnerTaskPlacement) : Decidable (a.IsStoredAs r stored placement) :=
  inferInstanceAs (Decidable (_ ∧ _))

/-- The task that is returned for what was stored. -/
def preparedOwnerTask (stored : StoredOwnerTaskDraft) (placement : StoredOwnerTaskPlacement) : PreparedOwnerTask where
  ownerTaskDraftId := stored.id
  startsAt := placement.startsAt
  endsAt := placement.endsAt
  timezone := placement.timezone
  operationKey := placement.operationKey

/-- `PaService::prepare_owner_task`. -/
def prepareOwnerTask (timezones : Timezones) (a : OwnerTaskArguments) : Operation θ ρ PreparedOwnerTask := do
  let r ← Saga.ofResult a.placement
  let stored ← Saga.store .store fun _ => savePreparedOwnerTask timezones a.sourceId a.draft r
  Saga.ensure (a.IsStoredAs r stored.1 stored.2) (.store (.conflict "owner task preparation"))
  return preparedOwnerTask stored.1 stored.2

/-! ### Submitting -/

/-- What is wanted of a prepared task, its draft and its placement. -/
def PreparedOwnerTask.Matches (prepared : PreparedOwnerTask) (stored : StoredOwnerTaskDraft)
    (placement : StoredOwnerTaskPlacement) (verified : OwnerVerified) (expectedEndsAt : OffsetDateTime) : Prop :=
  prepared.ownerTaskDraftId = stored.id ∧ placement.ownerTaskDraftId = stored.id ∧
    prepared.startsAt.Same placement.startsAt ∧ prepared.endsAt.Same placement.endsAt ∧
    prepared.timezone = placement.timezone ∧ prepared.operationKey = placement.operationKey ∧
    placement.ownerFingerprint = verified.fingerprint ∧ placement.startsAt.offsetSeconds = 0 ∧
    placement.endsAt.offsetSeconds = 0 ∧ placement.endsAt.Same expectedEndsAt

instance (prepared : PreparedOwnerTask) (stored : StoredOwnerTaskDraft) (placement : StoredOwnerTaskPlacement)
    (verified : OwnerVerified) (expectedEndsAt : OffsetDateTime) :
    Decidable (prepared.Matches stored placement verified expectedEndsAt) := inferInstanceAs (Decidable (_ ∧ _))

/-- `validate_owner_task_submission`. -/
def validateOwnerTaskSubmission (prepared : PreparedOwnerTask) (stored : StoredOwnerTaskDraft)
    (placement : StoredOwnerTaskPlacement) (verified : OwnerVerified) : ServiceResult Unit := do
  let expectedEndsAt ←
    okOr (placement.startsAt.checkedAdd (stored.draft.duration.minutes * minute)) (.invalidInput "ends_at")
  require (prepared.Matches stored placement verified expectedEndsAt) (.store (.conflict "owner task submission"))

/-- The event that is to be found or created for a placement. -/
def ownerEventDraft (timezones : Timezones) (stored : StoredOwnerTaskDraft) (placement : StoredOwnerTaskPlacement) :
    ServiceResult OwnerEventDraft := do
  let start ← toChronoUtc placement.startsAt
  let stop ← toChronoUtc placement.endsAt
  let timeRange ← replaceError (TimeRange.new start stop) (.invalidInput "time_range")
  (OwnerEventDraft.new timezones placement.operationKey stored.draft.title timeRange placement.timezone).mapError
    .outlookCalendar

/-- Validates a prepared task against what was loaded for it, and drafts its event. -/
def admitStoredTask (timezones : Timezones) (prepared : PreparedOwnerTask) (verified : OwnerVerified)
    (stored : StoredOwnerTaskDraft) (placement : StoredOwnerTaskPlacement) :
    ServiceResult (StoredOwnerTaskPlacement × OwnerEventDraft) := do
  validateOwnerTaskSubmission prepared stored placement verified
  let event ← ownerEventDraft timezones stored placement
  return (placement, event)

/-- What a caller asks `submit_owner_task` for. -/
structure SubmitArguments where
  prepared : PreparedOwnerTask
  verified : OwnerVerified
  callerNumber : String
  now : OffsetDateTime

/-- The opening of `PaService::submit_owner_task`: loads the draft and the placement of a task and validates it. -/
def admitOwnerTask (timezones : Timezones) (a : SubmitArguments) :
    Operation θ ρ (StoredOwnerTaskPlacement × OwnerEventDraft) := do
  Saga.ofResult (a.verified.validateAt a.callerNumber a.now)
  let stored ← Saga.store .store fun _ => loadOwnerTaskDraftById a.prepared.ownerTaskDraftId
  let placement ← Saga.store .store fun _ => loadOwnerTaskPlacement timezones a.prepared.ownerTaskDraftId
  Saga.ofResult (admitStoredTask timezones a.prepared a.verified stored placement)

/-- A call of a calendar provider. -/
inductive CalendarCall where
  | findOwnerEvent (draft : OwnerEventDraft)
  | listOutlookBusy (range : TimeRange)
  | listGoogleBusy (range : TimeRange)
  | createOwnerEvent (draft : OwnerEventDraft)
  deriving DecidableEq

/-- What a provider answers; a call reads the part that is an answer to it. -/
structure CalendarAnswer where
  event : ProviderResult CalendarEvent
  busy : ProviderResult (List BusyInterval)

/-- `validate_owner_event`. -/
def validateOwnerEvent (event : CalendarEvent) (draft : OwnerEventDraft) : ServiceResult CalendarEvent := do
  require (event.operationKey = draft.operationKey ∧ event.title = draft.title ∧ event.timeRange = draft.timeRange ∧
    event.timezone = draft.timezone ∧ event.attendees = []) (.outlookCalendar .conflict)
  return event

/-- What the last lookup says of an event whose creation failed. -/
def recoveredEvent (draft : OwnerEventDraft) (createError : ProviderError) :
    ProviderResult CalendarEvent → ServiceResult CalendarEvent
  | .ok event => validateOwnerEvent event draft
  | .error .notFound => .error (.outlookCalendar createError)
  | .error recoveryError => .error (.outlookCalendar recoveryError)

/-- Creates the event; where that fails, looks it up once more. -/
def createOwnerEvent (draft : OwnerEventDraft) : Operation CalendarCall CalendarAnswer CalendarEvent := do
  let answer ← Saga.query (.createOwnerEvent draft)
  match answer.event with
  | .ok event => Saga.ofResult (validateOwnerEvent event draft)
  | .error createError => do
    let answer ← Saga.query (.findOwnerEvent draft)
    Saga.ofResult (recoveredEvent draft createError answer.event)

/-- Creates the event where both calendars are free. -/
def createWhereFree (placement : StoredOwnerTaskPlacement) (draft : OwnerEventDraft) :
    Operation CalendarCall CalendarAnswer CalendarEvent := do
  let outlook ← Saga.query (.listOutlookBusy draft.timeRange)
  let outlookBusy ← Saga.ofResult (outlook.busy.mapError .outlookCalendar)
  let google ← Saga.query (.listGoogleBusy draft.timeRange)
  let googleBusy ← Saga.ofResult (google.busy.mapError .googleCalendar)
  Saga.ensure (busyOverlaps outlookBusy placement.startsAt.unixNanos placement.endsAt.unixNanos = false ∧
    busyOverlaps googleBusy placement.startsAt.unixNanos placement.endsAt.unixNanos = false) .noAvailability
  createOwnerEvent draft

/-- The owner's event of a placement: it is looked up first, and created where it is not found. -/
def obtainOwnerEvent (placement : StoredOwnerTaskPlacement) (draft : OwnerEventDraft) :
    Operation CalendarCall CalendarAnswer CalendarEvent := do
  let answer ← Saga.query (.findOwnerEvent draft)
  match answer.event with
  | .ok event => Saga.ofResult (validateOwnerEvent event draft)
  | .error .notFound => createWhereFree placement draft
  | .error error => Saga.fail (.outlookCalendar error)

/-- `owner_task_submission_audit_key`. -/
def ownerTaskSubmissionAuditKey (ownerTaskDraftId : ℤ) : String := "pa-owner-task-submitted-" ++ idText ownerTaskDraftId

/-- The audit event of a submission. -/
def submissionAudit (ownerTaskDraftId : ℤ) : AuditEntry :=
  ⟨ownerTaskSubmissionAuditKey ownerTaskDraftId, .ownerTaskSubmitted, .ownerTask, idText ownerTaskDraftId⟩

/-- The audit event that is there where appending one was a conflict. -/
def resolveAudit (key : String) : Except StoreError StoredAuditEvent → Operation θ ρ StoredAuditEvent
  | .ok audit => pure audit
  | .error (.conflict _) => Saga.store .store fun _ => loadAuditEventByIdempotencyKey key
  | .error error => Saga.fail (.store error)

/-- `ensure_owner_task_submission_audit`. -/
def ensureOwnerTaskSubmissionAudit (ownerTaskDraftId : ℤ) (occurredAt : OffsetDateTime) : Operation θ ρ Unit := do
  let appended ← Saga.attempt fun clock => appendAuditEvent (submissionAudit ownerTaskDraftId) occurredAt clock
  let audit ← resolveAudit (ownerTaskSubmissionAuditKey ownerTaskDraftId) appended
  Saga.ensure ((submissionAudit ownerTaskDraftId).IsContentOf audit) (.store (.conflict "owner task audit"))

/-- `SubmittedOwnerTask`. -/
structure SubmittedOwnerTask where
  ownerTaskDraftId : ℤ
  providerEventId : String
  state : String
  deriving DecidableEq

/-- Appends the audit event of a submission and returns the submitted task. -/
def auditSubmission (a : SubmitArguments) (providerEventId : String) : Operation θ ρ SubmittedOwnerTask := do
  ensureOwnerTaskSubmissionAudit a.prepared.ownerTaskDraftId a.now
  return ⟨a.prepared.ownerTaskDraftId, providerEventId, "submitted"⟩

/-- Records an event with the placement. -/
def recordSubmission (timezones : Timezones) (a : SubmitArguments) (event : CalendarEvent) :
    Operation θ ρ SubmittedOwnerTask := do
  let submitted ← Saga.store .store fun _ =>
    submitOwnerTaskPlacement timezones a.prepared.ownerTaskDraftId event.providerEventId
  let providerEventId ← Saga.ofResult (okOr submitted.providerEventId (.store (storedRecordInvalid "owner task placement")))
  Saga.ensure (providerEventId = event.providerEventId ∧ submitted.ownerTaskDraftId = a.prepared.ownerTaskDraftId)
    (.store (.conflict "owner task submission"))
  auditSubmission a providerEventId

/-- `PaService::submit_owner_task`. -/
def submitOwnerTask (timezones : Timezones) (a : SubmitArguments) :
    Operation CalendarCall CalendarAnswer SubmittedOwnerTask := do
  let admitted ← admitOwnerTask timezones a
  match admitted.1.providerEventId with
  | some providerEventId => auditSubmission a providerEventId
  | none => do
    let event ← obtainOwnerEvent admitted.1 admitted.2
    recordSubmission timezones a event

end AgentVoice.PaService

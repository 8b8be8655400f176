import AgentVoice.Foundations.Table

/-!
# The schema

The rows of the store's tables, as the `*StoredRow` structures of `src/pa/store.rs` read them, and the
database of the tables. A delete removes what refers to the deleted row by `ON DELETE CASCADE`, and
`ON DELETE RESTRICT` references stop it.

The `created_at` and `updated_at` columns of tables whose queries do not select them are left out.
-/

namespace AgentVoice.Store

open AgentVoice.Foundations

/-- `AppointmentStoredRow`. -/
structure AppointmentStoredRow where
  id : ℤ
  idempotencyKey : String
  sourceId : String
  quoteId : String
  callerName : String
  callerEmail : String
  kind : String
  startsAt : String
  endsAt : String
  requesterIncluded : ℤ
  deriving DecidableEq, Repr

/-- `AppointmentQuoteStoredRow`. -/
structure AppointmentQuoteStoredRow where
  quoteId : String
  appointmentKind : String
  timezone : String
  issuedAt : String
  expiresAt : String
  slotCount : ℤ
  state : String
  appointmentDraftId : Option ℤ
  selectedSlotIndex : Option ℤ
  consumedAt : Option String
  proposalId : Option ℤ
  deriving DecidableEq, Repr

/-- `AppointmentQuoteSlotStoredRow`, with the quote it belongs to. -/
structure AppointmentQuoteSlotStoredRow where
  quoteId : String
  slotIndex : ℤ
  startsAt : String
  endsAt : String
  deriving DecidableEq, Repr

/-- `OwnerTaskStoredRow`. -/
structure OwnerTaskStoredRow where
  id : ℤ
  idempotencyKey : String
  sourceId : Option String
  title : String
  kind : String
  durationMinutes : ℤ
  dueAt : Option String
  deriving DecidableEq, Repr

/-- `OwnerTaskPlacementStoredRow`. -/
structure OwnerTaskPlacementStoredRow where
  ownerTaskDraftId : ℤ
  startsAt : String
  endsAt : String
  timezone : String
  operationKey : String
  ownerFingerprint : String
  providerEventId : Option String
  state : String
  deriving DecidableEq, Repr

/-- `ProposalStoredRow`. -/
structure ProposalStoredRow where
  id : ℤ
  idempotencyKey : String
  sourceId : String
  appointmentDraftId : Option ℤ
  ownerTaskDraftId : Option ℤ
  state : String
  createdAt : String
  updatedAt : String
  deriving DecidableEq, Repr

/-- `EventMappingStoredRow`. -/
structure EventMappingStoredRow where
  id : ℤ
  proposalId : ℤ
  provider : String
  providerEventId : String
  sourceId : String
  startsAt : Option String
  endsAt : Option String
  createdAt : String
  updatedAt : String
  deriving DecidableEq, Repr

/-- `AuditEventStoredRow`. -/
structure AuditEventStoredRow where
  id : ℤ
  idempotencyKey : String
  eventType : String
  entityType : String
  entityId : String
  details : Option String
  occurredAt : String
  createdAt : String
  deriving DecidableEq, Repr

/-- `MessageStoredRow`. -/
structure MessageStoredRow where
  id : ℤ
  idempotencyKey : String
  sourceId : String
  provider : String
  providerMessageId : String
  summary : String
  subject : Option String
  sender : Option String
  receivedAt : String
  triageState : String
  createdAt : String
  updatedAt : String
  deriving DecidableEq, Repr

/-- `TaskStoredRow`. -/
structure TaskStoredRow where
  id : ℤ
  idempotencyKey : String
  sourceId : String
  messageId : ℤ
  title : String
  kind : String
  durationMinutes : ℤ
  dueAt : Option String
  state : String
  createdAt : String
  updatedAt : String
  deriving DecidableEq, Repr

/-- `NotificationStoredRow`. -/
structure NotificationStoredRow where
  id : ℤ
  idempotencyKey : String
  proposalId : Option ℤ
  eventMappingId : Option ℤ
  notificationKind : String
  recipient : String
  payload : Option String
  status : String
  availableAt : String
  leaseUntil : Option String
  sentAt : Option String
  lastErrorCode : Option String
  attempts : ℤ
  createdAt : String
  updatedAt : String
  deriving DecidableEq, Repr

instance : Row AppointmentStoredRow := ⟨(·.id)⟩

instance : Row OwnerTaskStoredRow := ⟨(·.id)⟩

instance : Row OwnerTaskPlacementStoredRow := ⟨(·.ownerTaskDraftId)⟩

instance : Row ProposalStoredRow := ⟨(·.id)⟩

instance : Row EventMappingStoredRow := ⟨(·.id)⟩

instance : Row AuditEventStoredRow := ⟨(·.id)⟩

instance : Row MessageStoredRow := ⟨(·.id)⟩

instance : Row TaskStoredRow := ⟨(·.id)⟩

instance : Row NotificationStoredRow := ⟨(·.id)⟩

/-- The tables of the store. -/
structure Database where
  appointmentDrafts : List AppointmentStoredRow
  appointmentQuotes : List AppointmentQuoteStoredRow
  appointmentQuoteSlots : List AppointmentQuoteSlotStoredRow
  ownerTaskDrafts : List OwnerTaskStoredRow
  ownerTaskPlacements : List OwnerTaskPlacementStoredRow
  proposals : List ProposalStoredRow
  eventMappings : List EventMappingStoredRow
  notificationOutbox : List NotificationStoredRow
  messages : List MessageStoredRow
  tasks : List TaskStoredRow
  auditEvents : List AuditEventStoredRow
  deriving DecidableEq

namespace Database

/-- A freshly migrated store. -/
def empty : Database := ⟨[], [], [], [], [], [], [], [], [], [], []⟩

/-! ### Deletes and what they cascade to -/

/-- Deletes the event mappings with the given ids and, by cascade, the notifications about them. -/
def deleteEventMappings (p : EventMappingStoredRow → Bool) (db : Database) : Database :=
  let deleted := (db.eventMappings.filter p).map (·.id)
  { db with
    eventMappings := Table.deleteWhere p db.eventMappings
    notificationOutbox :=
      Table.deleteWhere (fun n => n.eventMappingId.any deleted.contains) db.notificationOutbox }

/-- Deletes a proposal and, by cascade, its event mappings and its notifications. -/
def deleteProposal (id : ℤ) (db : Database) : Database :=
  let db := deleteEventMappings (fun m => m.proposalId == id) db
  { db with
    proposals := Table.deleteWhere (fun p => p.id == id) db.proposals
    notificationOutbox := Table.deleteWhere (fun n => n.proposalId == some id) db.notificationOutbox }

/-- Whether an `ON DELETE RESTRICT` reference keeps a proposal from being deleted. -/
def proposalRestricted (id : ℤ) (db : Database) : Bool := db.appointmentQuotes.any fun q => q.proposalId == some id

/-- Whether an `ON DELETE RESTRICT` reference keeps an appointment draft from being deleted. -/
def appointmentDraftRestricted (id : ℤ) (db : Database) : Bool :=
  db.proposals.any (fun p => p.appointmentDraftId == some id) ||
    db.appointmentQuotes.any fun q => q.appointmentDraftId == some id

end Database

end AgentVoice.Store

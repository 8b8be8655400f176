import AgentVoice.Store.Audit
import AgentVoice.Store.Migrations
import AgentVoice.Store.NotificationRows
import Mathlib.Data.List.Sort

/-!
# The migrations of the schema

`MIGRATIONS`: the fifteen versions of the schema, on the tables whose rows they read or rewrite. Version 4 rebuilds the
notification outbox and version 5 the audit log, both from rows of an older form. Versions 6 and 7 refuse old messages and
tasks. A table is rebuilt under the constraints it had, and what a rebuild writes meets the new ones, so the constraints of
the tables are not checked again here. The date library's `NaiveDateTime::parse_from_str` is a parameter.
-/

namespace AgentVoice.Store

open AgentVoice.Foundations AgentVoice.Domain

/-- `LegacyNotificationOutboxRow`. -/
structure LegacyNotificationOutboxRow where
  id : ℤ
  idempotencyKey : String
  proposalId : Option ℤ
  eventMappingId : Option ℤ
  notificationKind : String
  recipient : String
  payload : Option String
  status : String
  availableAt : String
  sentAt : Option String
  attempts : ℤ
  createdAt : String
  updatedAt : String
  deriving DecidableEq, Repr

/-- A row of the audit log before version 5. -/
structure LegacyAuditEventRow where
  id : ℤ
  eventType : String
  entityType : Option String
  entityId : Option String
  details : Option String
  occurredAt : String
  createdAt : String
  deriving DecidableEq, Repr

/-- The notification outbox, before and since version 4. -/
inductive NotificationOutbox where
  | legacy (rows : List LegacyNotificationOutboxRow)
  | rebuilt (rows : List NotificationStoredRow)

/-- The audit log, before and since version 5. -/
inductive AuditEvents where
  | legacy (rows : List LegacyAuditEventRow)
  | rebuilt (rows : List AuditEventStoredRow)

/-- The tables that a migration reads. Of the old messages and tasks only their number is read. -/
structure SchemaTables where
  proposals : List ProposalStoredRow
  eventMappings : List EventMappingStoredRow
  notificationOutbox : NotificationOutbox
  auditEvents : AuditEvents
  legacyMessages : ℕ
  legacyTasks : ℕ

/-- The columns of the outbox that version 4 selects. -/
def NotificationOutbox.select : NotificationOutbox → List LegacyNotificationOutboxRow
  | .legacy rows => rows
  | .rebuilt rows => rows.map fun row =>
    ⟨row.id, row.idempotencyKey, row.proposalId, row.eventMappingId, row.notificationKind, row.recipient, row.payload,
      row.status, row.availableAt, row.sentAt, row.attempts, row.createdAt, row.updatedAt⟩

/-- The columns of the audit log that version 5 selects. -/
def AuditEvents.select : AuditEvents → List LegacyAuditEventRow
  | .legacy rows => rows
  | .rebuilt rows => rows.map fun row =>
    ⟨row.id, row.eventType, some row.entityType, some row.entityId, row.details, row.occurredAt, row.createdAt⟩

/-- A date and time of day without an offset, taken to be in UTC: its second, and its nanoseconds. -/
structure NaiveDateTime where
  timestamp : ℤ
  timestampSubsecNanos : ℤ
  deriving DecidableEq, Repr

variable (parseFromStr : String → String → Option NaiveDateTime)

/-! ### Version 4 -/

/-- `parse_legacy_notification_timestamp`. -/
def parseLegacyNotificationTimestamp (value : String) : Option OffsetDateTime :=
  match parse value with
  | some parsed => some parsed.toUtc
  | none => do
    let parsed ← (parseFromStr value "%Y-%m-%d %H:%M:%S%.f").or (parseFromStr value "%Y-%m-%d %H:%M:%S")
    let seconds ← OffsetDateTime.fromUnixTimestamp parsed.timestamp
    seconds.checkedAdd parsed.timestampSubsecNanos

/-- `normalize_legacy_notification_timestamp`. -/
def normalizeLegacyNotificationTimestamp (value : String) : StoreResult String := do
  let parsed ← okOr (parseLegacyNotificationTimestamp parseFromStr value) (storedRecordInvalid "notification")
  replaceError (formatOffsetDatetime parsed.toUtc) (storedRecordInvalid "notification")

/-- The status that a row has from version 4 on, and when it was sent. -/
def recoveredStatus (status : String) (attempts : ℤ) : Option String → NotificationStatus × Option String
  | some sentAt => if status = "sent" ∧ 0 < attempts then (.sent, some sentAt) else (.pending, none)
  | none => (.pending, none)

/-- The row that version 4 inserts for an old one. -/
def rebuildNotification (row : LegacyNotificationOutboxRow) : StoreResult NotificationStoredRow := do
  let availableAt ← normalizeLegacyNotificationTimestamp parseFromStr row.availableAt
  let createdAt ← normalizeLegacyNotificationTimestamp parseFromStr row.createdAt
  let updatedAt ← normalizeLegacyNotificationTimestamp parseFromStr row.updatedAt
  let normalizedSentAt ← transpose (normalizeLegacyNotificationTimestamp parseFromStr) row.sentAt
  let (status, sentAt) := recoveredStatus row.status row.attempts normalizedSentAt
  return {
    id := row.id
    idempotencyKey := row.idempotencyKey
    proposalId := row.proposalId
    eventMappingId := row.eventMappingId
    notificationKind := row.notificationKind
    recipient := row.recipient
    payload := row.payload
    status := status.asStr
    availableAt
    leaseUntil := none
    sentAt
    lastErrorCode := none
    attempts := row.attempts
    createdAt
    updatedAt }

/-- `apply_schema_v4`. -/
def applySchemaV4 (tables : SchemaTables) : StoreResult SchemaTables := do
  let legacyRows := tables.notificationOutbox.select.insertionSort fun row later => row.id ≤ later.id
  let normalizedRows ← legacyRows.mapM (rebuildNotification parseFromStr)
  return { tables with notificationOutbox := .rebuilt normalizedRows }

/-! ### Version 5 -/

/-- `normalize_legacy_audit_timestamp`. -/
def normalizeLegacyAuditTimestamp (value : String) : StoreResult String := do
  let parsed ← match parse value with
    | some parsed => .ok parsed.toUtc
    | none => okOr ((parseFromStr value "%Y-%m-%d %H:%M:%S").bind fun parsed =>
        OffsetDateTime.fromUnixTimestamp parsed.timestamp) (storedRecordInvalid "audit event")
  let canonical ← okOr (OffsetDateTime.fromUnixTimestamp parsed.unixTimestamp) (storedRecordInvalid "audit event")
  okOr canonical.format (storedRecordInvalid "audit event")

/-- The row that version 5 inserts for an old one. -/
def rebuildAuditEvent (row : LegacyAuditEventRow) : StoreResult AuditEventStoredRow := do
  require (0 < row.id ∧ row.details = none) (storedRecordInvalid "audit event")
  let eventType ← replaceError (AuditEventType.fromStorage row.eventType) (storedRecordInvalid "audit event")
  let entityType ← okOr row.entityType (storedRecordInvalid "audit event")
  let entityType ← replaceError (AuditEntityType.fromStorage entityType) (storedRecordInvalid "audit event")
  let entityId ← okOr row.entityId (storedRecordInvalid "audit event")
  let entityId ← replaceError (validateMachineIdentifier entityId "entity_id") (storedRecordInvalid "audit event")
  let occurredAt ← normalizeLegacyAuditTimestamp parseFromStr row.occurredAt
  let createdAt ← normalizeLegacyAuditTimestamp parseFromStr row.createdAt
  let idempotencyKey ← replaceError
    (validateMachineIdentifier ("legacy-audit-" ++ toString row.id) "idempotency_key") (storedRecordInvalid "audit event")
  return {
    id := row.id
    idempotencyKey
    eventType := eventType.asStr
    entityType := entityType.asStr
    entityId
    details := none
    occurredAt
    createdAt }

/-- `apply_schema_v5`. -/
def applySchemaV5 (tables : SchemaTables) : StoreResult SchemaTables := do
  let legacyRows := tables.auditEvents.select.insertionSort fun row later => row.id ≤ later.id
  let normalizedRows ← legacyRows.mapM (rebuildAuditEvent parseFromStr)
  return { tables with auditEvents := .rebuilt normalizedRows }

/-! ### The other versions -/

/-- `apply_schema_v2`: a unique index on the proposals of the event mappings. -/
def applySchemaV2 (tables : SchemaTables) : StoreResult SchemaTables := do
  require (tables.eventMappings.Pairwise fun m n => m.proposalId ≠ n.proposalId) .sqlite
  return tables

/-- `apply_schema_v3`: the proposals are copied to a table whose rows have one of the two drafts. -/
def applySchemaV3 (tables : SchemaTables) : StoreResult SchemaTables := do
  require (∀ p ∈ tables.proposals, p.appointmentDraftId.isSome ≠ p.ownerTaskDraftId.isSome) .sqlite
  return tables

/-- `apply_schema_v6`. -/
def applySchemaV6 (tables : SchemaTables) : StoreResult SchemaTables := do
  require (tables.legacyMessages = 0) (storedRecordInvalid "message")
  return tables

/-- `apply_schema_v7`. -/
def applySchemaV7 (tables : SchemaTables) : StoreResult SchemaTables := do
  require (tables.legacyTasks = 0) (storedRecordInvalid "task")
  return tables

/-- A version that adds tables, columns, indexes and triggers, and leaves the rows of the tables above. -/
def schemaOnly (version : ℤ) : Migration SchemaTables SystemTime := ⟨version, fun _ tables => .ok tables⟩

/-- A version that rewrites or refuses rows; the clock is not read. -/
def rowsChange (version : ℤ) (apply : SchemaTables → StoreResult SchemaTables) : Migration SchemaTables SystemTime :=
  ⟨version, fun _ => apply⟩

/-- `CURRENT_SCHEMA_VERSION`. -/
def currentSchemaVersion : ℤ := 15

/-- `MIGRATIONS`. -/
def migrations : MigrationList SchemaTables SystemTime where
  migrations :=
    [schemaOnly 1, rowsChange 2 applySchemaV2, rowsChange 3 applySchemaV3, rowsChange 4 (applySchemaV4 parseFromStr),
      rowsChange 5 (applySchemaV5 parseFromStr), rowsChange 6 applySchemaV6, rowsChange 7 applySchemaV7, schemaOnly 8,
      schemaOnly 9, schemaOnly 10, schemaOnly 11, schemaOnly 12, schemaOnly 13, schemaOnly 14,
      schemaOnly currentSchemaVersion]
  positive := by simp [schemaOnly, rowsChange, currentSchemaVersion]
  increasing := by simp [schemaOnly, rowsChange, currentSchemaVersion]

end AgentVoice.Store

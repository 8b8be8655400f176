import AgentVoice.Store.Columns
import AgentVoice.Store.Schema

/-!
# Audit events

`append_audit_event`: an append-only log. A key is written once; appending the same event under it again
returns the stored row, and a different event under it is a conflict.
-/

namespace AgentVoice.Store

open AgentVoice.Foundations

/-- `AuditEventType`. -/
inductive AuditEventType where
  | messageRecorded | requestSubmitted | ownerTaskSubmitted | proposalCreated | proposalAccepted
  | proposalDeclined | proposalExpired | proposalPromoted | notificationEnqueued | notificationSent
  | notificationRetryScheduled | providerCursorAdvanced
  deriving DecidableEq, Repr

namespace AuditEventType

/-- `as_str`. -/
def asStr : AuditEventType → String
  | .messageRecorded => "message_recorded"
  | .requestSubmitted => "request_submitted"
  | .ownerTaskSubmitted => "owner_task_submitted"
  | .proposalCreated => "proposal_created"
  | .proposalAccepted => "proposal_accepted"
  | .proposalDeclined => "proposal_declined"
  | .proposalExpired => "proposal_expired"
  | .proposalPromoted => "proposal_promoted"
  | .notificationEnqueued => "notification_enqueued"
  | .notificationSent => "notification_sent"
  | .notificationRetryScheduled => "notification_retry_scheduled"
  | .providerCursorAdvanced => "provider_cursor_advanced"

def all : List AuditEventType :=
  [.messageRecorded, .requestSubmitted, .ownerTaskSubmitted, .proposalCreated, .proposalAccepted, .proposalDeclined,
    .proposalExpired, .proposalPromoted, .notificationEnqueued, .notificationSent, .notificationRetryScheduled,
    .providerCursorAdvanced]

/-- `from_storage`. -/
def fromStorage : String → StoreResult AuditEventType := parseName all asStr (storedRecordInvalid "audit event")

theorem fromStorage_eq_ok_iff {value : String} {e : AuditEventType} : fromStorage value = .ok e ↔ value = e.asStr :=
  parseName_eq_ok_iff (by intro b; cases b <;> decide) (by decide)

end AuditEventType

/-- `AuditEntityType`. -/
inductive AuditEntityType where
  | message | appointmentRequest | ownerTask | proposal | notification | providerCursor
  deriving DecidableEq, Repr

namespace AuditEntityType

/-- `as_str`. -/
def asStr : AuditEntityType → String
  | .message => "message"
  | .appointmentRequest => "appointment_request"
  | .ownerTask => "owner_task"
  | .proposal => "proposal"
  | .notification => "notification"
  | .providerCursor => "provider_cursor"

def all : List AuditEntityType :=
  [.message, .appointmentRequest, .ownerTask, .proposal, .notification, .providerCursor]

/-- `from_storage`. -/
def fromStorage : String → StoreResult AuditEntityType := parseName all asStr (storedRecordInvalid "audit entity")

theorem fromStorage_eq_ok_iff {value : String} {e : AuditEntityType} : fromStorage value = .ok e ↔ value = e.asStr :=
  parseName_eq_ok_iff (by intro b; cases b <;> decide) (by decide)

end AuditEntityType

/-- `StoredAuditEvent`. -/
structure StoredAuditEvent where
  id : ℤ
  idempotencyKey : String
  eventType : AuditEventType
  entityType : AuditEntityType
  entityId : String
  occurredAt : OffsetDateTime
  createdAt : String
  deriving DecidableEq, Repr

/-- `parse_audit_timestamp`: the whole second of the instant must be written as the text. -/
def parseAuditTimestamp (value resource : String) : StoreResult OffsetDateTime := do
  let parsed ← okOr (parse value) (storedRecordInvalid resource)
  let canonical ← okOr (OffsetDateTime.fromUnixTimestamp parsed.unixTimestamp) (storedRecordInvalid resource)
  let canonicalText ← okOr canonical.toUtc.format (storedRecordInvalid resource)
  require (value = canonicalText) (storedRecordInvalid resource)
  return canonical.toUtc

theorem parseAuditTimestamp_eq_ok {value resource : String} {t : OffsetDateTime}
    (h : parseAuditTimestamp value resource = .ok t) : t.offsetSeconds = 0 ∧ t.format = some value := by
  obtain ⟨parsed, -, h⟩ := bind_eq_ok_iff.mp h
  obtain ⟨canonical, -, h⟩ := bind_eq_ok_iff.mp h
  obtain ⟨text, htext, h⟩ := bind_eq_ok_iff.mp h
  obtain ⟨u, hsame, h⟩ := bind_eq_ok_iff.mp h
  obtain rfl := Except.ok.inj h
  rw [require_eq_ok_iff] at hsame
  rw [okOr_eq_ok_iff, ← hsame] at htext
  exact ⟨rfl, htext⟩

/-- `decode_audit_event_row`. -/
def decodeAuditEventRow (row : AuditEventStoredRow) : StoreResult StoredAuditEvent := do
  require (0 < row.id ∧ row.details = none) (storedRecordInvalid "audit event")
  let idempotencyKey ←
    replaceError (validateMachineIdentifier row.idempotencyKey "idempotency_key") (storedRecordInvalid "audit event")
  let eventType ← replaceError (AuditEventType.fromStorage row.eventType) (storedRecordInvalid "audit event")
  let entityType ← replaceError (AuditEntityType.fromStorage row.entityType) (storedRecordInvalid "audit event")
  let entityId ← replaceError (validateMachineIdentifier row.entityId "entity_id") (storedRecordInvalid "audit event")
  let occurredAt ← parseAuditTimestamp row.occurredAt "audit event"
  let createdAt ← parseAuditTimestamp row.createdAt "audit event"
  let createdAt ← okOr createdAt.format (storedRecordInvalid "audit event")
  return ⟨row.id, idempotencyKey, eventType, entityType, entityId, occurredAt, createdAt⟩

/-- The content of an audit event. -/
structure AuditEntry where
  idempotencyKey : String
  eventType : AuditEventType
  entityType : AuditEntityType
  entityId : String
  deriving DecidableEq, Repr

/-- The row `append_audit_event` inserts. -/
def AuditEntry.row (a : AuditEntry) (occurredAt : String) (clock : SystemTime) (id : ℤ) : AuditEventStoredRow where
  id := id
  idempotencyKey := a.idempotencyKey
  eventType := a.eventType.asStr
  entityType := a.entityType.asStr
  entityId := a.entityId
  details := none
  occurredAt := occurredAt
  createdAt := strftimeNow clock

/-- Whether a stored event has the content of an entry. -/
def AuditEntry.IsContentOf (a : AuditEntry) (stored : StoredAuditEvent) : Prop :=
  stored.eventType = a.eventType ∧ stored.entityType = a.entityType ∧ stored.entityId = a.entityId

instance (a : AuditEntry) (stored : StoredAuditEvent) : Decidable (a.IsContentOf stored) :=
  inferInstanceAs (Decidable (_ ∧ _))

/-- `PaStore::append_audit_event`. -/
def appendAuditEvent (a : AuditEntry) (occurredAt : OffsetDateTime) (clock : SystemTime) :
    Tx StoreError Database StoredAuditEvent := do
  let _ ← Tx.ofResult (validateMachineIdentifier a.idempotencyKey "idempotency_key")
  let _ ← Tx.ofResult (validateMachineIdentifier a.entityId "entity_id")
  let (occurredAt, occurredAtText) ← Tx.ofResult (wholeSecondText occurredAt "occurred_at")
  let existing ← Tx.read fun db => Table.byKey AuditEventStoredRow.idempotencyKey a.idempotencyKey db.auditEvents
  match existing with
  | none => do
    let id ← Tx.read fun db => Table.nextRowid db.auditEvents
    Tx.write fun db => { db with auditEvents := db.auditEvents ++ [a.row occurredAtText clock id] }
    let row ← Tx.read fun db => Table.byKey AuditEventStoredRow.idempotencyKey a.idempotencyKey db.auditEvents
    let row ← Tx.ofResult (okOr row (storedRecordInvalid "audit event"))
    Tx.ofResult (decodeAuditEventRow row)
  | some row => do
    let stored ← Tx.ofResult (decodeAuditEventRow row)
    Tx.ensure (a.IsContentOf stored ∧ stored.occurredAt = occurredAt) (.conflict "audit event")
    return stored

/-- `load_audit_event_by_idempotency_key`. -/
def loadAuditEventByIdempotencyKey (idempotencyKey : String) : Tx StoreError Database StoredAuditEvent := do
  let _ ← Tx.ofResult (validateMachineIdentifier idempotencyKey "idempotency_key")
  let row ← Tx.read fun db => Table.byKey AuditEventStoredRow.idempotencyKey idempotencyKey db.auditEvents
  let row ← Tx.ofResult (okOr row (.notFound "audit event"))
  Tx.ofResult (decodeAuditEventRow row)

/-! ### What the operations do -/

/-- What a row that decodes holds. -/
theorem decodeAuditEventRow_eq_ok {row : AuditEventStoredRow} {e : StoredAuditEvent}
    (h : decodeAuditEventRow row = .ok e) :
    e.id = row.id ∧ e.idempotencyKey = row.idempotencyKey ∧ row.eventType = e.eventType.asStr ∧
      row.entityType = e.entityType.asStr ∧ e.entityId = row.entityId := by
  obtain ⟨u, -, h⟩ := bind_eq_ok_iff.mp h
  obtain ⟨key, hkey, h⟩ := bind_eq_ok_iff.mp h
  obtain ⟨eventType, hevent, h⟩ := bind_eq_ok_iff.mp h
  obtain ⟨entityType, hentity, h⟩ := bind_eq_ok_iff.mp h
  obtain ⟨entityId, hid, h⟩ := bind_eq_ok_iff.mp h
  obtain ⟨occurredAt, -, h⟩ := bind_eq_ok_iff.mp h
  obtain ⟨createdAt, -, h⟩ := bind_eq_ok_iff.mp h
  obtain ⟨createdText, -, h⟩ := bind_eq_ok_iff.mp h
  obtain rfl := Except.ok.inj h
  rw [replaceError_eq_ok_iff, validateMachineIdentifier_eq_ok_iff] at hkey hid
  rw [replaceError_eq_ok_iff] at hevent hentity
  exact ⟨rfl, hkey.2.symm, AuditEventType.fromStorage_eq_ok_iff.mp hevent,
    AuditEntityType.fromStorage_eq_ok_iff.mp hentity, hid.2.symm⟩

/-- **Appending** adds the row of an entry under a key no row has, or finds the row with that key, which then
records the same event at the same time. -/
theorem appendAuditEvent_run_eq_ok {a : AuditEntry} {occurredAt : OffsetDateTime} {clock : SystemTime}
    {db db' : Database} {e : StoredAuditEvent} (h : (appendAuditEvent a occurredAt clock).run db = .ok (e, db')) :
    (∃ occurredAtText, (∀ r ∈ db.auditEvents, r.idempotencyKey ≠ a.idempotencyKey) ∧
        db' = { db with
          auditEvents := db.auditEvents ++ [a.row occurredAtText clock (Table.nextRowid db.auditEvents)] } ∧
        decodeAuditEventRow (a.row occurredAtText clock (Table.nextRowid db.auditEvents)) = .ok e) ∨
      (db' = db ∧ ∃ r ∈ db.auditEvents, r.idempotencyKey = a.idempotencyKey ∧ decodeAuditEventRow r = .ok e ∧
        a.IsContentOf e ∧ e.occurredAt = occurredAt.toUtc) := by
  simp only [appendAuditEvent, Tx.ofResult_bind_eq_ok_iff, Tx.read_bind] at h
  obtain ⟨_, -, _, -, ⟨occurredAtUtc, text⟩, htext, hinsert⟩ := h
  obtain ⟨rfl, -⟩ := wholeSecondText_eq_ok_iff.mp htext
  cases hexisting : Table.byKey AuditEventStoredRow.idempotencyKey a.idempotencyKey db.auditEvents with
  | none =>
    simp only [hexisting, Tx.read_bind, Tx.write_bind, Tx.ofResult_bind_eq_ok_iff, okOr_eq_ok_iff,
      Tx.run_ofResult_eq_ok_iff] at hinsert
    obtain ⟨row, hrow, hdecode, rfl⟩ := hinsert
    have hfresh := Table.byKey_eq_none.mp hexisting
    obtain ⟨hmem, hkey⟩ := Table.byKey_eq_some hrow
    rcases List.mem_append.mp hmem with hold | hnew
    · exact absurd hkey (hfresh row hold)
    · obtain rfl := List.mem_singleton.mp hnew
      exact Or.inl ⟨text, hfresh, rfl, hdecode⟩
  | some row =>
    simp only [hexisting, Tx.ofResult_bind_eq_ok_iff, Tx.ensure_bind_eq_ok_iff, Tx.run_pure, Except.ok.injEq,
      Prod.mk.injEq] at hinsert
    obtain ⟨stored, hdecode, hsame, rfl, rfl⟩ := hinsert
    obtain ⟨hmem, hkey⟩ := Table.byKey_eq_some hexisting
    exact Or.inr ⟨rfl, row, hmem, hkey, hdecode, hsame⟩

theorem loadAuditEventByIdempotencyKey_run_eq_ok {idempotencyKey : String} {db db' : Database} {e : StoredAuditEvent}
    (h : (loadAuditEventByIdempotencyKey idempotencyKey).run db = .ok (e, db')) :
    db' = db ∧ ∃ r ∈ db.auditEvents, r.idempotencyKey = idempotencyKey ∧ decodeAuditEventRow r = .ok e := by
  simp only [loadAuditEventByIdempotencyKey, Tx.ofResult_bind_eq_ok_iff, Tx.read_bind, okOr_eq_ok_iff,
    Tx.run_ofResult_eq_ok_iff] at h
  obtain ⟨_, -, row, hrow, hdecode, rfl⟩ := h
  obtain ⟨hmem, hkey⟩ := Table.byKey_eq_some hrow
  exact ⟨rfl, row, hmem, hkey, hdecode⟩

end AgentVoice.Store

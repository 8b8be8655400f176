import AgentVoice.Store.ComparisonKey
import AgentVoice.Store.NotificationRows
import Mathlib.Data.List.Sort

/-!
# The notification outbox

`enqueue_notification`, `claim_notifications`, `list_pending_notifications`, `mark_notification_sent`,
`reschedule_notification` and `delete_notification_by_id`. A notification is enqueued once under its idempotency key; workers claim the
notifications that are due for a lease, under an attempt number that every claim raises, and complete or
give back an attempt by that number.
-/

namespace AgentVoice.Store

open AgentVoice.Foundations AgentVoice.Domain

/-- `validate_notification_references`. -/
def validateNotificationReferences (proposalId eventMappingId : Option ℤ) (kind : NotificationKind) :
    Tx StoreError Database Unit := do
  Tx.ensure (∀ id ∈ proposalId, 0 < id) (.invalidInput "proposal_id")
  Tx.ensure (∀ id ∈ eventMappingId, 0 < id) (.invalidInput "event_mapping_id")
  Tx.ensure (kind.requiresProposal = true → proposalId.isSome = true) (.invalidInput "proposal_id")
  Tx.ensure (kind.requiresProposal = false → proposalId = none) (.invalidInput "proposal_id")
  Tx.ensure (kind.requiresProposal = false → eventMappingId = none) (.invalidInput "event_mapping_id")
  let db ← Tx.read id
  Tx.ensure (∀ id ∈ proposalId, (Table.byRowid id db.proposals).isSome = true) (.notFound "proposal")
  match eventMappingId with
  | none => return ()
  | some id => do
    let mapping ← Tx.ofResult (okOr (Table.byRowid id db.eventMappings) (.notFound "event mapping"))
    Tx.ensure (some mapping.proposalId = proposalId) (.conflict "notification")

/-- Reads a row that was selected: its integers must be 64-bit, it must decode, and its references hold. -/
def readNotification (json : TemplateJson) (row : NotificationStoredRow) : Tx StoreError Database StoredNotification := do
  Tx.ensure (row.attempts < 2 ^ 63) (storedRecordInvalid "notification")
  let notification ← Tx.ofResult (decodeNotificationRow json row)
  let db ← Tx.read id
  Tx.ofResult (validateStoredNotificationReferences db notification)
  return notification

/-- `load_notification_from_connection`. -/
def loadNotification (json : TemplateJson) (id : ℤ) : Tx StoreError Database StoredNotification := do
  let row ← Tx.read fun db => Table.byRowid id db.notificationOutbox
  let row ← Tx.ofResult (okOr row (.notFound "notification"))
  readNotification json row

/-- The database with a changed outbox. -/
def Database.mapOutbox (f : List NotificationStoredRow → List NotificationStoredRow) (db : Database) : Database :=
  { db with notificationOutbox := f db.notificationOutbox }

/-- Changes the outbox. -/
def onOutbox (f : List NotificationStoredRow → List NotificationStoredRow) : Tx StoreError Database Unit :=
  Tx.write (Database.mapOutbox f)

/-! ### Enqueueing -/

/-- The arguments of `enqueue_notification`. -/
structure EnqueueRequest where
  idempotencyKey : String
  proposalId : Option ℤ
  eventMappingId : Option ℤ
  kind : NotificationKind
  recipient : NotificationRecipient
  templateData : NotificationTemplateData
  availableAt : OffsetDateTime

/-- The row `enqueue_notification` inserts. -/
def EnqueueRequest.row (r : EnqueueRequest) (json : TemplateJson) (key availableAt persistedAt : String) (id : ℤ) :
    NotificationStoredRow where
  id := id
  idempotencyKey := key
  proposalId := r.proposalId
  eventMappingId := r.eventMappingId
  notificationKind := r.kind.storageName
  recipient := r.recipient.value
  payload := some (json.encode r.templateData.fields)
  status := "pending"
  availableAt := availableAt
  leaseUntil := none
  sentAt := none
  lastErrorCode := none
  attempts := 0
  createdAt := persistedAt
  updatedAt := persistedAt

/-- Whether a stored notification is the one that is to be enqueued. -/
def EnqueueRequest.SameAs (r : EnqueueRequest) (stored : StoredNotification) : Prop :=
  stored.proposalId = r.proposalId ∧ stored.eventMappingId = r.eventMappingId ∧ stored.kind = r.kind ∧
    stored.recipient = r.recipient ∧ stored.templateData = r.templateData ∧ stored.availableAt = r.availableAt.toUtc

instance (r : EnqueueRequest) (stored : StoredNotification) : Decidable (r.SameAs stored) :=
  inferInstanceAs (Decidable (_ ∧ _))

/-- `PaStore::enqueue_notification`. -/
def enqueueNotification (json : TemplateJson) (r : EnqueueRequest) (clock : SystemTime) :
    Tx StoreError Database StoredNotification := do
  let key ← Tx.ofResult (storeKey r.idempotencyKey)
  let availableAtText ← Tx.ofResult (formatOffsetDatetime r.availableAt.toUtc)
  let persistedAt ← Tx.ofResult (formatOffsetDatetime clock.instant)
  validateNotificationReferences r.proposalId r.eventMappingId r.kind
  let existing ← Tx.read fun db =>
    Table.byKey NotificationStoredRow.idempotencyKey key.text db.notificationOutbox
  match existing with
  | none => do
    let id ← Tx.read fun db => Table.nextRowid db.notificationOutbox
    onOutbox (· ++ [r.row json key.text availableAtText persistedAt id])
    let row ← Tx.read fun db => Table.byRowid id db.notificationOutbox
    let row ← Tx.ofResult (okOr row (storedRecordInvalid "notification"))
    readNotification json row
  | some row => do
    let stored ← readNotification json row
    Tx.ensure (r.SameAs stored) (.conflict "notification")
    return stored

/-! ### Claiming -/

/-- The `WHERE` condition of the claim: pending and due, or delivering under a lease that ran out. -/
def claimable (nowKey : String) (row : NotificationStoredRow) : Bool :=
  (row.status == "pending" && decide (notificationTimestampComparisonSql row.availableAt ≤ nowKey)) ||
    (row.status == "delivering" &&
      row.leaseUntil.any fun lease => decide (notificationTimestampComparisonSql lease ≤ nowKey))

/-- The order of the claim: by availability, then by id. -/
def claimOrder (r s : NotificationStoredRow) : Prop :=
  notificationTimestampComparisonSql r.availableAt < notificationTimestampComparisonSql s.availableAt ∨
    notificationTimestampComparisonSql r.availableAt = notificationTimestampComparisonSql s.availableAt ∧ r.id ≤ s.id

instance (r s : NotificationStoredRow) : Decidable (claimOrder r s) := inferInstanceAs (Decidable (_ ∨ _))

/-- The ids that the claim selects. -/
def claimCandidates (nowKey : String) (limit : ℕ) (t : List NotificationStoredRow) : List ℤ :=
  (((t.filter (claimable nowKey)).insertionSort claimOrder).take limit).map (·.id)

/-- The row a claim leaves. -/
def NotificationStoredRow.claim (leaseUntil updatedAt : String) (row : NotificationStoredRow) : NotificationStoredRow :=
  { row with
    status := "delivering"
    attempts := row.attempts + 1
    leaseUntil := some leaseUntil
    sentAt := none
    lastErrorCode := none
    updatedAt }

/-- One pass of the claim loop. -/
def claimOne (json : TemplateJson) (nowKey leaseUntil updatedAt : String) (id : ℤ) :
    Tx StoreError Database StoredNotification := do
  let eligible := fun (r : NotificationStoredRow) => r.id == id && claimable nowKey r
  let updated ← Tx.read fun db => db.notificationOutbox.countP eligible
  onOutbox (Table.updateWhere eligible (NotificationStoredRow.claim leaseUntil updatedAt))
  Tx.ensure (updated = 1) (.cursorConflict "notification")
  loadNotification json id

/-- The claim loop. -/
def claimEach (json : TemplateJson) (nowKey leaseUntil updatedAt : String) :
    List ℤ → Tx StoreError Database (List StoredNotification)
  | [] => return []
  | id :: ids => do
    let notification ← claimOne json nowKey leaseUntil updatedAt id
    let claimed ← claimEach json nowKey leaseUntil updatedAt ids
    return notification :: claimed

/-- `PaStore::claim_notifications`; the lease duration is in nanoseconds. -/
def claimNotifications (json : TemplateJson) (now : OffsetDateTime) (limit : ℕ) (leaseDuration : ℤ) (clock : SystemTime) :
    Tx StoreError Database (List StoredNotification) := do
  Tx.ensure (limit ≠ 0 ∧ limit < 2 ^ 63) (.invalidInput "limit")
  Tx.ensure (0 < leaseDuration) (.invalidInput "lease_duration")
  let leaseUntil ← Tx.ofResult (okOr (now.toUtc.checkedAdd leaseDuration) (.invalidInput "lease_duration"))
  let nowKey ← Tx.ofResult (formatNotificationComparisonDatetime now.toUtc)
  let leaseUntilText ← Tx.ofResult (formatOffsetDatetime leaseUntil)
  let updatedAt ← Tx.ofResult (formatOffsetDatetime clock.instant)
  let ids ← Tx.read fun db => claimCandidates nowKey limit db.notificationOutbox
  claimEach json nowKey leaseUntilText updatedAt ids

/-! ### Listing -/

/-- The order of the list: by the text of the availability, then by id. -/
def listOrder (r s : NotificationStoredRow) : Prop :=
  r.availableAt < s.availableAt ∨ r.availableAt = s.availableAt ∧ r.id ≤ s.id

instance (r s : NotificationStoredRow) : Decidable (listOrder r s) := inferInstanceAs (Decidable (_ ∨ _))

/-- The pending rows, as the query lists them. -/
def pendingRows (t : List NotificationStoredRow) : List NotificationStoredRow :=
  (t.filter (·.status == "pending")).insertionSort listOrder

/-- Reads selected rows. -/
def readEach (json : TemplateJson) : List NotificationStoredRow → Tx StoreError Database (List StoredNotification)
  | [] => return []
  | row :: rows => do
    let notification ← readNotification json row
    let notifications ← readEach json rows
    return notification :: notifications

/-- `PaStore::list_pending_notifications`. -/
def listPendingNotifications (json : TemplateJson) : Tx StoreError Database (List StoredNotification) := do
  let rows ← Tx.read fun db => pendingRows db.notificationOutbox
  readEach json rows

/-! ### Completing and giving back an attempt -/

/-- `validate_notification_delivery_cursor`. -/
def validateNotificationDeliveryCursor (id expectedAttempt : ℤ) : StoreResult Unit := do
  require (0 < id) (.invalidInput "id")
  require (0 < expectedAttempt) (.invalidInput "expected_attempt")

/-- The delivering row of an attempt. -/
def ownedBy (id expectedAttempt : ℤ) (row : NotificationStoredRow) : Bool :=
  row.id == id && row.status == "delivering" && row.attempts == expectedAttempt

/-- The update of the delivering row of an attempt, and the row read back. -/
def updateOwned (json : TemplateJson) (id expectedAttempt : ℤ) (f : NotificationStoredRow → NotificationStoredRow) :
    Tx StoreError Database StoredNotification := do
  let updated ← Tx.read fun db => db.notificationOutbox.countP (ownedBy id expectedAttempt)
  onOutbox (Table.updateWhere (ownedBy id expectedAttempt) f)
  Tx.ensure (updated = 1) (.cursorConflict "notification")
  loadNotification json id

/-- The row a completion leaves. -/
def NotificationStoredRow.complete (sentAt updatedAt : String) (row : NotificationStoredRow) : NotificationStoredRow :=
  { row with status := "sent", leaseUntil := none, sentAt := some sentAt, lastErrorCode := none, updatedAt }

/-- `PaStore::mark_notification_sent`. -/
def markNotificationSent (json : TemplateJson) (id expectedAttempt : ℤ) (sentAt : OffsetDateTime) (clock : SystemTime) :
    Tx StoreError Database StoredNotification := do
  Tx.ofResult (validateNotificationDeliveryCursor id expectedAttempt)
  let sentAtText ← Tx.ofResult (formatOffsetDatetime sentAt.toUtc)
  let updatedAt ← Tx.ofResult (formatOffsetDatetime clock.instant)
  let existing ← loadNotification json id
  if existing.status = .sent ∧ existing.attempts = expectedAttempt ∧ existing.sentAt = some sentAt.toUtc then
    return existing
  else do
    Tx.ensure (existing.status = .delivering ∧ existing.attempts = expectedAttempt) (.cursorConflict "notification")
    updateOwned json id expectedAttempt (NotificationStoredRow.complete sentAtText updatedAt)

/-- The row a reschedule leaves. -/
def NotificationStoredRow.reschedule (availableAt errorCode updatedAt : String) (row : NotificationStoredRow) :
    NotificationStoredRow :=
  { row with
    status := "pending"
    availableAt
    leaseUntil := none
    sentAt := none
    lastErrorCode := some errorCode
    updatedAt }

/-- `PaStore::reschedule_notification`. -/
def rescheduleNotification (json : TemplateJson) (id expectedAttempt : ℤ) (availableAt : OffsetDateTime)
    (errorCode : String) (clock : SystemTime) : Tx StoreError Database StoredNotification := do
  Tx.ofResult (validateNotificationDeliveryCursor id expectedAttempt)
  let availableAtText ← Tx.ofResult (formatOffsetDatetime availableAt.toUtc)
  let updatedAt ← Tx.ofResult (formatOffsetDatetime clock.instant)
  let errorCode ← Tx.ofResult (validateNotificationErrorCode errorCode)
  let existing ← loadNotification json id
  Tx.ensure (existing.status = .delivering ∧ existing.attempts = expectedAttempt) (.cursorConflict "notification")
  updateOwned json id expectedAttempt (NotificationStoredRow.reschedule availableAtText errorCode updatedAt)

/-- `PaStore::delete_notification_by_id`. -/
def deleteNotificationById (id : ℤ) : Tx StoreError Database Unit := do
  let row ← Tx.read fun db => Table.byRowid id db.notificationOutbox
  Tx.ensure (row.isSome = true) (.notFound "notification")
  onOutbox (Table.deleteWhere fun r => r.id == id)

end AgentVoice.Store

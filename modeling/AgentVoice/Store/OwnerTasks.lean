import AgentVoice.Store.AppointmentQuotes
import AgentVoice.Store.Tasks

/-!
# Owner tasks

`save_owner_task_draft`, `save_prepared_owner_task`, `save_owner_task_placement` and
`submit_owner_task_placement`. A draft is stored once under its key and its source, and placed once on the
calendar; a placement is submitted once, with the identifier of the event that completed it.
-/

namespace AgentVoice.Store

open AgentVoice.Foundations AgentVoice.Domain

/-! ### Drafts -/

/-- `StoredOwnerTaskDraft`. -/
structure StoredOwnerTaskDraft where
  id : ℤ
  sourceId : Option String
  draft : OwnerTaskDraft
  deriving DecidableEq

/-- `OwnerTaskDraft::with_duration` on a duration column. -/
def decodeOwnerTaskDraft (kind : TaskKind) (title : String) (durationMinutes : ℤ) (dueAt : Option OffsetDateTime)
    (idempotencyKey : IdempotencyKey) : StoreResult OwnerTaskDraft :=
  if h : 0 ≤ durationMinutes ∧ durationMinutes < 2 ^ 32 then
    replaceError (OwnerTaskDraft.withDuration kind title durationMinutes.toNat (by omega) dueAt idempotencyKey)
      (storedRecordInvalid "owner task draft")
  else .error (storedRecordInvalid "owner task draft")

/-- `decode_owner_task_row`. -/
def decodeOwnerTaskRow (row : OwnerTaskStoredRow) : StoreResult StoredOwnerTaskDraft := do
  require (0 < row.id) (storedRecordInvalid "owner task draft")
  let sourceId ← replaceError (transpose validateSourceId row.sourceId) (storedRecordInvalid "owner task draft")
  let kind ← parseTaskKind row.kind
  let dueAt ← transpose parseOffsetDatetime row.dueAt
  let idempotencyKey ←
    replaceError (IdempotencyKey.new row.idempotencyKey) (storedRecordInvalid "owner task draft")
  let draft ← decodeOwnerTaskDraft kind row.title row.durationMinutes dueAt idempotencyKey
  return ⟨row.id, sourceId, draft⟩

/-- The row of a draft. -/
def ownerTaskDraftRow (sourceId : Option String) (draft : OwnerTaskDraft) (dueAt : Option String) (id : ℤ) :
    OwnerTaskStoredRow where
  id := id
  idempotencyKey := draft.idempotencyKey.text
  sourceId := sourceId
  title := draft.title
  kind := taskKindStorageName draft.kind
  durationMinutes := draft.duration.minutes
  dueAt := dueAt

/-- Whether a row shares the key, or the source when there is one. -/
def sameOwnerTaskIdentity (sourceId : Option String) (draft : OwnerTaskDraft) (r : OwnerTaskStoredRow) : Bool :=
  r.idempotencyKey == draft.idempotencyKey.text || (sourceId.isSome && r.sourceId == sourceId)

/-- The insert of `save_owner_task_draft`. -/
def ownerTaskDraftInsert (sourceId : Option String) (draft : OwnerTaskDraft) (dueAt : Option String) :
    IdempotentInsert StoreError OwnerTaskStoredRow StoredOwnerTaskDraft where
  clashes := sameOwnerTaskIdentity sourceId draft
  row := ownerTaskDraftRow sourceId draft dueAt
  decode := decodeOwnerTaskRow
  same stored := decide (stored.sourceId = sourceId ∧ stored.draft.Same draft)
  conflict := .conflict "owner task draft"
  unreadable := storedRecordInvalid "owner task draft"
  single := false

/-- A transaction on the table of owner task drafts. -/
def onOwnerTaskDrafts {α : Type} (t : Tx StoreError (List OwnerTaskStoredRow) α) : Tx StoreError Database α :=
  Tx.zoom Database.ownerTaskDrafts (fun t db => { db with ownerTaskDrafts := t }) t

/-- `PaStore::save_owner_task_draft`. -/
def saveOwnerTaskDraft (sourceId : Option String) (draft : OwnerTaskDraft) :
    Tx StoreError Database StoredOwnerTaskDraft := do
  let sourceId ← Tx.ofResult (transpose validateSourceId sourceId)
  let dueAt ← Tx.ofResult (transpose formatOffsetDatetime draft.dueAt)
  onOwnerTaskDrafts ((ownerTaskDraftInsert sourceId draft dueAt).execReturning fun id => ⟨id, sourceId, draft⟩)

/-- `PaStore::load_owner_task_draft_by_id`. -/
def loadOwnerTaskDraftById (id : ℤ) : Tx StoreError Database StoredOwnerTaskDraft := do
  let row ← Tx.read fun db => Table.byRowid id db.ownerTaskDrafts
  let row ← Tx.ofResult (okOr row (.notFound "owner task draft"))
  Tx.ofResult (decodeOwnerTaskRow row)

/-- `PaStore::delete_owner_task_draft_by_id`. -/
def deleteOwnerTaskDraftById (id : ℤ) : Tx StoreError Database Unit := do
  let row ← Tx.read fun db => Table.byRowid id db.ownerTaskDrafts
  Tx.ensure (row.isSome = true) (.notFound "owner task draft")
  let proposed ← Tx.read fun db => db.proposals.any fun p => p.ownerTaskDraftId == some id
  Tx.ensure (proposed = false) (.conflict "owner task draft")
  -- `ON DELETE RESTRICT` of the placements
  let placed ← Tx.read fun db => db.ownerTaskPlacements.any fun p => p.ownerTaskDraftId == id
  Tx.ensure (placed = false) .sqlite
  Tx.write fun db => { db with ownerTaskDrafts := Table.deleteWhere (fun r => r.id == id) db.ownerTaskDrafts }

/-! ### Placements -/

/-- `StoredOwnerTaskPlacement`. -/
structure StoredOwnerTaskPlacement where
  ownerTaskDraftId : ℤ
  startsAt : OffsetDateTime
  endsAt : OffsetDateTime
  timezone : String
  operationKey : String
  ownerFingerprint : String
  providerEventId : Option String
  deriving DecidableEq

/-- `validate_owner_task_timezone`. -/
def validateOwnerTaskTimezone (timezones : Timezones) (value : String) : StoreResult String :=
  replaceError (validateAppointmentQuoteTimezone timezones value) (.invalidInput "timezone")

/-- Whether a text can be the identifier of a provider's event. -/
def IsProviderEventId (value : String) : Prop :=
  ¬ IsBlank value ∧ byteLength value ≤ maxIdentifierLength ∧ isAscii value = true ∧ hasControl value = false

instance (value : String) : Decidable (IsProviderEventId value) := inferInstanceAs (Decidable (_ ∧ _))

/-- `validate_provider_event_id`. -/
def validateProviderEventId (value : String) : StoreResult String :=
  if IsProviderEventId value then .ok value else .error (.invalidInput "provider_event_id")

theorem validateProviderEventId_eq_ok_iff {value text : String} :
    validateProviderEventId value = .ok text ↔ IsProviderEventId value ∧ value = text := by
  rw [validateProviderEventId]
  by_cases h : IsProviderEventId value <;> simp [h]

/-- `format_owner_task_placement_datetime`. -/
def formatOwnerTaskPlacementDatetime (value : OffsetDateTime) : StoreResult String :=
  (wholeSecondText value "owner_task_placement_time").map Prod.snd

/-- `parse_owner_task_placement_datetime`. -/
def parseOwnerTaskPlacementDatetime : String → StoreResult OffsetDateTime := parseWholeSecond "owner task placement"

/-- Whether a state column agrees with the identifier of the event. -/
def PlacementStateAgrees (row : OwnerTaskPlacementStoredRow) : Prop :=
  (row.state = "prepared" ∧ row.providerEventId = none) ∨ (row.state = "submitted" ∧ row.providerEventId.isSome = true)

instance (row : OwnerTaskPlacementStoredRow) : Decidable (PlacementStateAgrees row) :=
  inferInstanceAs (Decidable (_ ∨ _))

/-- `decode_owner_task_placement`. -/
def decodeOwnerTaskPlacement (timezones : Timezones) (row : OwnerTaskPlacementStoredRow) :
    StoreResult StoredOwnerTaskPlacement := do
  require (0 < row.ownerTaskDraftId) (storedRecordInvalid "owner task placement")
  let _ ← replaceError (validateOwnerTaskTimezone timezones row.timezone) (storedRecordInvalid "owner task placement")
  require (isMachineIdentifier row.operationKey = true) (storedRecordInvalid "owner task placement")
  require (isMachineIdentifier row.ownerFingerprint = true) (storedRecordInvalid "owner task placement")
  require (∀ value ∈ row.providerEventId, IsProviderEventId value) (storedRecordInvalid "owner task placement")
  let startsAt ← parseOwnerTaskPlacementDatetime row.startsAt
  let endsAt ← parseOwnerTaskPlacementDatetime row.endsAt
  require (startsAt.unixNanos < endsAt.unixNanos) (storedRecordInvalid "owner task placement")
  require (PlacementStateAgrees row) (storedRecordInvalid "owner task placement")
  return ⟨row.ownerTaskDraftId, startsAt, endsAt, row.timezone, row.operationKey, row.ownerFingerprint,
    row.providerEventId⟩

/-- `ensure_owner_task_draft_exists`. -/
def ensureOwnerTaskDraftExists (ownerTaskDraftId : ℤ) (db : Database) : StoreResult Unit := do
  let row ← okOr (Table.byRowid ownerTaskDraftId db.ownerTaskDrafts) (.notFound "owner task draft")
  let _ ← decodeOwnerTaskRow row
  return ()

/-- `validate_owner_task_placement_reference`. -/
def validateOwnerTaskPlacementReference (placement : StoredOwnerTaskPlacement) : Tx StoreError Database Unit := do
  let referred ← Tx.read (ensureOwnerTaskDraftExists placement.ownerTaskDraftId)
  Tx.ofResult (replaceError referred (storedRecordInvalid "owner task placement"))

/-- The placement a caller asks for, with the texts of its columns. -/
structure PlacementRequest where
  startsAt : OffsetDateTime
  endsAt : OffsetDateTime
  timezone : String
  operationKey : String
  ownerFingerprint : String

/-- The row of a prepared placement. -/
def PlacementRequest.row (r : PlacementRequest) (startsAt endsAt : String) (ownerTaskDraftId : ℤ) :
    OwnerTaskPlacementStoredRow where
  ownerTaskDraftId := ownerTaskDraftId
  startsAt := startsAt
  endsAt := endsAt
  timezone := r.timezone
  operationKey := r.operationKey
  ownerFingerprint := r.ownerFingerprint
  providerEventId := none
  state := "prepared"

/-- Whether a stored placement is the one a caller asks for. -/
def PlacementRequest.IsContentOf (r : PlacementRequest) (p : StoredOwnerTaskPlacement) : Prop :=
  p.startsAt.Same r.startsAt ∧ p.endsAt.Same r.endsAt ∧ p.timezone = r.timezone ∧ p.operationKey = r.operationKey ∧
    p.ownerFingerprint = r.ownerFingerprint

instance decidablePlacementContent (r : PlacementRequest) (p : StoredOwnerTaskPlacement) :
    Decidable (r.IsContentOf p) := inferInstanceAs (Decidable (_ ∧ _))

/-- The checks both placing operations make, and the texts of the two instants. -/
def PlacementRequest.validate (timezones : Timezones) (r : PlacementRequest) : StoreResult (String × String) := do
  let _ ← validateOwnerTaskTimezone timezones r.timezone
  let _ ← validateMachineIdentifier r.operationKey "operation_key"
  let _ ← validateMachineIdentifier r.ownerFingerprint "owner_fingerprint"
  let startsAt ← formatOwnerTaskPlacementDatetime r.startsAt
  let endsAt ← formatOwnerTaskPlacementDatetime r.endsAt
  return (startsAt, endsAt)

/-- Inserts a placement unless its draft or its operation key has one, reads the placement back and compares
it. -/
def placeOwnerTask (timezones : Timezones) (r : PlacementRequest) (startsAt endsAt : String) (ownerTaskDraftId : ℤ) :
    Tx StoreError Database StoredOwnerTaskPlacement := do
  let clash ← Tx.read fun db =>
    db.ownerTaskPlacements.any fun p => p.ownerTaskDraftId == ownerTaskDraftId || p.operationKey == r.operationKey
  Tx.write fun db =>
    if clash then db
    else { db with ownerTaskPlacements := db.ownerTaskPlacements ++ [r.row startsAt endsAt ownerTaskDraftId] }
  let placement ← Tx.read fun db =>
    (Table.byRowid ownerTaskDraftId db.ownerTaskPlacements).or
      (Table.byKey OwnerTaskPlacementStoredRow.operationKey r.operationKey db.ownerTaskPlacements)
  let placement ← Tx.ofResult (okOr placement (.notFound "owner task placement"))
  let placement ← Tx.ofResult (decodeOwnerTaskPlacement timezones placement)
  Tx.ensure (placement.ownerTaskDraftId = ownerTaskDraftId) (.conflict "owner task placement")
  Tx.ensure (r.IsContentOf placement) (.conflict "owner task placement")
  return placement

/-- `PaStore::save_owner_task_placement`. -/
def saveOwnerTaskPlacement (timezones : Timezones) (ownerTaskDraftId : ℤ) (r : PlacementRequest) :
    Tx StoreError Database StoredOwnerTaskPlacement := do
  Tx.ensure (0 < ownerTaskDraftId ∧ r.startsAt.unixNanos < r.endsAt.unixNanos) (.invalidInput "owner_task_placement")
  let (startsAt, endsAt) ← Tx.ofResult (r.validate timezones)
  let referred ← Tx.read (ensureOwnerTaskDraftExists ownerTaskDraftId)
  Tx.ofResult referred
  placeOwnerTask timezones r startsAt endsAt ownerTaskDraftId

/-- Inserts a draft unless its identity is taken, and selects the row that holds it. -/
def findOrInsertOwnerTaskDraft (sourceId : Option String) (draft : OwnerTaskDraft) (dueAt : Option String) :
    Tx StoreError Database StoredOwnerTaskDraft := do
  let clash ← Tx.read fun db => db.ownerTaskDrafts.any (sameOwnerTaskIdentity sourceId draft)
  Tx.write fun db =>
    if clash then db
    else
      { db with
        ownerTaskDrafts :=
          db.ownerTaskDrafts ++ [ownerTaskDraftRow sourceId draft dueAt (Table.nextRowid db.ownerTaskDrafts)] }
  let candidates ← Tx.read fun db => db.ownerTaskDrafts.filter (sameOwnerTaskIdentity sourceId draft)
  let candidates ← Tx.ofResult (candidates.mapM decodeOwnerTaskRow)
  Tx.ofResult (okOr (candidates.find? fun item => decide (item.sourceId = sourceId ∧ item.draft.Same draft))
    (.conflict "owner task draft"))

/-- `PaStore::save_prepared_owner_task`. -/
def savePreparedOwnerTask (timezones : Timezones) (sourceId : Option String) (draft : OwnerTaskDraft)
    (r : PlacementRequest) : Tx StoreError Database (StoredOwnerTaskDraft × StoredOwnerTaskPlacement) := do
  Tx.ensure (r.startsAt.unixNanos < r.endsAt.unixNanos) (.invalidInput "owner_task_placement")
  let sourceId ← Tx.ofResult (transpose validateSourceId sourceId)
  let (startsAt, endsAt) ← Tx.ofResult (r.validate timezones)
  let dueAt ← Tx.ofResult (transpose formatOffsetDatetime draft.dueAt)
  let stored ← findOrInsertOwnerTaskDraft sourceId draft dueAt
  let placement ← placeOwnerTask timezones r startsAt endsAt stored.id
  return (stored, placement)

/-- `PaStore::load_owner_task_placement`. -/
def loadOwnerTaskPlacement (timezones : Timezones) (ownerTaskDraftId : ℤ) :
    Tx StoreError Database StoredOwnerTaskPlacement := do
  let row ← Tx.read fun db => Table.byRowid ownerTaskDraftId db.ownerTaskPlacements
  let row ← Tx.ofResult (okOr row (.notFound "owner task placement"))
  let placement ← Tx.ofResult (decodeOwnerTaskPlacement timezones row)
  validateOwnerTaskPlacementReference placement
  return placement

/-- The row a submission leaves. -/
def OwnerTaskPlacementStoredRow.submit (providerEventId : String) (row : OwnerTaskPlacementStoredRow) :
    OwnerTaskPlacementStoredRow :=
  { row with state := "submitted", providerEventId := some providerEventId }

/-- The check that no other placement holds an event. -/
def ensureEventFree (timezones : Timezones) (ownerTaskDraftId : ℤ) (providerEventId : String) :
    Tx StoreError Database Unit := do
  let existing ← Tx.read fun db => db.ownerTaskPlacements.find? fun p => p.providerEventId == some providerEventId
  match existing with
  | none => return ()
  | some row => do
    let existing ← Tx.ofResult (decodeOwnerTaskPlacement timezones row)
    Tx.ensure (existing.ownerTaskDraftId = ownerTaskDraftId) (.conflict "owner task placement")

/-- `PaStore::submit_owner_task_placement`. -/
def submitOwnerTaskPlacement (timezones : Timezones) (ownerTaskDraftId : ℤ) (providerEventId : String) :
    Tx StoreError Database StoredOwnerTaskPlacement := do
  let providerEventId ← Tx.ofResult (validateProviderEventId providerEventId)
  let placement ← loadOwnerTaskPlacement timezones ownerTaskDraftId
  match placement.providerEventId with
  | some existing => do
    Tx.ensure (existing = providerEventId) (.conflict "owner task placement")
    return placement
  | none => do
    ensureEventFree timezones ownerTaskDraftId providerEventId
    Tx.write fun db =>
      { db with
        ownerTaskPlacements :=
          Table.updateWhere (fun p => p.ownerTaskDraftId == ownerTaskDraftId)
            (OwnerTaskPlacementStoredRow.submit providerEventId) db.ownerTaskPlacements }
    loadOwnerTaskPlacement timezones ownerTaskDraftId

end AgentVoice.Store

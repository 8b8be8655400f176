import AgentVoice.Domain.Drafts
import AgentVoice.Foundations.IdempotentInsert
import AgentVoice.Store.Columns
import AgentVoice.Store.Schema

/-!
# Appointment drafts

`save_appointment_draft` and `delete_appointment_draft_by_id`. A draft is stored once under its key, its
source and its quote, and is never changed; it can be deleted as long as nothing refers to it. What is read
from the row of a draft is that draft (`decodeAppointmentRow_row`).
-/

namespace AgentVoice.Store

open AgentVoice.Foundations AgentVoice.Domain

/-- `appointment_kind_storage_name`. -/
def appointmentKindStorageName : AppointmentKind → String
  | .callback => "callback"
  | .meeting => "meeting"

/-- `parse_appointment_kind` and `parse_appointment_quote_kind`, which differ in the record they name. -/
def parseAppointmentKind (resource : String) : String → StoreResult AppointmentKind :=
  parseName [.callback, .meeting] appointmentKindStorageName (storedRecordInvalid resource)

theorem parseAppointmentKind_eq_ok_iff {resource value : String} {k : AppointmentKind} :
    parseAppointmentKind resource value = .ok k ↔ value = appointmentKindStorageName k :=
  parseName_eq_ok_iff (by intro b; cases b <;> decide) (by decide)

/-- `StoredAppointmentDraft`. -/
structure StoredAppointmentDraft where
  id : ℤ
  sourceId : String
  draft : AppointmentDraft
  deriving DecidableEq

/-- Reads a flag column. -/
def parseFlag (resource : String) (value : ℤ) : StoreResult Bool :=
  if value = 0 then .ok false else if value = 1 then .ok true else .error (storedRecordInvalid resource)

/-- `decode_appointment_row`. -/
def decodeAppointmentRow (row : AppointmentStoredRow) : StoreResult StoredAppointmentDraft := do
  require (0 < row.id) (storedRecordInvalid "appointment draft")
  let sourceId ← replaceError (validateSourceId row.sourceId) (storedRecordInvalid "appointment draft")
  let idempotencyKey ←
    replaceError (IdempotencyKey.new row.idempotencyKey) (storedRecordInvalid "appointment draft")
  let quoteId ← QuoteId.parse row.quoteId (storedRecordInvalid "appointment draft")
  let kind ← parseAppointmentKind "appointment draft" row.kind
  let startsAt ← parseOffsetDatetime row.startsAt
  let endsAt ← parseOffsetDatetime row.endsAt
  let requesterIncluded ← parseFlag "appointment draft" row.requesterIncluded
  let email ← replaceError (ConfirmedEmail.confirm row.callerEmail) (storedRecordInvalid "appointment draft")
  let caller ← replaceError (CallerIdentity.new row.callerName email) (storedRecordInvalid "appointment draft")
  let draft : AppointmentDraft := ⟨quoteId, caller, kind, startsAt, requesterIncluded, idempotencyKey⟩
  require (draft.endsAt.Same endsAt) (storedRecordInvalid "appointment draft")
  return ⟨row.id, sourceId, draft⟩

/-- The row of a draft. -/
def appointmentDraftRow (sourceId : String) (draft : AppointmentDraft) (startsAt endsAt : String) (id : ℤ) :
    AppointmentStoredRow where
  id := id
  idempotencyKey := draft.idempotencyKey.text
  sourceId := sourceId
  quoteId := draft.quoteId.text
  callerName := draft.caller.name
  callerEmail := draft.caller.email.value
  kind := appointmentKindStorageName draft.kind
  startsAt := startsAt
  endsAt := endsAt
  requesterIncluded := if draft.requesterIncluded then 1 else 0

/-- The insert of `save_appointment_draft_in_transaction`. -/
def appointmentDraftInsert (sourceId : String) (draft : AppointmentDraft) (startsAt endsAt : String) :
    IdempotentInsert StoreError AppointmentStoredRow StoredAppointmentDraft where
  clashes r :=
    r.idempotencyKey == draft.idempotencyKey.text || r.sourceId == sourceId || r.quoteId == draft.quoteId.text
  row := appointmentDraftRow sourceId draft startsAt endsAt
  decode := decodeAppointmentRow
  same stored := decide (stored.sourceId = sourceId ∧ stored.draft.Same draft)
  conflict := .conflict "appointment draft"
  unreadable := storedRecordInvalid "appointment draft"
  single := false

/-- A transaction on the table of appointment drafts. -/
def onAppointmentDrafts {α : Type} (t : Tx StoreError (List AppointmentStoredRow) α) : Tx StoreError Database α :=
  Tx.zoom Database.appointmentDrafts (fun t db => { db with appointmentDrafts := t }) t

/-- `save_appointment_draft_in_transaction`. -/
def saveAppointmentDraftInTransaction (sourceId : String) (draft : AppointmentDraft) :
    Tx StoreError Database StoredAppointmentDraft := do
  let startsAt ← Tx.ofResult (formatOffsetDatetime draft.startsAt)
  let endsAt ← Tx.ofResult (formatOffsetDatetime draft.endsAt)
  onAppointmentDrafts
    ((appointmentDraftInsert sourceId draft startsAt endsAt).execReturning fun id => ⟨id, sourceId, draft⟩)

/-- `PaStore::save_appointment_draft`. -/
def saveAppointmentDraft (sourceId : String) (draft : AppointmentDraft) :
    Tx StoreError Database StoredAppointmentDraft := do
  let sourceId ← Tx.ofResult (validateSourceId sourceId)
  saveAppointmentDraftInTransaction sourceId draft

/-- `PaStore::load_appointment_draft_by_id`. -/
def loadAppointmentDraftById (id : ℤ) : Tx StoreError Database StoredAppointmentDraft := do
  let row ← Tx.read fun db => Table.byRowid id db.appointmentDrafts
  let row ← Tx.ofResult (okOr row (.notFound "appointment draft"))
  Tx.ofResult (decodeAppointmentRow row)

/-- `PaStore::delete_appointment_draft_by_id`. -/
def deleteAppointmentDraftById (id : ℤ) : Tx StoreError Database Unit := do
  let row ← Tx.read fun db => Table.byRowid id db.appointmentDrafts
  Tx.ensure (row.isSome = true) (.notFound "appointment draft")
  let proposed ← Tx.read fun db => db.proposals.any fun p => p.appointmentDraftId == some id
  Tx.ensure (proposed = false) (.conflict "appointment draft")
  let restricted ← Tx.read (Database.appointmentDraftRestricted id)
  Tx.ensure (restricted = false) .sqlite
  Tx.write fun db => { db with appointmentDrafts := Table.deleteWhere (fun r => r.id == id) db.appointmentDrafts }

/-! ### What the operations do -/

/-- What a row that decodes holds. -/
theorem decodeAppointmentRow_eq_ok {row : AppointmentStoredRow} {d : StoredAppointmentDraft}
    (h : decodeAppointmentRow row = .ok d) :
    0 < row.id ∧ d.id = row.id ∧ d.sourceId = row.sourceId ∧ d.draft.quoteId.text = row.quoteId := by
  obtain ⟨u, hid, h⟩ := bind_eq_ok_iff.mp h
  obtain ⟨sourceId, hsourceId, h⟩ := bind_eq_ok_iff.mp h
  obtain ⟨key, -, h⟩ := bind_eq_ok_iff.mp h
  obtain ⟨quoteId, hquoteId, h⟩ := bind_eq_ok_iff.mp h
  obtain ⟨kind, -, h⟩ := bind_eq_ok_iff.mp h
  obtain ⟨startsAt, -, h⟩ := bind_eq_ok_iff.mp h
  obtain ⟨endsAt, -, h⟩ := bind_eq_ok_iff.mp h
  obtain ⟨included, -, h⟩ := bind_eq_ok_iff.mp h
  obtain ⟨email, -, h⟩ := bind_eq_ok_iff.mp h
  obtain ⟨caller, -, h⟩ := bind_eq_ok_iff.mp h
  obtain ⟨v, -, h⟩ := bind_eq_ok_iff.mp h
  obtain rfl := Except.ok.inj h
  rw [require_eq_ok_iff] at hid
  rw [replaceError_eq_ok_iff, validateSourceId_eq_ok_iff] at hsourceId
  exact ⟨hid, rfl, hsourceId.2.symm, QuoteId.parse_eq_ok_iff.mp hquoteId⟩

/-- **What is read from the row of a draft is that draft.** -/
theorem decodeAppointmentRow_row {sourceId text : String} {draft : AppointmentDraft} {startsAt endsAt : String}
    {id : ℤ} (hsource : validateSourceId sourceId = .ok text) (hstarts : draft.startsAt.format = some startsAt)
    (hends : draft.endsAt.format = some endsAt) (hid : 0 < id) :
    decodeAppointmentRow (appointmentDraftRow sourceId draft startsAt endsAt id) = .ok ⟨id, sourceId, draft⟩ := by
  obtain ⟨-, rfl⟩ := validateSourceId_eq_ok_iff.mp hsource
  have hkind : parseAppointmentKind "appointment draft" (appointmentKindStorageName draft.kind) = .ok draft.kind :=
    parseAppointmentKind_eq_ok_iff.mpr rfl
  have hquote : QuoteId.parse draft.quoteId.text (storedRecordInvalid "appointment draft") = .ok draft.quoteId :=
    QuoteId.parse_eq_ok_iff.mpr rfl
  have hemail : ConfirmedEmail.confirm draft.caller.email.value = .ok draft.caller.email :=
    ConfirmedEmail.confirm_eq_ok_iff.mpr rfl
  have hcaller : CallerIdentity.new draft.caller.name draft.caller.email = .ok draft.caller :=
    CallerIdentity.new_eq_ok_iff.mpr ⟨draft.caller.name_not_blank, draft.caller.name_trimmed.symm, rfl⟩
  have hflag : parseFlag "appointment draft" (if draft.requesterIncluded = true then 1 else 0) =
      .ok draft.requesterIncluded := by
    cases draft.requesterIncluded <;> rfl
  simp [decodeAppointmentRow, appointmentDraftRow, require, hid, hsource, hquote, hkind, parseOffsetDatetime,
    parse_format hstarts, parse_format hends, hflag, hemail, hcaller, OffsetDateTime.Same]

/-- **Saving a draft** adds a row under a key, a source and a quote no row has, or finds the row that holds
exactly that draft. -/
theorem saveAppointmentDraftInTransaction_run_eq_ok {sourceId text : String} {draft : AppointmentDraft}
    {db db' : Database} {d : StoredAppointmentDraft} (hsource : validateSourceId sourceId = .ok text)
    (h : (saveAppointmentDraftInTransaction sourceId draft).run db = .ok (d, db')) :
    (∃ row, row.id = Table.nextRowid db.appointmentDrafts ∧ decodeAppointmentRow row = .ok d ∧
        row.idempotencyKey = draft.idempotencyKey.text ∧
        d.sourceId = sourceId ∧ d.draft = draft ∧
        db' = { db with appointmentDrafts := db.appointmentDrafts ++ [row] } ∧
        ∀ r ∈ db.appointmentDrafts, r.idempotencyKey ≠ row.idempotencyKey ∧ r.sourceId ≠ row.sourceId ∧
          r.quoteId ≠ row.quoteId) ∨
      (db' = db ∧ ∃ r ∈ db.appointmentDrafts, decodeAppointmentRow r = .ok d ∧ d.sourceId = sourceId ∧
        d.draft.Same draft) := by
  simp only [saveAppointmentDraftInTransaction, Tx.ofResult_bind_eq_ok_iff, formatOffsetDatetime_eq_ok_iff] at h
  obtain ⟨startsAt, hstarts, endsAt, hends, hinsert⟩ := h
  obtain ⟨t, hexec, rfl⟩ := Tx.run_zoom_eq_ok_iff.mp hinsert
  rcases IdempotentInsert.run_execReturning_eq_ok hexec with ⟨hfresh, rfl, rfl⟩ | ⟨rfl, hrow, hall⟩
  · refine Or.inl ⟨_, rfl, decodeAppointmentRow_row hsource hstarts hends (Table.nextRowid_pos _), rfl, rfl, rfl, rfl,
      fun r hr => ?_⟩
    simpa [appointmentDraftInsert, appointmentDraftRow, and_assoc] using hfresh r hr
  · obtain ⟨r, hr, hclash, hdecode⟩ := hrow
    obtain ⟨b, hb, hsame⟩ := hall r hr hclash
    obtain rfl := Except.ok.inj (hdecode.symm.trans hb)
    exact Or.inr ⟨rfl, r, hr, hdecode, of_decide_eq_true hsame⟩

theorem deleteAppointmentDraftById_run_eq_ok {id : ℤ} {db db' : Database} {u : Unit}
    (h : (deleteAppointmentDraftById id).run db = .ok (u, db')) :
    db.appointmentDraftRestricted id = false ∧
      db' = { db with appointmentDrafts := Table.deleteWhere (fun r => r.id == id) db.appointmentDrafts } := by
  simp only [deleteAppointmentDraftById, Tx.read_bind, Tx.ensure_bind_eq_ok_iff, Tx.run_write, Except.ok.injEq,
    Prod.mk.injEq, true_and] at h
  obtain ⟨-, -, hfree, rfl⟩ := h
  exact ⟨hfree, rfl⟩

end AgentVoice.Store

import AgentVoice.Store.Proposals

/-!
# Event mappings

`attach_event_mapping` and `delete_event_mapping_by_id`. A mapping ties a proposal to an event of a
provider; the proposal, the event and the source of a mapping are unique. Instants are compared as
`OffsetDateTime` compares them, whatever offsets they are written with.
-/

namespace AgentVoice.Store

open AgentVoice.Foundations AgentVoice.Domain

/-- `StoredEventMapping`. -/
structure StoredEventMapping where
  id : ℤ
  proposalId : ℤ
  provider : String
  providerEventId : String
  sourceId : String
  startsAt : Option OffsetDateTime
  endsAt : Option OffsetDateTime
  createdAt : String
  updatedAt : String
  deriving DecidableEq, Repr

/-- Whether two optional instants are equal. -/
def SameInstant (x y : Option OffsetDateTime) : Prop := x.map (·.unixNanos) = y.map (·.unixNanos)

instance (x y : Option OffsetDateTime) : Decidable (SameInstant x y) := inferInstanceAs (Decidable (_ = _))

/-- `validate_event_times`. -/
def validateEventTimes : Option OffsetDateTime → Option OffsetDateTime → StoreResult Unit
  | none, none => .ok ()
  | some start, some stop => require (start.unixNanos < stop.unixNanos) (.invalidInput "event_times")
  | some _, none => .error (.invalidInput "ends_at")
  | none, some _ => .error (.invalidInput "starts_at")

/-- `decode_event_mapping_row`. -/
def decodeEventMappingRow (row : EventMappingStoredRow) : StoreResult StoredEventMapping := do
  require (0 < row.id ∧ 0 < row.proposalId) (storedRecordInvalid "event mapping")
  let provider ← replaceError (validateNonEmpty row.provider "provider") (storedRecordInvalid "event mapping")
  let providerEventId ←
    replaceError (validateNonEmpty row.providerEventId "provider_event_id") (storedRecordInvalid "event mapping")
  let sourceId ← replaceError (validateSourceId row.sourceId) (storedRecordInvalid "event mapping")
  let startsAt ← replaceError (transpose parseOffsetDatetime row.startsAt) (storedRecordInvalid "event mapping")
  let endsAt ← replaceError (transpose parseOffsetDatetime row.endsAt) (storedRecordInvalid "event mapping")
  replaceError (validateEventTimes startsAt endsAt) (storedRecordInvalid "event mapping")
  let createdAt ← validateStoredTimestamp row.createdAt "event mapping"
  let updatedAt ← validateStoredTimestamp row.updatedAt "event mapping"
  return ⟨row.id, row.proposalId, provider, providerEventId, sourceId, startsAt, endsAt, createdAt, updatedAt⟩

/-- `load_event_mapping_by_proposal_id`. -/
def loadEventMappingByProposalId (proposalId : ℤ) : Tx StoreError Database StoredEventMapping := do
  let row ← Tx.read fun db => Table.byKey EventMappingStoredRow.proposalId proposalId db.eventMappings
  let row ← Tx.ofResult (okOr row (.notFound "event mapping"))
  Tx.ofResult (decodeEventMappingRow row)

/-- The insert of `attach_event_mapping`. -/
def eventMappingInsert (proposalId : ℤ) (provider providerEventId sourceId : String)
    (startsAt endsAt : Option OffsetDateTime) (startsAtText endsAtText : Option String) (now : SystemTime) :
    IdempotentInsert StoreError EventMappingStoredRow StoredEventMapping where
  clashes r :=
    r.proposalId == proposalId || (r.provider == provider && r.providerEventId == providerEventId) ||
      r.sourceId == sourceId
  row id :=
    { id, proposalId, provider, providerEventId, sourceId
      startsAt := startsAtText
      endsAt := endsAtText
      createdAt := currentTimestamp now
      updatedAt := currentTimestamp now }
  decode := decodeEventMappingRow
  same stored :=
    decide (stored.proposalId = proposalId ∧ stored.provider = provider ∧ stored.providerEventId = providerEventId ∧
      stored.sourceId = sourceId ∧ SameInstant stored.startsAt startsAt ∧ SameInstant stored.endsAt endsAt)
  conflict := .conflict "event mapping"
  unreadable := storedRecordInvalid "event mapping"
  single := false

/-- A transaction on the table of event mappings. -/
def onEventMappings {α : Type} (t : Tx StoreError (List EventMappingStoredRow) α) : Tx StoreError Database α :=
  Tx.zoom Database.eventMappings (fun t db => { db with eventMappings := t }) t

/-- `PaStore::attach_event_mapping`. -/
def attachEventMapping (proposalId : ℤ) (provider providerEventId sourceId : String)
    (startsAt endsAt : Option OffsetDateTime) (now : SystemTime) : Tx StoreError Database StoredEventMapping := do
  let provider ← Tx.ofResult (validateNonEmpty provider "provider")
  let providerEventId ← Tx.ofResult (validateNonEmpty providerEventId "provider_event_id")
  let sourceId ← Tx.ofResult (validateSourceId sourceId)
  Tx.ofResult (validateEventTimes startsAt endsAt)
  let proposal ← Tx.read fun db => Table.byRowid proposalId db.proposals
  Tx.ensure (proposal.isSome = true) (.notFound "proposal")
  let startsAtText ← Tx.ofResult (transpose formatOffsetDatetime startsAt)
  let endsAtText ← Tx.ofResult (transpose formatOffsetDatetime endsAt)
  onEventMappings
    (eventMappingInsert proposalId provider providerEventId sourceId startsAt endsAt startsAtText endsAtText now).exec

/-- `PaStore::delete_event_mapping_by_id`. -/
def deleteEventMappingById (id : ℤ) : Tx StoreError Database Unit := do
  let row ← Tx.read fun db => Table.byRowid id db.eventMappings
  Tx.ensure (row.isSome = true) (.notFound "event mapping")
  Tx.write (Database.deleteEventMappings fun m => m.id == id)

/-! ### What the operations do -/

/-- What a row that decodes holds. -/
theorem decodeEventMappingRow_eq_ok {row : EventMappingStoredRow} {m : StoredEventMapping}
    (h : decodeEventMappingRow row = .ok m) :
    (0 < row.id ∧ 0 < row.proposalId) ∧ m.id = row.id ∧ m.proposalId = row.proposalId ∧ m.provider = row.provider ∧
      m.providerEventId = row.providerEventId ∧ m.sourceId = row.sourceId ∧
      transpose parseOffsetDatetime row.startsAt = .ok m.startsAt ∧
      transpose parseOffsetDatetime row.endsAt = .ok m.endsAt := by
  obtain ⟨u, hids, h⟩ := bind_eq_ok_iff.mp h
  obtain ⟨provider, hprovider, h⟩ := bind_eq_ok_iff.mp h
  obtain ⟨providerEventId, hevent, h⟩ := bind_eq_ok_iff.mp h
  obtain ⟨sourceId, hsourceId, h⟩ := bind_eq_ok_iff.mp h
  obtain ⟨startsAt, hstarts, h⟩ := bind_eq_ok_iff.mp h
  obtain ⟨endsAt, hends, h⟩ := bind_eq_ok_iff.mp h
  obtain ⟨v, -, h⟩ := bind_eq_ok_iff.mp h
  obtain ⟨createdAt, -, h⟩ := bind_eq_ok_iff.mp h
  obtain ⟨updatedAt, -, h⟩ := bind_eq_ok_iff.mp h
  obtain rfl := Except.ok.inj h
  rw [require_eq_ok_iff] at hids
  rw [replaceError_eq_ok_iff, validateNonEmpty_eq_ok_iff] at hprovider hevent
  rw [replaceError_eq_ok_iff, validateSourceId_eq_ok_iff] at hsourceId
  rw [replaceError_eq_ok_iff] at hstarts hends
  exact ⟨hids, rfl, rfl, hprovider.2.symm, hevent.2.symm, hsourceId.2.symm, hstarts, hends⟩

theorem loadEventMappingByProposalId_run_eq_ok_iff {proposalId : ℤ} {db db' : Database} {m : StoredEventMapping} :
    (loadEventMappingByProposalId proposalId).run db = .ok (m, db') ↔
      db' = db ∧ ∃ row, Table.byKey EventMappingStoredRow.proposalId proposalId db.eventMappings = some row ∧
        decodeEventMappingRow row = .ok m := by
  simp only [loadEventMappingByProposalId, Tx.read_bind, Tx.ofResult_bind_eq_ok_iff, okOr_eq_ok_iff,
    Tx.run_ofResult_eq_ok_iff]
  tauto

/-- **Attaching a mapping** adds a row for an existing proposal that shares no proposal, event or source with
a row of the table, or finds the row that holds exactly that mapping. -/
theorem attachEventMapping_run_eq_ok {proposalId : ℤ} {provider providerEventId sourceId : String}
    {startsAt endsAt : Option OffsetDateTime} {now : SystemTime} {db db' : Database} {m : StoredEventMapping}
    (h : (attachEventMapping proposalId provider providerEventId sourceId startsAt endsAt now).run db = .ok (m, db')) :
    (∃ p ∈ db.proposals, p.id = proposalId) ∧
      ((∃ row, Row.rowid row = Table.nextRowid db.eventMappings ∧ decodeEventMappingRow row = .ok m ∧
          row.proposalId = proposalId ∧ row.provider = provider ∧ row.providerEventId = providerEventId ∧
          row.sourceId = sourceId ∧ transpose formatOffsetDatetime startsAt = .ok row.startsAt ∧
          transpose formatOffsetDatetime endsAt = .ok row.endsAt ∧
          db' = { db with eventMappings := db.eventMappings ++ [row] } ∧
          ∀ r ∈ db.eventMappings, r.proposalId ≠ proposalId ∧
            ¬ (r.provider = provider ∧ r.providerEventId = providerEventId) ∧ r.sourceId ≠ sourceId) ∨
        (db' = db ∧ ∃ r ∈ db.eventMappings, decodeEventMappingRow r = .ok m ∧ m.proposalId = proposalId ∧
          m.provider = provider ∧ m.providerEventId = providerEventId ∧ m.sourceId = sourceId ∧
          SameInstant m.startsAt startsAt ∧ SameInstant m.endsAt endsAt)) := by
  simp only [attachEventMapping, Tx.ofResult_bind_eq_ok_iff, Tx.ensure_bind_eq_ok_iff, Tx.read_bind,
    validateNonEmpty_eq_ok_iff, validateSourceId_eq_ok_iff] at h
  obtain ⟨_, ⟨-, rfl⟩, _, ⟨-, rfl⟩, _, ⟨-, rfl⟩, _, -, hproposal, startsText, hstarts, endsText, hends, hinsert⟩ := h
  obtain ⟨t, hexec, rfl⟩ := Tx.run_zoom_eq_ok_iff.mp hinsert
  obtain ⟨p, hp⟩ := Option.isSome_iff_exists.mp hproposal
  refine ⟨⟨p, Table.byRowid_eq_some hp⟩, ?_⟩
  rcases IdempotentInsert.run_exec_eq_ok (fun _ => rfl) hexec with ⟨hfresh, rfl, hdecode⟩ | ⟨rfl, hrow, hall⟩
  · refine Or.inl ⟨_, rfl, hdecode, rfl, rfl, rfl, rfl, hstarts, hends, rfl, fun r hr => ?_⟩
    have hclash := hfresh r hr
    simp only [eventMappingInsert, Bool.or_eq_false_iff, Bool.and_eq_false_iff, beq_eq_false_iff_ne] at hclash
    exact ⟨hclash.1.1, fun hboth => hclash.1.2.elim (absurd hboth.1) (absurd hboth.2), hclash.2⟩
  · obtain ⟨r, hr, hclash, hdecode⟩ := hrow
    obtain ⟨b, hb, hsame⟩ := hall r hr hclash
    obtain rfl := Except.ok.inj (hdecode.symm.trans hb)
    exact Or.inr ⟨rfl, r, hr, hdecode, of_decide_eq_true hsame⟩

theorem deleteEventMappingById_run_eq_ok {id : ℤ} {db db' : Database} {u : Unit}
    (h : (deleteEventMappingById id).run db = .ok (u, db')) :
    (∃ r ∈ db.eventMappings, r.id = id) ∧ db' = db.deleteEventMappings fun m => m.id == id := by
  simp only [deleteEventMappingById, Tx.read_bind, Tx.ensure_bind_eq_ok_iff, Tx.run_write, Except.ok.injEq,
    Prod.mk.injEq, true_and] at h
  obtain ⟨hsome, rfl⟩ := h
  obtain ⟨r, hr⟩ := Option.isSome_iff_exists.mp hsome
  exact ⟨⟨r, Table.byRowid_eq_some hr⟩, rfl⟩

end AgentVoice.Store

import AgentVoice.Foundations.IdempotentInsert
import AgentVoice.Store.Columns
import AgentVoice.Store.Schema

/-!
# Proposals

`create_proposal`, `transition_proposal` and `delete_proposal_by_id`. A proposal is created pending for
an existing draft and moves once, to a terminal state. The key and the source of a new proposal are
stored as they were given; reading a row trims its key (`decodeProposalRow`).
-/

namespace AgentVoice.Store

open AgentVoice.Foundations AgentVoice.Domain

/-- `ProposalSource`. -/
inductive ProposalSource where
  | appointmentDraft (id : ℤ)
  | ownerTaskDraft (id : ℤ)
  deriving DecidableEq, Repr

namespace ProposalSource

def appointmentDraftId : ProposalSource → Option ℤ
  | .appointmentDraft id => some id
  | .ownerTaskDraft _ => none

def ownerTaskDraftId : ProposalSource → Option ℤ
  | .appointmentDraft _ => none
  | .ownerTaskDraft id => some id

/-- `ProposalSource::from_ids`. -/
def fromIds : Option ℤ → Option ℤ → StoreResult ProposalSource
  | some id, none => if 0 < id then .ok (.appointmentDraft id) else .error (.invalidInput "source")
  | none, some id => if 0 < id then .ok (.ownerTaskDraft id) else .error (.invalidInput "source")
  | _, _ => .error (.invalidInput "source")

/-- The row id of the draft. -/
def id : ProposalSource → ℤ
  | .appointmentDraft id => id
  | .ownerTaskDraft id => id

theorem fromIds_eq_ok_iff {a o : Option ℤ} {s : ProposalSource} :
    fromIds a o = .ok s ↔ a = s.appointmentDraftId ∧ o = s.ownerTaskDraftId ∧ 0 < s.id := by
  rcases a with _ | a <;> rcases o with _ | o <;> cases s <;>
    simp [fromIds, appointmentDraftId, ownerTaskDraftId, id] <;> split_ifs <;> grind

end ProposalSource

/-- `validate_proposal_source`. -/
def validateProposalSource (source : ProposalSource) : StoreResult Unit :=
  require (0 < source.id) (.invalidInput "source")

/-- `proposal_state_storage_name`. -/
def proposalStateStorageName : ProposalState → String
  | .pending => "pending"
  | .accepted => "accepted"
  | .declined => "declined"
  | .expired => "expired"

/-- `parse_proposal_state`. -/
def parseProposalState (value : String) : StoreResult ProposalState :=
  if value = "pending" then .ok .pending
  else if value = "accepted" then .ok .accepted
  else if value = "declined" then .ok .declined
  else if value = "expired" then .ok .expired
  else .error (storedRecordInvalid "proposal")

theorem parseProposalState_eq_ok_iff {value : String} {s : ProposalState} :
    parseProposalState value = .ok s ↔ value = proposalStateStorageName s := by
  unfold parseProposalState
  cases s <;> simp only [proposalStateStorageName] <;> split_ifs <;> simp_all

theorem proposalStateStorageName_inj {s t : ProposalState}
    (h : proposalStateStorageName s = proposalStateStorageName t) : s = t := by
  have hs := parseProposalState_eq_ok_iff.mpr (Eq.refl (proposalStateStorageName s))
  rw [h] at hs
  exact Except.ok.inj (hs.symm.trans (parseProposalState_eq_ok_iff.mpr rfl))

/-- `StoredProposal`. -/
structure StoredProposal where
  id : ℤ
  idempotencyKey : String
  sourceId : String
  source : ProposalSource
  state : ProposalState
  createdAt : String
  updatedAt : String
  deriving DecidableEq, Repr

/-- Two stored proposals are the same but for their state and their times. -/
structure StoredProposal.SameRequest (p p' : StoredProposal) : Prop where
  id : p'.id = p.id
  idempotencyKey : p'.idempotencyKey = p.idempotencyKey
  sourceId : p'.sourceId = p.sourceId
  source : p'.source = p.source

theorem StoredProposal.SameRequest.refl (p : StoredProposal) : p.SameRequest p := ⟨rfl, rfl, rfl, rfl⟩

/-- `decode_proposal_row`. -/
def decodeProposalRow (row : ProposalStoredRow) : StoreResult StoredProposal := do
  require (0 < row.id) (storedRecordInvalid "proposal")
  let idempotencyKey ← replaceError (IdempotencyKey.new row.idempotencyKey) (storedRecordInvalid "proposal")
  let sourceId ← replaceError (validateSourceId row.sourceId) (storedRecordInvalid "proposal")
  let source ←
    replaceError (ProposalSource.fromIds row.appointmentDraftId row.ownerTaskDraftId) (storedRecordInvalid "proposal")
  let state ← parseProposalState row.state
  let createdAt ← validateStoredTimestamp row.createdAt "proposal"
  let updatedAt ← validateStoredTimestamp row.updatedAt "proposal"
  return ⟨row.id, idempotencyKey.text, sourceId, source, state, createdAt, updatedAt⟩

/-- `SELECT … FROM proposals WHERE id = ?1`, read and decoded. -/
def loadProposalById (id : ℤ) : Tx StoreError Database StoredProposal := do
  let row ← Tx.read fun db => Table.byRowid id db.proposals
  let row ← Tx.ofResult (okOr row (.notFound "proposal"))
  Tx.ofResult (decodeProposalRow row)

/-- `load_proposal_by_idempotency_key`. -/
def loadProposalByIdempotencyKey (idempotencyKey : String) : Tx StoreError Database StoredProposal := do
  let idempotencyKey ← Tx.ofResult (validateNonEmpty idempotencyKey "idempotency_key")
  let row ← Tx.read fun db => Table.byKey ProposalStoredRow.idempotencyKey idempotencyKey db.proposals
  let row ← Tx.ofResult (okOr row (.notFound "proposal"))
  Tx.ofResult (decodeProposalRow row)

/-! ### Creating -/

/-- `ensure_proposal_source_exists`. -/
def ensureProposalSourceExists : ProposalSource → Tx StoreError Database Unit
  | .appointmentDraft id => do
    let row ← Tx.read fun db => Table.byRowid id db.appointmentDrafts
    Tx.ensure (row.isSome = true) (.notFound "appointment draft")
  | .ownerTaskDraft id => do
    let row ← Tx.read fun db => Table.byRowid id db.ownerTaskDrafts
    Tx.ensure (row.isSome = true) (.notFound "owner task draft")

/-- The insert of `create_proposal_in_transaction`. -/
def proposalInsert (idempotencyKey sourceId : String) (source : ProposalSource) (now : SystemTime) :
    IdempotentInsert StoreError ProposalStoredRow StoredProposal where
  clashes r := r.idempotencyKey == idempotencyKey || r.sourceId == sourceId
  row id :=
    { id, idempotencyKey, sourceId
      appointmentDraftId := source.appointmentDraftId
      ownerTaskDraftId := source.ownerTaskDraftId
      state := "pending"
      createdAt := currentTimestamp now
      updatedAt := currentTimestamp now }
  decode := decodeProposalRow
  same stored :=
    decide (stored.idempotencyKey = idempotencyKey ∧ stored.sourceId = sourceId ∧ stored.source = source)
  conflict := .conflict "proposal"
  unreadable := storedRecordInvalid "proposal"
  single := false

/-- A transaction on the table of proposals. -/
def onProposals {α : Type} (t : Tx StoreError (List ProposalStoredRow) α) : Tx StoreError Database α :=
  Tx.zoom Database.proposals (fun t db => { db with proposals := t }) t

/-- `create_proposal_in_transaction`. -/
def createProposalInTransaction (idempotencyKey sourceId : String) (source : ProposalSource) (now : SystemTime) :
    Tx StoreError Database StoredProposal := do
  ensureProposalSourceExists source
  onProposals (proposalInsert idempotencyKey sourceId source now).exec

/-- `PaStore::create_proposal`. -/
def createProposal (idempotencyKey sourceId : String) (source : ProposalSource) (now : SystemTime) :
    Tx StoreError Database StoredProposal := do
  let idempotencyKey ← Tx.ofResult (validateNonEmpty idempotencyKey "idempotency_key")
  let sourceId ← Tx.ofResult (validateSourceId sourceId)
  Tx.ofResult (validateProposalSource source)
  createProposalInTransaction idempotencyKey sourceId source now

/-! ### Moving and deleting -/

/-- The row a transition leaves. -/
def ProposalStoredRow.transition (next : ProposalState) (now : SystemTime) (row : ProposalStoredRow) :
    ProposalStoredRow :=
  { row with state := proposalStateStorageName next, updatedAt := currentTimestamp now }

/-- `PaStore::transition_proposal`. -/
def transitionProposal (id : ℤ) (nextState : ProposalState) (now : SystemTime) :
    Tx StoreError Database StoredProposal := do
  let current ← loadProposalById id
  if current.state = nextState ∧ current.state.isTerminal = true then return current
  else do
    Tx.ensure (current.state.canTransitionTo nextState = true) (.conflict "proposal transition")
    let pending := fun (r : ProposalStoredRow) => r.id == id && r.state == "pending"
    let updated ← Tx.read fun db => db.proposals.countP pending
    Tx.write fun db =>
      { db with proposals := Table.updateWhere pending (ProposalStoredRow.transition nextState now) db.proposals }
    Tx.ensure (updated = 1) (.conflict "proposal transition")
    let row ← Tx.read fun db => Table.byRowid id db.proposals
    let row ← Tx.ofResult (okOr row (storedRecordInvalid "proposal"))
    Tx.ofResult (decodeProposalRow row)

/-- `PaStore::delete_proposal_by_id`. -/
def deleteProposalById (id : ℤ) : Tx StoreError Database Unit := do
  let row ← Tx.read fun db => Table.byRowid id db.proposals
  Tx.ensure (row.isSome = true) (.notFound "proposal")
  let restricted ← Tx.read (Database.proposalRestricted id)
  Tx.ensure (restricted = false) .sqlite
  Tx.write (Database.deleteProposal id)

/-! ### What the operations do -/

/-- What a row that decodes holds. -/
theorem decodeProposalRow_eq_ok {row : ProposalStoredRow} {p : StoredProposal} (h : decodeProposalRow row = .ok p) :
    0 < row.id ∧ p.id = row.id ∧ p.idempotencyKey = trim row.idempotencyKey ∧ p.sourceId = row.sourceId ∧
      row.appointmentDraftId = p.source.appointmentDraftId ∧ row.ownerTaskDraftId = p.source.ownerTaskDraftId ∧
      row.state = proposalStateStorageName p.state := by
  obtain ⟨u, hid, h⟩ := bind_eq_ok_iff.mp h
  obtain ⟨key, hkey, h⟩ := bind_eq_ok_iff.mp h
  obtain ⟨sourceId, hsourceId, h⟩ := bind_eq_ok_iff.mp h
  obtain ⟨source, hsource, h⟩ := bind_eq_ok_iff.mp h
  obtain ⟨state, hstate, h⟩ := bind_eq_ok_iff.mp h
  obtain ⟨createdAt, -, h⟩ := bind_eq_ok_iff.mp h
  obtain ⟨updatedAt, -, h⟩ := bind_eq_ok_iff.mp h
  obtain rfl := Except.ok.inj h
  rw [require_eq_ok_iff] at hid
  rw [replaceError_eq_ok_iff, IdempotencyKey.new_eq_ok_iff] at hkey
  rw [replaceError_eq_ok_iff, validateSourceId_eq_ok_iff] at hsourceId
  rw [replaceError_eq_ok_iff, ProposalSource.fromIds_eq_ok_iff] at hsource
  exact ⟨hid, rfl, hkey.2, hsourceId.2.symm, hsource.1, hsource.2.1, parseProposalState_eq_ok_iff.mp hstate⟩

/-- Rows that agree but for their state and their times decode to the same request. -/
theorem decodeProposalRow_sameRequest {r r' : ProposalStoredRow} {p p' : StoredProposal}
    (h : decodeProposalRow r = .ok p) (h' : decodeProposalRow r' = .ok p') (hid : r'.id = r.id)
    (hkey : r'.idempotencyKey = r.idempotencyKey) (hsource : r'.sourceId = r.sourceId)
    (happointment : r'.appointmentDraftId = r.appointmentDraftId) (howner : r'.ownerTaskDraftId = r.ownerTaskDraftId) :
    p.SameRequest p' := by
  obtain ⟨-, hpid, hpkey, hpsource, ha, ho, -⟩ := decodeProposalRow_eq_ok h
  obtain ⟨-, hpid', hpkey', hpsource', ha', ho', -⟩ := decodeProposalRow_eq_ok h'
  refine ⟨by rw [hpid, hpid', hid], by rw [hpkey, hpkey', hkey], by rw [hpsource, hpsource', hsource], ?_⟩
  have hdraft : p'.source.appointmentDraftId = p.source.appointmentDraftId := by rw [← ha, ← ha', happointment]
  have howned : p'.source.ownerTaskDraftId = p.source.ownerTaskDraftId := by rw [← ho, ← ho', howner]
  cases hs : p.source <;> cases hs' : p'.source <;>
    simp_all [ProposalSource.appointmentDraftId, ProposalSource.ownerTaskDraftId]

theorem loadProposalById_run_eq_ok_iff {id : ℤ} {db db' : Database} {p : StoredProposal} :
    (loadProposalById id).run db = .ok (p, db') ↔
      db' = db ∧ ∃ row, Table.byRowid id db.proposals = some row ∧ decodeProposalRow row = .ok p := by
  simp only [loadProposalById, Tx.read_bind, Tx.ofResult_bind_eq_ok_iff, okOr_eq_ok_iff,
    Tx.run_ofResult_eq_ok_iff]
  tauto

theorem ensureProposalSourceExists_run_eq_ok {source : ProposalSource} {db db' : Database} {u : Unit}
    (h : (ensureProposalSourceExists source).run db = .ok (u, db')) :
    db' = db ∧ (∀ id, source = .appointmentDraft id → (Table.byRowid id db.appointmentDrafts).isSome = true) ∧
      ∀ id, source = .ownerTaskDraft id → (Table.byRowid id db.ownerTaskDrafts).isSome = true := by
  cases source with
  | appointmentDraft id =>
    simp only [ensureProposalSourceExists, Tx.read_bind, Tx.run_ensure_eq_ok_iff] at h
    refine ⟨h.2, ?_, ?_⟩
    · rintro _ ⟨⟩
      exact h.1
    · rintro _ ⟨⟩
  | ownerTaskDraft id =>
    simp only [ensureProposalSourceExists, Tx.read_bind, Tx.run_ensure_eq_ok_iff] at h
    refine ⟨h.2, ?_, ?_⟩
    · rintro _ ⟨⟩
    · rintro _ ⟨⟩
      exact h.1

/-- **Creating a proposal** adds a pending row for an existing draft, under a key and a source no row has,
or finds the row that holds exactly that proposal. -/
theorem createProposalInTransaction_run_eq_ok {key sourceId : String} {source : ProposalSource} {now : SystemTime}
    {db db' : Database} {p : StoredProposal}
    (h : (createProposalInTransaction key sourceId source now).run db = .ok (p, db')) :
    (ensureProposalSourceExists source).run db = .ok ((), db) ∧
      (((∀ r ∈ db.proposals, r.idempotencyKey ≠ key ∧ r.sourceId ≠ sourceId) ∧
          db' = { db with
            proposals := db.proposals ++ [(proposalInsert key sourceId source now).row (Table.nextRowid db.proposals)] } ∧
          decodeProposalRow ((proposalInsert key sourceId source now).row (Table.nextRowid db.proposals)) = .ok p) ∨
        (db' = db ∧ ∃ r ∈ db.proposals, decodeProposalRow r = .ok p ∧ p.idempotencyKey = key ∧
          p.sourceId = sourceId ∧ p.source = source)) := by
  obtain ⟨u, db₁, hexists, hinsert⟩ := Tx.run_bind_eq_ok_iff.mp h
  obtain ⟨rfl, -⟩ := ensureProposalSourceExists_run_eq_ok hexists
  obtain ⟨t, hexec, rfl⟩ := Tx.run_zoom_eq_ok_iff.mp hinsert
  refine ⟨hexists, ?_⟩
  rcases IdempotentInsert.run_exec_eq_ok (fun _ => rfl) hexec with ⟨hfresh, rfl, hdecode⟩ | ⟨rfl, hrow, hall⟩
  · refine Or.inl ⟨fun r hr => ?_, rfl, hdecode⟩
    simpa [proposalInsert] using hfresh r hr
  · obtain ⟨r, hr, hclash, hdecode⟩ := hrow
    obtain ⟨b, hb, hsame⟩ := hall r hr hclash
    obtain rfl := Except.ok.inj (hdecode.symm.trans hb)
    exact Or.inr ⟨rfl, r, hr, hdecode, of_decide_eq_true hsame⟩

/-- **Moving a proposal** returns the terminal row that is already there, or takes a pending row to a
terminal state. -/
theorem transitionProposal_run_eq_ok {id : ℤ} {next : ProposalState} {now : SystemTime} {db db' : Database}
    {p : StoredProposal} (h : (transitionProposal id next now).run db = .ok (p, db')) :
    db' = db ∨ next.isTerminal = true ∧
      (∃ r, Table.byRowid id db.proposals = some r ∧ r.state = "pending" ∧
        decodeProposalRow (r.transition next now) = .ok p) ∧
      db' = { db with
        proposals := Table.updateWhere (fun r => r.id == id && r.state == "pending")
          (ProposalStoredRow.transition next now) db.proposals } := by
  obtain ⟨current, db₁, hload, hmove⟩ := Tx.run_bind_eq_ok_iff.mp h
  obtain ⟨rfl, row, hrow, hdecode⟩ := loadProposalById_run_eq_ok_iff.mp hload
  by_cases hdone : current.state = next ∧ current.state.isTerminal = true
  · rw [if_pos hdone] at hmove
    cases hmove
    exact Or.inl rfl
  · rw [if_neg hdone] at hmove
    simp only [Tx.ensure_bind_eq_ok_iff, Tx.read_bind, Tx.write_bind, Tx.ofResult_bind_eq_ok_iff,
      Tx.run_ofResult_eq_ok_iff, okOr_eq_ok_iff] at hmove
    obtain ⟨hcan, -, r', hr', hdecode', rfl⟩ := hmove
    obtain ⟨hpending, hterminal⟩ := ProposalState.canTransitionTo_iff.mp hcan
    obtain ⟨hmem, hid⟩ := Table.byRowid_eq_some hrow
    obtain ⟨-, -, -, -, -, -, hstate⟩ := decodeProposalRow_eq_ok hdecode
    have hrowpending : row.state = "pending" := by
      rw [hstate, hpending]
      rfl
    have hhere : (row.id == id && row.state == "pending") = true := by
      rw [hrowpending, show row.id = id from hid]
      simp
    have hfound := Table.byRowid_updateWhere (p := fun r => r.id == id && r.state == "pending")
      (f := ProposalStoredRow.transition next now) (fun _ => rfl) hrow hhere
    obtain rfl := Option.some.inj (hr'.symm.trans hfound)
    exact Or.inr ⟨hterminal, ⟨row, hrow, hrowpending, hdecode'⟩, rfl⟩

theorem deleteProposalById_run_eq_ok {id : ℤ} {db db' : Database} {u : Unit}
    (h : (deleteProposalById id).run db = .ok (u, db')) :
    (∃ r ∈ db.proposals, r.id = id) ∧ db.proposalRestricted id = false ∧ db' = db.deleteProposal id := by
  simp only [deleteProposalById, Tx.read_bind, Tx.ensure_bind_eq_ok_iff, Tx.run_write, Except.ok.injEq,
    Prod.mk.injEq, true_and] at h
  obtain ⟨hsome, hfree, rfl⟩ := h
  obtain ⟨r, hr⟩ := Option.isSome_iff_exists.mp hsome
  exact ⟨⟨r, Table.byRowid_eq_some hr⟩, hfree, rfl⟩

end AgentVoice.Store

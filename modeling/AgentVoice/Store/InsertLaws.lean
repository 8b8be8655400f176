import AgentVoice.Store.InsertedRows

/-!
# The law of the idempotent inserts

Recording a message, saving drafts and placements, creating a proposal, attaching an event mapping and appending an
audit event may all be repeated. `InsertLaws` states for each of them what `IdempotentInsert.Law` says: a call adds
a row that holds what it was to insert and shares no identity with the table, or returns the one row that holds it, or
fails and changes nothing; a call that is accepted gets the row that has its identities and its content back; and one
that is accepted and reuses an identity with other content always gets the conflict.
-/

namespace AgentVoice.Store

open AgentVoice.Foundations AgentVoice.Foundations.IdempotentInsert AgentVoice.Domain

variable {env : Environment} {db : Database}

/-! ### Messages -/

namespace MessageRequest

/-- Whether a row shares an identity with a request. -/
def Shares (r : MessageRequest) (row : MessageStoredRow) : Prop :=
  row.idempotencyKey = r.idempotencyKey ∨ row.sourceId = r.sourceId ∨
    (row.provider = r.provider.asStr ∧ row.providerMessageId = r.providerMessageId)

/-- Whether a row has all identities of a request. -/
def Owns (r : MessageRequest) (row : MessageStoredRow) : Prop :=
  row.idempotencyKey = r.idempotencyKey ∧ row.sourceId = r.sourceId ∧ row.provider = r.provider.asStr ∧
    row.providerMessageId = r.providerMessageId

/-- Whether a stored message is the one a request asks for. -/
def IsContentOf (r : MessageRequest) (m : StoredMessage) : Prop :=
  m.idempotencyKey = r.idempotencyKey ∧ m.sourceId = r.sourceId ∧ m.provider = r.provider ∧
    m.providerMessageId = r.providerMessageId ∧ m.summary = r.summary ∧ m.subject = r.subject ∧
    m.sender = r.sender ∧ m.receivedAt = r.receivedAt

/-- What the messages are to a request. -/
def reading (r : MessageRequest) : Reading MessageStoredRow StoredMessage where
  owns := r.Owns
  shares := r.Shares
  reads row m := decodeMessageRow row = .ok m
  stored := r.IsContentOf
  same := r.IsContentOf

end MessageRequest

/-- A message that has the identities of a request is the only one that shares any of them. -/
theorem Consistent.message_alone (hc : Consistent env db) {r : MessageRequest} {row : MessageStoredRow}
    (hrow : row ∈ db.messages) (howns : r.Owns row) : ∀ row' ∈ db.messages, r.Shares row' ↔ row' = row := by
  obtain ⟨hkey, hsource, hprovider, hmessage⟩ := howns
  intro row' hrow'
  constructor
  · intro hshares
    refine hc.messages.eq (fun _ _ => MessageStoredRow.Clash.symm) hrow' hrow ?_
    rcases hshares with hkey' | hsource' | ⟨hprovider', hmessage'⟩
    · exact Or.inr (Or.inl (hkey'.trans hkey.symm))
    · exact Or.inr (Or.inr (Or.inl (hsource'.trans hsource.symm)))
    · exact Or.inr (Or.inr (Or.inr ⟨hprovider'.trans hprovider.symm, hmessage'.trans hmessage.symm⟩))
  · rintro rfl
    exact Or.inl hkey

/-- The checks of `record_message` accept exactly these arguments; what is left is the insert. -/
theorem recordMessage_run_of_accepted {r : MessageRequest} (h : r.Accepted) (clock : SystemTime) (db : Database) :
    ∃ text, formatMessageTimestamp r.receivedAt = .ok (r.receivedAt, text) ∧
      (recordMessage r clock).run db = (onMessages (r.insert r.receivedAt text clock).exec).run db := by
  obtain ⟨_, hsubject⟩ := h.subject
  obtain ⟨_, hsender⟩ := h.sender
  obtain ⟨⟨receivedAt, text⟩, hformat⟩ := h.receivedAt
  obtain rfl := formatMessageTimestamp_eq_ok hformat
  refine ⟨text, hformat, ?_⟩
  rw [recordMessage, Tx.ofResult_bind_of_ok (validateMachineIdentifier_eq_ok_iff.mpr ⟨h.idempotencyKey, rfl⟩),
    Tx.ofResult_bind_of_ok (validateMachineIdentifier_eq_ok_iff.mpr ⟨h.sourceId, rfl⟩),
    Tx.ofResult_bind_of_ok (validateMachineIdentifier_eq_ok_iff.mpr ⟨h.providerMessageId, rfl⟩),
    Tx.ofResult_bind_of_ok hsubject, Tx.ofResult_bind_of_ok hsender, Tx.ofResult_bind_of_ok hformat]

theorem recordMessage_accepted {r : MessageRequest} {clock : SystemTime} {db db' : Database} {m : StoredMessage}
    (h : (recordMessage r clock).run db = .ok (m, db')) : r.Accepted := by
  simp only [recordMessage, Tx.ofResult_bind_eq_ok_iff, validateMachineIdentifier_eq_ok_iff] at h
  obtain ⟨_, ⟨hkey, -⟩, _, ⟨hsource, -⟩, _, ⟨hmessage, -⟩, subject, hsubject, sender, hsender, receivedAt, hformat, -⟩ := h
  exact ⟨hkey, hsource, hmessage, ⟨subject, hsubject⟩, ⟨sender, hsender⟩, ⟨receivedAt, hformat⟩⟩

/-- Two rows that hold what a request records are one: they have its source. -/
theorem Consistent.message_one (hc : Consistent env db) {r : MessageRequest} {row row' : MessageStoredRow}
    (hrow : row ∈ db.messages) (hrow' : row' ∈ db.messages) {m m' : StoredMessage} (hm : decodeMessageRow row = .ok m)
    (hm' : decodeMessageRow row' = .ok m') (hsame : r.IsContentOf m) (hsame' : r.IsContentOf m') : row = row' := by
  refine hc.message_source.eq hrow hrow' ?_
  rw [← (decodeMessageRow_eq_ok hm).sourceId, ← (decodeMessageRow_eq_ok hm').sourceId, hsame.2.1, hsame'.2.1]

theorem Consistent.message_ready (hc : Consistent env db) {r : MessageRequest} (haccepted : r.Accepted) {text : String}
    (hformat : formatMessageTimestamp r.receivedAt = .ok (r.receivedAt, text)) (clock : SystemTime) :
    Ready (r.insert r.receivedAt text clock) r.reading db.messages :=
  { clashes := fun row => by simp [MessageRequest.insert, MessageRequest.reading, MessageRequest.Shares, or_assoc]
    decode := fun _ _ => Iff.rfl
    same := fun _ => decide_eq_true_iff
    readable := hc.messages.readable
    unique := hc.message_id
    one := fun _ hrow _ hrow' _ _ _ _ hm hm' hsame hsame' => hc.message_one hrow hrow' hm hm' hsame hsame'
    alone := fun _ hrow howns => hc.message_alone hrow howns
    rowid := fun _ => rfl
    owned := fun _ => ⟨rfl, rfl, rfl, rfl⟩
    written := fun m hm => by
      have hdecode := decodeMessageRow_insert haccepted hformat clock (Table.nextRowid_pos db.messages)
      obtain rfl := Except.ok.inj (hdecode.symm.trans hm)
      exact ⟨rfl, rfl, rfl, rfl, rfl, rfl, rfl, rfl⟩ }

theorem law_recordMessage (hc : Consistent env db) (r : MessageRequest) (clock : SystemTime) :
    Law (recordMessage r clock) Database.messages (fun t db => { db with messages := t }) r.reading
      (.conflict "message") r.Accepted db := by
  have hbody : ∀ text, r.Accepted → formatMessageTimestamp r.receivedAt = .ok (r.receivedAt, text) →
      Law (r.insert r.receivedAt text clock).exec (fun t => t) (fun t _ => t) r.reading (.conflict "message") True
        db.messages :=
    fun text haccepted hformat => law_exec (hc.message_ready haccepted hformat clock)
  refine Law.lift rfl (fun m db' h => ?_) fun h => ?_
  · have haccepted := recordMessage_accepted h
    obtain ⟨text, hformat, hrun⟩ := recordMessage_run_of_accepted haccepted clock db
    exact ⟨_, hbody text haccepted hformat, hrun.symm.trans h⟩
  · obtain ⟨text, hformat, hrun⟩ := recordMessage_run_of_accepted h clock db
    exact ⟨_, hbody text h hformat, hrun⟩

/-! ### Appointment drafts -/

/-- The arguments `save_appointment_draft` accepts. -/
structure DraftAccepted (sourceId : String) (draft : AppointmentDraft) : Prop where
  sourceId : ∃ text, validateSourceId sourceId = .ok text
  startsAt : ∃ text, formatOffsetDatetime draft.startsAt = .ok text
  endsAt : ∃ text, formatOffsetDatetime draft.endsAt = .ok text

/-- Whether a row shares an identity with a draft. -/
def AppointmentStoredRow.Shares (sourceId : String) (draft : AppointmentDraft) (r : AppointmentStoredRow) : Prop :=
  r.idempotencyKey = draft.idempotencyKey.text ∨ r.sourceId = sourceId ∨ r.quoteId = draft.quoteId.text

/-- Whether a row has all identities of a draft. -/
def AppointmentStoredRow.Owns (sourceId : String) (draft : AppointmentDraft) (r : AppointmentStoredRow) : Prop :=
  r.idempotencyKey = draft.idempotencyKey.text ∧ r.sourceId = sourceId ∧ r.quoteId = draft.quoteId.text

/-- What the drafts are to a call. -/
def appointmentDraftReading (sourceId : String) (draft : AppointmentDraft) :
    Reading AppointmentStoredRow StoredAppointmentDraft where
  owns := AppointmentStoredRow.Owns sourceId draft
  shares := AppointmentStoredRow.Shares sourceId draft
  reads row d := decodeAppointmentRow row = .ok d
  stored d := d.sourceId = sourceId ∧ d.draft.Same draft
  same d := d.sourceId = sourceId ∧ d.draft.Same draft

theorem Consistent.draft_source (h : Consistent env db) :
    Table.Unique AppointmentStoredRow.sourceId db.appointmentDrafts :=
  h.appointmentDrafts.unique fun _ _ heq => Or.inr (Or.inr (Or.inl heq))

/-- A draft that has the identities of a call is the only one that shares any of them. -/
theorem Consistent.draft_alone (hc : Consistent env db) {sourceId : String} {draft : AppointmentDraft}
    {r : AppointmentStoredRow} (hr : r ∈ db.appointmentDrafts) (howns : r.Owns sourceId draft) :
    ∀ r' ∈ db.appointmentDrafts, r'.Shares sourceId draft ↔ r' = r := by
  obtain ⟨hkey, hsource, hquote⟩ := howns
  intro r' hr'
  constructor
  · intro hshares
    refine hc.appointmentDrafts.eq (fun _ _ => AppointmentStoredRow.Clash.symm) hr' hr ?_
    rcases hshares with hkey' | hsource' | hquote'
    · exact Or.inr (Or.inl (hkey'.trans hkey.symm))
    · exact Or.inr (Or.inr (Or.inl (hsource'.trans hsource.symm)))
    · exact Or.inr (Or.inr (Or.inr (hquote'.trans hquote.symm)))
  · rintro rfl
    exact Or.inl hkey

/-- Two rows that hold a draft are one: they have its source. -/
theorem Consistent.draft_one (hc : Consistent env db) {sourceId : String} {r r' : AppointmentStoredRow}
    (hr : r ∈ db.appointmentDrafts) (hr' : r' ∈ db.appointmentDrafts) {d d' : StoredAppointmentDraft}
    (hd : decodeAppointmentRow r = .ok d) (hd' : decodeAppointmentRow r' = .ok d') (hsame : d.sourceId = sourceId)
    (hsame' : d'.sourceId = sourceId) : r = r' := by
  refine hc.draft_source.eq hr hr' ?_
  obtain ⟨-, -, hsource, -⟩ := decodeAppointmentRow_eq_ok hd
  obtain ⟨-, -, hsource', -⟩ := decodeAppointmentRow_eq_ok hd'
  rw [← hsource, ← hsource', hsame, hsame']

theorem Consistent.draft_ready (hc : Consistent env db) {sourceId : String} {draft : AppointmentDraft}
    {startsAt endsAt : String}
    (hdecode : decodeAppointmentRow
        ((appointmentDraftInsert sourceId draft startsAt endsAt).row (Table.nextRowid db.appointmentDrafts)) =
      .ok ⟨Table.nextRowid db.appointmentDrafts, sourceId, draft⟩) :
    Ready (appointmentDraftInsert sourceId draft startsAt endsAt) (appointmentDraftReading sourceId draft)
      db.appointmentDrafts :=
  { clashes := fun row => by
      simp [appointmentDraftInsert, appointmentDraftReading, AppointmentStoredRow.Shares, or_assoc]
    decode := fun _ _ => Iff.rfl
    same := fun _ => decide_eq_true_iff
    readable := hc.appointmentDrafts.readable
    unique := hc.draft_id
    one := fun _ hr _ hr' _ _ _ _ hd hd' hsame hsame' => hc.draft_one hr hr' hd hd' hsame.1 hsame'.1
    alone := fun _ hr howns => hc.draft_alone hr howns
    rowid := fun _ => rfl
    owned := fun _ => ⟨rfl, rfl, rfl⟩
    written := fun d hd => by
      obtain rfl := Except.ok.inj (hdecode.symm.trans hd)
      exact ⟨rfl, AppointmentDraft.Same.refl draft⟩ }

theorem law_saveAppointmentDraft (hc : Consistent env db) (sourceId : String) (draft : AppointmentDraft) :
    Law (saveAppointmentDraft sourceId draft) Database.appointmentDrafts
      (fun t db => { db with appointmentDrafts := t }) (appointmentDraftReading sourceId draft)
      (.conflict "appointment draft") (DraftAccepted sourceId draft) db := by
  have hbody : ∀ text startsAt endsAt, validateSourceId sourceId = .ok text →
      formatOffsetDatetime draft.startsAt = .ok startsAt → formatOffsetDatetime draft.endsAt = .ok endsAt →
      Law ((appointmentDraftInsert sourceId draft startsAt endsAt).execReturning fun id => ⟨id, sourceId, draft⟩)
        (fun t => t) (fun t _ => t) (appointmentDraftReading sourceId draft) (.conflict "appointment draft") True
        db.appointmentDrafts := by
    intro text startsAt endsAt hsource hstarts hends
    have hdecode := decodeAppointmentRow_row hsource (formatOffsetDatetime_eq_ok_iff.mp hstarts)
      (formatOffsetDatetime_eq_ok_iff.mp hends) (Table.nextRowid_pos db.appointmentDrafts)
    exact law_execReturning (fun id => (⟨id, sourceId, draft⟩ : StoredAppointmentDraft)) (hc.draft_ready hdecode)
      hdecode
  refine Law.lift rfl (fun d db' h => ?_) fun haccepted => ?_
  · simp only [saveAppointmentDraft, saveAppointmentDraftInTransaction, Tx.ofResult_bind_eq_ok_iff] at h
    obtain ⟨text, hsource, startsAt, hstarts, endsAt, hends, hinsert⟩ := h
    obtain ⟨-, rfl⟩ := validateSourceId_eq_ok_iff.mp hsource
    exact ⟨_, hbody _ startsAt endsAt hsource hstarts hends, hinsert⟩
  · obtain ⟨⟨text, hsource⟩, ⟨startsAt, hstarts⟩, ⟨endsAt, hends⟩⟩ := haccepted
    obtain ⟨-, rfl⟩ := validateSourceId_eq_ok_iff.mp hsource
    refine ⟨_, hbody _ startsAt endsAt hsource hstarts hends, ?_⟩
    rw [saveAppointmentDraft, Tx.ofResult_bind_of_ok hsource, saveAppointmentDraftInTransaction,
      Tx.ofResult_bind_of_ok hstarts, Tx.ofResult_bind_of_ok hends]
    rfl

/-! ### Proposals -/

/-- The arguments `create_proposal` accepts, for a draft that exists. -/
structure ProposalAccepted (key sourceId : String) (source : ProposalSource) (db : Database) : Prop where
  key : ∃ text, validateNonEmpty key "idempotency_key" = .ok text
  sourceId : ∃ text, validateSourceId sourceId = .ok text
  valid : ∃ u, validateProposalSource source = .ok u
  draft_exists : (ensureProposalSourceExists source).run db = .ok ((), db)

/-- Whether a row shares an identity with a proposal. -/
def ProposalStoredRow.Shares (key sourceId : String) (r : ProposalStoredRow) : Prop :=
  r.idempotencyKey = key ∨ r.sourceId = sourceId

/-- Whether a stored proposal is the one to be created. -/
def StoredProposal.IsFor (key sourceId : String) (source : ProposalSource) (p : StoredProposal) : Prop :=
  p.idempotencyKey = key ∧ p.sourceId = sourceId ∧ p.source = source

/-- Whether a row has both identities of a proposal. -/
def ProposalStoredRow.Owns (key sourceId : String) (r : ProposalStoredRow) : Prop :=
  r.idempotencyKey = key ∧ r.sourceId = sourceId

/-- What the proposals are to a call. The key of a new one is read back trimmed. -/
def proposalReading (key sourceId : String) (source : ProposalSource) : Reading ProposalStoredRow StoredProposal where
  owns := ProposalStoredRow.Owns key sourceId
  shares := ProposalStoredRow.Shares key sourceId
  reads row p := decodeProposalRow row = .ok p
  stored := StoredProposal.IsFor (trim key) sourceId source
  same := StoredProposal.IsFor key sourceId source

theorem Consistent.proposal_source (h : Consistent env db) : Table.Unique ProposalStoredRow.sourceId db.proposals :=
  h.proposals.unique fun _ _ heq => Or.inr (Or.inr heq)

/-- A proposal that has the identities of a call is the only one that shares any of them. -/
theorem Consistent.proposal_alone (hc : Consistent env db) {key sourceId : String} {r : ProposalStoredRow}
    (hr : r ∈ db.proposals) (howns : r.Owns key sourceId) : ∀ r' ∈ db.proposals, r'.Shares key sourceId ↔ r' = r := by
  obtain ⟨hkey, hsource⟩ := howns
  intro r' hr'
  constructor
  · intro hshares
    refine hc.proposals.eq (fun _ _ => ProposalStoredRow.Clash.symm) hr' hr ?_
    rcases hshares with hkey' | hsource'
    · exact Or.inr (Or.inl (hkey'.trans hkey.symm))
    · exact Or.inr (Or.inr (hsource'.trans hsource.symm))
  · rintro rfl
    exact Or.inl hkey

/-- A row that was made for a source holds that source. -/
theorem isFor_of_decode_row {key sourceId : String} {source : ProposalSource} {clock : SystemTime} {id : ℤ}
    {p : StoredProposal} (h : decodeProposalRow ((proposalInsert key sourceId source clock).row id) = .ok p) :
    p.IsFor (trim key) sourceId source := by
  obtain ⟨-, -, hkey, hsourceId, happointment, howner, -⟩ := decodeProposalRow_eq_ok h
  refine ⟨hkey, hsourceId, ?_⟩
  cases source with
  | appointmentDraft n =>
    cases hsource : p.source with
    | appointmentDraft m =>
      rw [hsource] at happointment
      exact congrArg ProposalSource.appointmentDraft (Option.some.inj happointment).symm
    | ownerTaskDraft m =>
      rw [hsource] at happointment
      cases happointment
  | ownerTaskDraft n =>
    cases hsource : p.source with
    | appointmentDraft m =>
      rw [hsource] at howner
      cases howner
    | ownerTaskDraft m =>
      rw [hsource] at howner
      exact congrArg ProposalSource.ownerTaskDraft (Option.some.inj howner).symm

/-- Two rows that hold a proposal are one: they have its source. -/
theorem Consistent.proposal_one (hc : Consistent env db) {key sourceId : String} {source : ProposalSource}
    {r r' : ProposalStoredRow} (hr : r ∈ db.proposals) (hr' : r' ∈ db.proposals) {p p' : StoredProposal}
    (hp : decodeProposalRow r = .ok p) (hp' : decodeProposalRow r' = .ok p') (hsame : p.IsFor key sourceId source)
    (hsame' : p'.IsFor key sourceId source) : r = r' := by
  refine hc.proposal_source.eq hr hr' ?_
  obtain ⟨-, -, -, hsource, -⟩ := decodeProposalRow_eq_ok hp
  obtain ⟨-, -, -, hsource', -⟩ := decodeProposalRow_eq_ok hp'
  rw [← hsource, ← hsource', hsame.2.1, hsame'.2.1]

theorem Consistent.proposal_ready (hc : Consistent env db) (key sourceId : String) (source : ProposalSource)
    (clock : SystemTime) :
    Ready (proposalInsert key sourceId source clock) (proposalReading key sourceId source) db.proposals :=
  { clashes := fun row => by simp [proposalInsert, proposalReading, ProposalStoredRow.Shares]
    decode := fun _ _ => Iff.rfl
    same := fun _ => decide_eq_true_iff
    readable := hc.proposals.readable
    unique := hc.proposal_id
    one := fun _ hr _ hr' _ _ _ _ hp hp' hsame hsame' => hc.proposal_one hr hr' hp hp' hsame hsame'
    alone := fun _ hr howns => hc.proposal_alone hr howns
    rowid := fun _ => rfl
    owned := fun _ => ⟨rfl, rfl⟩
    written := fun _ hp => isFor_of_decode_row hp }

theorem law_createProposal (hc : Consistent env db) (key sourceId : String) (source : ProposalSource)
    (clock : SystemTime) :
    Law (createProposal key sourceId source clock) Database.proposals (fun t db => { db with proposals := t })
      (proposalReading key sourceId source) (.conflict "proposal") (ProposalAccepted key sourceId source db) db := by
  have hbody : Law (proposalInsert key sourceId source clock).exec (fun t => t) (fun t _ => t)
      (proposalReading key sourceId source) (.conflict "proposal") True db.proposals :=
    law_exec (hc.proposal_ready key sourceId source clock)
  refine Law.lift rfl (fun p db' h => ?_) fun haccepted => ?_
  · simp only [createProposal, Tx.ofResult_bind_eq_ok_iff, validateNonEmpty_eq_ok_iff, validateSourceId_eq_ok_iff] at h
    obtain ⟨_, ⟨-, rfl⟩, _, ⟨-, rfl⟩, _, -, hcreate⟩ := h
    obtain ⟨u, db₁, hexists, hinsert⟩ := Tx.run_bind_eq_ok_iff.mp hcreate
    obtain ⟨rfl, -⟩ := ensureProposalSourceExists_run_eq_ok hexists
    exact ⟨_, hbody, hinsert⟩
  · obtain ⟨⟨text, hkey⟩, ⟨text', hsource⟩, ⟨_, hvalid⟩, hexists⟩ := haccepted
    obtain ⟨-, rfl⟩ := validateNonEmpty_eq_ok_iff.mp hkey
    obtain ⟨-, rfl⟩ := validateSourceId_eq_ok_iff.mp hsource
    refine ⟨_, hbody, ?_⟩
    rw [createProposal, Tx.ofResult_bind_of_ok hkey, Tx.ofResult_bind_of_ok hsource, Tx.ofResult_bind_of_ok hvalid,
      createProposalInTransaction, Tx.run_bind_of_ok hexists]
    rfl

/-! ### Event mappings -/

/-- The arguments `attach_event_mapping` accepts, for a proposal that exists. -/
structure MappingAccepted (proposalId : ℤ) (provider providerEventId sourceId : String)
    (startsAt endsAt : Option OffsetDateTime) (db : Database) : Prop where
  provider : ∃ text, validateNonEmpty provider "provider" = .ok text
  providerEventId : ∃ text, validateNonEmpty providerEventId "provider_event_id" = .ok text
  sourceId : ∃ text, validateSourceId sourceId = .ok text
  times : ∃ u, validateEventTimes startsAt endsAt = .ok u
  startsAt : ∃ text, transpose formatOffsetDatetime startsAt = .ok text
  endsAt : ∃ text, transpose formatOffsetDatetime endsAt = .ok text
  proposal_exists : (Table.byRowid proposalId db.proposals).isSome = true

/-- Whether a row shares an identity with a mapping. -/
def EventMappingStoredRow.Shares (proposalId : ℤ) (provider providerEventId sourceId : String)
    (r : EventMappingStoredRow) : Prop :=
  r.proposalId = proposalId ∨ (r.provider = provider ∧ r.providerEventId = providerEventId) ∨ r.sourceId = sourceId

/-- Whether a stored mapping is the one to be attached. -/
def StoredEventMapping.IsFor (proposalId : ℤ) (provider providerEventId sourceId : String)
    (startsAt endsAt : Option OffsetDateTime) (m : StoredEventMapping) : Prop :=
  m.proposalId = proposalId ∧ m.provider = provider ∧ m.providerEventId = providerEventId ∧ m.sourceId = sourceId ∧
    SameInstant m.startsAt startsAt ∧ SameInstant m.endsAt endsAt

/-- Whether a row has all identities of a mapping. -/
def EventMappingStoredRow.Owns (proposalId : ℤ) (provider providerEventId sourceId : String)
    (r : EventMappingStoredRow) : Prop :=
  r.proposalId = proposalId ∧ r.provider = provider ∧ r.providerEventId = providerEventId ∧ r.sourceId = sourceId

/-- What the mappings are to a call. -/
def eventMappingReading (proposalId : ℤ) (provider providerEventId sourceId : String)
    (startsAt endsAt : Option OffsetDateTime) : Reading EventMappingStoredRow StoredEventMapping where
  owns := EventMappingStoredRow.Owns proposalId provider providerEventId sourceId
  shares := EventMappingStoredRow.Shares proposalId provider providerEventId sourceId
  reads row m := decodeEventMappingRow row = .ok m
  stored := StoredEventMapping.IsFor proposalId provider providerEventId sourceId startsAt endsAt
  same := StoredEventMapping.IsFor proposalId provider providerEventId sourceId startsAt endsAt

/-- A mapping that has the identities of a call is the only one that shares any of them. -/
theorem Consistent.mapping_alone (hc : Consistent env db) {proposalId : ℤ} {provider providerEventId sourceId : String}
    {r : EventMappingStoredRow} (hr : r ∈ db.eventMappings)
    (howns : r.Owns proposalId provider providerEventId sourceId) :
    ∀ r' ∈ db.eventMappings, r'.Shares proposalId provider providerEventId sourceId ↔ r' = r := by
  obtain ⟨hproposal, hprovider, hevent, hsource⟩ := howns
  intro r' hr'
  constructor
  · intro hshares
    refine hc.eventMappings.eq (fun _ _ => EventMappingStoredRow.Clash.symm) hr' hr ?_
    rcases hshares with hproposal' | ⟨hprovider', hevent'⟩ | hsource'
    · exact Or.inr (Or.inl (hproposal'.trans hproposal.symm))
    · exact Or.inr (Or.inr (Or.inl ⟨hprovider'.trans hprovider.symm, hevent'.trans hevent.symm⟩))
    · exact Or.inr (Or.inr (Or.inr (hsource'.trans hsource.symm)))
  · rintro rfl
    exact Or.inl hproposal

/-- What a row holds whose instants were written is the mapping they were written for. -/
theorem isFor_of_decode_eventMappingRow {proposalId : ℤ} {provider providerEventId sourceId : String}
    {startsAt endsAt : Option OffsetDateTime} {startsText endsText : Option String} {clock : SystemTime} {id : ℤ}
    {m : StoredEventMapping} (hstarts : transpose formatOffsetDatetime startsAt = .ok startsText)
    (hends : transpose formatOffsetDatetime endsAt = .ok endsText)
    (h : decodeEventMappingRow ((eventMappingInsert proposalId provider providerEventId sourceId startsAt endsAt
      startsText endsText clock).row id) = .ok m) :
    m.IsFor proposalId provider providerEventId sourceId startsAt endsAt := by
  obtain ⟨-, -, hproposal, hprovider, hevent, hsource, hstarts', hends'⟩ := decodeEventMappingRow_eq_ok h
  have hstartsAt : m.startsAt = startsAt := Except.ok.inj (hstarts'.symm.trans (transpose_parse_format hstarts))
  have hendsAt : m.endsAt = endsAt := Except.ok.inj (hends'.symm.trans (transpose_parse_format hends))
  exact ⟨hproposal, hprovider, hevent, hsource, congrArg _ hstartsAt, congrArg _ hendsAt⟩

/-- Two rows that hold a mapping are one: they are of its proposal. -/
theorem Consistent.mapping_one (hc : Consistent env db) {proposalId : ℤ} {provider providerEventId sourceId : String}
    {startsAt endsAt : Option OffsetDateTime} {r r' : EventMappingStoredRow} (hr : r ∈ db.eventMappings)
    (hr' : r' ∈ db.eventMappings) {m m' : StoredEventMapping} (hm : decodeEventMappingRow r = .ok m)
    (hm' : decodeEventMappingRow r' = .ok m')
    (hsame : m.IsFor proposalId provider providerEventId sourceId startsAt endsAt)
    (hsame' : m'.IsFor proposalId provider providerEventId sourceId startsAt endsAt) : r = r' := by
  refine hc.mapping_proposalId.eq hr hr' ?_
  obtain ⟨-, -, hproposal, -⟩ := decodeEventMappingRow_eq_ok hm
  obtain ⟨-, -, hproposal', -⟩ := decodeEventMappingRow_eq_ok hm'
  rw [← hproposal, ← hproposal', hsame.1, hsame'.1]

theorem Consistent.mapping_ready (hc : Consistent env db) (proposalId : ℤ) (provider providerEventId sourceId : String)
    {startsAt endsAt : Option OffsetDateTime} {startsText endsText : Option String}
    (hstarts : transpose formatOffsetDatetime startsAt = .ok startsText)
    (hends : transpose formatOffsetDatetime endsAt = .ok endsText) (clock : SystemTime) :
    Ready (eventMappingInsert proposalId provider providerEventId sourceId startsAt endsAt startsText endsText clock)
      (eventMappingReading proposalId provider providerEventId sourceId startsAt endsAt) db.eventMappings :=
  { clashes := fun row => by simp [eventMappingInsert, eventMappingReading, EventMappingStoredRow.Shares, or_assoc]
    decode := fun _ _ => Iff.rfl
    same := fun _ => decide_eq_true_iff
    readable := hc.eventMappings.readable
    unique := hc.mapping_id
    one := fun _ hr _ hr' _ _ _ _ hm hm' hsame hsame' => hc.mapping_one hr hr' hm hm' hsame hsame'
    alone := fun _ hr howns => hc.mapping_alone hr howns
    rowid := fun _ => rfl
    owned := fun _ => ⟨rfl, rfl, rfl, rfl⟩
    written := fun _ hm => isFor_of_decode_eventMappingRow hstarts hends hm }

theorem law_attachEventMapping (hc : Consistent env db) (proposalId : ℤ) (provider providerEventId sourceId : String)
    (startsAt endsAt : Option OffsetDateTime) (clock : SystemTime) :
    Law (attachEventMapping proposalId provider providerEventId sourceId startsAt endsAt clock) Database.eventMappings
      (fun t db => { db with eventMappings := t })
      (eventMappingReading proposalId provider providerEventId sourceId startsAt endsAt) (.conflict "event mapping")
      (MappingAccepted proposalId provider providerEventId sourceId startsAt endsAt db) db := by
  have hbody : ∀ startsText endsText, transpose formatOffsetDatetime startsAt = .ok startsText →
      transpose formatOffsetDatetime endsAt = .ok endsText →
      Law (eventMappingInsert proposalId provider providerEventId sourceId startsAt endsAt startsText endsText clock).exec
        (fun t => t) (fun t _ => t) (eventMappingReading proposalId provider providerEventId sourceId startsAt endsAt)
        (.conflict "event mapping") True db.eventMappings :=
    fun startsText endsText hstarts hends =>
      law_exec (hc.mapping_ready proposalId provider providerEventId sourceId hstarts hends clock)
  refine Law.lift rfl (fun m db' h => ?_) fun h => ?_
  · simp only [attachEventMapping, Tx.ofResult_bind_eq_ok_iff, Tx.ensure_bind_eq_ok_iff, Tx.read_bind,
      validateNonEmpty_eq_ok_iff, validateSourceId_eq_ok_iff] at h
    obtain ⟨_, ⟨-, rfl⟩, _, ⟨-, rfl⟩, _, ⟨-, rfl⟩, _, -, -, startsText, hstarts, endsText, hends, hinsert⟩ := h
    exact ⟨_, hbody startsText endsText hstarts hends, hinsert⟩
  · obtain ⟨_, hprovider⟩ := h.provider
    obtain ⟨_, hevent⟩ := h.providerEventId
    obtain ⟨_, hsource⟩ := h.sourceId
    obtain ⟨_, htimes⟩ := h.times
    obtain ⟨startsText, hstarts⟩ := h.startsAt
    obtain ⟨endsText, hends⟩ := h.endsAt
    obtain ⟨-, rfl⟩ := validateNonEmpty_eq_ok_iff.mp hprovider
    obtain ⟨-, rfl⟩ := validateNonEmpty_eq_ok_iff.mp hevent
    obtain ⟨-, rfl⟩ := validateSourceId_eq_ok_iff.mp hsource
    refine ⟨_, hbody startsText endsText hstarts hends, ?_⟩
    rw [attachEventMapping, Tx.ofResult_bind_of_ok hprovider, Tx.ofResult_bind_of_ok hevent,
      Tx.ofResult_bind_of_ok hsource, Tx.ofResult_bind_of_ok htimes, Tx.read_bind,
      Tx.ensure_bind_of h.proposal_exists, Tx.ofResult_bind_of_ok hstarts, Tx.ofResult_bind_of_ok hends]
    rfl

/-! ### Owner task drafts -/

/-- The arguments `save_owner_task_draft` accepts. -/
structure OwnerTaskAccepted (sourceId : Option String) (draft : OwnerTaskDraft) : Prop where
  sourceId : ∃ text, transpose validateSourceId sourceId = .ok text
  dueAt : ∃ text, transpose formatOffsetDatetime draft.dueAt = .ok text

/-- Whether a row shares an identity with a draft: its key, or its source when it has one. -/
def OwnerTaskStoredRow.Shares (sourceId : Option String) (draft : OwnerTaskDraft) (r : OwnerTaskStoredRow) : Prop :=
  r.idempotencyKey = draft.idempotencyKey.text ∨ Shared r.sourceId sourceId

theorem sameOwnerTaskIdentity_iff {sourceId : Option String} {draft : OwnerTaskDraft} {r : OwnerTaskStoredRow} :
    sameOwnerTaskIdentity sourceId draft r = true ↔ r.Shares sourceId draft := by
  cases sourceId with
  | none => simp [sameOwnerTaskIdentity, OwnerTaskStoredRow.Shares, Shared]
  | some s => simp [sameOwnerTaskIdentity, OwnerTaskStoredRow.Shares, Shared]

/-- Whether a row has the identities of a draft. -/
def OwnerTaskStoredRow.Owns (sourceId : Option String) (draft : OwnerTaskDraft) (r : OwnerTaskStoredRow) : Prop :=
  r.idempotencyKey = draft.idempotencyKey.text ∧ r.sourceId = sourceId

/-- What the drafts are to a call. -/
def ownerTaskDraftReading (sourceId : Option String) (draft : OwnerTaskDraft) :
    Reading OwnerTaskStoredRow StoredOwnerTaskDraft where
  owns := OwnerTaskStoredRow.Owns sourceId draft
  shares := OwnerTaskStoredRow.Shares sourceId draft
  reads row d := decodeOwnerTaskRow row = .ok d
  stored d := d.sourceId = sourceId ∧ d.draft.Same draft
  same d := d.sourceId = sourceId ∧ d.draft.Same draft

/-- A draft that has the identities of a call is the only one that shares any of them. -/
theorem Consistent.ownerTask_alone (hc : Consistent env db) {sourceId : Option String} {draft : OwnerTaskDraft}
    {r : OwnerTaskStoredRow} (hr : r ∈ db.ownerTaskDrafts) (howns : r.Owns sourceId draft) :
    ∀ r' ∈ db.ownerTaskDrafts, r'.Shares sourceId draft ↔ r' = r := by
  obtain ⟨hkey, hsource⟩ := howns
  intro r' hr'
  constructor
  · intro hshares
    refine hc.ownerTaskDrafts.eq (fun _ _ => OwnerTaskStoredRow.Clash.symm) hr' hr ?_
    rcases hshares with hkey' | ⟨k, hk', hk⟩
    · exact Or.inr (Or.inl (hkey'.trans hkey.symm))
    · exact Or.inr (Or.inr ⟨k, hk', hsource.trans hk⟩)
  · rintro rfl
    exact Or.inl hkey

/-- Two rows that share an identity with a draft and hold its source are one row. -/
theorem Consistent.ownerTask_one (hc : Consistent env db) {sourceId : Option String} {draft : OwnerTaskDraft}
    {r r' : OwnerTaskStoredRow} (hr : r ∈ db.ownerTaskDrafts) (hr' : r' ∈ db.ownerTaskDrafts)
    (hshares : r.Shares sourceId draft) (hshares' : r'.Shares sourceId draft) (hsource : r.sourceId = sourceId)
    (hsource' : r'.sourceId = sourceId) : r = r' := by
  refine hc.ownerTaskDrafts.eq (fun _ _ => OwnerTaskStoredRow.Clash.symm) hr hr' ?_
  cases sourceId with
  | some s => exact Or.inr (Or.inr ⟨s, hsource, hsource'⟩)
  | none =>
    rcases hshares with hkey | ⟨k, -, hnone⟩
    · rcases hshares' with hkey' | ⟨k, -, hnone⟩
      · exact Or.inr (Or.inl (hkey.trans hkey'.symm))
      · cases hnone
    · cases hnone

theorem Consistent.ownerTask_id (h : Consistent env db) : Table.Unique Row.rowid db.ownerTaskDrafts :=
  h.ownerTaskDrafts.unique fun _ _ => Or.inl

theorem Consistent.ownerTask_ready (hc : Consistent env db) {sourceId : Option String} {draft : OwnerTaskDraft}
    {dueAt : Option String}
    (hdecode : decodeOwnerTaskRow
        ((ownerTaskDraftInsert sourceId draft dueAt).row (Table.nextRowid db.ownerTaskDrafts)) =
      .ok ⟨Table.nextRowid db.ownerTaskDrafts, sourceId, draft⟩) :
    Ready (ownerTaskDraftInsert sourceId draft dueAt) (ownerTaskDraftReading sourceId draft) db.ownerTaskDrafts :=
  { clashes := fun _ => sameOwnerTaskIdentity_iff
    decode := fun _ _ => Iff.rfl
    same := fun _ => decide_eq_true_iff
    readable := fun r hr => (hc.ownerTaskDrafts.readable r hr).1
    unique := hc.ownerTask_id
    one := fun _ hr _ hr' hshares hshares' _ _ hd hd' hsame hsame' =>
      hc.ownerTask_one hr hr' hshares hshares' ((decodeOwnerTaskRow_eq_ok hd).2.2.1.symm.trans hsame.1)
        ((decodeOwnerTaskRow_eq_ok hd').2.2.1.symm.trans hsame'.1)
    alone := fun _ hr howns => hc.ownerTask_alone hr howns
    rowid := fun _ => rfl
    owned := fun _ => ⟨rfl, rfl⟩
    written := fun d hd => by
      obtain rfl := Except.ok.inj (hdecode.symm.trans hd)
      exact ⟨rfl, OwnerTaskDraft.Same.refl draft⟩ }

theorem law_saveOwnerTaskDraft (hc : Consistent env db) (sourceId : Option String) (draft : OwnerTaskDraft) :
    Law (saveOwnerTaskDraft sourceId draft) Database.ownerTaskDrafts (fun t db => { db with ownerTaskDrafts := t })
      (ownerTaskDraftReading sourceId draft) (.conflict "owner task draft") (OwnerTaskAccepted sourceId draft) db := by
  have hbody : ∀ dueAt, transpose validateSourceId sourceId = .ok sourceId →
      transpose formatOffsetDatetime draft.dueAt = .ok dueAt →
      Law ((ownerTaskDraftInsert sourceId draft dueAt).execReturning fun id => ⟨id, sourceId, draft⟩) (fun t => t)
        (fun t _ => t) (ownerTaskDraftReading sourceId draft) (.conflict "owner task draft") True
        db.ownerTaskDrafts := by
    intro dueAt hsource hdue
    have hdecode := decodeOwnerTaskRow_row hsource hdue (Table.nextRowid_pos db.ownerTaskDrafts)
    exact law_execReturning (fun id => (⟨id, sourceId, draft⟩ : StoredOwnerTaskDraft)) (hc.ownerTask_ready hdecode)
      hdecode
  refine Law.lift rfl (fun d db' h => ?_) fun haccepted => ?_
  · simp only [saveOwnerTaskDraft, Tx.ofResult_bind_eq_ok_iff] at h
    obtain ⟨source, hsource, dueAt, hdue, hinsert⟩ := h
    obtain rfl := transpose_validateSourceId_eq_ok hsource
    exact ⟨_, hbody dueAt hsource hdue, hinsert⟩
  · obtain ⟨⟨text, hsource⟩, ⟨dueAt, hdue⟩⟩ := haccepted
    obtain rfl := transpose_validateSourceId_eq_ok hsource
    refine ⟨_, hbody dueAt hsource hdue, ?_⟩
    rw [saveOwnerTaskDraft, Tx.ofResult_bind_of_ok hsource, Tx.ofResult_bind_of_ok hdue]
    rfl

/-! ### Placements -/

/-- The arguments `save_owner_task_placement` accepts, for a draft that exists. -/
structure PlacementAccepted (timezones : Timezones) (ownerTaskDraftId : ℤ) (r : PlacementRequest) (db : Database) :
    Prop where
  interval : 0 < ownerTaskDraftId ∧ r.startsAt.unixNanos < r.endsAt.unixNanos
  valid : ∃ texts, r.validate timezones = .ok texts
  draft_exists : ensureOwnerTaskDraftExists ownerTaskDraftId db = .ok ()

/-- Whether a row shares an identity with a placement. -/
def OwnerTaskPlacementStoredRow.Shares (ownerTaskDraftId : ℤ) (request : PlacementRequest)
    (r : OwnerTaskPlacementStoredRow) : Prop :=
  r.ownerTaskDraftId = ownerTaskDraftId ∨ r.operationKey = request.operationKey

/-- Whether a stored placement is the one a caller asks for, of the draft. -/
def StoredOwnerTaskPlacement.IsFor (ownerTaskDraftId : ℤ) (request : PlacementRequest) (p : StoredOwnerTaskPlacement) :
    Prop := p.ownerTaskDraftId = ownerTaskDraftId ∧ request.IsContentOf p

/-- Whether a row has the identities of a placement. -/
def OwnerTaskPlacementStoredRow.Owns (ownerTaskDraftId : ℤ) (request : PlacementRequest)
    (r : OwnerTaskPlacementStoredRow) : Prop :=
  r.ownerTaskDraftId = ownerTaskDraftId ∧ r.operationKey = request.operationKey

/-- What the placements are to a call. -/
def placementReading (timezones : Timezones) (ownerTaskDraftId : ℤ) (request : PlacementRequest) :
    Reading OwnerTaskPlacementStoredRow StoredOwnerTaskPlacement where
  owns := OwnerTaskPlacementStoredRow.Owns ownerTaskDraftId request
  shares := OwnerTaskPlacementStoredRow.Shares ownerTaskDraftId request
  reads row p := decodeOwnerTaskPlacement timezones row = .ok p
  stored := StoredOwnerTaskPlacement.IsFor ownerTaskDraftId request
  same := StoredOwnerTaskPlacement.IsFor ownerTaskDraftId request

/-- The placement that is asked for is the only one that shares an identity with it. -/
theorem Consistent.placement_one (hc : Consistent env db) {ownerTaskDraftId : ℤ} {request : PlacementRequest}
    {row : OwnerTaskPlacementStoredRow} {p : StoredOwnerTaskPlacement} (hrow : row ∈ db.ownerTaskPlacements)
    (hdecode : decodeOwnerTaskPlacement env.timezones row = .ok p) (hfor : p.IsFor ownerTaskDraftId request) :
    ∀ r ∈ db.ownerTaskPlacements, r.Shares ownerTaskDraftId request ↔ r = row := by
  have hholds := decodeOwnerTaskPlacement_eq_ok hdecode
  have hid : row.ownerTaskDraftId = ownerTaskDraftId := hholds.ownerTaskDraftId.symm.trans hfor.1
  have hkey : row.operationKey = request.operationKey := hholds.operationKey.symm.trans hfor.2.2.2.2.1
  intro r hr
  constructor
  · intro hshares
    refine hc.ownerTaskPlacements.eq (fun _ _ => OwnerTaskPlacementStoredRow.Clash.symm) hr hrow ?_
    rcases hshares with hid' | hkey'
    · exact Or.inl (hid'.trans hid.symm)
    · exact Or.inr (Or.inl (hkey'.trans hkey.symm))
  · rintro rfl
    exact Or.inl hid

/-- Placing finds the placement that is asked for. -/
theorem placeOwnerTask_retry (hc : Consistent env db) {ownerTaskDraftId : ℤ} {request : PlacementRequest}
    {startsAt endsAt : String} {r : OwnerTaskPlacementStoredRow} (hr : r ∈ db.ownerTaskPlacements)
    {p : StoredOwnerTaskPlacement} (hdecode : decodeOwnerTaskPlacement env.timezones r = .ok p)
    (hfor : p.IsFor ownerTaskDraftId request) :
    (placeOwnerTask env.timezones request startsAt endsAt ownerTaskDraftId).run db = .ok (p, db) := by
  have hid : r.ownerTaskDraftId = ownerTaskDraftId :=
    (decodeOwnerTaskPlacement_eq_ok hdecode).ownerTaskDraftId.symm.trans hfor.1
  have hclash : (db.ownerTaskPlacements.any fun p => p.ownerTaskDraftId == ownerTaskDraftId ||
      p.operationKey == request.operationKey) = true := List.any_eq_true.mpr ⟨r, hr, by simp [hid]⟩
  have hfound : Table.byRowid ownerTaskDraftId db.ownerTaskPlacements = some r := by
    rw [← hid]
    exact Table.byRowid_of_mem hc.placement_id hr
  rw [placeOwnerTask, Tx.read_bind, Tx.write_bind, if_pos hclash, Tx.read_bind, hfound, Option.some_or,
    Tx.ofResult_bind_of_ok (okOr_some _ _), Tx.ofResult_bind_of_ok hdecode, Tx.ensure_bind_of hfor.1,
    Tx.ensure_bind_of hfor.2, Tx.run_pure]

/-- Placing fails where a placement shares an identity with the one asked for and holds something else. -/
theorem placeOwnerTask_conflict (hc : Consistent env db) {ownerTaskDraftId : ℤ} {request : PlacementRequest}
    {startsAt endsAt : String} {r : OwnerTaskPlacementStoredRow} (hr : r ∈ db.ownerTaskPlacements)
    (hshares : r.Shares ownerTaskDraftId request)
    (hother : ∀ p, decodeOwnerTaskPlacement env.timezones r = .ok p → ¬ p.IsFor ownerTaskDraftId request) :
    (placeOwnerTask env.timezones request startsAt endsAt ownerTaskDraftId).run db =
      .error (.conflict "owner task placement") := by
  have hclash : (db.ownerTaskPlacements.any fun p => p.ownerTaskDraftId == ownerTaskDraftId ||
      p.operationKey == request.operationKey) = true :=
    List.any_eq_true.mpr ⟨r, hr, by simpa [OwnerTaskPlacementStoredRow.Shares] using hshares⟩
  -- the row that is read back shares an identity with the placement; it is not the one asked for, or it would be `r`
  obtain ⟨row, hrow⟩ : ∃ row, (Table.byRowid ownerTaskDraftId db.ownerTaskPlacements).or
      (Table.byKey OwnerTaskPlacementStoredRow.operationKey request.operationKey db.ownerTaskPlacements) = some row := by
    rw [← Option.ne_none_iff_exists', Ne, Option.or_eq_none_iff]
    rintro ⟨hnoId, hnoKey⟩
    rcases hshares with hid | hkey
    · exact Table.byRowid_eq_none.mp hnoId r hr hid
    · exact Table.byKey_eq_none.mp hnoKey r hr hkey
  have hmem : row ∈ db.ownerTaskPlacements := by
    rcases Option.or_eq_some_iff.mp hrow with hbyId | ⟨-, hbyKey⟩
    · exact (Table.byRowid_eq_some hbyId).1
    · exact (Table.byKey_eq_some hbyKey).1
  obtain ⟨p, hdecode⟩ := (hc.ownerTaskPlacements.readable row hmem).1
  have hnot : ¬ p.IsFor ownerTaskDraftId request := fun hfor => by
    obtain rfl := (hc.placement_one hmem hdecode hfor r hr).mp hshares
    exact hother p hdecode hfor
  rw [placeOwnerTask, Tx.read_bind, Tx.write_bind, if_pos hclash, Tx.read_bind,
    Tx.ofResult_bind_of_ok (okOr_eq_ok_iff.mpr hrow), Tx.ofResult_bind_of_ok hdecode]
  by_cases hid : p.ownerTaskDraftId = ownerTaskDraftId
  · rw [Tx.ensure_bind_of hid, Tx.ensure_bind_of_not fun hsame => hnot ⟨hid, hsame⟩]
  · rw [Tx.ensure_bind_of_not hid]

/-- A call of `save_owner_task_placement` that is accepted places the task. -/
theorem saveOwnerTaskPlacement_run_of_accepted {ownerTaskDraftId : ℤ} {request : PlacementRequest}
    (h : PlacementAccepted env.timezones ownerTaskDraftId request db) :
    ∃ startsAt endsAt, (saveOwnerTaskPlacement env.timezones ownerTaskDraftId request).run db =
      (placeOwnerTask env.timezones request startsAt endsAt ownerTaskDraftId).run db := by
  obtain ⟨hinterval, ⟨⟨startsAt, endsAt⟩, hvalid⟩, hexists⟩ := h
  refine ⟨startsAt, endsAt, ?_⟩
  rw [saveOwnerTaskPlacement, Tx.ensure_bind_of hinterval, Tx.ofResult_bind_of_ok hvalid, Tx.read_bind,
    Tx.ofResult_bind_of_ok hexists]

theorem law_saveOwnerTaskPlacement (hc : Consistent env db) (ownerTaskDraftId : ℤ) (request : PlacementRequest) :
    Law (saveOwnerTaskPlacement env.timezones ownerTaskDraftId request) Database.ownerTaskPlacements
      (fun t db => { db with ownerTaskPlacements := t }) (placementReading env.timezones ownerTaskDraftId request)
      (.conflict "owner task placement") (PlacementAccepted env.timezones ownerTaskDraftId request db) db := by
  refine Law.of_run (fun p db' hrun => ?_) (fun haccepted r hr _ p hdecode hfor => ?_)
    fun haccepted r hr hshares hother => ?_
  · obtain ⟨startsAt, endsAt, -, hplace⟩ := saveOwnerTaskPlacement_run_eq_ok hrun
    obtain ⟨hid, hsame, ⟨row, hrow, hdecode⟩, ⟨hdb, hdecode', hfresh⟩ | hdb⟩ := placeOwnerTask_run_eq_ok hplace
    · refine Or.inl ⟨_, hdb, ⟨rfl, rfl⟩, hdecode', ⟨hid, hsame⟩, fun r hr hshares => ?_⟩
      exact hshares.elim (hfresh r hr).1 (hfresh r hr).2
    · rw [hdb] at hrow
      exact Or.inr ⟨hdb, ⟨hid, hsame⟩, row, hrow, hdecode, hc.placement_one hrow hdecode ⟨hid, hsame⟩⟩
  · obtain ⟨startsAt, endsAt, hrun⟩ := saveOwnerTaskPlacement_run_of_accepted haccepted
    exact hrun.trans (placeOwnerTask_retry hc hr hdecode hfor)
  · obtain ⟨startsAt, endsAt, hrun⟩ := saveOwnerTaskPlacement_run_of_accepted haccepted
    exact hrun.trans (placeOwnerTask_conflict hc hr hshares hother)

/-! ### Audit events -/

/-- The arguments `append_audit_event` accepts. -/
structure AuditAccepted (a : AuditEntry) (occurredAt : OffsetDateTime) : Prop where
  idempotencyKey : isMachineIdentifier a.idempotencyKey = true
  entityId : isMachineIdentifier a.entityId = true
  occurredAt : ∃ texts, wholeSecondText occurredAt "occurred_at" = .ok texts

/-- Whether a stored event is the one to be appended. -/
def StoredAuditEvent.IsFor (a : AuditEntry) (occurredAt : OffsetDateTime) (e : StoredAuditEvent) : Prop :=
  e.idempotencyKey = a.idempotencyKey ∧ a.IsContentOf e ∧ e.occurredAt = occurredAt.toUtc

/-- What the audit events are to a call: their only identity is the key. -/
def auditEventReading (a : AuditEntry) (occurredAt : OffsetDateTime) :
    Reading AuditEventStoredRow StoredAuditEvent where
  owns r := r.idempotencyKey = a.idempotencyKey
  shares r := r.idempotencyKey = a.idempotencyKey
  reads row e := decodeAuditEventRow row = .ok e
  stored := StoredAuditEvent.IsFor a occurredAt
  same := StoredAuditEvent.IsFor a occurredAt

/-- An event that is appended under a key that no row has is the one that was to be appended. -/
theorem appendAuditEvent_isFor {a : AuditEntry} {occurredAt : OffsetDateTime} {clock : SystemTime} {db' : Database}
    {e : StoredAuditEvent} (h : (appendAuditEvent a occurredAt clock).run db = .ok (e, db'))
    (hfresh : ∀ r ∈ db.auditEvents, r.idempotencyKey ≠ a.idempotencyKey) : e.IsFor a occurredAt := by
  simp only [appendAuditEvent, Tx.ofResult_bind_eq_ok_iff, Tx.read_bind, validateMachineIdentifier_eq_ok_iff] at h
  obtain ⟨_, ⟨hvalid, -⟩, _, ⟨hentity, -⟩, ⟨occurredAtUtc, text⟩, htext, hinsert⟩ := h
  obtain ⟨rfl, hnanos, hformat⟩ := wholeSecondText_eq_ok_iff.mp htext
  simp only [Table.byKey_eq_none.mpr hfresh, Tx.read_bind, Tx.write_bind, Tx.ofResult_bind_eq_ok_iff, okOr_eq_ok_iff,
    Tx.run_ofResult_eq_ok_iff] at hinsert
  obtain ⟨row, hrow, hdecode, -⟩ := hinsert
  obtain ⟨hmem, hkey⟩ := Table.byKey_eq_some hrow
  rcases List.mem_append.mp hmem with hold | hnew
  · exact absurd hkey (hfresh row hold)
  · obtain rfl := List.mem_singleton.mp hnew
    have hwritten := decodeAuditEventRow_row hvalid hentity rfl hnanos hformat clock (Table.nextRowid_pos db.auditEvents)
    obtain rfl := Except.ok.inj (hwritten.symm.trans hdecode)
    exact ⟨rfl, ⟨rfl, rfl, rfl⟩, rfl⟩

/-- Appending, where the arguments are accepted and a row has the key: it compares the row with the entry. -/
theorem appendAuditEvent_run_of_key (hc : Consistent env db) {a : AuditEntry} {occurredAt : OffsetDateTime}
    (haccepted : AuditAccepted a occurredAt) {r : AuditEventStoredRow} (hr : r ∈ db.auditEvents)
    (hkey : r.idempotencyKey = a.idempotencyKey) {e : StoredAuditEvent} (hdecode : decodeAuditEventRow r = .ok e)
    (clock : SystemTime) : (appendAuditEvent a occurredAt clock).run db =
      (Tx.ensure (a.IsContentOf e ∧ e.occurredAt = occurredAt.toUtc) (.conflict "audit event") >>= fun _ =>
        pure e).run db := by
  obtain ⟨⟨occurredAtUtc, text⟩, htexts⟩ := haccepted.occurredAt
  obtain ⟨rfl, -⟩ := wholeSecondText_eq_ok_iff.mp htexts
  have hfound : Table.byKey AuditEventStoredRow.idempotencyKey a.idempotencyKey db.auditEvents = some r :=
    hkey ▸ Table.byKey_of_mem hc.audit_key hr
  rw [appendAuditEvent, Tx.ofResult_bind_of_ok (validateMachineIdentifier_eq_ok_iff.mpr ⟨haccepted.idempotencyKey, rfl⟩),
    Tx.ofResult_bind_of_ok (validateMachineIdentifier_eq_ok_iff.mpr ⟨haccepted.entityId, rfl⟩),
    Tx.ofResult_bind_of_ok htexts, Tx.read_bind, hfound]
  dsimp only
  rw [Tx.ofResult_bind_of_ok hdecode]

theorem law_appendAuditEvent (hc : Consistent env db) (a : AuditEntry) (occurredAt : OffsetDateTime)
    (clock : SystemTime) :
    Law (appendAuditEvent a occurredAt clock) Database.auditEvents (fun t db => { db with auditEvents := t })
      (auditEventReading a occurredAt) (.conflict "audit event") (AuditAccepted a occurredAt) db := by
  refine Law.of_run (fun e db' hrun => ?_) (fun haccepted r hr hkey e hdecode hfor => ?_)
    fun haccepted r hr hkey hother => ?_
  · rcases appendAuditEvent_run_eq_ok hrun with ⟨text, hfresh, hdb, hdecode⟩ | ⟨hdb, row, hrow, hkey, hdecode, hsame⟩
    · exact Or.inl ⟨_, hdb, rfl, hdecode, appendAuditEvent_isFor hrun hfresh, hfresh⟩
    · have hfor := (decodeAuditEventRow_eq_ok hdecode).2.1.trans hkey
      refine Or.inr ⟨hdb, ⟨hfor, hsame⟩, row, hrow, hdecode, fun r hr => ⟨fun hkey' => ?_, ?_⟩⟩
      · exact hc.audit_key.eq hr hrow (hkey'.trans hkey.symm)
      · rintro rfl
        exact hkey
  · rw [appendAuditEvent_run_of_key hc haccepted hr hkey hdecode, Tx.ensure_bind_of hfor.2, Tx.run_pure]
  · obtain ⟨e, hdecode⟩ := hc.auditEvents.readable r hr
    have hnot : ¬ (a.IsContentOf e ∧ e.occurredAt = occurredAt.toUtc) := fun hsame =>
      hother e hdecode ⟨(decodeAuditEventRow_eq_ok hdecode).2.1.trans hkey, hsame⟩
    rw [appendAuditEvent_run_of_key hc haccepted hr hkey hdecode, Tx.ensure_bind_of_not hnot]

/-! ### Prepared owner tasks -/

/-- The arguments `save_prepared_owner_task` accepts. -/
structure PreparedAccepted (timezones : Timezones) (sourceId : Option String) (draft : OwnerTaskDraft)
    (request : PlacementRequest) : Prop extends OwnerTaskAccepted sourceId draft where
  interval : request.startsAt.unixNanos < request.endsAt.unixNanos
  valid : ∃ texts, request.validate timezones = .ok texts

/-- A row holds an owner task draft. -/
def OwnerTaskStoredRow.IsFor (sourceId : Option String) (draft : OwnerTaskDraft) (r : OwnerTaskStoredRow)
    (d : StoredOwnerTaskDraft) : Prop :=
  decodeOwnerTaskRow r = .ok d ∧ d.sourceId = sourceId ∧ d.draft.Same draft

theorem Consistent.ownerTask_key (hc : Consistent env db) {sourceId : Option String} {draft : OwnerTaskDraft}
    {row : OwnerTaskStoredRow} {d : StoredOwnerTaskDraft} (hrow : row ∈ db.ownerTaskDrafts)
    (hfor : row.IsFor sourceId draft d) : row.idempotencyKey = draft.idempotencyKey.text := by
  obtain ⟨hdecode, -, -, -, -, -, hkey⟩ := hfor
  rw [← (hc.ownerTaskDrafts.readable row hrow).2, ← (decodeOwnerTaskRow_eq_ok hdecode).2.2.2, hkey]

theorem Consistent.ownerTask_shares (hc : Consistent env db) {sourceId : Option String} {draft : OwnerTaskDraft}
    {row : OwnerTaskStoredRow} {d : StoredOwnerTaskDraft} (hrow : row ∈ db.ownerTaskDrafts)
    (hfor : row.IsFor sourceId draft d) : row.Shares sourceId draft :=
  Or.inl (hc.ownerTask_key hrow hfor)

/-- The row that holds a draft is the only one that shares an identity with it. -/
theorem Consistent.ownerTask_held (hc : Consistent env db) {sourceId : Option String} {draft : OwnerTaskDraft}
    {row : OwnerTaskStoredRow} {d : StoredOwnerTaskDraft} (hrow : row ∈ db.ownerTaskDrafts)
    (hfor : row.IsFor sourceId draft d) : ∀ r ∈ db.ownerTaskDrafts, r.Shares sourceId draft ↔ r = row := by
  intro r hr
  constructor
  · intro hshares
    refine hc.ownerTaskDrafts.eq (fun _ _ => OwnerTaskStoredRow.Clash.symm) hr hrow ?_
    rcases hshares with hkey' | ⟨k, hrk, hk⟩
    · exact Or.inr (Or.inl (hkey'.trans (hc.ownerTask_key hrow hfor).symm))
    · exact Or.inr (Or.inr ⟨k, hrk, (decodeOwnerTaskRow_eq_ok hfor.1).2.2.1.symm.trans (hfor.2.1.trans hk)⟩)
  · rintro rfl
    exact hc.ownerTask_shares hr hfor

/-- Where a row shares an identity with a draft, the rows that do are read. -/
theorem any_sameOwnerTaskIdentity {sourceId : Option String} {draft : OwnerTaskDraft} {r : OwnerTaskStoredRow}
    (hr : r ∈ db.ownerTaskDrafts) (hshares : r.Shares sourceId draft) :
    db.ownerTaskDrafts.any (sameOwnerTaskIdentity sourceId draft) = true :=
  List.any_eq_true.mpr ⟨r, hr, sameOwnerTaskIdentity_iff.mpr hshares⟩

/-- The row that holds the draft is found. -/
theorem findOrInsertOwnerTaskDraft_held (hc : Consistent env db) {sourceId : Option String} {draft : OwnerTaskDraft}
    {row : OwnerTaskStoredRow} (hrow : row ∈ db.ownerTaskDrafts) {d : StoredOwnerTaskDraft}
    (hfor : row.IsFor sourceId draft d) (dueAt : Option String) :
    (findOrInsertOwnerTaskDraft sourceId draft dueAt).run db = .ok (d, db) := by
  have hone := hc.ownerTask_held hrow hfor
  have hany := any_sameOwnerTaskIdentity hrow (hc.ownerTask_shares hrow hfor)
  have hfilter : db.ownerTaskDrafts.filter (sameOwnerTaskIdentity sourceId draft) = [row] :=
    Table.filter_eq_singleton hc.ownerTask_id hrow (sameOwnerTaskIdentity_iff.mpr ((hone row hrow).mpr rfl))
      fun s hs hclash => (hone s hs).mp (sameOwnerTaskIdentity_iff.mp hclash)
  simp only [findOrInsertOwnerTaskDraft, Tx.read_bind, Tx.write_bind, hany, if_true, hfilter]
  rw [Tx.ofResult_bind_of_ok (a := [d]) (by simp [hfor.1]), List.find?_cons_of_pos (by simpa using hfor.2)]
  rfl

/-- Rows that share an identity with the draft and do not hold it are a conflict. -/
theorem findOrInsertOwnerTaskDraft_other (hc : Consistent env db) {sourceId : Option String} {draft : OwnerTaskDraft}
    {r : OwnerTaskStoredRow} (hr : r ∈ db.ownerTaskDrafts) (hshares : r.Shares sourceId draft)
    (hother : ∀ row ∈ db.ownerTaskDrafts, ∀ d, ¬ row.IsFor sourceId draft d) (dueAt : Option String) :
    (findOrInsertOwnerTaskDraft sourceId draft dueAt).run db = .error (.conflict "owner task draft") := by
  have hreadable : ∀ s ∈ db.ownerTaskDrafts.filter (sameOwnerTaskIdentity sourceId draft),
      ∃ d, decodeOwnerTaskRow s = .ok d ∧ True := fun s hs => by
    obtain ⟨d, hd⟩ := (hc.ownerTaskDrafts.readable s (List.mem_filter.mp hs).1).1
    exact ⟨d, hd, trivial⟩
  obtain ⟨items, hitems, -⟩ := exists_mapM_eq_ok hreadable
  have hnone : items.find? (fun item => decide (item.sourceId = sourceId ∧ item.draft.Same draft)) = none := by
    rw [List.find?_eq_none]
    intro item hitem hsame
    obtain ⟨s, hs, hdecode⟩ := exists_of_mem_mapM hitems hitem
    exact hother s (List.mem_filter.mp hs).1 item ⟨hdecode, of_decide_eq_true hsame⟩
  simp only [findOrInsertOwnerTaskDraft, Tx.read_bind, Tx.write_bind, any_sameOwnerTaskIdentity hr hshares, if_true]
  rw [Tx.ofResult_bind_of_ok hitems, hnone]
  rfl

/-- A draft that shares no identity with the table is inserted. -/
theorem findOrInsertOwnerTaskDraft_new {sourceId : Option String} {draft : OwnerTaskDraft} {dueAt : Option String}
    (hsource : transpose validateSourceId sourceId = .ok sourceId)
    (hdue : transpose formatOffsetDatetime draft.dueAt = .ok dueAt)
    (hfresh : ∀ r ∈ db.ownerTaskDrafts, ¬ r.Shares sourceId draft) :
    (findOrInsertOwnerTaskDraft sourceId draft dueAt).run db =
      .ok (⟨Table.nextRowid db.ownerTaskDrafts, sourceId, draft⟩, { db with
        ownerTaskDrafts :=
          db.ownerTaskDrafts ++ [ownerTaskDraftRow sourceId draft dueAt (Table.nextRowid db.ownerTaskDrafts)] }) := by
  have hany : db.ownerTaskDrafts.any (sameOwnerTaskIdentity sourceId draft) = false := by
    rw [List.any_eq_false]
    exact fun r hr hclash => hfresh r hr (sameOwnerTaskIdentity_iff.mp hclash)
  have hfilter : db.ownerTaskDrafts.filter (sameOwnerTaskIdentity sourceId draft) = [] := by
    rw [List.filter_eq_nil_iff]
    exact fun r hr hclash => hfresh r hr (sameOwnerTaskIdentity_iff.mp hclash)
  have hnew : sameOwnerTaskIdentity sourceId draft
      (ownerTaskDraftRow sourceId draft dueAt (Table.nextRowid db.ownerTaskDrafts)) = true :=
    sameOwnerTaskIdentity_iff.mpr (Or.inl rfl)
  have hdecode := decodeOwnerTaskRow_row hsource hdue (Table.nextRowid_pos db.ownerTaskDrafts)
  simp only [findOrInsertOwnerTaskDraft, Tx.read_bind, Tx.write_bind, hany, if_neg Bool.false_ne_true,
    List.filter_append, hfilter, List.nil_append, List.filter_cons_of_pos hnew, List.filter_nil]
  rw [Tx.ofResult_bind_of_ok (a := [⟨Table.nextRowid db.ownerTaskDrafts, sourceId, draft⟩])
    (by simp [hdecode]), List.find?_cons_of_pos (by simp [OwnerTaskDraft.Same.refl])]
  rfl

/-- What finding or inserting a draft does: it fails where a row shares an identity with the draft and holds
something else, finds the row that holds the draft, or inserts a row. -/
theorem findOrInsertOwnerTaskDraft_cases (hc : Consistent env db) {sourceId : Option String} {draft : OwnerTaskDraft}
    {dueAt : Option String} (hsource : transpose validateSourceId sourceId = .ok sourceId)
    (hdue : transpose formatOffsetDatetime draft.dueAt = .ok dueAt) :
    ((∃ r ∈ db.ownerTaskDrafts, r.Shares sourceId draft ∧ ∀ d, ¬ r.IsFor sourceId draft d) ∧
        (findOrInsertOwnerTaskDraft sourceId draft dueAt).run db = .error (.conflict "owner task draft")) ∨
      (∃ row ∈ db.ownerTaskDrafts, ∃ d, row.IsFor sourceId draft d ∧
        (findOrInsertOwnerTaskDraft sourceId draft dueAt).run db = .ok (d, db)) ∨
      (∀ r ∈ db.ownerTaskDrafts, ¬ r.Shares sourceId draft) ∧
        (findOrInsertOwnerTaskDraft sourceId draft dueAt).run db =
          .ok (⟨Table.nextRowid db.ownerTaskDrafts, sourceId, draft⟩, { db with
            ownerTaskDrafts :=
              db.ownerTaskDrafts ++ [ownerTaskDraftRow sourceId draft dueAt (Table.nextRowid db.ownerTaskDrafts)] }) := by
  by_cases hheld : ∃ row ∈ db.ownerTaskDrafts, ∃ d, row.IsFor sourceId draft d
  · obtain ⟨row, hrow, d, hfor⟩ := hheld
    exact Or.inr (Or.inl ⟨row, hrow, d, hfor, findOrInsertOwnerTaskDraft_held hc hrow hfor dueAt⟩)
  · have hother : ∀ row ∈ db.ownerTaskDrafts, ∀ d, ¬ row.IsFor sourceId draft d :=
      fun row hrow d hfor => hheld ⟨row, hrow, d, hfor⟩
    by_cases hshared : ∃ r ∈ db.ownerTaskDrafts, r.Shares sourceId draft
    · obtain ⟨r, hr, hshares⟩ := hshared
      exact Or.inl ⟨⟨r, hr, hshares, hother r hr⟩, findOrInsertOwnerTaskDraft_other hc hr hshares hother dueAt⟩
    · have hfresh : ∀ r ∈ db.ownerTaskDrafts, ¬ r.Shares sourceId draft := fun r hr hshares => hshared ⟨r, hr, hshares⟩
      exact Or.inr (Or.inr ⟨hfresh, findOrInsertOwnerTaskDraft_new hsource hdue hfresh⟩)

/-- What a call of `save_prepared_owner_task` that succeeds does, which inserts into two tables. -/
inductive PreparedOutcome (env : Environment) (sourceId : Option String) (draft : OwnerTaskDraft)
    (request : PlacementRequest) (db : Database) (d : StoredOwnerTaskDraft) (p : StoredOwnerTaskPlacement)
    (db' : Database) : Prop
  /-- It stores the draft and its placement. -/
  | stored (row : OwnerTaskStoredRow) (placement : OwnerTaskPlacementStoredRow)
      (eq : db' = { db with
        ownerTaskDrafts := db.ownerTaskDrafts ++ [row]
        ownerTaskPlacements := db.ownerTaskPlacements ++ [placement] })
      (owns : row.Owns sourceId draft) (isFor : row.IsFor sourceId draft d)
      (placement_owns : placement.Owns d.id request)
      (placement_eq : decodeOwnerTaskPlacement env.timezones placement = .ok p) (placement_isFor : p.IsFor d.id request)
      (draft_new : ∀ r ∈ db.ownerTaskDrafts, ¬ r.Shares sourceId draft)
      (placement_new : ∀ r ∈ db.ownerTaskPlacements, ¬ r.Shares d.id request)
  /-- It finds the one row that holds the draft, and stores its placement. -/
  | placed (row : OwnerTaskStoredRow) (placement : OwnerTaskPlacementStoredRow) (mem : row ∈ db.ownerTaskDrafts)
      (isFor : row.IsFor sourceId draft d)
      (eq : db' = { db with ownerTaskPlacements := db.ownerTaskPlacements ++ [placement] })
      (placement_owns : placement.Owns d.id request)
      (placement_eq : decodeOwnerTaskPlacement env.timezones placement = .ok p) (placement_isFor : p.IsFor d.id request)
      (draft_one : ∀ r ∈ db.ownerTaskDrafts, r.Shares sourceId draft ↔ r = row)
      (placement_new : ∀ r ∈ db.ownerTaskPlacements, ¬ r.Shares d.id request)
  /-- It finds the one row that holds the draft and the one row that holds its placement. -/
  | found (row : OwnerTaskStoredRow) (placement : OwnerTaskPlacementStoredRow) (mem : row ∈ db.ownerTaskDrafts)
      (isFor : row.IsFor sourceId draft d) (placement_mem : placement ∈ db.ownerTaskPlacements)
      (placement_eq : decodeOwnerTaskPlacement env.timezones placement = .ok p) (placement_isFor : p.IsFor d.id request)
      (eq : db' = db) (draft_one : ∀ r ∈ db.ownerTaskDrafts, r.Shares sourceId draft ↔ r = row)
      (placement_one : ∀ r ∈ db.ownerTaskPlacements, r.Shares d.id request ↔ r = placement)

/-- The law of `save_prepared_owner_task`: it stores or finds the draft and its placement, or fails and changes
nothing. A call that is accepted gets the draft and the placement back that hold what it was to store; and it always
reports a conflict where a draft or a placement shares an identity with it and holds something else. -/
structure PreparedLaw (env : Environment) (sourceId : Option String) (draft : OwnerTaskDraft)
    (request : PlacementRequest) (db : Database) : Prop where
  outcome : ∀ result db', (savePreparedOwnerTask env.timezones sourceId draft request).commit db = (result, db') →
    (∃ d p, result = .ok (d, p) ∧ PreparedOutcome env sourceId draft request db d p db') ∨
      ∃ e, result = .error e ∧ db' = db
  retry : PreparedAccepted env.timezones sourceId draft request → ∀ row ∈ db.ownerTaskDrafts,
    ∀ d, row.IsFor sourceId draft d → ∀ placement ∈ db.ownerTaskPlacements, ∀ p,
      decodeOwnerTaskPlacement env.timezones placement = .ok p → p.IsFor d.id request →
        (savePreparedOwnerTask env.timezones sourceId draft request).commit db = (.ok (d, p), db)
  reuse_draft : PreparedAccepted env.timezones sourceId draft request → ∀ r ∈ db.ownerTaskDrafts,
    r.Shares sourceId draft → (∀ d, ¬ r.IsFor sourceId draft d) →
      (savePreparedOwnerTask env.timezones sourceId draft request).commit db =
        (.error (.conflict "owner task draft"), db)
  reuse_placement : PreparedAccepted env.timezones sourceId draft request → ∀ r ∈ db.ownerTaskPlacements,
    (r.operationKey = request.operationKey ∨
      ∃ row ∈ db.ownerTaskDrafts, ∃ d, row.IsFor sourceId draft d ∧ r.ownerTaskDraftId = d.id) →
    (∀ row ∈ db.ownerTaskDrafts, ∀ d p, row.IsFor sourceId draft d →
      decodeOwnerTaskPlacement env.timezones r = .ok p → ¬ p.IsFor d.id request) →
      ∃ resource, (savePreparedOwnerTask env.timezones sourceId draft request).commit db =
        (.error (.conflict resource), db)

/-- A call of `save_prepared_owner_task` that is accepted stores or finds the draft and places it. -/
theorem savePreparedOwnerTask_run {sourceId : Option String} {draft : OwnerTaskDraft} {request : PlacementRequest}
    (h : PreparedAccepted env.timezones sourceId draft request) :
    ∃ dueAt startsAt endsAt, transpose validateSourceId sourceId = .ok sourceId ∧
      transpose formatOffsetDatetime draft.dueAt = .ok dueAt ∧
      (savePreparedOwnerTask env.timezones sourceId draft request).run db =
        (findOrInsertOwnerTaskDraft sourceId draft dueAt >>= fun stored =>
          placeOwnerTask env.timezones request startsAt endsAt stored.id >>= fun placement =>
            pure (stored, placement)).run db := by
  obtain ⟨⟨⟨source, hsource⟩, ⟨dueAt, hdue⟩⟩, hinterval, ⟨⟨startsAt, endsAt⟩, hvalid⟩⟩ := h
  obtain rfl := transpose_validateSourceId_eq_ok hsource
  refine ⟨dueAt, startsAt, endsAt, hsource, hdue, ?_⟩
  rw [savePreparedOwnerTask, Tx.ensure_bind_of hinterval, Tx.ofResult_bind_of_ok hsource,
    Tx.ofResult_bind_of_ok hvalid, Tx.ofResult_bind_of_ok hdue]

/-- A placement is of a draft that was stored before. -/
theorem Consistent.placement_lt (hc : Consistent env db) {r : OwnerTaskPlacementStoredRow}
    (hr : r ∈ db.ownerTaskPlacements) : r.ownerTaskDraftId < Table.nextRowid db.ownerTaskDrafts := by
  obtain ⟨row, d, hrow, -⟩ := ensureOwnerTaskDraftExists_eq_ok_iff.mp (hc.ownerTaskPlacements.readable r hr).2
  obtain ⟨hmem, hid⟩ := Table.byRowid_eq_some hrow
  rw [← hid]
  exact Table.rowid_lt_nextRowid hmem

/-- The database after a draft is stored whose identities no row has. -/
theorem Consistent.insertOwnerTaskDraft (hc : Consistent env db) {sourceId : Option String} {draft : OwnerTaskDraft}
    {dueAt : Option String} (hsource : transpose validateSourceId sourceId = .ok sourceId)
    (hdue : transpose formatOffsetDatetime draft.dueAt = .ok dueAt)
    (hfresh : ∀ r ∈ db.ownerTaskDrafts, ¬ r.Shares sourceId draft) :
    Consistent env { db with
      ownerTaskDrafts :=
        db.ownerTaskDrafts ++ [ownerTaskDraftRow sourceId draft dueAt (Table.nextRowid db.ownerTaskDrafts)] } := by
  refine Change.consistent (.insertOwnerTaskDraft rfl
    (decodeOwnerTaskRow_row hsource hdue (Table.nextRowid_pos _)) draft.idempotencyKey.trimmed fun r hr => ?_) hc
  exact ⟨fun hkey => hfresh r hr (Or.inl hkey), fun hshared => hfresh r hr (Or.inr hshared)⟩

theorem preparedLaw_outcome (hc : Consistent env db) {sourceId : Option String} {draft : OwnerTaskDraft}
    {request : PlacementRequest} {d : StoredOwnerTaskDraft} {p : StoredOwnerTaskPlacement} {db' : Database}
    (h : (savePreparedOwnerTask env.timezones sourceId draft request).run db = .ok ((d, p), db')) :
    PreparedOutcome env sourceId draft request db d p db' := by
  have hinvert := h
  simp only [savePreparedOwnerTask, Tx.ensure_bind_eq_ok_iff, Tx.ofResult_bind_eq_ok_iff] at hinvert
  obtain ⟨-, source, hsource, ⟨startsAt, endsAt⟩, -, dueAt, hdue, hfind⟩ := hinvert
  obtain rfl := transpose_validateSourceId_eq_ok hsource
  obtain ⟨stored, db₁, hstored, hrest⟩ := Tx.run_bind_eq_ok_iff.mp hfind
  obtain ⟨placement, db₂, hplace, hpure⟩ := Tx.run_bind_eq_ok_iff.mp hrest
  cases hpure
  obtain ⟨hid, hsame, ⟨placed, hplaced, hdecode⟩, hplacement⟩ := placeOwnerTask_run_eq_ok hplace
  rcases findOrInsertOwnerTaskDraft_cases hc hsource hdue with ⟨-, herror⟩ | ⟨row, hrow, held, hfor, hheld⟩ | ⟨hfresh, hnew⟩
  · cases herror.symm.trans hstored
  · -- the draft was there: its placement is new, or it is the one that is asked for
    cases hheld.symm.trans hstored
    have hone := hc.ownerTask_held hrow hfor
    rcases hplacement with ⟨rfl, hdecode', hfresh⟩ | rfl
    · exact .placed row _ hrow hfor rfl ⟨rfl, rfl⟩ hdecode' ⟨hid, hsame⟩ hone fun r hr hshares =>
        hshares.elim (hfresh r hr).1 (hfresh r hr).2
    · exact .found row placed hrow hfor hplaced hdecode ⟨hid, hsame⟩ rfl hone (hc.placement_one hplaced hdecode ⟨hid, hsame⟩)
  · -- the draft is new: no placement can be of it yet
    cases hnew.symm.trans hstored
    rcases hplacement with ⟨rfl, hdecode', hfresh'⟩ | rfl
    · have hfor : (ownerTaskDraftRow source draft dueAt (Table.nextRowid db.ownerTaskDrafts)).IsFor source draft
          ⟨Table.nextRowid db.ownerTaskDrafts, source, draft⟩ :=
        ⟨decodeOwnerTaskRow_row hsource hdue (Table.nextRowid_pos _), rfl, OwnerTaskDraft.Same.refl draft⟩
      exact .stored _ _ rfl ⟨rfl, rfl⟩ hfor ⟨rfl, rfl⟩ hdecode' ⟨hid, hsame⟩ hfresh
        fun r hr hshares => hshares.elim (hfresh' r hr).1 (hfresh' r hr).2
    · have hlt := hc.placement_lt (r := placed) hplaced
      have hholds := (decodeOwnerTaskPlacement_eq_ok hdecode).ownerTaskDraftId.symm.trans hid
      exact absurd hholds hlt.ne

section Prepared

variable (hc : Consistent env db) {sourceId : Option String} {draft : OwnerTaskDraft} {request : PlacementRequest}
  (haccepted : PreparedAccepted env.timezones sourceId draft request)

include hc haccepted

/-- The draft and the placement that hold what a call is to store are returned. -/
theorem preparedLaw_retry {row : OwnerTaskStoredRow} (hrow : row ∈ db.ownerTaskDrafts) {d : StoredOwnerTaskDraft}
    (hfor : row.IsFor sourceId draft d) {placement : OwnerTaskPlacementStoredRow}
    (hplacement : placement ∈ db.ownerTaskPlacements) {p : StoredOwnerTaskPlacement}
    (hdecode : decodeOwnerTaskPlacement env.timezones placement = .ok p) (hplaced : p.IsFor d.id request) :
    (savePreparedOwnerTask env.timezones sourceId draft request).run db = .ok ((d, p), db) := by
  obtain ⟨dueAt, startsAt, endsAt, hsource, hdue, hrun⟩ := savePreparedOwnerTask_run haccepted
  rw [hrun]
  rcases findOrInsertOwnerTaskDraft_cases hc hsource hdue with ⟨⟨r, hr, hr', hother⟩, -⟩ | ⟨row', hrow', d', hfor', hheld⟩ | ⟨hfresh, -⟩
  · obtain rfl := (hc.ownerTask_held hrow hfor r hr).mp hr'
    exact absurd hfor (hother d)
  · -- the row that is found is the one that holds the draft
    obtain rfl := (hc.ownerTask_held hrow hfor row' hrow').mp (hc.ownerTask_shares hrow' hfor')
    obtain rfl := Except.ok.inj (hfor'.1.symm.trans hfor.1)
    rw [Tx.run_bind_of_ok hheld, Tx.run_bind_of_ok (placeOwnerTask_retry hc hplacement hdecode hplaced), Tx.run_pure]
  · exact absurd (hc.ownerTask_shares hrow hfor) (hfresh row hrow)

/-- A draft that holds something else is a conflict. -/
theorem preparedLaw_reuse_draft {r : OwnerTaskStoredRow} (hr : r ∈ db.ownerTaskDrafts) (hshares : r.Shares sourceId draft)
    (hother : ∀ d, ¬ r.IsFor sourceId draft d) :
    (savePreparedOwnerTask env.timezones sourceId draft request).run db = .error (.conflict "owner task draft") := by
  obtain ⟨dueAt, startsAt, endsAt, hsource, hdue, hrun⟩ := savePreparedOwnerTask_run haccepted
  rw [hrun]
  rcases findOrInsertOwnerTaskDraft_cases hc hsource hdue with ⟨-, herror⟩ | ⟨row, hrow, d, hfor, -⟩ | ⟨hfresh, -⟩
  · exact Tx.run_bind_of_error herror _
  · obtain rfl := (hc.ownerTask_held hrow hfor r hr).mp hshares
    exact absurd hfor (hother d)
  · exact absurd hshares (hfresh r hr)

/-- A placement that holds something else is a conflict, unless one of the draft comes before it. -/
theorem preparedLaw_reuse_placement {r : OwnerTaskPlacementStoredRow} (hr : r ∈ db.ownerTaskPlacements)
    (hshares : r.operationKey = request.operationKey ∨
      ∃ row ∈ db.ownerTaskDrafts, ∃ d, row.IsFor sourceId draft d ∧ r.ownerTaskDraftId = d.id)
    (hother : ∀ row ∈ db.ownerTaskDrafts, ∀ d p, row.IsFor sourceId draft d →
      decodeOwnerTaskPlacement env.timezones r = .ok p → ¬ p.IsFor d.id request) :
    ∃ resource, (savePreparedOwnerTask env.timezones sourceId draft request).run db = .error (.conflict resource) := by
  obtain ⟨dueAt, startsAt, endsAt, hsource, hdue, hrun⟩ := @savePreparedOwnerTask_run env db sourceId draft request haccepted
  rcases findOrInsertOwnerTaskDraft_cases hc hsource hdue with ⟨-, herror⟩ | ⟨row, hrow, d, hfor, hheld⟩ | ⟨hfresh, hnew⟩
  · exact ⟨_, hrun.trans (Tx.run_bind_of_error herror _)⟩
  · have hplacement : r.Shares d.id request := by
      rcases hshares with hkey | ⟨row', hrow', d', hfor', hid⟩
      · exact Or.inr hkey
      · -- the row that holds the draft is one
        obtain rfl := (hc.ownerTask_held hrow hfor row' hrow').mp (hc.ownerTask_shares hrow' hfor')
        obtain rfl := Except.ok.inj (hfor'.1.symm.trans hfor.1)
        exact Or.inl hid
    have herror := @placeOwnerTask_conflict _ _ hc _ _ startsAt endsAt _ hr hplacement fun p => hother row hrow d p hfor
    refine ⟨"owner task placement", ?_⟩
    rw [hrun, Tx.run_bind_of_ok hheld]
    exact Tx.run_bind_of_error herror _
  · have hplacement : r.Shares (Table.nextRowid db.ownerTaskDrafts) request := by
      rcases hshares with hkey | ⟨row, hrow, d, hfor, -⟩
      · exact Or.inr hkey
      · exact absurd (hc.ownerTask_shares hrow hfor) (hfresh row hrow)
    have herror := @placeOwnerTask_conflict _ _ (hc.insertOwnerTaskDraft hsource hdue hfresh) _ _ startsAt endsAt _ hr
      hplacement fun p hdecode hfor =>
        (hc.placement_lt hr).ne ((decodeOwnerTaskPlacement_eq_ok hdecode).ownerTaskDraftId.symm.trans hfor.1)
    refine ⟨"owner task placement", ?_⟩
    rw [hrun, Tx.run_bind_of_ok hnew]
    exact Tx.run_bind_of_error herror _

end Prepared

theorem preparedLaw (hc : Consistent env db) (sourceId : Option String) (draft : OwnerTaskDraft)
    (request : PlacementRequest) : PreparedLaw env sourceId draft request db := by
  constructor
  · intro result db' hcommit
    cases hrun : (savePreparedOwnerTask env.timezones sourceId draft request).run db with
    | error e =>
      rw [Tx.commit_of_error hrun] at hcommit
      cases hcommit
      exact Or.inr ⟨e, rfl, rfl⟩
    | ok r =>
      rw [Tx.commit_of_ok hrun] at hcommit
      cases hcommit
      exact Or.inl ⟨_, _, rfl, preparedLaw_outcome hc hrun⟩
  · intro haccepted row hrow d hfor placement hplacement p hdecode hplaced
    exact Tx.commit_of_ok (preparedLaw_retry hc haccepted hrow hfor hplacement hdecode hplaced)
  · intro haccepted r hr hshares hother
    exact Tx.commit_of_error (preparedLaw_reuse_draft hc haccepted hr hshares hother)
  · intro haccepted r hr hshares hother
    obtain ⟨resource, hrun⟩ := preparedLaw_reuse_placement hc haccepted hr hshares hother
    exact ⟨resource, Tx.commit_of_error hrun⟩

/-! ### All inserts -/

/-- The law of each insert in a state of the store, and that no two rows share an identity there. -/
structure InsertLaws (env : Environment) (db : Database) : Prop where
  recordMessage : ∀ r clock, Law (recordMessage r clock) Database.messages (fun t db => { db with messages := t })
    r.reading (.conflict "message") r.Accepted db
  saveAppointmentDraft : ∀ sourceId draft, Law (saveAppointmentDraft sourceId draft) Database.appointmentDrafts
    (fun t db => { db with appointmentDrafts := t }) (appointmentDraftReading sourceId draft)
    (.conflict "appointment draft") (DraftAccepted sourceId draft) db
  createProposal : ∀ key sourceId source clock, Law (createProposal key sourceId source clock) Database.proposals
    (fun t db => { db with proposals := t }) (proposalReading key sourceId source) (.conflict "proposal")
    (ProposalAccepted key sourceId source db) db
  attachEventMapping : ∀ proposalId provider providerEventId sourceId startsAt endsAt clock,
    Law (attachEventMapping proposalId provider providerEventId sourceId startsAt endsAt clock) Database.eventMappings
      (fun t db => { db with eventMappings := t })
      (eventMappingReading proposalId provider providerEventId sourceId startsAt endsAt)
      (.conflict "event mapping") (MappingAccepted proposalId provider providerEventId sourceId startsAt endsAt db) db
  saveOwnerTaskDraft : ∀ sourceId draft, Law (saveOwnerTaskDraft sourceId draft) Database.ownerTaskDrafts
    (fun t db => { db with ownerTaskDrafts := t }) (ownerTaskDraftReading sourceId draft)
    (.conflict "owner task draft") (OwnerTaskAccepted sourceId draft) db
  saveOwnerTaskPlacement : ∀ ownerTaskDraftId request,
    Law (saveOwnerTaskPlacement env.timezones ownerTaskDraftId request) Database.ownerTaskPlacements
      (fun t db => { db with ownerTaskPlacements := t }) (placementReading env.timezones ownerTaskDraftId request)
      (.conflict "owner task placement") (PlacementAccepted env.timezones ownerTaskDraftId request db) db
  savePreparedOwnerTask : ∀ sourceId draft request, PreparedLaw env sourceId draft request db
  appendAuditEvent : ∀ entry occurredAt clock, Law (appendAuditEvent entry occurredAt clock) Database.auditEvents
    (fun t db => { db with auditEvents := t }) (auditEventReading entry occurredAt) (.conflict "audit event")
    (AuditAccepted entry occurredAt) db
  messages_apart : db.messages.Pairwise fun r s => ¬ r.Clash s
  appointmentDrafts_apart : db.appointmentDrafts.Pairwise fun r s => ¬ r.Clash s
  proposals_apart : db.proposals.Pairwise fun r s => ¬ r.Clash s
  eventMappings_apart : db.eventMappings.Pairwise fun r s => ¬ r.Clash s
  ownerTaskDrafts_apart : db.ownerTaskDrafts.Pairwise fun r s => ¬ r.Clash s
  ownerTaskPlacements_apart : db.ownerTaskPlacements.Pairwise fun r s => ¬ r.Clash s
  auditEvents_apart : db.auditEvents.Pairwise fun r s => ¬ r.Clash s

/-- **The law of the idempotent inserts** holds in every state of the store. -/
theorem insertLaws_of_reachable (h : Reachable env db) : InsertLaws env db := by
  have hc := h.consistent
  exact
    { recordMessage := law_recordMessage hc
      saveAppointmentDraft := law_saveAppointmentDraft hc
      createProposal := law_createProposal hc
      attachEventMapping := law_attachEventMapping hc
      saveOwnerTaskDraft := law_saveOwnerTaskDraft hc
      saveOwnerTaskPlacement := law_saveOwnerTaskPlacement hc
      savePreparedOwnerTask := preparedLaw hc
      appendAuditEvent := law_appendAuditEvent hc
      messages_apart := hc.messages.apart
      appointmentDrafts_apart := hc.appointmentDrafts.apart
      proposals_apart := hc.proposals.apart
      eventMappings_apart := hc.eventMappings.apart
      ownerTaskDrafts_apart := hc.ownerTaskDrafts.apart
      ownerTaskPlacements_apart := hc.ownerTaskPlacements.apart
      auditEvents_apart := hc.auditEvents.apart }

/-- Stores a draft of an owner task and proposes it. -/
def proposedTask : List Command :=
  [.saveOwnerTaskDraft none
      ⟨.bill, "Pay the bill", ⟨15, by decide, by decide⟩, none, ⟨"task-key", by decide, by decide⟩, by decide, by decide⟩,
    .createProposal "key-1" "source-1" (.ownerTaskDraft 1) newYear]

theorem insertLaws_proposedTask :
    InsertLaws ⟨fun _ => none, ⟨fun _ => "", fun _ => none⟩⟩
      (run ⟨fun _ => none, ⟨fun _ => "", fun _ => none⟩⟩ proposedTask Database.empty) :=
  insertLaws_of_reachable ⟨proposedTask, rfl⟩

/-- A key that is reused for a draft that does not exist gets no conflict: the draft is looked up first. -/
theorem createProposal_reuse_notFound :
    ∃ env db, Reachable env db ∧
      (∃ r ∈ db.proposals, r.Shares "key-1" "source-2" ∧
        ∀ p, decodeProposalRow r = .ok p → ¬ p.IsFor "key-1" "source-2" (.ownerTaskDraft 2)) ∧
      (createProposal "key-1" "source-2" (.ownerTaskDraft 2) newYear).commit db =
        (.error (.notFound "owner task draft"), db) := by
  refine ⟨⟨fun _ => none, ⟨fun _ => "", fun _ => none⟩⟩, _, ⟨proposedTask, rfl⟩, ?_, ?_⟩
  · refine ⟨⟨1, "key-1", "source-1", none, some 1, "pending", currentTimestamp newYear, currentTimestamp newYear⟩,
      by decide +kernel, Or.inl rfl, fun p hp hfor => ?_⟩
    obtain ⟨-, -, -, hsource, -⟩ := decodeProposalRow_eq_ok hp
    rw [hfor.2.1] at hsource
    exact absurd hsource (by decide)
  · refine Tx.commit_of_error ?_
    decide +kernel

end AgentVoice.Store

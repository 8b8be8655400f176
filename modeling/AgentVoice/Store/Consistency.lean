import AgentVoice.Store.Commands

/-!
# Consistency

What the schema and the checks of the store promise of the tables: in every table no two rows share a value of
a unique column, every row decodes, and the rows it refers to are there. `Change` lists what a call can do to
the tables; each change keeps them consistent (`Change.consistent`), which is the one place where the
operations and the constraints meet.
-/

namespace AgentVoice.Store

open AgentVoice.Foundations AgentVoice.Domain

/-! ### Unique columns -/

/-- Two rows share a value of a nullable column. -/
def Shared (x y : Option String) : Prop := ∃ k, x = some k ∧ y = some k

/-- Rows of appointment drafts that share a unique value. -/
def AppointmentStoredRow.Clash (r s : AppointmentStoredRow) : Prop :=
  r.id = s.id ∨ r.idempotencyKey = s.idempotencyKey ∨ r.sourceId = s.sourceId ∨ r.quoteId = s.quoteId

/-- Rows of quotes that share a unique value. -/
def AppointmentQuoteStoredRow.Clash (r s : AppointmentQuoteStoredRow) : Prop :=
  r.quoteId = s.quoteId ∨ ∃ id, r.appointmentDraftId = some id ∧ s.appointmentDraftId = some id

/-- Rows of owner task drafts that share a unique value. -/
def OwnerTaskStoredRow.Clash (r s : OwnerTaskStoredRow) : Prop :=
  r.id = s.id ∨ r.idempotencyKey = s.idempotencyKey ∨ Shared r.sourceId s.sourceId

/-- Rows of placements that share a unique value. -/
def OwnerTaskPlacementStoredRow.Clash (r s : OwnerTaskPlacementStoredRow) : Prop :=
  r.ownerTaskDraftId = s.ownerTaskDraftId ∨ r.operationKey = s.operationKey ∨
    Shared r.providerEventId s.providerEventId

/-- Rows of proposals that share a unique value. -/
def ProposalStoredRow.Clash (r s : ProposalStoredRow) : Prop :=
  r.id = s.id ∨ r.idempotencyKey = s.idempotencyKey ∨ r.sourceId = s.sourceId

/-- Rows of event mappings that share a unique value. -/
def EventMappingStoredRow.Clash (r s : EventMappingStoredRow) : Prop :=
  r.id = s.id ∨ r.proposalId = s.proposalId ∨ (r.provider = s.provider ∧ r.providerEventId = s.providerEventId) ∨
    r.sourceId = s.sourceId

/-- Rows of the outbox that share a unique value. -/
def NotificationStoredRow.Clash (r s : NotificationStoredRow) : Prop :=
  r.id = s.id ∨ r.idempotencyKey = s.idempotencyKey

/-- Rows of messages that share a unique value. -/
def MessageStoredRow.Clash (r s : MessageStoredRow) : Prop :=
  r.id = s.id ∨ r.idempotencyKey = s.idempotencyKey ∨ r.sourceId = s.sourceId ∨
    (r.provider = s.provider ∧ r.providerMessageId = s.providerMessageId)

/-- Rows of tasks that share a unique value. -/
def TaskStoredRow.Clash (r s : TaskStoredRow) : Prop :=
  r.id = s.id ∨ r.idempotencyKey = s.idempotencyKey ∨ r.sourceId = s.sourceId

/-- Rows of audit events that share a unique value. -/
def AuditEventStoredRow.Clash (r s : AuditEventStoredRow) : Prop :=
  r.id = s.id ∨ r.idempotencyKey = s.idempotencyKey

theorem AppointmentStoredRow.Clash.symm {r s : AppointmentStoredRow} (h : r.Clash s) : s.Clash r := by
  rcases h with hid | hkey | hsource | hquote
  · exact .inl hid.symm
  · exact .inr (.inl hkey.symm)
  · exact .inr (.inr (.inl hsource.symm))
  · exact .inr (.inr (.inr hquote.symm))

theorem AppointmentQuoteStoredRow.Clash.symm {r s : AppointmentQuoteStoredRow} (h : r.Clash s) : s.Clash r := by
  rcases h with hid | ⟨id, hr, hs⟩
  · exact Or.inl hid.symm
  · exact Or.inr ⟨id, hs, hr⟩

theorem OwnerTaskStoredRow.Clash.symm {r s : OwnerTaskStoredRow} (h : r.Clash s) : s.Clash r := by
  rcases h with hid | hkey | ⟨k, hr, hs⟩
  · exact Or.inl hid.symm
  · exact Or.inr (Or.inl hkey.symm)
  · exact Or.inr (Or.inr ⟨k, hs, hr⟩)

theorem OwnerTaskPlacementStoredRow.Clash.symm {r s : OwnerTaskPlacementStoredRow} (h : r.Clash s) : s.Clash r := by
  rcases h with hid | hkey | ⟨k, hr, hs⟩
  · exact Or.inl hid.symm
  · exact Or.inr (Or.inl hkey.symm)
  · exact Or.inr (Or.inr ⟨k, hs, hr⟩)

theorem ProposalStoredRow.Clash.symm {r s : ProposalStoredRow} (h : r.Clash s) : s.Clash r := by
  rcases h with hid | hkey | hsource
  · exact Or.inl hid.symm
  · exact Or.inr (Or.inl hkey.symm)
  · exact Or.inr (Or.inr hsource.symm)

theorem EventMappingStoredRow.Clash.symm {r s : EventMappingStoredRow} (h : r.Clash s) : s.Clash r := by
  rcases h with hid | hproposal | ⟨hprovider, hevent⟩ | hsource
  · exact Or.inl hid.symm
  · exact Or.inr (Or.inl hproposal.symm)
  · exact Or.inr (Or.inr (Or.inl ⟨hprovider.symm, hevent.symm⟩))
  · exact Or.inr (Or.inr (Or.inr hsource.symm))

theorem MessageStoredRow.Clash.symm {r s : MessageStoredRow} (h : r.Clash s) : s.Clash r := by
  rcases h with hid | hkey | hsource | ⟨hprovider, hmessage⟩
  · exact Or.inl hid.symm
  · exact Or.inr (Or.inl hkey.symm)
  · exact Or.inr (Or.inr (Or.inl hsource.symm))
  · exact Or.inr (Or.inr (Or.inr ⟨hprovider.symm, hmessage.symm⟩))

/-! ### Consistent tables -/

/-- The tables keep their constraints. -/
structure Consistent (env : Environment) (db : Database) : Prop where
  appointmentDrafts : Table.Lawful AppointmentStoredRow.Clash (fun r => ∃ d, decodeAppointmentRow r = .ok d)
    db.appointmentDrafts
  appointmentQuotes : Table.Lawful AppointmentQuoteStoredRow.Clash
    (fun r => ∃ q, decodeAppointmentQuoteRow env.timezones db r = .ok q) db.appointmentQuotes
  ownerTaskDrafts : Table.Lawful OwnerTaskStoredRow.Clash
    (fun r => (∃ d, decodeOwnerTaskRow r = .ok d) ∧ trim r.idempotencyKey = r.idempotencyKey) db.ownerTaskDrafts
  ownerTaskPlacements : Table.Lawful OwnerTaskPlacementStoredRow.Clash
    (fun r => (∃ p, decodeOwnerTaskPlacement env.timezones r = .ok p) ∧
      ensureOwnerTaskDraftExists r.ownerTaskDraftId db = .ok ()) db.ownerTaskPlacements
  proposals : Table.Lawful ProposalStoredRow.Clash (fun r => ∃ p, decodeProposalRow r = .ok p) db.proposals
  eventMappings : Table.Lawful EventMappingStoredRow.Clash (fun r => ∃ m, decodeEventMappingRow r = .ok m)
    db.eventMappings
  notificationOutbox : Table.Lawful NotificationStoredRow.Clash (Readable env.json db) db.notificationOutbox
  messages : Table.Lawful MessageStoredRow.Clash (fun r => ∃ m, decodeMessageRow r = .ok m) db.messages
  tasks : Table.Lawful TaskStoredRow.Clash
    (fun r => (∃ t, decodeTaskRow r = .ok t) ∧ MessageIs HasTasks db r.messageId) db.tasks
  auditEvents : Table.Lawful AuditEventStoredRow.Clash (fun r => ∃ e, decodeAuditEventRow r = .ok e) db.auditEvents

theorem Consistent.empty (env : Environment) : Consistent env Database.empty :=
  ⟨.nil _ _, .nil _ _, .nil _ _, .nil _ _, .nil _ _, .nil _ _, .nil _ _, .nil _ _, .nil _ _, .nil _ _⟩

section Unique

variable {env : Environment} {db : Database} (h : Consistent env db)

include h

theorem Consistent.draft_id : Table.Unique Row.rowid db.appointmentDrafts :=
  h.appointmentDrafts.unique fun _ _ => Or.inl

theorem Consistent.quote_id : Table.Unique AppointmentQuoteStoredRow.quoteId db.appointmentQuotes :=
  h.appointmentQuotes.unique fun _ _ => Or.inl

theorem Consistent.placement_id : Table.Unique Row.rowid db.ownerTaskPlacements :=
  h.ownerTaskPlacements.unique fun _ _ => Or.inl

theorem Consistent.proposal_id : Table.Unique Row.rowid db.proposals := h.proposals.unique fun _ _ => Or.inl

theorem Consistent.mapping_id : Table.Unique Row.rowid db.eventMappings := h.eventMappings.unique fun _ _ => Or.inl

theorem Consistent.mapping_proposalId : Table.Unique EventMappingStoredRow.proposalId db.eventMappings :=
  h.eventMappings.unique fun _ _ heq => Or.inr (Or.inl heq)

theorem Consistent.notification_id : Table.Unique Row.rowid db.notificationOutbox :=
  h.notificationOutbox.unique fun _ _ => Or.inl

theorem Consistent.notification_key : Table.Unique NotificationStoredRow.idempotencyKey db.notificationOutbox :=
  h.notificationOutbox.unique fun _ _ => Or.inr

theorem Consistent.message_id : Table.Unique Row.rowid db.messages := h.messages.unique fun _ _ => Or.inl

theorem Consistent.message_source : Table.Unique MessageStoredRow.sourceId db.messages :=
  h.messages.unique fun _ _ heq => Or.inr (Or.inr (Or.inl heq))

theorem Consistent.task_id : Table.Unique Row.rowid db.tasks := h.tasks.unique fun _ _ => Or.inl

theorem Consistent.task_key : Table.Unique TaskStoredRow.idempotencyKey db.tasks :=
  h.tasks.unique fun _ _ heq => Or.inr (Or.inl heq)

theorem Consistent.task_source : Table.Unique TaskStoredRow.sourceId db.tasks :=
  h.tasks.unique fun _ _ heq => Or.inr (Or.inr heq)

theorem Consistent.audit_key : Table.Unique AuditEventStoredRow.idempotencyKey db.auditEvents :=
  h.auditEvents.unique fun _ _ => Or.inr

end Unique

/-! ### What a call can do to the tables -/

/-- A change of the tables. -/
inductive Change (env : Environment) (db : Database) : Database → Prop
  | insertAppointmentDraft {row : AppointmentStoredRow} {d : StoredAppointmentDraft}
      (id : row.id = Table.nextRowid db.appointmentDrafts) (decodes : decodeAppointmentRow row = .ok d)
      (fresh : ∀ r ∈ db.appointmentDrafts, r.idempotencyKey ≠ row.idempotencyKey ∧ r.sourceId ≠ row.sourceId ∧
        r.quoteId ≠ row.quoteId) :
      Change env db { db with appointmentDrafts := db.appointmentDrafts ++ [row] }
  | deleteAppointmentDraft {id : ℤ} (free : db.appointmentDraftRestricted id = false) :
      Change env db { db with appointmentDrafts := Table.deleteWhere (fun r => r.id == id) db.appointmentDrafts }
  | issueQuote {row : AppointmentQuoteStoredRow} {slots : List AppointmentQuoteSlotStoredRow}
      {q : StoredAppointmentQuote} (fresh : ∀ r ∈ db.appointmentQuotes, r.quoteId ≠ row.quoteId)
      (slots_quoteId : ∀ s ∈ slots, s.quoteId = row.quoteId)
      (issued : row.state = StoredAppointmentQuoteState.issued.storageName)
      (decodes : decodeAppointmentQuoteRow env.timezones (db.insertQuote row slots) row = .ok q) :
      Change env db (db.insertQuote row slots)
  | prepareQuote {row : AppointmentQuoteStoredRow} {draftId : ℤ} {slotIndex : ℕ} {now : OffsetDateTime}
      {current q : StoredAppointmentQuote} (mem : row ∈ db.appointmentQuotes)
      (decodes_before : decodeAppointmentQuoteRow env.timezones db row = .ok current) (issued : current.state = .issued)
      (valid : current.quote.ValidAt now)
      (fresh : ∀ r ∈ db.appointmentQuotes, r.quoteId ≠ row.quoteId → r.appointmentDraftId ≠ some draftId)
      (decodes : decodeAppointmentQuoteRow env.timezones
        (db.mapQuotes (Table.updateWhere (fun r => r.quoteId == row.quoteId)
          (AppointmentQuoteStoredRow.prepare draftId slotIndex))) (row.prepare draftId slotIndex) = .ok q) :
      Change env db (db.mapQuotes (Table.updateWhere (fun r => r.quoteId == row.quoteId)
        (AppointmentQuoteStoredRow.prepare draftId slotIndex)))
  | consumeQuote {row : AppointmentQuoteStoredRow} {consumedAt : String} {proposalId : ℤ} {now : OffsetDateTime}
      {current q : StoredAppointmentQuote} (mem : row ∈ db.appointmentQuotes)
      (decodes_before : decodeAppointmentQuoteRow env.timezones db row = .ok current)
      (prepared : current.state = .prepared) (valid : current.quote.ValidAt now)
      (decodes : decodeAppointmentQuoteRow env.timezones
        (db.mapQuotes (Table.updateWhere (fun r => r.quoteId == row.quoteId)
          (AppointmentQuoteStoredRow.consume consumedAt proposalId))) (row.consume consumedAt proposalId) = .ok q) :
      Change env db (db.mapQuotes (Table.updateWhere (fun r => r.quoteId == row.quoteId)
        (AppointmentQuoteStoredRow.consume consumedAt proposalId)))
  | insertOwnerTaskDraft {row : OwnerTaskStoredRow} {d : StoredOwnerTaskDraft}
      (id : row.id = Table.nextRowid db.ownerTaskDrafts) (decodes : decodeOwnerTaskRow row = .ok d)
      (key : trim row.idempotencyKey = row.idempotencyKey)
      (fresh : ∀ r ∈ db.ownerTaskDrafts, r.idempotencyKey ≠ row.idempotencyKey ∧ ¬ Shared r.sourceId row.sourceId) :
      Change env db { db with ownerTaskDrafts := db.ownerTaskDrafts ++ [row] }
  | deleteOwnerTaskDraft {id : ℤ} (free : ∀ p ∈ db.ownerTaskPlacements, p.ownerTaskDraftId ≠ id) :
      Change env db { db with ownerTaskDrafts := Table.deleteWhere (fun r => r.id == id) db.ownerTaskDrafts }
  | insertPlacement {row : OwnerTaskPlacementStoredRow} {p : StoredOwnerTaskPlacement}
      (decodes : decodeOwnerTaskPlacement env.timezones row = .ok p)
      (referred : ensureOwnerTaskDraftExists row.ownerTaskDraftId db = .ok ()) (prepared : row.providerEventId = none)
      (fresh : ∀ s ∈ db.ownerTaskPlacements, s.ownerTaskDraftId ≠ row.ownerTaskDraftId ∧
        s.operationKey ≠ row.operationKey) :
      Change env db { db with ownerTaskPlacements := db.ownerTaskPlacements ++ [row] }
  | submitPlacement {ownerTaskDraftId : ℤ} {providerEventId : String} {p : StoredOwnerTaskPlacement}
      (submitted : PlacementSubmitted env.timezones ownerTaskDraftId providerEventId db
        { db with
          ownerTaskPlacements := Table.updateWhere (fun s => s.ownerTaskDraftId == ownerTaskDraftId)
            (OwnerTaskPlacementStoredRow.submit providerEventId) db.ownerTaskPlacements } p) :
      Change env db { db with
        ownerTaskPlacements := Table.updateWhere (fun s => s.ownerTaskDraftId == ownerTaskDraftId)
          (OwnerTaskPlacementStoredRow.submit providerEventId) db.ownerTaskPlacements }
  | insertProposal {row : ProposalStoredRow} {p : StoredProposal} (id : row.id = Table.nextRowid db.proposals)
      (decodes : decodeProposalRow row = .ok p)
      (fresh : ∀ r ∈ db.proposals, r.idempotencyKey ≠ row.idempotencyKey ∧ r.sourceId ≠ row.sourceId) :
      Change env db { db with proposals := db.proposals ++ [row] }
  | transitionProposal {id : ℤ} {next : ProposalState} {clock : SystemTime} {row : ProposalStoredRow}
      {p : StoredProposal} (terminal : next.isTerminal = true) (found : Table.byRowid id db.proposals = some row)
      (decodes : decodeProposalRow (row.transition next clock) = .ok p) :
      Change env db { db with
        proposals := Table.updateWhere (fun r => r.id == id && r.state == "pending")
          (ProposalStoredRow.transition next clock) db.proposals }
  | deleteProposal {id : ℤ} (free : db.proposalRestricted id = false) : Change env db (db.deleteProposal id)
  | insertEventMapping {row : EventMappingStoredRow} {m : StoredEventMapping}
      (id : row.id = Table.nextRowid db.eventMappings) (decodes : decodeEventMappingRow row = .ok m)
      (fresh : ∀ r ∈ db.eventMappings, r.proposalId ≠ row.proposalId ∧
        ¬ (r.provider = row.provider ∧ r.providerEventId = row.providerEventId) ∧ r.sourceId ≠ row.sourceId) :
      Change env db { db with eventMappings := db.eventMappings ++ [row] }
  | deleteEventMapping (id : ℤ) : Change env db (db.deleteEventMappings fun m => m.id == id)
  | insertNotification {row : NotificationStoredRow} (id : row.id = Table.nextRowid db.notificationOutbox)
      (pending : row.status = "pending") (attempts : row.attempts = 0) (readable : Readable env.json db row)
      (fresh : ∀ s ∈ db.notificationOutbox, s.idempotencyKey ≠ row.idempotencyKey) :
      Change env db (db.mapOutbox (· ++ [row]))
  | claimNotifications {ids : List ℤ} {nowKey leaseUntil updatedAt : String}
      (claims : ∀ r ∈ db.notificationOutbox, r.id ∈ ids → claimable nowKey r = true ∧
        Readable env.json db (r.claim leaseUntil updatedAt)) :
      Change env db (db.mapOutbox (Table.updateWhere (fun r => ids.contains r.id)
        (NotificationStoredRow.claim leaseUntil updatedAt)))
  | completeNotification {id attempt : ℤ} {sentAt updatedAt : String}
      (owned : ∀ r ∈ db.notificationOutbox, r.id = id → ownedBy id attempt r = true ∧
        Readable env.json db (r.complete sentAt updatedAt)) :
      Change env db (db.mapOutbox (Table.updateWhere (fun r => r.id == id)
        (NotificationStoredRow.complete sentAt updatedAt)))
  | rescheduleNotification {id attempt : ℤ} {availableAt errorCode updatedAt : String}
      (owned : ∀ r ∈ db.notificationOutbox, r.id = id → ownedBy id attempt r = true ∧
        Readable env.json db (r.reschedule availableAt errorCode updatedAt)) :
      Change env db (db.mapOutbox (Table.updateWhere (fun r => r.id == id)
        (NotificationStoredRow.reschedule availableAt errorCode updatedAt)))
  | deleteNotification (id : ℤ) : Change env db (db.mapOutbox (Table.deleteWhere fun r => r.id == id))
  | insertMessage {row : MessageStoredRow} {m : StoredMessage} (id : row.id = Table.nextRowid db.messages)
      (decodes : decodeMessageRow row = .ok m)
      (fresh : ∀ s ∈ db.messages, s.idempotencyKey ≠ row.idempotencyKey ∧ s.sourceId ≠ row.sourceId ∧
        ¬ (s.provider = row.provider ∧ s.providerMessageId = row.providerMessageId)) :
      Change env db { db with messages := db.messages ++ [row] }
  | transitionMessage {sourceId : String} {expected next : MessageTriageState} {updatedAt : String}
      (valid : validMessageTransition expected next = true)
      (decodes : ∀ r ∈ db.messages, ownMessage sourceId expected r = true →
        ∃ m, decodeMessageRow (r.transition next updatedAt) = .ok m) :
      Change env db { db with
        messages := Table.updateWhere (ownMessage sourceId expected) (MessageStoredRow.transition next updatedAt)
          db.messages }
  | insertTask {row : TaskStoredRow} {t : StoredTask} (id : row.id = Table.nextRowid db.tasks)
      (decodes : decodeTaskRow row = .ok t) (message : MessageIs Actionable db row.messageId)
      (fresh : ∀ s ∈ db.tasks, s.idempotencyKey ≠ row.idempotencyKey ∧ s.sourceId ≠ row.sourceId) :
      Change env db { db with tasks := db.tasks ++ [row] }
  | transitionTask {sourceId : String} {expected next : StoredTaskState} {updatedAt : String}
      (valid : validTaskTransition expected next = true)
      (decodes : ∀ r ∈ db.tasks, ownTask sourceId expected r = true →
        ∃ t, decodeTaskRow (r.transition next updatedAt) = .ok t) :
      Change env db { db with
        tasks := Table.updateWhere (ownTask sourceId expected) (TaskStoredRow.transition next updatedAt) db.tasks }
  | insertAuditEvent {row : AuditEventStoredRow} {e : StoredAuditEvent} (id : row.id = Table.nextRowid db.auditEvents)
      (decodes : decodeAuditEventRow row = .ok e)
      (fresh : ∀ r ∈ db.auditEvents, r.idempotencyKey ≠ row.idempotencyKey) :
      Change env db { db with auditEvents := db.auditEvents ++ [row] }

/-! ### Each change keeps the tables consistent -/

section Preservation

variable {env : Environment} {db : Database}

/-- What a quote refers to is the same where its slots, the drafts and the proposals are. -/
theorem SameReferences.of_eq {db' : Database} {row : AppointmentQuoteStoredRow}
    (hslots : db'.appointmentQuoteSlots = db.appointmentQuoteSlots)
    (hdrafts : db'.appointmentDrafts = db.appointmentDrafts) (hproposals : db'.proposals = db.proposals) :
    SameReferences db db' row := by
  refine ⟨?_, fun _ _ _ h => ?_, fun _ _ r p hr hp => ⟨r, p, ?_, hp, .refl p⟩⟩
  · rw [quoteSlotRows, quoteSlotRows, hslots]
  · rw [hdrafts]
    exact h
  · rw [hproposals]
    exact hr

/-- The slots of another quote are not among those of a new one. -/
theorem quoteSlotRows_insertQuote {row : AppointmentQuoteStoredRow} {slots : List AppointmentQuoteSlotStoredRow}
    (hslots : ∀ s ∈ slots, s.quoteId = row.quoteId) {quoteId : String} (hne : quoteId ≠ row.quoteId) :
    quoteSlotRows quoteId (db.insertQuote row slots) = quoteSlotRows quoteId db := by
  have hnone : slots.filter (fun s => s.quoteId == quoteId) = [] := by
    rw [List.filter_eq_nil_iff]
    intro s hs
    simpa [hslots s hs] using hne.symm
  simp only [quoteSlotRows, Database.insertQuote, List.filter_append, hnone, List.append_nil]

/-- A notification stays readable as long as what it refers to stays. -/
theorem Readable.mono {db' : Database} {row : NotificationStoredRow}
    (hproposals : ∀ id, row.proposalId = some id → (Table.byRowid id db.proposals).isSome = true →
      (Table.byRowid id db'.proposals).isSome = true)
    (hmappings : ∀ id m, row.eventMappingId = some id → Table.byRowid id db.eventMappings = some m →
      ∃ m', Table.byRowid id db'.eventMappings = some m' ∧ m'.proposalId = m.proposalId)
    (h : Readable env.json db row) : Readable env.json db' row := by
  obtain ⟨hfits, n, hdecode, hrefs⟩ := h
  have hholds := decodeNotificationRow_eq_ok hdecode
  obtain ⟨hp, hm⟩ := validateStoredNotificationReferences_eq_ok_iff.mp hrefs
  refine ⟨hfits, n, hdecode, validateStoredNotificationReferences_eq_ok_iff.mpr ⟨fun id hid => ?_, fun id hid => ?_⟩⟩
  · exact hproposals id (hholds.proposalId.symm.trans hid) (hp id hid)
  · obtain ⟨m, hm', hsame⟩ := hm id hid
    obtain ⟨m', hfound, hproposal⟩ := hmappings id m (hholds.eventMappingId.symm.trans hid) hm'
    exact ⟨m', hfound, by rw [hproposal, hsame]⟩

/-- Deleting mappings, and with them the notifications about them, keeps the outbox readable. -/
theorem Consistent.outbox_deleteEventMappings (hc : Consistent env db) (p : EventMappingStoredRow → Bool) :
    Table.Lawful NotificationStoredRow.Clash (Readable env.json (db.deleteEventMappings p))
      (db.deleteEventMappings p).notificationOutbox := by
  refine (hc.notificationOutbox.deleteWhere _).mono fun row hrow => Readable.mono (fun _ _ h => h) fun id m hid hm => ?_
  have hkept := (Table.mem_deleteWhere.mp hrow).2
  rw [hid, Option.any_some, List.contains_eq_mem, decide_eq_false_iff_not] at hkept
  refine ⟨m, ?_, rfl⟩
  rw [← hm]
  refine Table.byRowid_deleteWhere fun r hr hrid => ?_
  by_contra hdeleted
  exact hkept (List.mem_map.mpr ⟨r, List.mem_filter.mpr ⟨hr, by simpa using hdeleted⟩, hrid⟩)

/-- Deleting a proposal, and with it its mappings and notifications, keeps the outbox readable. -/
theorem Consistent.outbox_deleteProposal (hc : Consistent env db) (id : ℤ) :
    Table.Lawful NotificationStoredRow.Clash (Readable env.json (db.deleteProposal id))
      (db.deleteProposal id).notificationOutbox := by
  refine ((hc.outbox_deleteEventMappings fun m => m.proposalId == id).deleteWhere _).mono fun row hrow =>
    Readable.mono (fun pid hpid hp => ?_) fun _ m _ hm => ⟨m, hm, rfl⟩
  have hkept := (Table.mem_deleteWhere.mp hrow).2
  have hne : pid ≠ id := by
    rintro rfl
    simp [hpid] at hkept
  have hsame : Table.byRowid pid (Table.deleteWhere (fun p => p.id == id) db.proposals) = Table.byRowid pid db.proposals :=
    Table.byRowid_deleteWhere fun r _ hrid => by
      rw [beq_eq_false_iff_ne]
      exact fun heq => hne (hrid.symm.trans heq)
  exact hsame ▸ hp

theorem Actionable.hasTasks {m : StoredMessage} (h : Actionable m) : HasTasks m := ⟨h.1, Or.inl h.2⟩

theorem MessageIs.mono {P Q : StoredMessage → Prop} {id : ℤ} (hPQ : ∀ m, P m → Q m) (h : MessageIs P db id) :
    MessageIs Q db id := by
  obtain ⟨row, m, hrow, hm, hP⟩ := h
  exact ⟨row, m, hrow, hm, hPQ m hP⟩

/-- The message of a task keeps that role when messages move: from actionable, the graph leads to scheduled only,
and from scheduled nowhere. -/
theorem MessageIs.transition {sourceId : String} {expected next : MessageTriageState} {updatedAt : String} {id : ℤ}
    (h : MessageIs HasTasks db id) (hvalid : validMessageTransition expected next = true)
    (hdecodes : ∀ r ∈ db.messages, ownMessage sourceId expected r = true →
      ∃ m, decodeMessageRow (r.transition next updatedAt) = .ok m) :
    MessageIs HasTasks { db with
      messages := Table.updateWhere (ownMessage sourceId expected) (MessageStoredRow.transition next updatedAt)
        db.messages } id := by
  obtain ⟨row, m, hrow, hm, hprovider, hstate⟩ := h
  by_cases hown : ownMessage sourceId expected row = true
  · obtain ⟨m', hm'⟩ := hdecodes row (Table.byRowid_eq_some hrow).1 hown
    refine ⟨row.transition next updatedAt, m', Table.byRowid_updateWhere (fun _ => rfl) hrow hown, hm', ?_⟩
    have hholds := decodeMessageRow_eq_ok hm
    have hholds' := decodeMessageRow_eq_ok hm'
    have hsame : m'.provider = m.provider :=
      MessageProvider.asStr_inj (hholds'.provider.symm.trans hholds.provider)
    have hexpected : expected = m.triageState := by
      refine MessageTriageState.asStr_inj ?_
      rw [← hholds.triageState]
      exact (beq_iff_eq.mp (Bool.and_eq_true_iff.mp hown).2).symm
    have hnext : m'.triageState = next := MessageTriageState.asStr_inj hholds'.triageState.symm
    refine ⟨hsame ▸ hprovider, Or.inr ?_⟩
    rw [hexpected] at hvalid
    rw [hnext]
    rcases hstate with hstate | hstate <;> rw [hstate] at hvalid <;> cases next <;> first | rfl | cases hvalid
  · have hfind : Table.byRowid id (Table.updateWhere (ownMessage sourceId expected)
        (MessageStoredRow.transition next updatedAt) db.messages) = (Table.byRowid id db.messages).map fun r =>
          if ownMessage sourceId expected r then r.transition next updatedAt else r :=
      Table.byKey_updateWhere fun _ => rfl
    refine ⟨row, m, ?_, hm, hprovider, hstate⟩
    rw [hfind, hrow, Option.map_some, if_neg hown]

/-- A quote that a change of the table of quotes wrote is readable, and so are the others. -/
theorem Consistent.quotes_update (hc : Consistent env db) {row : AppointmentQuoteStoredRow}
    {f : AppointmentQuoteStoredRow → AppointmentQuoteStoredRow} {q : StoredAppointmentQuote}
    (hmem : row ∈ db.appointmentQuotes)
    (hclash : ∀ r ∈ db.appointmentQuotes, ∀ s ∈ db.appointmentQuotes, ¬ r.Clash s →
      ¬ AppointmentQuoteStoredRow.Clash (if r.quoteId == row.quoteId then f r else r)
        (if s.quoteId == row.quoteId then f s else s))
    (hdecode : decodeAppointmentQuoteRow env.timezones
      (db.mapQuotes (Table.updateWhere (fun r => r.quoteId == row.quoteId) f)) (f row) = .ok q) :
    Table.Lawful AppointmentQuoteStoredRow.Clash
      (fun r => ∃ q, decodeAppointmentQuoteRow env.timezones
        (db.mapQuotes (Table.updateWhere (fun r => r.quoteId == row.quoteId) f)) r = .ok q)
      (Table.updateWhere (fun r => r.quoteId == row.quoteId) f db.appointmentQuotes) := by
  refine hc.appointmentQuotes.updateWhere hclash fun r hr hid => ?_
  obtain rfl := hc.quote_id.eq hr hmem (beq_iff_eq.mp hid)
  exact ⟨q, hdecode⟩

/-- What moving a proposal finds afterwards. -/
theorem byRowid_transitionProposal (id : ℤ) (next : ProposalState) (clock : SystemTime) (id' : ℤ) :
    Table.byRowid id' (Table.updateWhere (fun r => r.id == id && r.state == "pending")
        (ProposalStoredRow.transition next clock) db.proposals) = (Table.byRowid id' db.proposals).map fun r =>
      if r.id == id && r.state == "pending" then r.transition next clock else r :=
  Table.byKey_updateWhere fun _ => rfl

/-- Every row that moving a proposal moves is the one it found. -/
theorem Consistent.decode_moved (hc : Consistent env db) {id : ℤ} {next : ProposalState} {clock : SystemTime}
    {row : ProposalStoredRow} {p : StoredProposal} (found : Table.byRowid id db.proposals = some row)
    (decodes : decodeProposalRow (row.transition next clock) = .ok p) {r : ProposalStoredRow} (hr : r ∈ db.proposals)
    (hhere : (r.id == id && r.state == "pending") = true) : decodeProposalRow (r.transition next clock) = .ok p := by
  obtain ⟨hmem, hrowid⟩ := Table.byRowid_eq_some found
  have hid : r.id = id := beq_iff_eq.mp (Bool.and_eq_true_iff.mp hhere).1
  obtain rfl := hc.proposal_id.eq hr hmem (hid.trans hrowid.symm)
  exact decodes

/-- **What a quote refers to is the same after every change**: its slots, its draft, and what its proposal asks
for. -/
theorem Change.sameReferences {db' : Database} (h : Change env db db') (hc : Consistent env db)
    {row : AppointmentQuoteStoredRow} (hrow : row ∈ db.appointmentQuotes) : SameReferences db db' row := by
  have hall : SameReferences db db row := SameReferences.of_eq rfl rfl rfl
  cases h with
  | insertAppointmentDraft => exact { hall with draft := fun _ _ _ hr => Table.byRowid_append hr _ }
  | @deleteAppointmentDraft id free =>
    refine { hall with draft := fun did hdraft r hr => ?_ }
    have hne : did ≠ id := by
      rintro rfl
      rw [Database.appointmentDraftRestricted, Bool.or_eq_false_iff, List.any_eq_false] at free
      have hquote := (List.any_eq_false.mp free.2) row hrow
      simp [Option.mem_def.mp hdraft] at hquote
    rw [← hr]
    exact Table.byRowid_deleteWhere fun s _ hsid => beq_eq_false_iff_ne.mpr fun heq => hne (hsid.symm.trans heq)
  | @issueQuote row' slots q fresh slots_quoteId =>
    exact { hall with slots := quoteSlotRows_insertQuote slots_quoteId (fresh row hrow) }
  | insertProposal =>
    exact { hall with proposal := fun _ _ r p hr hp => ⟨r, p, Table.byRowid_append hr _, hp, .refl p⟩ }
  | @transitionProposal id next clock row' p' terminal found decodes =>
    refine { hall with proposal := fun id' _ r p hr hp => ?_ }
    have hfind : Table.byRowid id' (Table.updateWhere (fun r => r.id == id && r.state == "pending")
        (ProposalStoredRow.transition next clock) db.proposals) = (Table.byRowid id' db.proposals).map fun r =>
      if r.id == id && r.state == "pending" then r.transition next clock else r :=
      byRowid_transitionProposal id next clock id'
    by_cases hhere : (r.id == id && r.state == "pending") = true
    · have hdecode := hc.decode_moved found decodes (Table.byRowid_eq_some hr).1 hhere
      refine ⟨r.transition next clock, p', ?_, hdecode, decodeProposalRow_sameRequest hp hdecode rfl rfl rfl rfl rfl⟩
      rw [hfind, hr, Option.map_some, if_pos hhere]
    · refine ⟨r, p, ?_, hp, .refl p⟩
      rw [hfind, hr, Option.map_some, if_neg hhere]
  | @deleteProposal id free =>
    refine { hall with proposal := fun id' hproposal r p hr hp => ⟨r, p, ?_, hp, .refl p⟩ }
    have hne : id' ≠ id := by
      rintro rfl
      have hquote := (List.any_eq_false.mp free) row hrow
      simp [Option.mem_def.mp hproposal] at hquote
    rw [← hr]
    exact Table.byRowid_deleteWhere fun s _ hsid => beq_eq_false_iff_ne.mpr fun heq => hne (hsid.symm.trans heq)
  | _ => exact SameReferences.of_eq rfl rfl rfl

/-- Every quote is read the same after a change. -/
theorem Change.quotes_kept {db' : Database} (h : Change env db db') (hc : Consistent env db) :
    Table.Lawful AppointmentQuoteStoredRow.Clash
      (fun r => ∃ q, decodeAppointmentQuoteRow env.timezones db' r = .ok q) db.appointmentQuotes :=
  hc.appointmentQuotes.mono fun _ hrow ⟨q, hq⟩ => ⟨q, decodeAppointmentQuoteRow_keeps (h.sameReferences hc hrow) hq⟩

end Preservation

/-- **Each change keeps the tables consistent.** -/
theorem Change.consistent {env : Environment} {db db' : Database} (h : Change env db db') (hc : Consistent env db) :
    Consistent env db' := by
  have hquotes := h.quotes_kept hc
  cases h with
  | @insertAppointmentDraft row d id decodes fresh =>
    exact { hc with
      appointmentDrafts := hc.appointmentDrafts.insert (fun s hs hclash => by
        have hfresh := fresh s hs
        rcases hclash with hid | hkey | hsource | hquote
        · exact absurd (hid.trans id) (Table.rowid_lt_nextRowid hs).ne
        · exact hfresh.1 hkey
        · exact hfresh.2.1 hsource
        · exact hfresh.2.2 hquote) ⟨d, decodes⟩
      appointmentQuotes := hquotes }
  | @deleteAppointmentDraft id free =>
    exact { hc with
      appointmentDrafts := hc.appointmentDrafts.deleteWhere _
      appointmentQuotes := hquotes }
  | @issueQuote row slots q fresh slots_quoteId issued decodes =>
    have hrow := decodeAppointmentQuoteRow_eq_ok decodes
    have hstate : q.state = .issued := StoredAppointmentQuoteState.storageName_inj (hrow.state.symm.trans issued)
    exact { hc with
      appointmentQuotes := hquotes.insert (fun s hs hclash => by
        rcases hclash with hid | ⟨k, -, hk⟩
        · exact fresh s hs hid
        · rw [(hrow.issued hstate).1] at hk
          cases hk) ⟨q, decodes⟩ }
  | @prepareQuote row draftId slotIndex now current q mem decodes_before issued valid fresh decodes =>
    exact { hc with
      appointmentQuotes := hc.quotes_update mem (fun r hr s hs hrs => by
        by_cases hri : r.quoteId = row.quoteId <;> by_cases hsi : s.quoteId = row.quoteId
        · exact absurd (Or.inl (hri.trans hsi.symm)) hrs
        · simp only [hri, hsi, beq_self_eq_true, if_true, beq_iff_eq, if_false]
          rintro (hid | ⟨k, hk, hk'⟩)
          · exact hsi (hid.symm.trans hri)
          · cases hk
            exact fresh s hs hsi hk'
        · simp only [hri, hsi, beq_self_eq_true, if_true, beq_iff_eq, if_false]
          rintro (hid | ⟨k, hk, hk'⟩)
          · exact hri (hid.trans hsi)
          · cases hk'
            exact fresh r hr hri hk
        · simpa only [hri, hsi, beq_iff_eq, if_false] using hrs) decodes }
  | @consumeQuote row consumedAt proposalId now current q mem decodes_before prepared valid decodes =>
    exact { hc with
      appointmentQuotes := hc.quotes_update mem (fun r hr s hs hrs => by
        split_ifs <;> exact hrs) decodes }
  | @insertOwnerTaskDraft row d id decodes key fresh =>
    exact { hc with
      ownerTaskDrafts := hc.ownerTaskDrafts.insert (fun s hs hclash => by
        rcases hclash with hid | hkey | hsource
        · exact absurd (hid.trans id) (Table.rowid_lt_nextRowid hs).ne
        · exact (fresh s hs).1 hkey
        · exact (fresh s hs).2 hsource) ⟨⟨d, decodes⟩, key⟩
      ownerTaskPlacements := hc.ownerTaskPlacements.mono fun r _ ⟨hdecode, hreferred⟩ => ⟨hdecode, by
        obtain ⟨row', d', hrow', hd'⟩ := ensureOwnerTaskDraftExists_eq_ok_iff.mp hreferred
        exact ensureOwnerTaskDraftExists_eq_ok_iff.mpr ⟨row', d', Table.byRowid_append hrow' _, hd'⟩⟩ }
  | @deleteOwnerTaskDraft id free =>
    exact { hc with
      ownerTaskDrafts := hc.ownerTaskDrafts.deleteWhere _
      ownerTaskPlacements := hc.ownerTaskPlacements.mono fun r hr ⟨hdecode, hreferred⟩ => ⟨hdecode, by
        obtain ⟨row', d', hrow', hd'⟩ := ensureOwnerTaskDraftExists_eq_ok_iff.mp hreferred
        refine ensureOwnerTaskDraftExists_eq_ok_iff.mpr ⟨row', d', ?_, hd'⟩
        rw [← hrow']
        exact Table.byRowid_deleteWhere fun s _ hsid =>
          beq_eq_false_iff_ne.mpr fun heq => free r hr (hsid.symm.trans heq)⟩ }
  | @insertPlacement row p decodes referred prepared fresh =>
    exact { hc with
      ownerTaskPlacements := hc.ownerTaskPlacements.insert (fun s hs hclash => by
        rcases hclash with hid | hkey | ⟨k, -, hk⟩
        · exact (fresh s hs).1 hid
        · exact (fresh s hs).2 hkey
        · rw [prepared] at hk
          cases hk) ⟨⟨p, decodes⟩, referred⟩ }
  | @submitPlacement ownerTaskDraftId providerEventId p submitted =>
    obtain ⟨row, hrow, hid, -, hdecode⟩ := submitted.exists_row
    exact { hc with
      ownerTaskPlacements := by
        refine hc.ownerTaskPlacements.updateWhere (fun r hr s hs hrs => ?_) fun r hr hri => ?_
        · by_cases hri : r.ownerTaskDraftId = ownerTaskDraftId <;> by_cases hsi : s.ownerTaskDraftId = ownerTaskDraftId
          · exact absurd (Or.inl (hri.trans hsi.symm)) hrs
          · simp only [hri, hsi, beq_self_eq_true, if_true, beq_iff_eq, if_false]
            rintro (hid | hkey | ⟨k, hk, hk'⟩)
            · exact hsi (hid.symm.trans hri)
            · exact hrs (Or.inr (Or.inl hkey))
            · cases hk
              exact submitted.fresh s hs hk'
          · simp only [hri, hsi, beq_self_eq_true, if_true, beq_iff_eq, if_false]
            rintro (hid | hkey | ⟨k, hk, hk'⟩)
            · exact hri (hid.trans hsi)
            · exact hrs (Or.inr (Or.inl hkey))
            · cases hk'
              exact submitted.fresh r hr hk
          · simpa only [hri, hsi, beq_iff_eq, if_false] using hrs
        · obtain rfl := hc.placement_id.eq hr hrow ((beq_iff_eq.mp hri).trans hid.symm)
          exact ⟨⟨p, hdecode⟩, (hc.ownerTaskPlacements.readable r hr).2⟩ }
  | @insertProposal row p id decodes fresh =>
    exact { hc with
      proposals := hc.proposals.insert (fun s hs hclash => by
        rcases hclash with hid | hkey | hsource
        · exact absurd (hid.trans id) (Table.rowid_lt_nextRowid hs).ne
        · exact (fresh s hs).1 hkey
        · exact (fresh s hs).2 hsource) ⟨p, decodes⟩
      appointmentQuotes := hquotes
      notificationOutbox := hc.notificationOutbox.mono fun r _ => Readable.mono (fun id' _ hsome => by
        obtain ⟨r', hr'⟩ := Option.isSome_iff_exists.mp hsome
        exact Option.isSome_iff_exists.mpr ⟨r', Table.byRowid_append hr' _⟩) fun _ m _ hm => ⟨m, hm, rfl⟩ }
  | @transitionProposal id next clock row p terminal found decodes =>
    exact { hc with
      proposals := hc.proposals.updateWhere_keep (fun _ _ => Iff.rfl) (fun _ _ => Iff.rfl) fun r hr hhere =>
        ⟨p, hc.decode_moved found decodes hr hhere⟩
      appointmentQuotes := hquotes
      notificationOutbox := hc.notificationOutbox.mono fun r _ => Readable.mono (fun id' _ hsome => by
        rw [byRowid_transitionProposal, Option.isSome_map]
        exact hsome) fun _ m _ hm => ⟨m, hm, rfl⟩ }
  | @deleteProposal id free =>
    exact { hc with
      proposals := hc.proposals.deleteWhere _
      eventMappings := hc.eventMappings.deleteWhere _
      appointmentQuotes := hquotes
      notificationOutbox := hc.outbox_deleteProposal id }
  | @insertEventMapping row m id decodes fresh =>
    exact { hc with
      eventMappings := hc.eventMappings.insert (fun s hs hclash => by
        rcases hclash with hid | hproposal | hevent | hsource
        · exact absurd (hid.trans id) (Table.rowid_lt_nextRowid hs).ne
        · exact (fresh s hs).1 hproposal
        · exact (fresh s hs).2.1 hevent
        · exact (fresh s hs).2.2 hsource) ⟨m, decodes⟩
      notificationOutbox := hc.notificationOutbox.mono fun r _ => Readable.mono (fun _ _ h => h) fun _ m' _ hm' =>
        ⟨m', Table.byRowid_append hm' _, rfl⟩ }
  | deleteEventMapping id =>
    exact { hc with
      eventMappings := hc.eventMappings.deleteWhere _
      notificationOutbox := hc.outbox_deleteEventMappings _ }
  | @insertNotification row id pending attempts readable fresh =>
    exact { hc with
      notificationOutbox := hc.notificationOutbox.insert (fun s hs hclash => by
        rcases hclash with hid | hkey
        · exact absurd (hid.trans id) (Table.rowid_lt_nextRowid hs).ne
        · exact fresh s hs hkey) readable }
  | @claimNotifications ids nowKey leaseUntil updatedAt claims =>
    exact { hc with
      notificationOutbox := hc.notificationOutbox.updateWhere_keep (fun _ _ => Iff.rfl) (fun _ _ => Iff.rfl)
        fun r hr hid => (claims r hr (by simpa using hid)).2 }
  | @completeNotification id attempt sentAt updatedAt owned =>
    exact { hc with
      notificationOutbox := hc.notificationOutbox.updateWhere_keep (fun _ _ => Iff.rfl) (fun _ _ => Iff.rfl)
        fun r hr hid => (owned r hr (beq_iff_eq.mp hid)).2 }
  | @rescheduleNotification id attempt availableAt errorCode updatedAt owned =>
    exact { hc with
      notificationOutbox := hc.notificationOutbox.updateWhere_keep (fun _ _ => Iff.rfl) (fun _ _ => Iff.rfl)
        fun r hr hid => (owned r hr (beq_iff_eq.mp hid)).2 }
  | deleteNotification id => exact { hc with notificationOutbox := hc.notificationOutbox.deleteWhere _ }
  | @insertMessage row m id decodes fresh =>
    exact { hc with
      messages := hc.messages.insert (fun s hs hclash => by
        rcases hclash with hid | hkey | hsource | hprovider
        · exact absurd (hid.trans id) (Table.rowid_lt_nextRowid hs).ne
        · exact (fresh s hs).1 hkey
        · exact (fresh s hs).2.1 hsource
        · exact (fresh s hs).2.2 hprovider) ⟨m, decodes⟩
      tasks := hc.tasks.mono fun r _ ⟨hdecode, row', m', hrow', hm'⟩ =>
        ⟨hdecode, row', m', Table.byRowid_append hrow' _, hm'⟩ }
  | @transitionMessage sourceId expected next updatedAt valid decodes =>
    exact { hc with
      messages := hc.messages.updateWhere_keep (fun _ _ => Iff.rfl) (fun _ _ => Iff.rfl) decodes
      tasks := hc.tasks.mono fun r _ ⟨hdecode, hmessage⟩ => ⟨hdecode, hmessage.transition valid decodes⟩ }
  | @insertTask row t id decodes message fresh =>
    exact { hc with
      tasks := hc.tasks.insert (fun s hs hclash => by
        rcases hclash with hid | hkey | hsource
        · exact absurd (hid.trans id) (Table.rowid_lt_nextRowid hs).ne
        · exact (fresh s hs).1 hkey
        · exact (fresh s hs).2 hsource) ⟨⟨t, decodes⟩, message.mono fun _ => Actionable.hasTasks⟩ }
  | @transitionTask sourceId expected next updatedAt valid decodes =>
    exact { hc with
      tasks := hc.tasks.updateWhere_keep (fun _ _ => Iff.rfl) (fun _ _ => Iff.rfl) fun r hr hown =>
        ⟨decodes r hr hown, (hc.tasks.readable r hr).2⟩ }
  | @insertAuditEvent row e id decodes fresh =>
    exact { hc with
      auditEvents := hc.auditEvents.insert (fun s hs hclash => by
        rcases hclash with hid | hkey
        · exact absurd (hid.trans id) (Table.rowid_lt_nextRowid hs).ne
        · exact fresh s hs hkey) ⟨e, decodes⟩ }

end AgentVoice.Store

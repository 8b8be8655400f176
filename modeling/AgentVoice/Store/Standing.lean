import AgentVoice.Store.InsertLaws

/-!
# What stands in the store

That a message, a notification or an audit event with the content of a call stands in the tables. Recording,
enqueueing and appending leave it there; deliveries and inserts let it stand (`Grows`); and a call whose content
stands, or whose identities no row has, succeeds.
-/

namespace AgentVoice.Store

open AgentVoice.Foundations AgentVoice.Foundations.IdempotentInsert AgentVoice.Domain

variable {env : Environment} {db db' : Database}

/-! ### Deliveries -/

/-- The calls of the workers that deliver notifications. -/
def Command.isDelivery : Command → Bool
  | .claimNotifications .. | .markNotificationSent .. => true
  | _ => false

namespace NotificationStoredRow

/-- Versions of a row with the same content: what no call writes again once the row is there. -/
structure SameContent (r r' : NotificationStoredRow) : Prop where
  id : r'.id = r.id
  idempotencyKey : r'.idempotencyKey = r.idempotencyKey
  proposalId : r'.proposalId = r.proposalId
  eventMappingId : r'.eventMappingId = r.eventMappingId
  notificationKind : r'.notificationKind = r.notificationKind
  recipient : r'.recipient = r.recipient
  payload : r'.payload = r.payload

/-- Versions of a row with the same content and availability: what deliveries do not write. -/
structure SameRequest (r r' : NotificationStoredRow) : Prop extends SameContent r r' where
  availableAt : r'.availableAt = r.availableAt

theorem SameContent.refl (r : NotificationStoredRow) : r.SameContent r := ⟨rfl, rfl, rfl, rfl, rfl, rfl, rfl⟩

theorem SameContent.trans {r s t : NotificationStoredRow} (h : r.SameContent s) (h' : s.SameContent t) :
    r.SameContent t :=
  ⟨h'.id.trans h.id, h'.idempotencyKey.trans h.idempotencyKey, h'.proposalId.trans h.proposalId,
    h'.eventMappingId.trans h.eventMappingId, h'.notificationKind.trans h.notificationKind,
    h'.recipient.trans h.recipient, h'.payload.trans h.payload⟩

theorem SameRequest.refl (r : NotificationStoredRow) : r.SameRequest r := ⟨.refl r, rfl⟩

theorem SameRequest.trans {r s t : NotificationStoredRow} (h : r.SameRequest s) (h' : s.SameRequest t) :
    r.SameRequest t := ⟨h.toSameContent.trans h'.toSameContent, h'.availableAt.trans h.availableAt⟩

/-- Rows with the same content are read as notifications with the same content. -/
theorem SameContent.decoded {json : TemplateJson} {r r' : NotificationStoredRow} (h : r.SameContent r')
    {n n' : StoredNotification} (hn : decodeNotificationRow json r = .ok n) (hn' : decodeNotificationRow json r' = .ok n') :
    n'.id = n.id ∧ n'.proposalId = n.proposalId ∧ n'.eventMappingId = n.eventMappingId ∧ n'.kind = n.kind ∧
      n'.recipient = n.recipient ∧ n'.templateData = n.templateData := by
  have hholds := decodeNotificationRow_eq_ok hn
  have hholds' := decodeNotificationRow_eq_ok hn'
  obtain ⟨payload, fields, hpayload, hfields, htemplate⟩ := hholds.payload
  obtain ⟨payload', fields', hpayload', hfields', htemplate'⟩ := hholds'.payload
  have hkind : parseNotificationKind r.notificationKind = .ok n'.kind :=
    parseNotificationKind_eq_ok_iff.mpr (h.notificationKind.symm.trans hholds'.kind)
  have hrecipient : ConfirmedEmail.confirm r.recipient = .ok n'.recipient :=
    ConfirmedEmail.confirm_eq_ok_iff.mpr (hholds'.recipient.trans h.recipient)
  refine ⟨?_, ?_, ?_, ?_, ?_, ?_⟩
  · rw [hholds.id, hholds'.id, h.id]
  · rw [hholds.proposalId, hholds'.proposalId, h.proposalId]
  · rw [hholds.eventMappingId, hholds'.eventMappingId, h.eventMappingId]
  · exact Except.ok.inj (hkind.symm.trans (parseNotificationKind_eq_ok_iff.mpr hholds.kind))
  · exact Except.ok.inj (hrecipient.symm.trans (ConfirmedEmail.confirm_eq_ok_iff.mpr hholds.recipient))
  · obtain rfl := Option.some.inj (hpayload'.symm.trans (h.payload.trans hpayload))
    obtain rfl := Option.some.inj (hfields'.symm.trans hfields)
    exact Except.ok.inj (htemplate'.symm.trans htemplate)

/-- Rows with the same content and availability are read as the same request. -/
theorem SameRequest.sameAs {json : TemplateJson} {r r' : NotificationStoredRow} (h : r.SameRequest r')
    {n n' : StoredNotification} (hn : decodeNotificationRow json r = .ok n) (hn' : decodeNotificationRow json r' = .ok n')
    {request : EnqueueRequest} (hsame : request.SameAs n) : request.SameAs n' := by
  obtain ⟨-, hproposal, hmapping, hkind, hrecipient, htemplate⟩ := h.toSameContent.decoded hn hn'
  obtain ⟨hutc, hformat⟩ := (decodeNotificationRow_eq_ok hn).availableAt
  obtain ⟨hutc', hformat'⟩ := (decodeNotificationRow_eq_ok hn').availableAt
  rw [h.availableAt] at hformat'
  have havailable : n'.availableAt = n.availableAt := format_injective hformat' hformat
  obtain ⟨h₁, h₂, h₃, h₄, h₅, h₆⟩ := hsame
  exact ⟨hproposal.trans h₁, hmapping.trans h₂, hkind.trans h₃, hrecipient.trans h₄, htemplate.trans h₅,
    havailable.trans h₆⟩

end NotificationStoredRow

/-- What deliveries do to the tables. -/
structure Delivered (db db' : Database) : Prop where
  outbox : List.Forall₂ NotificationStoredRow.SameRequest db.notificationOutbox db'.notificationOutbox
  others : db' = { db with notificationOutbox := db'.notificationOutbox }

theorem Delivered.refl (db : Database) : Delivered db db :=
  ⟨List.forall₂_same.mpr fun r _ => NotificationStoredRow.SameRequest.refl r, rfl⟩

/-- A change of the rows of the outbox that leaves what they hold. -/
theorem Delivered.updateWhere {p : NotificationStoredRow → Bool} {f : NotificationStoredRow → NotificationStoredRow}
    (hf : ∀ r : NotificationStoredRow, r.SameRequest (f r)) : Delivered db (db.mapOutbox (Table.updateWhere p f)) := by
  refine ⟨List.forall₂_map_right_iff.mpr (List.forall₂_same.mpr fun r _ => ?_), rfl⟩
  split
  · exact hf r
  · exact .refl r

/-- **A delivery** leaves what the notifications hold, and every other table. -/
theorem step_delivered (hc : Consistent env db) {c : Command} (h : c.isDelivery = true) :
    Delivered db (step env c db) := by
  cases hrun : (c.transaction env).run db with
  | error e =>
    rw [step_of_error hrun]
    exact .refl _
  | ok r =>
    rw [step_of_ok (u := ()) hrun]
    cases c with
    | claimNotifications =>
      obtain ⟨ns, hns⟩ := Tx.run_discard_eq_ok_iff.mp hrun
      obtain ⟨_, _, _, -, -, hdb, -⟩ := claimNotifications_run_eq_ok hc.notification_id hns
      rw [hdb]
      exact .updateWhere fun r => ⟨⟨rfl, rfl, rfl, rfl, rfl, rfl, rfl⟩, rfl⟩
    | markNotificationSent =>
      obtain ⟨n, hn⟩ := Tx.run_discard_eq_ok_iff.mp hrun
      rcases markNotificationSent_run_eq_ok hc.notification_id hn with ⟨hdb, -⟩ | ⟨_, _, -, hdb, -⟩
      · rw [hdb]
        exact .refl _
      · rw [hdb]
        exact .updateWhere fun r => ⟨⟨rfl, rfl, rfl, rfl, rfl, rfl, rfl⟩, rfl⟩
    | _ => cases h

/-! ### Messages -/

/-- No message has an identity of a request. -/
def NoMessage (r : MessageRequest) (db : Database) : Prop := ∀ row ∈ db.messages, ¬ r.Shares row

/-- A message with an id that holds what a request asks for. -/
def MessageStands (r : MessageRequest) (id : ℤ) (db : Database) : Prop :=
  ∃ row ∈ db.messages, ∃ m, decodeMessageRow row = .ok m ∧ m.id = id ∧ r.IsContentOf m

theorem Consistent.message_apart (hc : Consistent env db) {row row' : MessageStoredRow} (hrow : row ∈ db.messages)
    (hrow' : row' ∈ db.messages) {r : MessageRequest} {m : StoredMessage} (hm : decodeMessageRow row = .ok m)
    (hcontent : r.IsContentOf m) (hshares : r.Shares row') : row' = row := by
  have hholds := decodeMessageRow_eq_ok hm
  obtain ⟨hkey, hsource, hprovider, hmessage, -⟩ := hcontent
  have howns : r.Owns row := ⟨hholds.idempotencyKey.symm.trans hkey, hholds.sourceId.symm.trans hsource,
    hprovider ▸ hholds.provider, hholds.providerMessageId.symm.trans hmessage⟩
  exact (hc.message_alone hrow howns row' hrow').mp hshares

theorem MessageRequest.shares_of_content {r : MessageRequest} {row : MessageStoredRow} {m : StoredMessage}
    (hm : decodeMessageRow row = .ok m) (hcontent : r.IsContentOf m) : r.Shares row :=
  Or.inl ((decodeMessageRow_eq_ok hm).idempotencyKey.symm.trans hcontent.1)

/-- One message holds what a request asks for. -/
theorem MessageStands.unique (hc : Consistent env db) {r : MessageRequest} {id id' : ℤ} (h : MessageStands r id db)
    (h' : MessageStands r id' db) : id = id' := by
  obtain ⟨row, hrow, m, hm, rfl, hcontent⟩ := h
  obtain ⟨row', hrow', m', hm', rfl, hcontent'⟩ := h'
  obtain rfl := hc.message_apart hrow hrow' hm hcontent (MessageRequest.shares_of_content hm' hcontent')
  rw [Except.ok.inj (hm.symm.trans hm')]

theorem MessageStands.not_noMessage {r : MessageRequest} {id : ℤ} (h : MessageStands r id db) : ¬ NoMessage r db := by
  obtain ⟨row, hrow, m, hm, -, hcontent⟩ := h
  exact fun hnone => hnone row hrow (MessageRequest.shares_of_content hm hcontent)

theorem recordMessage_run_fresh {r : MessageRequest} (h : r.Accepted) (hfresh : NoMessage r db) (clock : SystemTime) :
    ∃ row, (recordMessage r clock).run db =
        .ok (r.stored clock (Table.nextRowid db.messages), { db with messages := db.messages ++ [row] }) ∧
      decodeMessageRow row = .ok (r.stored clock (Table.nextRowid db.messages)) := by
  obtain ⟨text, hformat, hrun⟩ := recordMessage_run_of_accepted h clock db
  have hdecode := decodeMessageRow_insert h hformat clock (Table.nextRowid_pos db.messages)
  have hclash : ∀ row ∈ db.messages, (r.insert r.receivedAt text clock).clashes row = false := by
    intro row hrow
    have hapart := hfresh row hrow
    simpa [MessageRequest.insert, MessageRequest.Shares, or_assoc, and_assoc] using hapart
  have hexec := run_exec_fresh (fun _ => rfl) hclash hdecode
  exact ⟨_, hrun.trans (Tx.run_zoom_eq_ok_iff.mpr ⟨_, hexec, rfl⟩), hdecode⟩

theorem recordMessage_run_stands (hc : Consistent env db) {r : MessageRequest} (haccepted : r.Accepted) {id : ℤ}
    (h : MessageStands r id db) (clock : SystemTime) :
    ∃ m, (recordMessage r clock).run db = .ok (m, db) ∧ m.id = id := by
  obtain ⟨text, -, hrun⟩ := recordMessage_run_of_accepted haccepted clock db
  obtain ⟨row, hrow, m, hm, rfl, hcontent⟩ := h
  have hshares : ∀ row, (r.insert r.receivedAt text clock).clashes row = true ↔ r.Shares row := fun row => by
    simp [MessageRequest.insert, MessageRequest.Shares, or_assoc]
  have hexec := run_exec_retry hc.message_id hrow
    ((hshares row).mpr (MessageRequest.shares_of_content hm hcontent))
    (fun s hs hclash => hc.message_apart hrow hs hm hcontent ((hshares s).mp hclash)) hm (decide_eq_true hcontent)
  exact ⟨m, hrun.trans (Tx.run_zoom_eq_ok_iff.mpr ⟨_, hexec, rfl⟩), rfl⟩

theorem MessageStands.pos {r : MessageRequest} {id : ℤ} (h : MessageStands r id db) : 0 < id := by
  obtain ⟨row, -, m, hm, rfl, -⟩ := h
  have hholds := decodeMessageRow_eq_ok hm
  rw [hholds.id]
  exact hholds.id_pos

/-- **Recording a message** adds it, or finds it; either way it stands. -/
theorem recordMessage_writes (hc : Consistent env db) {r : MessageRequest} {clock : SystemTime} {m : StoredMessage}
    (h : (recordMessage r clock).run db = .ok (m, db')) :
    MessageStands r m.id db' ∧ m.id ≤ Table.nextRowid db.messages ∧
      (db' = db ∨ NoMessage r db ∧ ∃ row, db' = { db with messages := db.messages ++ [row] }) := by
  by_cases hfresh : NoMessage r db
  · obtain ⟨row, hrun, hdecode⟩ := recordMessage_run_fresh (recordMessage_accepted h) hfresh clock
    cases hrun.symm.trans h
    exact ⟨⟨row, by simp, _, hdecode, rfl, rfl, rfl, rfl, rfl, rfl, rfl, rfl, rfl⟩, le_rfl, Or.inr ⟨hfresh, row, rfl⟩⟩
  · rcases (law_recordMessage hc r clock).outcome _ _ (Tx.commit_of_ok h) with
      ⟨a, row, -, -, -, -, -, hnone⟩ | ⟨a, ha, hdb, hsame, row, hrow, hdecode, -⟩ | ⟨e, he, -⟩
    · exact absurd hnone hfresh
    · cases ha
      refine ⟨⟨row, hdb ▸ hrow, _, hdecode, rfl, hsame⟩, ?_, Or.inl hdb⟩
      rw [(decodeMessageRow_eq_ok hdecode).id]
      exact (Table.rowid_lt_nextRowid hrow).le
    · cases he

/-! ### Notifications -/

/-- No notification has the key of a request. -/
def NoNotification (r : EnqueueRequest) (db : Database) : Prop :=
  ∀ row ∈ db.notificationOutbox, row.idempotencyKey ≠ trim r.idempotencyKey

/-- A notification with an id that holds what a request asks for, under its key. -/
def NotificationStands (json : TemplateJson) (r : EnqueueRequest) (id : ℤ) (db : Database) : Prop :=
  ∃ row ∈ db.notificationOutbox, row.idempotencyKey = trim r.idempotencyKey ∧
    ∃ n, decodeNotificationRow json row = .ok n ∧ n.id = id ∧ r.SameAs n

/-- One notification holds what a request asks for. -/
theorem NotificationStands.unique (hc : Consistent env db) {r : EnqueueRequest} {id id' : ℤ}
    (h : NotificationStands env.json r id db) (h' : NotificationStands env.json r id' db) : id = id' := by
  obtain ⟨row, hrow, hkey, n, hn, rfl, -⟩ := h
  obtain ⟨row', hrow', hkey', n', hn', rfl, -⟩ := h'
  obtain rfl := hc.notification_key.eq hrow hrow' (hkey.trans hkey'.symm)
  rw [Except.ok.inj (hn.symm.trans hn')]

theorem NotificationStands.not_noNotification {json : TemplateJson} {r : EnqueueRequest} {id : ℤ}
    (h : NotificationStands json r id db) : ¬ NoNotification r db := by
  obtain ⟨row, hrow, hkey, -⟩ := h
  exact fun hnone => hnone row hrow hkey

theorem enqueueNotification_run_fresh (hjson : env.json.RoundTrips) {r : EnqueueRequest} {key : IdempotencyKey}
    {availableAt : String} (hready : r.Ready db key availableAt) (hfresh : NoNotification r db) (clock : SystemTime) :
    ∃ persistedAt row, (enqueueNotification env.json r clock).run db =
        .ok (r.stored key.text persistedAt (Table.nextRowid db.notificationOutbox), db.mapOutbox (· ++ [row])) ∧
      row.idempotencyKey = key.text ∧ decodeNotificationRow env.json row =
        .ok (r.stored key.text persistedAt (Table.nextRowid db.notificationOutbox)) := by
  obtain ⟨persistedAt, hpersisted⟩ := clock.exists_format
  have hkey := (storeKey_eq_ok_iff.mp hready.key).2
  have hnone : Table.byKey NotificationStoredRow.idempotencyKey key.text db.notificationOutbox = none :=
    Table.byKey_eq_none.mpr fun row hrow => hkey ▸ hfresh row hrow
  have hreferences := validateNotificationReferences_run_eq_ok_iff (u := ()).mpr ⟨rfl, hready.references⟩
  have hdecode := decodeNotificationRow_row hjson hready hpersisted (Table.nextRowid_pos db.notificationOutbox)
  set row := r.row env.json key.text availableAt persistedAt (Table.nextRowid db.notificationOutbox) with hrow
  refine ⟨persistedAt, row, ?_, rfl, hdecode⟩
  have hfound : Table.byRowid (Table.nextRowid db.notificationOutbox)
      (db.mapOutbox (· ++ [row])).notificationOutbox = some row := Table.byRowid_insert rfl
  obtain ⟨-, -, -, -, hproposal, hmapping⟩ := hready.references
  have hread := readNotification_run_eq_ok_iff.mpr ⟨Eq.refl (db.mapOutbox (· ++ [row])),
    show row.attempts < 2 ^ 63 from (show (0 : ℤ) < 2 ^ 63 by decide), hdecode,
    validateStoredNotificationReferences_eq_ok_iff.mpr ⟨hproposal, hmapping⟩⟩
  rw [enqueueNotification, Tx.ofResult_bind_of_ok hready.key, Tx.ofResult_bind_of_ok hready.availableAt,
    Tx.ofResult_bind_of_ok hpersisted, Tx.run_bind_of_ok hreferences, Tx.read_bind, hnone]
  simp only [Tx.read_bind, onOutbox, Tx.write_bind]
  rw [← hrow, Tx.ofResult_bind_of_ok (okOr_eq_ok_iff.mpr hfound)]
  exact hread

theorem enqueueNotification_run_stands (hc : Consistent env db) {r : EnqueueRequest} {key : IdempotencyKey}
    {availableAt : String} (hready : r.Ready db key availableAt) {id : ℤ} (h : NotificationStands env.json r id db)
    (clock : SystemTime) : ∃ n, (enqueueNotification env.json r clock).run db = .ok (n, db) ∧ n.id = id := by
  obtain ⟨row, hrow, hkey, n, hn, rfl, hsame⟩ := h
  obtain ⟨hfits, m, hm, hrefs⟩ := hc.notificationOutbox.readable row hrow
  obtain rfl := Except.ok.inj (hn.symm.trans hm)
  have hfound := Table.byKey_of_mem hc.notification_key hrow
  rw [hkey, ← (storeKey_eq_ok_iff.mp hready.key).2] at hfound
  exact ⟨n, (enqueueNotification_run_existing _ hready hfound hfits hn hrefs).trans (if_pos hsame), rfl⟩

theorem NotificationStands.pos {json : TemplateJson} {r : EnqueueRequest} {id : ℤ}
    (h : NotificationStands json r id db) : 0 < id := by
  obtain ⟨row, -, -, n, hn, rfl, -⟩ := h
  have hholds := decodeNotificationRow_eq_ok hn
  rw [hholds.id]
  exact hholds.id_pos

/-- **Enqueueing a notification** adds it, or finds it; either way it stands. -/
theorem enqueueNotification_writes (hjson : env.json.RoundTrips) {r : EnqueueRequest} {clock : SystemTime}
    {n : StoredNotification} (h : (enqueueNotification env.json r clock).run db = .ok (n, db')) :
    NotificationStands env.json r n.id db' ∧ n.id ≤ Table.nextRowid db.notificationOutbox ∧
      (db' = db ∨ NoNotification r db ∧ ∃ row, db' = db.mapOutbox (· ++ [row])) := by
  obtain ⟨key, availableAt, hready, hcases⟩ := enqueueNotification_run_eq_ok h
  have hkey := (storeKey_eq_ok_iff.mp hready.key).2
  rcases hcases with ⟨_, _, -, hfresh, -⟩ | ⟨rfl, row, hrow, hrowkey, hn, hsame⟩
  · have hnone : NoNotification r db := fun row hrow => hkey ▸ hfresh row hrow
    obtain ⟨persistedAt, row, hrun, hrowkey, hdecode⟩ := enqueueNotification_run_fresh hjson hready hnone clock
    cases hrun.symm.trans h
    refine ⟨⟨row, ?_, hrowkey.trans hkey, _, hdecode, rfl, r.sameAs_stored _ _ _⟩, le_rfl, Or.inr ⟨hnone, row, rfl⟩⟩
    exact List.mem_append_right _ (by simp)
  · refine ⟨⟨row, hrow, hrowkey.trans hkey, n, hn, rfl, hsame⟩, ?_, Or.inl rfl⟩
    rw [(decodeNotificationRow_eq_ok hn).id]
    exact (Table.rowid_lt_nextRowid hrow).le

/-! ### Audit events -/

/-- No audit event has the key of an entry. -/
def NoAudit (idempotencyKey : String) (db : Database) : Prop :=
  ∀ row ∈ db.auditEvents, row.idempotencyKey ≠ idempotencyKey

/-- The audit event of an entry. -/
def AuditStands (a : AuditEntry) (occurredAt : OffsetDateTime) (db : Database) : Prop :=
  ∃ row ∈ db.auditEvents, ∃ e, decodeAuditEventRow row = .ok e ∧ e.IsFor a occurredAt

theorem AuditStands.not_noAudit {a : AuditEntry} {occurredAt : OffsetDateTime} (h : AuditStands a occurredAt db) :
    ¬ NoAudit a.idempotencyKey db := by
  obtain ⟨row, hrow, e, he, hkey, -⟩ := h
  obtain ⟨-, hrowkey, -⟩ := decodeAuditEventRow_eq_ok he
  exact fun hnone => hnone row hrow (hrowkey.symm.trans hkey)

theorem appendAuditEvent_run_fresh {a : AuditEntry} {occurredAt : OffsetDateTime} (h : AuditAccepted a occurredAt)
    (hfresh : NoAudit a.idempotencyKey db) (clock : SystemTime) :
    ∃ row e, (appendAuditEvent a occurredAt clock).run db = .ok (e, { db with auditEvents := db.auditEvents ++ [row] }) ∧
      row.idempotencyKey = a.idempotencyKey ∧ decodeAuditEventRow row = .ok e ∧ e.IsFor a occurredAt := by
  obtain ⟨⟨t, text⟩, htexts⟩ := h.occurredAt
  obtain ⟨rfl, hnanos, htext⟩ := wholeSecondText_eq_ok_iff.mp htexts
  have hdecode := decodeAuditEventRow_row h.idempotencyKey h.entityId rfl hnanos htext clock
    (Table.nextRowid_pos db.auditEvents)
  have hnone : Table.byKey AuditEventStoredRow.idempotencyKey a.idempotencyKey db.auditEvents = none :=
    Table.byKey_eq_none.mpr hfresh
  have hfound : Table.byKey AuditEventStoredRow.idempotencyKey a.idempotencyKey
      (db.auditEvents ++ [a.row text clock (Table.nextRowid db.auditEvents)]) =
        some (a.row text clock (Table.nextRowid db.auditEvents)) := by
    unfold Table.byKey at hnone ⊢
    rw [List.find?_append, hnone, Option.none_or]
    simp [AuditEntry.row]
  refine ⟨_, _, ?_, rfl, hdecode, rfl, ⟨rfl, rfl, rfl⟩, rfl⟩
  rw [appendAuditEvent, Tx.ofResult_bind_of_ok (validateMachineIdentifier_eq_ok_iff.mpr ⟨h.idempotencyKey, rfl⟩),
    Tx.ofResult_bind_of_ok (validateMachineIdentifier_eq_ok_iff.mpr ⟨h.entityId, rfl⟩),
    Tx.ofResult_bind_of_ok htexts, Tx.read_bind, hnone]
  simp only [Tx.read_bind, Tx.write_bind]
  rw [Tx.ofResult_bind_of_ok (okOr_eq_ok_iff.mpr hfound), Tx.run_ofResult_eq_ok_iff]
  exact ⟨hdecode, rfl⟩

theorem appendAuditEvent_run_stands (hc : Consistent env db) {a : AuditEntry} {occurredAt : OffsetDateTime}
    (haccepted : AuditAccepted a occurredAt) (h : AuditStands a occurredAt db) (clock : SystemTime) :
    ∃ e, (appendAuditEvent a occurredAt clock).run db = .ok (e, db) := by
  obtain ⟨row, hrow, e, he, hkey, hcontent, hoccurred⟩ := h
  obtain ⟨⟨t, text⟩, htexts⟩ := haccepted.occurredAt
  obtain ⟨rfl, -⟩ := wholeSecondText_eq_ok_iff.mp htexts
  have hfound := Table.byKey_of_mem hc.audit_key hrow
  rw [← (decodeAuditEventRow_eq_ok he).2.1, hkey] at hfound
  refine ⟨e, ?_⟩
  rw [appendAuditEvent, Tx.ofResult_bind_of_ok (validateMachineIdentifier_eq_ok_iff.mpr ⟨haccepted.idempotencyKey, rfl⟩),
    Tx.ofResult_bind_of_ok (validateMachineIdentifier_eq_ok_iff.mpr ⟨haccepted.entityId, rfl⟩),
    Tx.ofResult_bind_of_ok htexts, Tx.read_bind, hfound]
  simp only []
  rw [Tx.ofResult_bind_of_ok he, Tx.ensure_bind_of ⟨hcontent, hoccurred⟩, Tx.run_pure]

/-- **Appending an audit event** adds it, or finds it; either way it stands. -/
theorem appendAuditEvent_writes {a : AuditEntry} {occurredAt : OffsetDateTime} {clock : SystemTime}
    {e : StoredAuditEvent} (h : (appendAuditEvent a occurredAt clock).run db = .ok (e, db')) :
    AuditStands a occurredAt db' ∧ (db' = db ∨ NoAudit a.idempotencyKey db ∧
      ∃ row, row.idempotencyKey = a.idempotencyKey ∧ db' = { db with auditEvents := db.auditEvents ++ [row] }) := by
  have haccepted : AuditAccepted a occurredAt := by
    simp only [appendAuditEvent, Tx.ofResult_bind_eq_ok_iff, validateMachineIdentifier_eq_ok_iff] at h
    obtain ⟨_, ⟨hkey, -⟩, _, ⟨hentity, -⟩, texts, htexts, -⟩ := h
    exact ⟨hkey, hentity, texts, htexts⟩
  rcases appendAuditEvent_run_eq_ok h with ⟨_, hfresh, -⟩ | ⟨rfl, row, hrow, hkey, he, hcontent, hoccurred⟩
  · obtain ⟨row, e', hrun, hrowkey, hdecode, hfor⟩ := appendAuditEvent_run_fresh haccepted hfresh clock
    cases hrun.symm.trans h
    exact ⟨⟨row, by simp, _, hdecode, hfor⟩, Or.inr ⟨hfresh, row, hrowkey, rfl⟩⟩
  · exact ⟨⟨row, hrow, e, he, (decodeAuditEventRow_eq_ok he).2.1.trans hkey, hcontent, hoccurred⟩, Or.inl rfl⟩

/-! ### What lets rows stand -/

/-- Tables that grow: rows are added, and deliveries are written to the notifications. -/
structure Grows (db db' : Database) : Prop where
  messages : db.messages ⊆ db'.messages
  notifications : ∀ row ∈ db.notificationOutbox, ∃ row' ∈ db'.notificationOutbox, row.SameRequest row'
  auditEvents : db.auditEvents ⊆ db'.auditEvents

theorem Grows.refl (db : Database) : Grows db db :=
  ⟨List.Subset.refl _, fun row hrow => ⟨row, hrow, .refl row⟩, List.Subset.refl _⟩

theorem Grows.trans {db₁ db₂ db₃ : Database} (h : Grows db₁ db₂) (h' : Grows db₂ db₃) : Grows db₁ db₃ := by
  refine ⟨List.Subset.trans h.messages h'.messages, fun row hrow => ?_,
    List.Subset.trans h.auditEvents h'.auditEvents⟩
  obtain ⟨row', hrow', hsame⟩ := h.notifications row hrow
  obtain ⟨row'', hrow'', hsame'⟩ := h'.notifications row' hrow'
  exact ⟨row'', hrow'', hsame.trans hsame'⟩

theorem Delivered.grows (h : Delivered db db') : Grows db db' := by
  refine ⟨?_, fun row hrow => ?_, ?_⟩
  · rw [h.others]
    exact List.Subset.refl _
  · exact exists_of_mem_forall₂ h.outbox hrow
  · rw [h.others]
    exact List.Subset.refl _

theorem Grows.messages_append (db : Database) (row : MessageStoredRow) :
    Grows db { db with messages := db.messages ++ [row] } :=
  { Grows.refl db with messages := List.subset_append_left _ _ }

theorem Grows.outbox_append (db : Database) (row : NotificationStoredRow) : Grows db (db.mapOutbox (· ++ [row])) :=
  { Grows.refl db with notifications := fun r hr => ⟨r, List.mem_append_left _ hr, .refl r⟩ }

theorem Grows.auditEvents_append (db : Database) (row : AuditEventStoredRow) :
    Grows db { db with auditEvents := db.auditEvents ++ [row] } :=
  { Grows.refl db with auditEvents := List.subset_append_left _ _ }

theorem MessageStands.grow {r : MessageRequest} {id : ℤ} (h : MessageStands r id db) (hgrows : Grows db db') :
    MessageStands r id db' := by
  obtain ⟨row, hrow, hheld⟩ := h
  exact ⟨row, hgrows.messages hrow, hheld⟩

theorem NotificationStands.grow (hc : Consistent env db') {r : EnqueueRequest} {id : ℤ}
    (h : NotificationStands env.json r id db) (hgrows : Grows db db') : NotificationStands env.json r id db' := by
  obtain ⟨row, hrow, hkey, n, hn, rfl, hsame⟩ := h
  obtain ⟨row', hrow', hsameRow⟩ := hgrows.notifications row hrow
  obtain ⟨-, n', hn', -⟩ := hc.notificationOutbox.readable row' hrow'
  exact ⟨row', hrow', hsameRow.idempotencyKey.trans hkey, n', hn', (hsameRow.toSameContent.decoded hn hn').1,
    hsameRow.sameAs hn hn' hsame⟩

theorem AuditStands.grow {a : AuditEntry} {occurredAt : OffsetDateTime} (h : AuditStands a occurredAt db)
    (hgrows : Grows db db') : AuditStands a occurredAt db' := by
  obtain ⟨row, hrow, hheld⟩ := h
  exact ⟨row, hgrows.auditEvents hrow, hheld⟩

/-! ### Deliveries add no row -/

theorem NoMessage.delivered {r : MessageRequest} (h : NoMessage r db) (hd : Delivered db db') : NoMessage r db' := by
  have hsame : db'.messages = db.messages := by rw [hd.others]
  exact fun row hrow => h row (hsame ▸ hrow)

theorem NoNotification.delivered {r : EnqueueRequest} (h : NoNotification r db) (hd : Delivered db db') :
    NoNotification r db' := by
  intro row' hrow'
  obtain ⟨row, hrow, hsame⟩ := exists_of_mem_forall₂ hd.outbox.flip hrow'
  exact fun hkey => h row hrow (hsame.idempotencyKey.symm.trans hkey)

theorem NoAudit.delivered {idempotencyKey : String} (h : NoAudit idempotencyKey db) (hd : Delivered db db') :
    NoAudit idempotencyKey db' := by
  have hsame : db'.auditEvents = db.auditEvents := by rw [hd.others]
  exact fun row hrow => h row (hsame ▸ hrow)

theorem Delivered.nextRowid (h : Delivered db db') :
    Table.nextRowid db'.messages = Table.nextRowid db.messages ∧
      Table.nextRowid db'.notificationOutbox = Table.nextRowid db.notificationOutbox := by
  constructor
  · rw [h.others]
  · have hids : db.notificationOutbox.map Row.rowid = db'.notificationOutbox.map Row.rowid :=
      List.forall₂_eq_eq_eq ▸ (List.forall₂_map_left_iff.mpr (List.forall₂_map_right_iff.mpr
        (h.outbox.imp fun _ _ hsame => hsame.id.symm)))
    rw [Table.nextRowid, Table.nextRowid, hids]

end AgentVoice.Store

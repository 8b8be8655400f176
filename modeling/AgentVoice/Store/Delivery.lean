import AgentVoice.Store.Standing

/-!
# Delivery

What a call does to the notifications that are there: it leaves them, removes them, or moves them along the graph of
claims, completions and reschedules (`step_notification`). Over all interleavings of calls, every notification can be
read, a sent one does not change any more, a claim raises the attempt once and takes no running lease, and a worker
that lost its attempt changes nothing.
-/

namespace AgentVoice.Store

open AgentVoice.Foundations AgentVoice.Domain

variable {env : Environment} {db db' : Database}

/-! ### Calls that write to the outbox -/

/-- The calls that write to the outbox, and those that delete what its rows refer to. -/
def Command.isOutbox : Command → Bool
  | .enqueueNotification .. | .claimNotifications .. | .markNotificationSent .. | .rescheduleNotification ..
  | .deleteNotificationById .. | .deleteProposalById .. | .deleteEventMappingById .. => true
  | _ => false

/-- What a call does to the log of audit events: it appends its event, or leaves the log. -/
def Command.Logs (c : Command) (db db' : Database) : Prop :=
  db'.auditEvents = db.auditEvents ∨ ∃ entry occurredAt clock occurredAtText,
    c = .appendAuditEvent entry occurredAt clock ∧
      db'.auditEvents = db.auditEvents ++ [entry.row occurredAtText clock (Table.nextRowid db.auditEvents)]

theorem placeOwnerTask_other {r : PlacementRequest} {startsAt endsAt : String} {ownerTaskDraftId : ℤ}
    {p : StoredOwnerTaskPlacement}
    (h : (placeOwnerTask env.timezones r startsAt endsAt ownerTaskDraftId).run db = .ok (p, db')) :
    db'.notificationOutbox = db.notificationOutbox ∧ db'.auditEvents = db.auditEvents := by
  obtain ⟨-, -, -, ⟨rfl, -⟩ | rfl⟩ := placeOwnerTask_run_eq_ok h <;> exact ⟨rfl, rfl⟩

/-- The other calls leave the outbox, and log at most their own event. -/
theorem outbox_and_log_of_not_isOutbox (hc : Consistent env db) {c : Command} {u : Unit}
    (h : (c.transaction env).run db = .ok (u, db')) (hother : c.isOutbox = false) :
    db'.notificationOutbox = db.notificationOutbox ∧ c.Logs db db' := by
  cases c with
  | enqueueNotification | claimNotifications | markNotificationSent | rescheduleNotification | deleteNotificationById
  | deleteProposalById | deleteEventMappingById => cases hother
  | deleteAppointmentDraftById =>
    obtain ⟨-, rfl⟩ := deleteAppointmentDraftById_run_eq_ok h
    exact ⟨rfl, .inl rfl⟩
  | deleteOwnerTaskDraftById =>
    simp only [Command.transaction, deleteOwnerTaskDraftById, Tx.read_bind, Tx.ensure_bind_eq_ok_iff, Tx.run_write,
      Except.ok.injEq, Prod.mk.injEq, true_and] at h
    obtain ⟨-, -, -, rfl⟩ := h
    exact ⟨rfl, .inl rfl⟩
  | saveAppointmentDraft =>
    obtain ⟨a, ha⟩ := Tx.run_discard_eq_ok_iff.mp h
    simp only [saveAppointmentDraft, Tx.ofResult_bind_eq_ok_iff] at ha
    obtain ⟨_, -, hsave⟩ := ha
    obtain ⟨t, rfl⟩ := saveAppointmentDraftInTransaction_quotes hsave
    exact ⟨rfl, .inl rfl⟩
  | saveAppointmentQuote =>
    obtain ⟨a, ha⟩ := Tx.run_discard_eq_ok_iff.mp h
    rcases saveAppointmentQuote_run_eq_ok ha with rfl | ⟨_, _, -, -, -, rfl, -⟩ <;> exact ⟨rfl, .inl rfl⟩
  | prepareAppointmentDraftFromQuote =>
    obtain ⟨a, ha⟩ := Tx.run_discard_eq_ok_iff.mp h
    rcases prepareAppointmentDraftFromQuote_run_eq_ok hc.quote_id ha with ⟨rfl, -⟩ | ⟨hprepared⟩
    · exact ⟨rfl, .inl rfl⟩
    · obtain ⟨_, _, _, db₁, -, -, -, -, hsave, -, rfl, -⟩ := hprepared
      obtain ⟨t, rfl⟩ := saveAppointmentDraftInTransaction_quotes hsave
      exact ⟨rfl, .inl rfl⟩
  | submitAppointmentQuote =>
    obtain ⟨a, ha⟩ := Tx.run_discard_eq_ok_iff.mp h
    obtain ⟨_, -, ⟨rfl, -⟩ | ⟨hsubmitted⟩⟩ := submitAppointmentQuote_run_eq_ok ha hc.quote_id
    · exact ⟨rfl, .inl rfl⟩
    · obtain ⟨_, _, _, db₁, _, -, -, -, -, -, hcreate, -, rfl, -⟩ := hsubmitted
      obtain ⟨t, rfl⟩ := createProposalInTransaction_proposals hcreate
      exact ⟨rfl, .inl rfl⟩
  | saveOwnerTaskDraft =>
    obtain ⟨a, ha⟩ := Tx.run_discard_eq_ok_iff.mp h
    rcases saveOwnerTaskDraft_run_eq_ok ha with ⟨_, rfl, -⟩ | rfl <;> exact ⟨rfl, .inl rfl⟩
  | saveOwnerTaskPlacement =>
    obtain ⟨a, ha⟩ := Tx.run_discard_eq_ok_iff.mp h
    obtain ⟨_, _, -, hplace⟩ := saveOwnerTaskPlacement_run_eq_ok ha
    obtain ⟨houtbox, hlog⟩ := placeOwnerTask_other hplace
    exact ⟨houtbox, .inl hlog⟩
  | savePreparedOwnerTask =>
    obtain ⟨⟨d, p⟩, ha⟩ := Tx.run_discard_eq_ok_iff.mp h
    obtain ⟨_, _, _, db₁, hfind, hplace⟩ := savePreparedOwnerTask_run_eq_ok ha
    obtain ⟨houtbox, hlog⟩ := placeOwnerTask_other hplace
    have hdraft : db₁.notificationOutbox = db.notificationOutbox ∧ db₁.auditEvents = db.auditEvents := by
      obtain ⟨-, -, ⟨heq, -⟩ | heq⟩ := findOrInsertOwnerTaskDraft_run_eq_ok hfind <;> rw [heq] <;> exact ⟨rfl, rfl⟩
    exact ⟨houtbox.trans hdraft.1, .inl (hlog.trans hdraft.2)⟩
  | submitOwnerTaskPlacement =>
    obtain ⟨a, ha⟩ := Tx.run_discard_eq_ok_iff.mp h
    obtain ⟨-, -, ⟨rfl, -⟩ | hsubmitted⟩ := submitOwnerTaskPlacement_run_eq_ok ha hc.placement_id
    · exact ⟨rfl, .inl rfl⟩
    · obtain rfl := hsubmitted.eq
      exact ⟨rfl, .inl rfl⟩
  | createProposal =>
    obtain ⟨a, ha⟩ := Tx.run_discard_eq_ok_iff.mp h
    simp only [createProposal, Tx.ofResult_bind_eq_ok_iff] at ha
    obtain ⟨_, -, _, -, _, -, hcreate⟩ := ha
    obtain ⟨t, rfl⟩ := createProposalInTransaction_proposals hcreate
    exact ⟨rfl, .inl rfl⟩
  | transitionProposal =>
    obtain ⟨a, ha⟩ := Tx.run_discard_eq_ok_iff.mp h
    rcases transitionProposal_run_eq_ok ha with rfl | ⟨-, -, rfl⟩ <;> exact ⟨rfl, .inl rfl⟩
  | attachEventMapping =>
    obtain ⟨a, ha⟩ := Tx.run_discard_eq_ok_iff.mp h
    obtain ⟨-, ⟨_, -, -, -, -, -, -, -, -, rfl, -⟩ | ⟨rfl, -⟩⟩ := attachEventMapping_run_eq_ok ha <;>
      exact ⟨rfl, .inl rfl⟩
  | recordMessage =>
    obtain ⟨a, ha⟩ := Tx.run_discard_eq_ok_iff.mp h
    rcases recordMessage_run_eq_ok ha with ⟨_, -, -, -, -, -, -, -, rfl, -⟩ | rfl <;> exact ⟨rfl, .inl rfl⟩
  | transitionMessage =>
    obtain ⟨a, ha⟩ := Tx.run_discard_eq_ok_iff.mp h
    rcases transitionMessage_run_eq_ok ha with rfl | ⟨-, _, -, rfl⟩ <;> exact ⟨rfl, .inl rfl⟩
  | recordTask =>
    obtain ⟨a, ha⟩ := Tx.run_discard_eq_ok_iff.mp h
    obtain ⟨_, _, -, -, ⟨_, -, rfl, -⟩ | ⟨rfl, -⟩⟩ := recordTask_run_eq_ok ha <;> exact ⟨rfl, .inl rfl⟩
  | transitionTask =>
    obtain ⟨a, ha⟩ := Tx.run_discard_eq_ok_iff.mp h
    rcases transitionTask_run_eq_ok ha with rfl | ⟨-, _, -, rfl⟩ <;> exact ⟨rfl, .inl rfl⟩
  | appendAuditEvent entry occurredAt clock =>
    obtain ⟨a, ha⟩ := Tx.run_discard_eq_ok_iff.mp h
    rcases appendAuditEvent_run_eq_ok ha with ⟨text, -, rfl, -⟩ | ⟨rfl, -⟩
    · exact ⟨rfl, .inr ⟨entry, occurredAt, clock, text, rfl, rfl⟩⟩
    · exact ⟨rfl, .inl rfl⟩

theorem outbox_of_not_isOutbox (hc : Consistent env db) {c : Command} {u : Unit}
    (h : (c.transaction env).run db = .ok (u, db')) (hother : c.isOutbox = false) :
    db'.notificationOutbox = db.notificationOutbox := (outbox_and_log_of_not_isOutbox hc h hother).1

/-- **What a call does to the log of audit events.** -/
theorem logs_of_run (hc : Consistent env db) {c : Command} {u : Unit}
    (h : (c.transaction env).run db = .ok (u, db')) : c.Logs db db' := by
  cases houtbox : c.isOutbox with
  | false => exact (outbox_and_log_of_not_isOutbox hc h houtbox).2
  | true =>
    left
    cases c with
    | enqueueNotification =>
      obtain ⟨n, hn⟩ := Tx.run_discard_eq_ok_iff.mp h
      obtain ⟨_, _, -, ⟨_, _, -, -, rfl, -⟩ | ⟨rfl, -⟩⟩ := enqueueNotification_run_eq_ok hn <;> rfl
    | claimNotifications =>
      obtain ⟨ns, hns⟩ := Tx.run_discard_eq_ok_iff.mp h
      obtain ⟨_, _, _, -, -, rfl, -⟩ := claimNotifications_run_eq_ok hc.notification_id hns
      rfl
    | markNotificationSent =>
      obtain ⟨n, hn⟩ := Tx.run_discard_eq_ok_iff.mp h
      rcases markNotificationSent_run_eq_ok hc.notification_id hn with ⟨rfl, -⟩ | ⟨_, _, -, rfl, -⟩ <;> rfl
    | rescheduleNotification =>
      obtain ⟨n, hn⟩ := Tx.run_discard_eq_ok_iff.mp h
      obtain ⟨_, _, -, -, rfl, -⟩ := rescheduleNotification_run_eq_ok hc.notification_id hn
      rfl
    | deleteNotificationById =>
      obtain ⟨-, rfl⟩ := deleteNotificationById_run_eq_ok h
      rfl
    | deleteProposalById =>
      obtain ⟨-, -, rfl⟩ := deleteProposalById_run_eq_ok h
      rfl
    | deleteEventMappingById =>
      obtain ⟨-, rfl⟩ := deleteEventMappingById_run_eq_ok h
      rfl
    | _ => cases houtbox

/-! ### How a notification moves -/

/-- How a call moves a notification. -/
inductive NotificationStoredRow.Moves (r : NotificationStoredRow) : Command → NotificationStoredRow → Prop
  | claimed {now : OffsetDateTime} {limit : ℕ} {leaseDuration : ℤ} {clock : SystemTime} {nowKey leaseUntil updatedAt : String}
      (key : formatNotificationComparisonDatetime now.toUtc = .ok nowKey) (claimable : claimable nowKey r = true) :
      Moves r (.claimNotifications now limit leaseDuration clock) (r.claim leaseUntil updatedAt)
  | completed {id expectedAttempt : ℤ} {sentAt : OffsetDateTime} {clock : SystemTime} {sentAtText updatedAt : String}
      (owned : ownedBy id expectedAttempt r = true) :
      Moves r (.markNotificationSent id expectedAttempt sentAt clock) (r.complete sentAtText updatedAt)
  | rescheduled {id expectedAttempt : ℤ} {availableAt : OffsetDateTime} {errorCode : String} {clock : SystemTime}
      {availableAtText updatedAt : String} (owned : ownedBy id expectedAttempt r = true)
      (text : formatOffsetDatetime availableAt.toUtc = .ok availableAtText) :
      Moves r (.rescheduleNotification id expectedAttempt availableAt errorCode clock)
        (r.reschedule availableAtText errorCode updatedAt)

/-- A change of the rows that a condition selects moves them, or they stay. -/
theorem moves_updateWhere (hunique : Table.Unique Row.rowid db.notificationOutbox) {c : Command}
    {p : NotificationStoredRow → Bool} {f : NotificationStoredRow → NotificationStoredRow} {r r' : NotificationStoredRow}
    (hr : r ∈ db.notificationOutbox) (hr' : r' ∈ (db.mapOutbox (Table.updateWhere p f)).notificationOutbox)
    (hid : r'.id = r.id) (hf : ∀ r, (f r).id = r.id)
    (hmoves : ∀ r ∈ db.notificationOutbox, p r = true → r.Moves c (f r)) : r' = r ∨ r.Moves c r' := by
  rcases Table.mem_updateWhere.mp hr' with ⟨s, hs, hp, rfl⟩ | ⟨hs, -⟩
  · obtain rfl := hunique.eq hs hr ((hf s).symm.trans hid)
    exact Or.inr (hmoves s hs hp)
  · exact Or.inl (hunique.eq hs hr hid)

/-- **What a call does to a notification that stays.** -/
theorem step_notification (hc : Consistent env db) (c : Command) {r r' : NotificationStoredRow}
    (hr : r ∈ db.notificationOutbox) (hr' : r' ∈ (step env c db).notificationOutbox) (hid : r'.id = r.id) :
    r' = r ∨ r.Moves c r' := by
  have hunique := hc.notification_id
  cases h : (c.transaction env).run db with
  | error e =>
    rw [step_of_error h] at hr'
    exact Or.inl (hunique.eq hr' hr hid)
  | ok result =>
    obtain ⟨u, db'⟩ := result
    rw [step_of_ok h] at hr'
    cases c with
    | enqueueNotification =>
      obtain ⟨n, hn⟩ := Tx.run_discard_eq_ok_iff.mp h
      obtain ⟨_, _, -, ⟨_, row, rfl, -, rfl, -⟩ | ⟨rfl, -⟩⟩ := enqueueNotification_run_eq_ok hn
      · rcases List.mem_append.mp hr' with hr' | hr'
        · exact Or.inl (hunique.eq hr' hr hid)
        · obtain rfl := List.mem_singleton.mp hr'
          exact absurd hid.symm (Table.rowid_lt_nextRowid hr).ne
      · exact Or.inl (hunique.eq hr' hr hid)
    | claimNotifications now limit leaseDuration clock =>
      obtain ⟨ns, hns⟩ := Tx.run_discard_eq_ok_iff.mp h
      obtain ⟨nowKey, leaseUntil, updatedAt, hstarted, hall, rfl, -⟩ := claimNotifications_run_eq_ok hunique hns
      refine moves_updateWhere hunique hr hr' hid (fun _ => rfl) fun s hs hselected => ?_
      obtain ⟨n, -, row, hrow, hrowid, hclaimable, -⟩ := exists_claimed hall (List.contains_iff_mem.mp hselected)
      obtain rfl := hunique.eq hs hrow hrowid.symm
      exact .claimed hstarted.nowKey hclaimable
    | markNotificationSent id expectedAttempt sentAt clock =>
      obtain ⟨n, hn⟩ := Tx.run_discard_eq_ok_iff.mp h
      rcases markNotificationSent_run_eq_ok hunique hn with ⟨rfl, -⟩ | ⟨_, _, ⟨row, hrow, howned, -⟩, rfl, -⟩
      · exact Or.inl (hunique.eq hr' hr hid)
      · refine moves_updateWhere hunique hr hr' hid (fun _ => rfl) fun s hs hselected => ?_
        obtain rfl := hunique.eq hs hrow ((beq_iff_eq.mp hselected).trans (ownedBy_iff.mp howned).1.symm)
        exact .completed howned
    | rescheduleNotification id expectedAttempt availableAt errorCode clock =>
      obtain ⟨n, hn⟩ := Tx.run_discard_eq_ok_iff.mp h
      obtain ⟨_, _, htext, ⟨row, hrow, howned, -⟩, rfl, -⟩ := rescheduleNotification_run_eq_ok hunique hn
      refine moves_updateWhere hunique hr hr' hid (fun _ => rfl) fun s hs hselected => ?_
      obtain rfl := hunique.eq hs hrow ((beq_iff_eq.mp hselected).trans (ownedBy_iff.mp howned).1.symm)
      exact .rescheduled howned htext
    | deleteNotificationById =>
      obtain ⟨-, rfl⟩ := deleteNotificationById_run_eq_ok h
      exact Or.inl (hunique.eq (List.mem_of_mem_filter hr') hr hid)
    | deleteProposalById =>
      obtain ⟨-, -, rfl⟩ := deleteProposalById_run_eq_ok h
      exact Or.inl (hunique.eq (List.mem_of_mem_filter (List.mem_of_mem_filter hr')) hr hid)
    | deleteEventMappingById =>
      obtain ⟨-, rfl⟩ := deleteEventMappingById_run_eq_ok h
      exact Or.inl (hunique.eq (List.mem_of_mem_filter hr') hr hid)
    | _ =>
      rw [outbox_of_not_isOutbox hc h rfl] at hr'
      exact Or.inl (hunique.eq hr' hr hid)

/-- A sent notification does not move. -/
theorem NotificationStoredRow.Moves.not_sent {r r' : NotificationStoredRow} {c : Command} (h : r.Moves c r') :
    r.status ≠ "sent" := by
  intro hsent
  cases h with
  | claimed _ hclaimable => simp [claimable, hsent] at hclaimable
  | completed howned | rescheduled howned =>
    have hdelivering := (ownedBy_iff.mp howned).2.1
    rw [hsent] at hdelivering
    exact absurd hdelivering (by decide)

/-- The calls that claim notifications. -/
def Command.isClaim : Command → Bool
  | .claimNotifications .. => true
  | _ => false

/-- A claim raises the attempt of a notification that it moves; no other call changes it. -/
theorem NotificationStoredRow.Moves.attempts {r r' : NotificationStoredRow} {c : Command} (h : r.Moves c r') :
    r'.attempts = if c.isClaim = true then r.attempts + 1 else r.attempts := by
  cases h <;> rfl

/-- A notification that is delivered under a lease that runs beyond an instant is not claimable at the instant. -/
theorem not_claimable_of_lease {row : NotificationStoredRow} {n : StoredNotification}
    (hn : decodeNotificationRow env.json row = .ok n) (hdelivering : n.status = .delivering) {lease : OffsetDateTime}
    (hlease : n.leaseUntil = some lease) {now : OffsetDateTime} (hlater : now.unixNanos < lease.unixNanos) {nowKey : String}
    (hkey : formatNotificationComparisonDatetime now.toUtc = .ok nowKey) : claimable nowKey row = false := by
  have hholds := decodeNotificationRow_eq_ok hn
  have htranspose := hholds.leaseUntil
  rw [hlease] at htranspose
  obtain ⟨leaseText, hrow, hparse⟩ := transpose_eq_ok_some_iff.mp htranspose
  obtain ⟨hutc, hformat⟩ := parseCanonical_eq_ok_iff.mp hparse
  obtain ⟨text, htext, -⟩ := bind_eq_ok_iff.mp hkey
  have hnow : now.toUtc.toUtc.format = some text := formatOffsetDatetime_eq_ok_iff.mp htext
  obtain rfl := Except.ok.inj ((formatNotificationComparisonDatetime_eq hnow).symm.trans hkey)
  have hnotdue : ¬ notificationTimestampComparisonSql leaseText ≤ comparisonKey now.toUtc.toUtc := by
    rw [comparisonSql_eq_key hutc hformat, comparisonKey_le_iff (utc_text hutc hformat).1 (utc_text rfl hnow).1 hutc rfl]
    exact not_le.mpr hlater
  have hstatus : row.status = "delivering" := by
    rw [hholds.status, hdelivering]
    rfl
  rw [claimable, hstatus, hrow, Option.any_some, decide_eq_false hnotdue]
  simp

/-! ### Delivery safety -/

/-- What delivery promises of a state of the store. -/
structure DeliverySafe (env : Environment) (db : Database) : Prop where
  /-- Every notification can be read, and what it refers to is there. -/
  readable : ∀ row ∈ db.notificationOutbox, ∃ n, decodeNotificationRow env.json row = .ok n ∧
    validateStoredNotificationReferences db n = .ok ()
  /-- A sent notification does not change until it is removed. -/
  sent : ∀ row ∈ db.notificationOutbox, row.status = NotificationStatus.sent.asStr → ∀ cs,
    row ∈ (run env cs db).notificationOutbox ∨
      ∃ before after, cs = before ++ after ∧ ∀ r ∈ (run env before db).notificationOutbox, r.id ≠ row.id
  /-- Only claims change an attempt, and they raise it by one. -/
  attempts : ∀ c, ∀ row ∈ db.notificationOutbox, ∀ row' ∈ (step env c db).notificationOutbox, row'.id = row.id →
    row' = row ∨ row'.attempts = if c.isClaim = true then row.attempts + 1 else row.attempts
  /-- A claim hands out each notification once, under the attempt after its last. -/
  claims : ∀ now limit leaseDuration clock ns db',
    (claimNotifications env.json now limit leaseDuration clock).run db = .ok (ns, db') →
      (ns.map (·.id)).Nodup ∧ ∀ n ∈ ns, ∃ row ∈ db.notificationOutbox, ∃ row' ∈ db'.notificationOutbox,
        row.id = n.id ∧ row'.id = n.id ∧ n.attempts = row.attempts + 1 ∧ row'.attempts = row.attempts + 1
  /-- A claim takes no notification under a lease that is running. -/
  lease : ∀ now limit leaseDuration clock ns db',
    (claimNotifications env.json now limit leaseDuration clock).run db = .ok (ns, db') →
      ∀ row ∈ db.notificationOutbox, ∀ n, decodeNotificationRow env.json row = .ok n → n.status = .delivering →
        ∀ lease ∈ n.leaseUntil, now.unixNanos < lease.unixNanos →
          row ∈ db'.notificationOutbox ∧ ∀ m ∈ ns, m.id ≠ row.id
  /-- A worker that lost its attempt changes nothing. -/
  stale : ∀ id expectedAttempt, (∀ row ∈ db.notificationOutbox, row.id = id → row.attempts ≠ expectedAttempt) →
    (∀ sentAt clock, step env (.markNotificationSent id expectedAttempt sentAt clock) db = db) ∧
      ∀ availableAt errorCode clock,
        step env (.rescheduleNotification id expectedAttempt availableAt errorCode clock) db = db

theorem Claimed.id {nowKey leaseUntil updatedAt : String} {t : List NotificationStoredRow} {id : ℤ}
    {n : StoredNotification} (h : Claimed env.json nowKey leaseUntil updatedAt t id n) :
    ∃ row ∈ t, row.id = id ∧ n.id = id ∧ n.attempts = row.attempts + 1 := by
  obtain ⟨row, hrow, hid, -, -, hdecode⟩ := h.exists_row
  have hholds := decodeNotificationRow_eq_ok hdecode
  exact ⟨row, hrow, hid, hholds.id.trans hid, hholds.attempts⟩

/-- What a claim hands out are the candidates, each once. -/
theorem map_id_claimed {nowKey leaseUntil updatedAt : String} {t : List NotificationStoredRow} {ids : List ℤ}
    {ns : List StoredNotification} (h : List.Forall₂ (Claimed env.json nowKey leaseUntil updatedAt t) ids ns) :
    ns.map (·.id) = ids := by
  induction h with
  | nil => rfl
  | cons hclaimed _ ih =>
    obtain ⟨_, -, -, hid, -⟩ := hclaimed.id
    rw [List.map_cons, hid, ih]

theorem claims_once (hc : Consistent env db) {now : OffsetDateTime} {limit : ℕ} {leaseDuration : ℤ} {clock : SystemTime}
    {ns : List StoredNotification} (h : (claimNotifications env.json now limit leaseDuration clock).run db = .ok (ns, db')) :
    (ns.map (·.id)).Nodup ∧ ∀ n ∈ ns, ∃ row ∈ db.notificationOutbox, ∃ row' ∈ db'.notificationOutbox,
      row.id = n.id ∧ row'.id = n.id ∧ n.attempts = row.attempts + 1 ∧ row'.attempts = row.attempts + 1 := by
  obtain ⟨nowKey, leaseUntil, updatedAt, -, hall, rfl, -⟩ := claimNotifications_run_eq_ok hc.notification_id h
  refine ⟨map_id_claimed hall ▸ claimCandidates_nodup hc.notification_id, fun n hn => ?_⟩
  have hselected : n.id ∈ claimCandidates nowKey limit db.notificationOutbox :=
    map_id_claimed hall ▸ List.mem_map_of_mem hn
  obtain ⟨m, hm, row, hrow, hid, -, -, hdecode⟩ := exists_claimed hall hselected
  have hholds := decodeNotificationRow_eq_ok hdecode
  have hids : (ns.map (·.id)).Nodup := map_id_claimed hall ▸ claimCandidates_nodup hc.notification_id
  obtain rfl : m = n := List.inj_on_of_nodup_map hids hm hn (hholds.id.trans hid)
  refine ⟨row, hrow, row.claim leaseUntil updatedAt, ?_, hid, hid, hholds.attempts, rfl⟩
  exact Table.mem_updateWhere.mpr (Or.inl ⟨row, hrow, by rwa [List.contains_iff_mem, hid], rfl⟩)

theorem claims_no_lease (hc : Consistent env db) {now : OffsetDateTime} {limit : ℕ} {leaseDuration : ℤ} {clock : SystemTime}
    {ns : List StoredNotification} (h : (claimNotifications env.json now limit leaseDuration clock).run db = .ok (ns, db'))
    {row : NotificationStoredRow} (hrow : row ∈ db.notificationOutbox) {n : StoredNotification}
    (hn : decodeNotificationRow env.json row = .ok n) (hdelivering : n.status = .delivering) {lease : OffsetDateTime}
    (hlease : n.leaseUntil = some lease) (hlater : now.unixNanos < lease.unixNanos) :
    row ∈ db'.notificationOutbox ∧ ∀ m ∈ ns, m.id ≠ row.id := by
  obtain ⟨nowKey, leaseUntil, updatedAt, hstarted, hall, rfl, -⟩ := claimNotifications_run_eq_ok hc.notification_id h
  have hnot : row.id ∉ claimCandidates nowKey limit db.notificationOutbox := by
    intro hselected
    obtain ⟨_, -, row', hrow', hid, hclaimable, -⟩ := exists_claimed hall hselected
    obtain rfl := hc.notification_id.eq hrow' hrow hid
    rw [not_claimable_of_lease hn hdelivering hlease hlater hstarted.nowKey] at hclaimable
    cases hclaimable
  refine ⟨Table.mem_updateWhere.mpr (Or.inr ⟨hrow, by simpa using hnot⟩), fun m hm hid => hnot ?_⟩
  rw [← hid, ← map_id_claimed hall]
  exact List.mem_map_of_mem hm

theorem step_of_stale (hc : Consistent env db) {id expectedAttempt : ℤ}
    (hstale : ∀ row ∈ db.notificationOutbox, row.id = id → row.attempts ≠ expectedAttempt) :
    (∀ sentAt clock, step env (.markNotificationSent id expectedAttempt sentAt clock) db = db) ∧
      ∀ availableAt errorCode clock,
        step env (.rescheduleNotification id expectedAttempt availableAt errorCode clock) db = db := by
  have hnone : ∀ row ∈ db.notificationOutbox, ownedBy id expectedAttempt row ≠ true := fun row hrow howned =>
    hstale row hrow (ownedBy_iff.mp howned).1 (ownedBy_iff.mp howned).2.2
  refine ⟨fun sentAt clock => ?_, fun availableAt errorCode clock => ?_⟩
  · cases h : ((Command.markNotificationSent id expectedAttempt sentAt clock).transaction env).run db with
    | error e => exact step_of_error h
    | ok result =>
      obtain ⟨n, hn⟩ := Tx.run_discard_eq_ok_iff.mp h
      rcases markNotificationSent_run_eq_ok hc.notification_id hn with ⟨hsame, -⟩ | ⟨_, _, ⟨row, hrow, howned, -⟩, -⟩
      · rw [step_of_ok (u := ()) h, hsame]
      · exact absurd howned (hnone row hrow)
  · cases h : ((Command.rescheduleNotification id expectedAttempt availableAt errorCode clock).transaction env).run db with
    | error e => exact step_of_error h
    | ok result =>
      obtain ⟨n, hn⟩ := Tx.run_discard_eq_ok_iff.mp h
      obtain ⟨_, _, -, ⟨row, hrow, howned, -⟩, -⟩ := rescheduleNotification_run_eq_ok hc.notification_id hn
      exact absurd howned (hnone row hrow)

/-- A sent notification stays as it is over a run, until it is removed. -/
theorem run_sent (h : Reachable env db) {row : NotificationStoredRow} (hrow : row ∈ db.notificationOutbox)
    (hsent : row.status = "sent") (cs : List Command) :
    row ∈ (run env cs db).notificationOutbox ∨
      ∃ before after, cs = before ++ after ∧ ∀ r ∈ (run env before db).notificationOutbox, r.id ≠ row.id := by
  induction cs using List.reverseRecOn with
  | nil => exact Or.inl hrow
  | append_singleton cs c ih =>
    rcases ih with hstays | ⟨before, after, rfl, hgone⟩
    · have hreached := (h.run cs).consistent
      by_cases hgone : ∀ r ∈ (run env (cs ++ [c]) db).notificationOutbox, r.id ≠ row.id
      · exact Or.inr ⟨cs ++ [c], [], (List.append_nil _).symm, hgone⟩
      · push Not at hgone
        obtain ⟨r, hr, hid⟩ := hgone
        have hnext : run env (cs ++ [c]) db = step env c (run env cs db) := Machine.run_concat cs c db
        rw [hnext] at hr ⊢
        rcases step_notification hreached c hstays hr hid with rfl | hmoves
        · exact Or.inl hr
        · exact absurd hsent hmoves.not_sent
    · exact Or.inr ⟨before, after ++ [c], List.append_assoc _ _ _, hgone⟩

/-- **Delivery is safe** in every state of the store. -/
theorem deliverySafe_of_reachable (h : Reachable env db) : DeliverySafe env db where
  readable row hrow := (h.consistent.notificationOutbox.readable row hrow).2
  sent _ hrow hsent cs := run_sent h hrow hsent cs
  attempts c _ hrow _ hrow' hid :=
    (step_notification h.consistent c hrow hrow' hid).imp_right NotificationStoredRow.Moves.attempts
  claims _ _ _ _ _ _ hrun := claims_once h.consistent hrun
  lease _ _ _ _ _ _ hrun _ hrow _ hn hdelivering _ hlease hlater :=
    claims_no_lease h.consistent hrun hrow hn hdelivering hlease hlater
  stale _ _ hstale := step_of_stale h.consistent hstale

/-- A summary for the owner. -/
def summaryRequest : EnqueueRequest :=
  ⟨"key-1", none, none, .callSummary, ⟨"owner@example.com", by decide⟩,
    .ofFields ⟨some "Call back", none, none, none, none, none⟩ rfl, newYear.instant⟩

/-- Enqueues a summary, which two workers claim one after the other; the first one completes too late. -/
def staleWorker : List Command :=
  [.enqueueNotification summaryRequest newYear,
    .claimNotifications newYear.instant 1 second newYear,
    .claimNotifications ⟨newYear.instant.unixNanos + second, 0⟩ 1 second newYear,
    .markNotificationSent 1 1 newYear.instant newYear]

/-- A library that writes the data of the summary as JSON. -/
def callBackLibraries : Environment where
  timezones _ := none
  json := .writing ⟨some "Call back", none, none, none, none, none⟩
    "\x7b\"title\":\"Call back\",\"starts_at\":null,\"ends_at\":null,\"timezone\":null,\"appointment_kind\":null,\"proposal_state\":null\x7d"

theorem deliverySafe_staleWorker :
    (run callBackLibraries staleWorker .empty).notificationOutbox.map (fun r => (r.status, r.attempts)) =
        [("delivering", 2)] ∧
      DeliverySafe callBackLibraries (run callBackLibraries staleWorker .empty) :=
  ⟨by decide +kernel, deliverySafe_of_reachable ⟨staleWorker, rfl⟩⟩

end AgentVoice.Store

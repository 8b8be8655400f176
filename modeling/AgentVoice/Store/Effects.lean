import AgentVoice.Store.Consistency
import Mathlib.Logic.Relation

/-!
# Every call is a sequence of changes

A successful call on consistent tables changes them step by step as `Change` lists (`Command.changes`). What
every change keeps is therefore kept by every call and every run (`run_keeps`); the tables stay consistent in
every run (`run_consistent`).
-/

namespace AgentVoice.Store

open AgentVoice.Foundations AgentVoice.Domain Relation

variable {env : Environment} {db db' : Database}

/-- A sequence of changes. -/
abbrev Changes (env : Environment) : Database → Database → Prop := ReflTransGen (Change env)

theorem Changes.consistent (h : Changes env db db') (hc : Consistent env db) : Consistent env db' := by
  induction h with
  | refl => exact hc
  | tail _ hchange ih => exact hchange.consistent ih

/-! ### Appointments -/

theorem changes_saveAppointmentDraftInTransaction {sourceId : String} {draft : AppointmentDraft}
    {d : StoredAppointmentDraft} (hsource : validateSourceId sourceId = .ok sourceId)
    (h : (saveAppointmentDraftInTransaction sourceId draft).run db = .ok (d, db')) : Changes env db db' := by
  rcases saveAppointmentDraftInTransaction_run_eq_ok hsource h with ⟨row, hid, hdecode, -, -, -, rfl, hfresh⟩ | ⟨rfl, -⟩
  · exact ReflTransGen.single (.insertAppointmentDraft hid hdecode hfresh)
  · exact .refl

theorem changes_saveAppointmentDraft {sourceId : String} {draft : AppointmentDraft} {d : StoredAppointmentDraft}
    (h : (saveAppointmentDraft sourceId draft).run db = .ok (d, db')) : Changes env db db' := by
  simp only [saveAppointmentDraft, Tx.ofResult_bind_eq_ok_iff] at h
  obtain ⟨source, hsource, hsave⟩ := h
  obtain ⟨-, rfl⟩ := validateSourceId_eq_ok_iff.mp hsource
  exact changes_saveAppointmentDraftInTransaction hsource hsave

theorem changes_saveAppointmentQuote {quote : Quote} {kind : AppointmentKind} {timezone : String}
    {slots : List AppointmentSlot} {q : StoredAppointmentQuote}
    (h : (saveAppointmentQuote env.timezones quote kind timezone slots).run db = .ok (q, db')) : Changes env db db' := by
  rcases saveAppointmentQuote_run_eq_ok h with rfl | ⟨row, rows, hfresh, hrows, hissued, rfl, hdecode⟩
  · exact .refl
  · exact ReflTransGen.single (.issueQuote hfresh hrows hissued hdecode)

/-- An issued quote refers to nothing, so it is read the same when only drafts change. -/
theorem decodeQuote_of_issued {row : AppointmentQuoteStoredRow} {current : StoredAppointmentQuote}
    (hdecode : decodeAppointmentQuoteRow env.timezones db row = .ok current) (hissued : current.state = .issued)
    {t : List AppointmentStoredRow} :
    decodeAppointmentQuoteRow env.timezones { db with appointmentDrafts := t } row = .ok current := by
  obtain ⟨hdraft, -⟩ := (decodeAppointmentQuoteRow_eq_ok hdecode).issued hissued
  have hsame : SameReferences db { db with appointmentDrafts := t } row := by
    refine ⟨rfl, fun id hid => ?_, fun _ _ r p hr hp => ⟨r, p, hr, hp, .refl p⟩⟩
    rw [hdraft] at hid
    cases hid
  exact decodeAppointmentQuoteRow_keeps hsame hdecode

/-- A prepared quote has no proposal, so it is read the same when only proposals change. -/
theorem decodeQuote_of_prepared {row : AppointmentQuoteStoredRow} {current : StoredAppointmentQuote}
    (hdecode : decodeAppointmentQuoteRow env.timezones db row = .ok current) (hprepared : current.state = .prepared)
    {t : List ProposalStoredRow} :
    decodeAppointmentQuoteRow env.timezones { db with proposals := t } row = .ok current := by
  obtain ⟨-, hproposal⟩ := (decodeAppointmentQuoteRow_eq_ok hdecode).prepared hprepared
  have hsame : SameReferences db { db with proposals := t } row := by
    refine ⟨rfl, fun _ _ _ h => h, fun id hid => ?_⟩
    rw [hproposal] at hid
    cases hid
  exact decodeAppointmentQuoteRow_keeps hsame hdecode

theorem changes_prepareAppointmentDraftFromQuote (hc : Consistent env db) {quoteId : QuoteId} {slotIndex : ℕ}
    {sourceId : String} {draft : AppointmentDraft} {now : OffsetDateTime} {q : StoredAppointmentQuote}
    (h : (prepareAppointmentDraftFromQuote env.timezones quoteId slotIndex sourceId draft now).run db = .ok (q, db')) :
    Changes env db db' := by
  have hsource := validateSourceId_of_prepares h
  rcases prepareAppointmentDraftFromQuote_run_eq_ok hc.quote_id h with ⟨rfl, -⟩ | ⟨hprepared⟩
  · exact .refl
  · obtain ⟨row, current, stored, db₁, hrow, hcurrent, hissued, hvalid, hsave, hfresh, rfl, hdecode⟩ := hprepared
    obtain ⟨t, rfl⟩ := saveAppointmentDraftInTransaction_quotes hsave
    exact (changes_saveAppointmentDraftInTransaction hsource hsave).tail
      (.prepareQuote (Table.byKey_eq_some hrow).1 (decodeQuote_of_issued hcurrent hissued) hissued hvalid hfresh hdecode)

theorem changes_deleteAppointmentDraftById {id : ℤ} {u : Unit} (h : (deleteAppointmentDraftById id).run db = .ok (u, db')) :
    Changes env db db' := by
  obtain ⟨hfree, rfl⟩ := deleteAppointmentDraftById_run_eq_ok h
  exact ReflTransGen.single (.deleteAppointmentDraft hfree)

/-! ### Proposals -/

theorem changes_createProposalInTransaction {key sourceId : String} {source : ProposalSource} {clock : SystemTime}
    {p : StoredProposal} (h : (createProposalInTransaction key sourceId source clock).run db = .ok (p, db')) :
    Changes env db db' := by
  obtain ⟨-, ⟨hfresh, rfl, hdecode⟩ | ⟨rfl, -⟩⟩ := createProposalInTransaction_run_eq_ok h
  · exact ReflTransGen.single (.insertProposal rfl hdecode hfresh)
  · exact .refl

theorem changes_createProposal {key sourceId : String} {source : ProposalSource} {clock : SystemTime}
    {p : StoredProposal} (h : (createProposal key sourceId source clock).run db = .ok (p, db')) :
    Changes env db db' := by
  simp only [createProposal, Tx.ofResult_bind_eq_ok_iff] at h
  obtain ⟨_, -, _, -, _, -, hcreate⟩ := h
  exact changes_createProposalInTransaction hcreate

theorem changes_submitAppointmentQuote (hc : Consistent env db) {quoteId : QuoteId} {draftId : ℤ}
    {key sourceId : String} {now : OffsetDateTime} {clock : SystemTime} {p : StoredProposal}
    (h : (submitAppointmentQuote env.timezones quoteId draftId key sourceId now clock).run db = .ok (p, db')) :
    Changes env db db' := by
  obtain ⟨consumedAt, -, ⟨rfl, -⟩ | ⟨hsubmitted⟩⟩ := submitAppointmentQuote_run_eq_ok h hc.quote_id
  · exact .refl
  · obtain ⟨row, current, created, db₁, q, hrow, hcurrent, hprepared, -, hvalid, hcreate, -, rfl, hdecode, -⟩ :=
      hsubmitted
    obtain ⟨t, rfl⟩ := createProposalInTransaction_proposals hcreate
    exact (changes_createProposalInTransaction hcreate).tail
      (.consumeQuote (Table.byKey_eq_some hrow).1 (decodeQuote_of_prepared hcurrent hprepared) hprepared hvalid hdecode)

theorem changes_transitionProposal {id : ℤ} {next : ProposalState} {clock : SystemTime} {p : StoredProposal}
    (h : (transitionProposal id next clock).run db = .ok (p, db')) : Changes env db db' := by
  rcases transitionProposal_run_eq_ok h with rfl | ⟨hterminal, ⟨row, hrow, -, hdecode⟩, rfl⟩
  · exact .refl
  · exact ReflTransGen.single (.transitionProposal hterminal hrow hdecode)

theorem changes_deleteProposalById {id : ℤ} {u : Unit} (h : (deleteProposalById id).run db = .ok (u, db')) :
    Changes env db db' := by
  obtain ⟨-, hfree, rfl⟩ := deleteProposalById_run_eq_ok h
  exact ReflTransGen.single (.deleteProposal hfree)

/-! ### Owner tasks -/

theorem fresh_of_sameOwnerTaskIdentity {sourceId : Option String} {draft : OwnerTaskDraft} {dueAt : Option String}
    {id : ℤ} {r : OwnerTaskStoredRow} (h : sameOwnerTaskIdentity sourceId draft r = false) :
    r.idempotencyKey ≠ (ownerTaskDraftRow sourceId draft dueAt id).idempotencyKey ∧
      ¬ Shared r.sourceId (ownerTaskDraftRow sourceId draft dueAt id).sourceId := by
  rw [sameOwnerTaskIdentity, Bool.or_eq_false_iff, beq_eq_false_iff_ne] at h
  refine ⟨h.1, ?_⟩
  rintro ⟨k, hk, hk'⟩
  have hsource : sourceId = some k := hk'
  subst hsource
  simp [hk] at h

theorem changes_saveOwnerTaskDraft {sourceId : Option String} {draft : OwnerTaskDraft} {d : StoredOwnerTaskDraft}
    (h : (saveOwnerTaskDraft sourceId draft).run db = .ok (d, db')) : Changes env db db' := by
  rcases saveOwnerTaskDraft_run_eq_ok h with ⟨dueAt, rfl, hdecode, hfresh⟩ | rfl
  · exact ReflTransGen.single
      (.insertOwnerTaskDraft rfl hdecode draft.idempotencyKey.trimmed fun r hr => fresh_of_sameOwnerTaskIdentity (hfresh r hr))
  · exact .refl

theorem changes_deleteOwnerTaskDraftById {id : ℤ} {u : Unit} (h : (deleteOwnerTaskDraftById id).run db = .ok (u, db')) :
    Changes env db db' := by
  simp only [deleteOwnerTaskDraftById, Tx.read_bind, Tx.ensure_bind_eq_ok_iff, Tx.run_write, Except.ok.injEq,
    Prod.mk.injEq, true_and, List.any_eq_false, beq_iff_eq] at h
  obtain ⟨-, -, hfree, rfl⟩ := h
  exact ReflTransGen.single (.deleteOwnerTaskDraft hfree)

theorem changes_placeOwnerTask {r : PlacementRequest} {startsAt endsAt : String} {ownerTaskDraftId : ℤ}
    {p : StoredOwnerTaskPlacement} (hreferred : ensureOwnerTaskDraftExists ownerTaskDraftId db = .ok ())
    (h : (placeOwnerTask env.timezones r startsAt endsAt ownerTaskDraftId).run db = .ok (p, db')) :
    Changes env db db' := by
  obtain ⟨-, -, -, ⟨rfl, hdecode, hfresh⟩ | rfl⟩ := placeOwnerTask_run_eq_ok h
  · exact ReflTransGen.single (.insertPlacement hdecode hreferred rfl hfresh)
  · exact .refl

theorem changes_saveOwnerTaskPlacement {ownerTaskDraftId : ℤ} {r : PlacementRequest} {p : StoredOwnerTaskPlacement}
    (h : (saveOwnerTaskPlacement env.timezones ownerTaskDraftId r).run db = .ok (p, db')) : Changes env db db' := by
  obtain ⟨startsAt, endsAt, hreferred, hplace⟩ := saveOwnerTaskPlacement_run_eq_ok h
  exact changes_placeOwnerTask hreferred hplace

theorem changes_savePreparedOwnerTask (hc : Consistent env db) {sourceId : Option String} {draft : OwnerTaskDraft}
    {r : PlacementRequest} {result : StoredOwnerTaskDraft × StoredOwnerTaskPlacement}
    (h : (savePreparedOwnerTask env.timezones sourceId draft r).run db = .ok (result, db')) : Changes env db db' := by
  obtain ⟨d, p⟩ := result
  obtain ⟨startsAt, endsAt, dueAt, db₁, hfind, hplace⟩ := savePreparedOwnerTask_run_eq_ok h
  obtain ⟨-, ⟨row, hrow, hdecode⟩, hdraft⟩ := findOrInsertOwnerTaskDraft_run_eq_ok hfind
  have hchanges : Changes env db db₁ := by
    rcases hdraft with ⟨rfl, hnew, hfresh⟩ | rfl
    · exact ReflTransGen.single
        (.insertOwnerTaskDraft rfl hnew draft.idempotencyKey.trimmed fun r hr => fresh_of_sameOwnerTaskIdentity (hfresh r hr))
    · exact .refl
  have hc₁ := hchanges.consistent hc
  have hid := (decodeOwnerTaskRow_eq_ok hdecode).2.1
  have hreferred : ensureOwnerTaskDraftExists d.id db₁ = .ok () :=
    ensureOwnerTaskDraftExists_eq_ok_iff.mpr ⟨row, d, by
      rw [hid]
      exact Table.byRowid_of_mem (hc₁.ownerTaskDrafts.unique fun _ _ => Or.inl) hrow, hdecode⟩
  exact hchanges.trans (changes_placeOwnerTask hreferred hplace)

theorem changes_submitOwnerTaskPlacement (hc : Consistent env db) {ownerTaskDraftId : ℤ} {providerEventId : String}
    {p : StoredOwnerTaskPlacement}
    (h : (submitOwnerTaskPlacement env.timezones ownerTaskDraftId providerEventId).run db = .ok (p, db')) :
    Changes env db db' := by
  obtain ⟨-, -, ⟨rfl, -⟩ | hsubmitted⟩ := submitOwnerTaskPlacement_run_eq_ok h hc.placement_id
  · exact .refl
  · obtain rfl := hsubmitted.eq
    exact ReflTransGen.single (.submitPlacement hsubmitted)

/-! ### Event mappings -/

theorem changes_attachEventMapping {proposalId : ℤ} {provider providerEventId sourceId : String}
    {startsAt endsAt : Option OffsetDateTime} {clock : SystemTime} {m : StoredEventMapping}
    (h : (attachEventMapping proposalId provider providerEventId sourceId startsAt endsAt clock).run db = .ok (m, db')) :
    Changes env db db' := by
  obtain ⟨-, ⟨row, hid, hdecode, rfl, rfl, rfl, rfl, -, -, rfl, hfresh⟩ | ⟨rfl, -⟩⟩ := attachEventMapping_run_eq_ok h
  · exact ReflTransGen.single (.insertEventMapping hid hdecode hfresh)
  · exact .refl

theorem changes_deleteEventMappingById {id : ℤ} {u : Unit} (h : (deleteEventMappingById id).run db = .ok (u, db')) :
    Changes env db db' := by
  obtain ⟨-, rfl⟩ := deleteEventMappingById_run_eq_ok h
  exact ReflTransGen.single (.deleteEventMapping id)

/-! ### The outbox -/

theorem changes_enqueueNotification {r : EnqueueRequest} {clock : SystemTime} {n : StoredNotification}
    (h : (enqueueNotification env.json r clock).run db = .ok (n, db')) : Changes env db db' := by
  obtain ⟨key, availableAt, -, ⟨persistedAt, row, rfl, hfresh, rfl, hdecode, hrefs⟩ | ⟨rfl, -⟩⟩ :=
    enqueueNotification_run_eq_ok h
  · exact ReflTransGen.single (.insertNotification rfl rfl rfl ⟨show (0 : ℤ) < 2 ^ 63 by decide, n, hdecode, hrefs⟩ hfresh)
  · exact .refl

theorem changes_claimNotifications (hc : Consistent env db) {now : OffsetDateTime} {limit : ℕ} {leaseDuration : ℤ}
    {clock : SystemTime} {ns : List StoredNotification}
    (h : (claimNotifications env.json now limit leaseDuration clock).run db = .ok (ns, db')) : Changes env db db' := by
  obtain ⟨nowKey, leaseUntil, updatedAt, -, hall, rfl, hrefs⟩ := claimNotifications_run_eq_ok hc.notification_id h
  refine ReflTransGen.single (@Change.claimNotifications env db _ nowKey _ _ fun r hr hid => ?_)
  obtain ⟨n, hn, row, hrow, hrowid, hclaimable, hfits, hdecode⟩ := exists_claimed hall hid
  obtain rfl := hc.notification_id.eq hr hrow hrowid.symm
  exact ⟨hclaimable, hfits, n, hdecode, hrefs n hn⟩

theorem changes_markNotificationSent (hc : Consistent env db) {id expectedAttempt : ℤ} {sentAt : OffsetDateTime}
    {clock : SystemTime} {n : StoredNotification}
    (h : (markNotificationSent env.json id expectedAttempt sentAt clock).run db = .ok (n, db')) : Changes env db db' := by
  rcases markNotificationSent_run_eq_ok hc.notification_id h with
    ⟨rfl, -⟩ | ⟨sentAtText, updatedAt, ⟨row, hrow, howned, hdecode⟩, rfl, hrefs⟩
  · exact .refl
  · refine ReflTransGen.single (@Change.completeNotification env db _ expectedAttempt _ _ fun r hr hid => ?_)
    obtain rfl := hc.notification_id.eq hr hrow (hid.trans (ownedBy_iff.mp howned).1.symm)
    exact ⟨howned, (hc.notificationOutbox.readable r hr).1, n, hdecode, hrefs⟩

theorem changes_rescheduleNotification (hc : Consistent env db) {id expectedAttempt : ℤ} {availableAt : OffsetDateTime}
    {errorCode : String} {clock : SystemTime} {n : StoredNotification}
    (h : (rescheduleNotification env.json id expectedAttempt availableAt errorCode clock).run db = .ok (n, db')) :
    Changes env db db' := by
  obtain ⟨availableAtText, updatedAt, -, ⟨row, hrow, howned, hdecode⟩, rfl, hrefs⟩ :=
    rescheduleNotification_run_eq_ok hc.notification_id h
  refine ReflTransGen.single (@Change.rescheduleNotification env db _ expectedAttempt _ _ _ fun r hr hid => ?_)
  obtain rfl := hc.notification_id.eq hr hrow (hid.trans (ownedBy_iff.mp howned).1.symm)
  exact ⟨howned, (hc.notificationOutbox.readable r hr).1, n, hdecode, hrefs⟩

theorem changes_deleteNotificationById {id : ℤ} {u : Unit} (h : (deleteNotificationById id).run db = .ok (u, db')) :
    Changes env db db' := by
  obtain ⟨-, rfl⟩ := deleteNotificationById_run_eq_ok h
  exact ReflTransGen.single (.deleteNotification id)

/-! ### Messages, tasks and audit events -/

theorem changes_recordMessage {r : MessageRequest} {clock : SystemTime} {m : StoredMessage}
    (h : (recordMessage r clock).run db = .ok (m, db')) : Changes env db db' := by
  rcases recordMessage_run_eq_ok h with ⟨row, hid, hdecode, hkey, hsource, hprovider, hmessage, -, rfl, hfresh⟩ | rfl
  · rw [← hkey, ← hsource, ← hprovider, ← hmessage] at hfresh
    exact ReflTransGen.single (.insertMessage hid hdecode hfresh)
  · exact .refl

theorem changes_transitionMessage (hc : Consistent env db) {sourceId : String} {expected next : MessageTriageState}
    {updatedAt : OffsetDateTime} {m : StoredMessage}
    (h : (transitionMessage sourceId expected next updatedAt).run db = .ok (m, db')) : Changes env db db' := by
  rcases transitionMessage_run_eq_ok h with rfl | ⟨hvalid, text, ⟨row, hrow, hdecode⟩, rfl⟩
  · exact .refl
  · refine ReflTransGen.single (.transitionMessage hvalid fun r hr hown => ⟨m, ?_⟩)
    have hsource : r.sourceId = sourceId := beq_iff_eq.mp (Bool.and_eq_true_iff.mp (Bool.and_eq_true_iff.mp hown).1).1
    subst hsource
    have hfound := Table.byKey_updated (f := MessageStoredRow.transition next text) (fun _ => rfl)
      (Table.byKey_of_mem hc.message_source hr) hown
    obtain rfl := Option.some.inj (hrow.symm.trans hfound)
    exact hdecode

theorem changes_recordTask {r : TaskRequest} {clock : SystemTime} {t : StoredTask}
    (h : (recordTask r clock).run db = .ok (t, db')) : Changes env db db' := by
  obtain ⟨duration, due, -, hmessage, ⟨row, rfl, rfl, hdecode, hfresh⟩ | ⟨rfl, -⟩⟩ := recordTask_run_eq_ok h
  · exact ReflTransGen.single (.insertTask rfl hdecode hmessage hfresh)
  · exact .refl

theorem changes_transitionTask (hc : Consistent env db) {sourceId : String} {expected next : StoredTaskState}
    {updatedAt : OffsetDateTime} {t : StoredTask}
    (h : (transitionTask sourceId expected next updatedAt).run db = .ok (t, db')) : Changes env db db' := by
  rcases transitionTask_run_eq_ok h with rfl | ⟨hvalid, text, ⟨row, hrow, hdecode⟩, rfl⟩
  · exact .refl
  · refine ReflTransGen.single (.transitionTask hvalid fun r hr hown => ⟨t, ?_⟩)
    have hsource : r.sourceId = sourceId := beq_iff_eq.mp (Bool.and_eq_true_iff.mp hown).1
    subst hsource
    have hfound := Table.byKey_updated (f := TaskStoredRow.transition next text) (fun _ => rfl)
      (Table.byKey_of_mem hc.task_source hr) hown
    obtain rfl := Option.some.inj (hrow.symm.trans hfound)
    exact hdecode

theorem changes_appendAuditEvent {a : AuditEntry} {occurredAt : OffsetDateTime} {clock : SystemTime}
    {e : StoredAuditEvent} (h : (appendAuditEvent a occurredAt clock).run db = .ok (e, db')) :
    Changes env db db' := by
  rcases appendAuditEvent_run_eq_ok h with ⟨text, hfresh, rfl, hdecode⟩ | ⟨rfl, -⟩
  · exact ReflTransGen.single (.insertAuditEvent rfl hdecode hfresh)
  · exact .refl

/-! ### Runs -/

/-- **A successful call is a sequence of changes.** -/
theorem Command.changes (hc : Consistent env db) {c : Command} {u : Unit}
    (h : (c.transaction env).run db = .ok (u, db')) : Changes env db db' := by
  cases c with
  | deleteAppointmentDraftById => exact changes_deleteAppointmentDraftById h
  | deleteOwnerTaskDraftById => exact changes_deleteOwnerTaskDraftById h
  | deleteProposalById => exact changes_deleteProposalById h
  | deleteEventMappingById => exact changes_deleteEventMappingById h
  | deleteNotificationById => exact changes_deleteNotificationById h
  | saveAppointmentDraft =>
    obtain ⟨a, ha⟩ := Tx.run_discard_eq_ok_iff.mp h
    exact changes_saveAppointmentDraft ha
  | saveAppointmentQuote =>
    obtain ⟨a, ha⟩ := Tx.run_discard_eq_ok_iff.mp h
    exact changes_saveAppointmentQuote ha
  | prepareAppointmentDraftFromQuote =>
    obtain ⟨a, ha⟩ := Tx.run_discard_eq_ok_iff.mp h
    exact changes_prepareAppointmentDraftFromQuote hc ha
  | submitAppointmentQuote =>
    obtain ⟨a, ha⟩ := Tx.run_discard_eq_ok_iff.mp h
    exact changes_submitAppointmentQuote hc ha
  | saveOwnerTaskDraft =>
    obtain ⟨a, ha⟩ := Tx.run_discard_eq_ok_iff.mp h
    exact changes_saveOwnerTaskDraft ha
  | saveOwnerTaskPlacement =>
    obtain ⟨a, ha⟩ := Tx.run_discard_eq_ok_iff.mp h
    exact changes_saveOwnerTaskPlacement ha
  | savePreparedOwnerTask =>
    obtain ⟨a, ha⟩ := Tx.run_discard_eq_ok_iff.mp h
    exact changes_savePreparedOwnerTask hc ha
  | submitOwnerTaskPlacement =>
    obtain ⟨a, ha⟩ := Tx.run_discard_eq_ok_iff.mp h
    exact changes_submitOwnerTaskPlacement hc ha
  | createProposal =>
    obtain ⟨a, ha⟩ := Tx.run_discard_eq_ok_iff.mp h
    exact changes_createProposal ha
  | transitionProposal =>
    obtain ⟨a, ha⟩ := Tx.run_discard_eq_ok_iff.mp h
    exact changes_transitionProposal ha
  | attachEventMapping =>
    obtain ⟨a, ha⟩ := Tx.run_discard_eq_ok_iff.mp h
    exact changes_attachEventMapping ha
  | enqueueNotification =>
    obtain ⟨a, ha⟩ := Tx.run_discard_eq_ok_iff.mp h
    exact changes_enqueueNotification ha
  | claimNotifications =>
    obtain ⟨a, ha⟩ := Tx.run_discard_eq_ok_iff.mp h
    exact changes_claimNotifications hc ha
  | markNotificationSent =>
    obtain ⟨a, ha⟩ := Tx.run_discard_eq_ok_iff.mp h
    exact changes_markNotificationSent hc ha
  | rescheduleNotification =>
    obtain ⟨a, ha⟩ := Tx.run_discard_eq_ok_iff.mp h
    exact changes_rescheduleNotification hc ha
  | recordMessage =>
    obtain ⟨a, ha⟩ := Tx.run_discard_eq_ok_iff.mp h
    exact changes_recordMessage ha
  | transitionMessage =>
    obtain ⟨a, ha⟩ := Tx.run_discard_eq_ok_iff.mp h
    exact changes_transitionMessage hc ha
  | recordTask =>
    obtain ⟨a, ha⟩ := Tx.run_discard_eq_ok_iff.mp h
    exact changes_recordTask ha
  | transitionTask =>
    obtain ⟨a, ha⟩ := Tx.run_discard_eq_ok_iff.mp h
    exact changes_transitionTask hc ha
  | appendAuditEvent =>
    obtain ⟨a, ha⟩ := Tx.run_discard_eq_ok_iff.mp h
    exact changes_appendAuditEvent ha

/-- A call, successful or not, is a sequence of changes. -/
theorem step_changes (hc : Consistent env db) (c : Command) : Changes env db (step env c db) := by
  cases h : (c.transaction env).run db with
  | error e =>
    rw [step_of_error h]
  | ok r =>
    rw [step_of_ok (u := ()) h]
    exact Command.changes hc h

/-- A run is a sequence of changes. -/
theorem run_changes (hc : Consistent env db) (cs : List Command) : Changes env db (run env cs db) := by
  induction cs generalizing db with
  | nil => exact .refl
  | cons c cs ih =>
    have hstep := step_changes hc c
    exact hstep.trans (ih (hstep.consistent hc))

/-- **Every reachable state of the store is consistent.** -/
theorem run_consistent (hc : Consistent env db) (cs : List Command) : Consistent env (run env cs db) :=
  (run_changes hc cs).consistent hc

theorem Reachable.consistent (h : Reachable env db) : Consistent env db := by
  obtain ⟨cs, rfl⟩ := h
  exact run_consistent (Consistent.empty env) cs

/-- What every change of consistent tables keeps, a sequence of changes keeps. -/
theorem Changes.keeps {Q : Database → Prop}
    (hkeep : ∀ db db', Consistent env db → Change env db db' → Q db → Q db') (hc : Consistent env db)
    (h : Changes env db db') (hq : Q db) : Q db' := by
  suffices hboth : Consistent env db' ∧ Q db' from hboth.2
  induction h with
  | refl => exact ⟨hc, hq⟩
  | tail _ hchange ih => exact ⟨hchange.consistent ih.1, hkeep _ _ ih.1 hchange ih.2⟩

end AgentVoice.Store

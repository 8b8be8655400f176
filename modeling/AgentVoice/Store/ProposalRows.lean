import AgentVoice.Store.Delivery

/-!
# The rows of proposals

What every call does to the proposals and to the appointment drafts they come from (`proposes_of_run`): a call creates
one proposal for a draft that is there, moves one, deletes one, or leaves all of them, and then it deletes no draft that
one of them comes from. In every reachable state a proposal that comes from an appointment draft therefore finds it, and
its two times are those of the database's clock (`Reachable.backed`).
-/

namespace AgentVoice.Store

open AgentVoice.Foundations AgentVoice.Domain

variable {env : Environment} {db db' : Database}

/-- What a call does to the proposals and to the appointment drafts. -/
inductive Proposes (db db' : Database) : Prop
  | kept (proposals : db'.proposals = db.proposals)
      (drafts : ∀ d ∈ db.appointmentDrafts, d ∈ db'.appointmentDrafts ∨
        ∀ p ∈ db.proposals, p.appointmentDraftId ≠ some d.id)
  | created {key sourceId : String} {source : ProposalSource} {clock : SystemTime}
      (referred : (ensureProposalSourceExists source).run db = .ok ((), db))
      (drafts : db'.appointmentDrafts = db.appointmentDrafts)
      (proposals : db'.proposals =
        db.proposals ++ [(proposalInsert key sourceId source clock).row (Table.nextRowid db.proposals)])
  | moved {id : ℤ} {next : ProposalState} {clock : SystemTime} (drafts : db'.appointmentDrafts = db.appointmentDrafts)
      (proposals : db'.proposals = Table.updateWhere (fun r => r.id == id && r.state == "pending")
        (ProposalStoredRow.transition next clock) db.proposals)
  | deleted {id : ℤ} (drafts : db'.appointmentDrafts = db.appointmentDrafts)
      (proposals : db'.proposals = Table.deleteWhere (fun p => p.id == id) db.proposals)

/-! ### What the calls do -/

theorem Proposes.same (hproposals : db'.proposals = db.proposals)
    (hdrafts : db'.appointmentDrafts = db.appointmentDrafts) : Proposes db db' :=
  .kept hproposals fun d hd => .inl (by rwa [hdrafts])

/-- Saving a draft keeps the drafts that are there. -/
theorem proposes_saveAppointmentDraft {sourceId : String} {draft : AppointmentDraft} {d : StoredAppointmentDraft}
    (hsource : validateSourceId sourceId = .ok sourceId)
    (h : (saveAppointmentDraftInTransaction sourceId draft).run db = .ok (d, db')) : Proposes db db' := by
  rcases saveAppointmentDraftInTransaction_run_eq_ok hsource h with ⟨row, -, -, -, -, -, rfl, -⟩ | ⟨rfl, -⟩
  · exact .kept rfl fun d hd => .inl (List.mem_append_left _ hd)
  · exact .same rfl rfl

theorem proposes_createProposalInTransaction {key sourceId : String} {source : ProposalSource} {clock : SystemTime}
    {p : StoredProposal} (h : (createProposalInTransaction key sourceId source clock).run db = .ok (p, db')) :
    Proposes db db' := by
  obtain ⟨hreferred, ⟨-, rfl, -⟩ | ⟨rfl, -⟩⟩ := createProposalInTransaction_run_eq_ok h
  · exact .created hreferred rfl rfl
  · exact .same rfl rfl

theorem proposes_placeOwnerTask {r : PlacementRequest} {startsAt endsAt : String} {ownerTaskDraftId : ℤ}
    {p : StoredOwnerTaskPlacement}
    (h : (placeOwnerTask env.timezones r startsAt endsAt ownerTaskDraftId).run db = .ok (p, db')) :
    db'.proposals = db.proposals ∧ db'.appointmentDrafts = db.appointmentDrafts := by
  obtain ⟨-, -, -, ⟨rfl, -⟩ | rfl⟩ := placeOwnerTask_run_eq_ok h <;> exact ⟨rfl, rfl⟩

/-- **What a call does to the proposals and to the appointment drafts.** -/
theorem proposes_of_run (hc : Consistent env db) {c : Command} {u : Unit}
    (h : (c.transaction env).run db = .ok (u, db')) : Proposes db db' := by
  cases c with
  | deleteAppointmentDraftById id =>
    obtain ⟨hfree, rfl⟩ := deleteAppointmentDraftById_run_eq_ok h
    refine .kept rfl fun d hd => ?_
    by_cases hid : d.id = id
    · refine .inr fun p hp hdraft => ?_
      simp only [Database.appointmentDraftRestricted, Bool.or_eq_false_iff, List.any_eq_false, beq_iff_eq] at hfree
      exact hfree.1 p hp (hdraft.trans (congrArg some hid))
    · exact .inl (Table.mem_deleteWhere.mpr ⟨hd, beq_eq_false_iff_ne.mpr hid⟩)
  | saveAppointmentDraft =>
    obtain ⟨a, ha⟩ := Tx.run_discard_eq_ok_iff.mp h
    simp only [saveAppointmentDraft, Tx.ofResult_bind_eq_ok_iff] at ha
    obtain ⟨sourceId, hsource, hsave⟩ := ha
    obtain ⟨hvalid, rfl⟩ := validateSourceId_eq_ok_iff.mp hsource
    exact proposes_saveAppointmentDraft hsource hsave
  | prepareAppointmentDraftFromQuote =>
    obtain ⟨a, ha⟩ := Tx.run_discard_eq_ok_iff.mp h
    have hsource := validateSourceId_of_prepares ha
    rcases prepareAppointmentDraftFromQuote_run_eq_ok hc.quote_id ha with ⟨rfl, -⟩ | ⟨hprepared⟩
    · exact .same rfl rfl
    · obtain ⟨_, _, _, db₁, -, -, -, -, hsave, -, rfl, -⟩ := hprepared
      rcases saveAppointmentDraftInTransaction_run_eq_ok hsource hsave with ⟨row, -, -, -, -, -, rfl, -⟩ | ⟨rfl, -⟩
      · exact .kept rfl fun d hd => .inl (List.mem_append_left _ hd)
      · exact .same rfl rfl
  | createProposal =>
    obtain ⟨a, ha⟩ := Tx.run_discard_eq_ok_iff.mp h
    simp only [createProposal, Tx.ofResult_bind_eq_ok_iff] at ha
    obtain ⟨_, -, _, -, _, -, hcreate⟩ := ha
    exact proposes_createProposalInTransaction hcreate
  | submitAppointmentQuote =>
    obtain ⟨a, ha⟩ := Tx.run_discard_eq_ok_iff.mp h
    obtain ⟨_, -, ⟨rfl, -⟩ | ⟨hsubmitted⟩⟩ := submitAppointmentQuote_run_eq_ok ha hc.quote_id
    · exact .same rfl rfl
    · obtain ⟨_, _, _, db₁, _, -, -, -, -, -, hcreate, -, rfl, -⟩ := hsubmitted
      obtain ⟨hreferred, ⟨-, rfl, -⟩ | ⟨rfl, -⟩⟩ := createProposalInTransaction_run_eq_ok hcreate
      · exact .created hreferred rfl rfl
      · exact .same rfl rfl
  | transitionProposal =>
    obtain ⟨a, ha⟩ := Tx.run_discard_eq_ok_iff.mp h
    rcases transitionProposal_run_eq_ok ha with rfl | ⟨-, -, rfl⟩
    · exact .same rfl rfl
    · exact .moved rfl rfl
  | deleteProposalById =>
    obtain ⟨-, -, rfl⟩ := deleteProposalById_run_eq_ok h
    exact .deleted rfl rfl
  | deleteOwnerTaskDraftById =>
    simp only [Command.transaction, deleteOwnerTaskDraftById, Tx.read_bind, Tx.ensure_bind_eq_ok_iff, Tx.run_write,
      Except.ok.injEq, Prod.mk.injEq, true_and] at h
    obtain ⟨-, -, -, rfl⟩ := h
    exact .same rfl rfl
  | saveAppointmentQuote =>
    obtain ⟨a, ha⟩ := Tx.run_discard_eq_ok_iff.mp h
    rcases saveAppointmentQuote_run_eq_ok ha with rfl | ⟨_, _, -, -, -, rfl, -⟩ <;> exact .same rfl rfl
  | saveOwnerTaskDraft =>
    obtain ⟨a, ha⟩ := Tx.run_discard_eq_ok_iff.mp h
    rcases saveOwnerTaskDraft_run_eq_ok ha with ⟨_, rfl, -⟩ | rfl <;> exact .same rfl rfl
  | saveOwnerTaskPlacement =>
    obtain ⟨a, ha⟩ := Tx.run_discard_eq_ok_iff.mp h
    obtain ⟨_, _, -, hplace⟩ := saveOwnerTaskPlacement_run_eq_ok ha
    obtain ⟨hproposals, hdrafts⟩ := proposes_placeOwnerTask hplace
    exact .same hproposals hdrafts
  | savePreparedOwnerTask =>
    obtain ⟨⟨d, p⟩, ha⟩ := Tx.run_discard_eq_ok_iff.mp h
    obtain ⟨_, _, _, db₁, hfind, hplace⟩ := savePreparedOwnerTask_run_eq_ok ha
    obtain ⟨hproposals, hdrafts⟩ := proposes_placeOwnerTask hplace
    have hdraft : db₁.proposals = db.proposals ∧ db₁.appointmentDrafts = db.appointmentDrafts := by
      obtain ⟨-, -, ⟨heq, -⟩ | heq⟩ := findOrInsertOwnerTaskDraft_run_eq_ok hfind <;> rw [heq] <;> exact ⟨rfl, rfl⟩
    exact .same (hproposals.trans hdraft.1) (hdrafts.trans hdraft.2)
  | submitOwnerTaskPlacement =>
    obtain ⟨a, ha⟩ := Tx.run_discard_eq_ok_iff.mp h
    obtain ⟨-, -, ⟨rfl, -⟩ | hsubmitted⟩ := submitOwnerTaskPlacement_run_eq_ok ha hc.placement_id
    · exact .same rfl rfl
    · obtain rfl := hsubmitted.eq
      exact .same rfl rfl
  | attachEventMapping =>
    obtain ⟨a, ha⟩ := Tx.run_discard_eq_ok_iff.mp h
    obtain ⟨-, ⟨_, -, -, -, -, -, -, -, -, rfl, -⟩ | ⟨rfl, -⟩⟩ := attachEventMapping_run_eq_ok ha <;>
      exact .same rfl rfl
  | deleteEventMappingById =>
    obtain ⟨-, rfl⟩ := deleteEventMappingById_run_eq_ok h
    exact .same rfl rfl
  | enqueueNotification =>
    obtain ⟨n, hn⟩ := Tx.run_discard_eq_ok_iff.mp h
    obtain ⟨_, _, -, ⟨_, _, -, -, rfl, -⟩ | ⟨rfl, -⟩⟩ := enqueueNotification_run_eq_ok hn <;> exact .same rfl rfl
  | claimNotifications =>
    obtain ⟨ns, hns⟩ := Tx.run_discard_eq_ok_iff.mp h
    obtain ⟨_, _, _, -, -, rfl, -⟩ := claimNotifications_run_eq_ok hc.notification_id hns
    exact .same rfl rfl
  | markNotificationSent =>
    obtain ⟨n, hn⟩ := Tx.run_discard_eq_ok_iff.mp h
    rcases markNotificationSent_run_eq_ok hc.notification_id hn with ⟨rfl, -⟩ | ⟨_, _, -, rfl, -⟩ <;> exact .same rfl rfl
  | rescheduleNotification =>
    obtain ⟨n, hn⟩ := Tx.run_discard_eq_ok_iff.mp h
    obtain ⟨_, _, -, -, rfl, -⟩ := rescheduleNotification_run_eq_ok hc.notification_id hn
    exact .same rfl rfl
  | deleteNotificationById =>
    obtain ⟨-, rfl⟩ := deleteNotificationById_run_eq_ok h
    exact .same rfl rfl
  | recordMessage =>
    obtain ⟨a, ha⟩ := Tx.run_discard_eq_ok_iff.mp h
    rcases recordMessage_run_eq_ok ha with ⟨_, -, -, -, -, -, -, -, rfl, -⟩ | rfl <;> exact .same rfl rfl
  | transitionMessage =>
    obtain ⟨a, ha⟩ := Tx.run_discard_eq_ok_iff.mp h
    rcases transitionMessage_run_eq_ok ha with rfl | ⟨-, _, -, rfl⟩ <;> exact .same rfl rfl
  | recordTask =>
    obtain ⟨a, ha⟩ := Tx.run_discard_eq_ok_iff.mp h
    obtain ⟨_, _, -, -, ⟨_, -, rfl, -⟩ | ⟨rfl, -⟩⟩ := recordTask_run_eq_ok ha <;> exact .same rfl rfl
  | transitionTask =>
    obtain ⟨a, ha⟩ := Tx.run_discard_eq_ok_iff.mp h
    rcases transitionTask_run_eq_ok ha with rfl | ⟨-, _, -, rfl⟩ <;> exact .same rfl rfl
  | appendAuditEvent =>
    obtain ⟨a, ha⟩ := Tx.run_discard_eq_ok_iff.mp h
    rcases appendAuditEvent_run_eq_ok ha with ⟨_, -, rfl, -⟩ | ⟨rfl, -⟩ <;> exact .same rfl rfl

/-! ### What the rows hold -/

/-- A proposal's times are the clock's, and the appointment draft it comes from is there. -/
structure ProposalStoredRow.Backed (drafts : List AppointmentStoredRow) (p : ProposalStoredRow) : Prop where
  createdAt : ∃ clock, p.createdAt = currentTimestamp clock
  updatedAt : ∃ clock, p.updatedAt = currentTimestamp clock
  draft : ∀ id, p.appointmentDraftId = some id → ∃ d ∈ drafts, d.id = id

/-- All proposals are backed. -/
def ProposalsBacked (db : Database) : Prop := ∀ p ∈ db.proposals, p.Backed db.appointmentDrafts

theorem Proposes.backed (h : Proposes db db') (hb : ProposalsBacked db) : ProposalsBacked db' := by
  cases h with
  | kept hproposals hdrafts =>
    intro p hp
    rw [hproposals] at hp
    refine ⟨(hb p hp).createdAt, (hb p hp).updatedAt, fun id hid => ?_⟩
    obtain ⟨d, hd, rfl⟩ := (hb p hp).draft id hid
    rcases hdrafts d hd with hd | hfree
    · exact ⟨d, hd, rfl⟩
    · exact absurd hid (hfree p hp)
  | @created key sourceId source clock hreferred hdrafts hproposals =>
    intro p hp
    rw [hproposals, List.mem_append, List.mem_singleton] at hp
    rw [hdrafts]
    rcases hp with hp | rfl
    · exact hb p hp
    · refine ⟨⟨clock, rfl⟩, ⟨clock, rfl⟩, fun id hid => ?_⟩
      cases source with
      | ownerTaskDraft draftId => cases hid
      | appointmentDraft draftId =>
        obtain rfl : draftId = id := Option.some.inj hid
        obtain ⟨-, hfound, -⟩ := ensureProposalSourceExists_run_eq_ok hreferred
        obtain ⟨d, hd⟩ := Option.isSome_iff_exists.mp (hfound draftId rfl)
        exact ⟨d, Table.byRowid_eq_some hd⟩
  | @moved id next clock hdrafts hproposals =>
    intro p hp
    rw [hproposals, Table.mem_updateWhere] at hp
    rw [hdrafts]
    obtain ⟨r, hr, -, rfl⟩ | ⟨hr, -⟩ := hp
    · exact ⟨(hb r hr).createdAt, ⟨clock, rfl⟩, (hb r hr).draft⟩
    · exact hb p hr
  | deleted hdrafts hproposals =>
    intro p hp
    rw [hproposals, Table.mem_deleteWhere] at hp
    rw [hdrafts]
    exact hb p hp.1

/-- **In every reachable state the proposals are backed.** -/
theorem Reachable.backed (h : Reachable env db) : ProposalsBacked db := by
  obtain ⟨cs, rfl⟩ := h
  refine (Machine.run_invariant (I := fun db => Consistent env db ∧ ProposalsBacked db) ?_
    ⟨Consistent.empty env, fun p hp => absurd hp List.not_mem_nil⟩ cs).2
  rintro c before ⟨hc, hb⟩
  refine ⟨run_consistent hc [c], ?_⟩
  cases hrun : (c.transaction env).run before with
  | error e => rwa [step_of_error hrun]
  | ok r =>
    rw [step_of_ok hrun]
    exact (proposes_of_run hc hrun).backed hb

end AgentVoice.Store

import AgentVoice.Store.QuoteLifecycle

/-!
# Where quotes come from

Only saving a quote adds one: what any other call leaves in the table of quotes was there before, with the offer that it
has (`offer_before`). A quote that was saved is read back with the offer that was saved (`saveAppointmentQuote_stores`).
-/

namespace AgentVoice.Store

open AgentVoice.Foundations AgentVoice.Domain

variable {env : Environment} {db db' : Database}

/-- Whether a call saves a quote. -/
def Command.savesQuote : Command → Bool
  | .saveAppointmentQuote .. => true
  | _ => false

/-- The quotes of the tables, by their ids, were there before. -/
def QuotesFrom (db db' : Database) : Prop :=
  ∀ row' ∈ db'.appointmentQuotes, ∃ row ∈ db.appointmentQuotes, row.quoteId = row'.quoteId

theorem QuotesFrom.of_eq (h : db'.appointmentQuotes = db.appointmentQuotes) : QuotesFrom db db' :=
  fun row hrow => ⟨row, h ▸ hrow, rfl⟩

theorem QuotesFrom.updateWhere {p : AppointmentQuoteStoredRow → Bool} {f : AppointmentQuoteStoredRow → AppointmentQuoteStoredRow}
    (hf : ∀ r, (f r).quoteId = r.quoteId) (h : db'.appointmentQuotes = Table.updateWhere p f db.appointmentQuotes) :
    QuotesFrom db db' := by
  intro row' hrow'
  rw [h] at hrow'
  rcases Table.mem_updateWhere.mp hrow' with ⟨row, hrow, -, rfl⟩ | ⟨hrow, -⟩
  · exact ⟨row, hrow, (hf row).symm⟩
  · exact ⟨row', hrow, rfl⟩

/-- Placing a task leaves the quotes. -/
theorem placeOwnerTask_quotes {r : PlacementRequest} {startsAt endsAt : String} {ownerTaskDraftId : ℤ}
    {p : StoredOwnerTaskPlacement}
    (h : (placeOwnerTask env.timezones r startsAt endsAt ownerTaskDraftId).run db = .ok (p, db')) :
    db'.appointmentQuotes = db.appointmentQuotes := by
  obtain ⟨-, -, -, ⟨rfl, -⟩ | rfl⟩ := placeOwnerTask_run_eq_ok h <;> rfl

/-- **Only saving a quote adds one.** -/
theorem quotesFrom_of_run (hc : Consistent env db) {c : Command} {u : Unit} (h : (c.transaction env).run db = .ok (u, db'))
    (hother : c.savesQuote = false) : QuotesFrom db db' := by
  cases c with
  | saveAppointmentQuote => cases hother
  | prepareAppointmentDraftFromQuote =>
    obtain ⟨a, ha⟩ := Tx.run_discard_eq_ok_iff.mp h
    rcases prepareAppointmentDraftFromQuote_run_eq_ok hc.quote_id ha with ⟨rfl, -⟩ | ⟨hprepared⟩
    · exact .of_eq rfl
    · obtain ⟨row, _, d, db₁, -, -, -, -, hsave, -, rfl, -⟩ := hprepared
      obtain ⟨t, rfl⟩ := saveAppointmentDraftInTransaction_quotes hsave
      exact .updateWhere (f := AppointmentQuoteStoredRow.prepare d.id _) (fun _ => rfl) rfl
  | submitAppointmentQuote =>
    obtain ⟨a, ha⟩ := Tx.run_discard_eq_ok_iff.mp h
    obtain ⟨_, -, ⟨rfl, -⟩ | ⟨hsubmitted⟩⟩ := submitAppointmentQuote_run_eq_ok ha hc.quote_id
    · exact .of_eq rfl
    · obtain ⟨_, _, created, db₁, _, -, -, -, -, -, hcreate, -, rfl, -⟩ := hsubmitted
      obtain ⟨t, rfl⟩ := createProposalInTransaction_proposals hcreate
      exact .updateWhere (f := AppointmentQuoteStoredRow.consume _ created.id) (fun _ => rfl) rfl
  | saveAppointmentDraft =>
    obtain ⟨a, ha⟩ := Tx.run_discard_eq_ok_iff.mp h
    simp only [saveAppointmentDraft, Tx.ofResult_bind_eq_ok_iff] at ha
    obtain ⟨_, -, hsave⟩ := ha
    obtain ⟨t, rfl⟩ := saveAppointmentDraftInTransaction_quotes hsave
    exact .of_eq rfl
  | deleteAppointmentDraftById =>
    obtain ⟨-, rfl⟩ := deleteAppointmentDraftById_run_eq_ok h
    exact .of_eq rfl
  | saveOwnerTaskDraft =>
    obtain ⟨a, ha⟩ := Tx.run_discard_eq_ok_iff.mp h
    rcases saveOwnerTaskDraft_run_eq_ok ha with ⟨_, rfl, -⟩ | rfl <;> exact .of_eq rfl
  | deleteOwnerTaskDraftById =>
    simp only [Command.transaction, deleteOwnerTaskDraftById, Tx.read_bind, Tx.ensure_bind_eq_ok_iff, Tx.run_write,
      Except.ok.injEq, Prod.mk.injEq, true_and] at h
    obtain ⟨-, -, -, rfl⟩ := h
    exact .of_eq rfl
  | saveOwnerTaskPlacement =>
    obtain ⟨a, ha⟩ := Tx.run_discard_eq_ok_iff.mp h
    obtain ⟨_, _, -, hplace⟩ := saveOwnerTaskPlacement_run_eq_ok ha
    exact .of_eq (placeOwnerTask_quotes hplace)
  | savePreparedOwnerTask =>
    obtain ⟨⟨d, p⟩, ha⟩ := Tx.run_discard_eq_ok_iff.mp h
    obtain ⟨_, _, _, db₁, hfind, hplace⟩ := savePreparedOwnerTask_run_eq_ok ha
    refine .of_eq ((placeOwnerTask_quotes hplace).trans ?_)
    obtain ⟨-, -, ⟨heq, -⟩ | heq⟩ := findOrInsertOwnerTaskDraft_run_eq_ok hfind <;> rw [heq]
  | submitOwnerTaskPlacement =>
    obtain ⟨a, ha⟩ := Tx.run_discard_eq_ok_iff.mp h
    obtain ⟨-, -, ⟨rfl, -⟩ | hsubmitted⟩ := submitOwnerTaskPlacement_run_eq_ok ha hc.placement_id
    · exact .of_eq rfl
    · obtain rfl := hsubmitted.eq
      exact .of_eq rfl
  | createProposal =>
    obtain ⟨a, ha⟩ := Tx.run_discard_eq_ok_iff.mp h
    simp only [createProposal, Tx.ofResult_bind_eq_ok_iff] at ha
    obtain ⟨_, -, _, -, _, -, hcreate⟩ := ha
    obtain ⟨t, rfl⟩ := createProposalInTransaction_proposals hcreate
    exact .of_eq rfl
  | transitionProposal =>
    obtain ⟨a, ha⟩ := Tx.run_discard_eq_ok_iff.mp h
    rcases transitionProposal_run_eq_ok ha with rfl | ⟨-, -, rfl⟩ <;> exact .of_eq rfl
  | deleteProposalById =>
    obtain ⟨-, -, rfl⟩ := deleteProposalById_run_eq_ok h
    exact .of_eq rfl
  | attachEventMapping =>
    obtain ⟨a, ha⟩ := Tx.run_discard_eq_ok_iff.mp h
    obtain ⟨-, ⟨_, -, -, -, -, -, -, -, -, rfl, -⟩ | ⟨rfl, -⟩⟩ := attachEventMapping_run_eq_ok ha <;> exact .of_eq rfl
  | deleteEventMappingById =>
    obtain ⟨-, rfl⟩ := deleteEventMappingById_run_eq_ok h
    exact .of_eq rfl
  | enqueueNotification =>
    obtain ⟨n, hn⟩ := Tx.run_discard_eq_ok_iff.mp h
    obtain ⟨_, _, -, ⟨_, _, -, -, rfl, -⟩ | ⟨rfl, -⟩⟩ := enqueueNotification_run_eq_ok hn <;> exact .of_eq rfl
  | claimNotifications =>
    obtain ⟨ns, hns⟩ := Tx.run_discard_eq_ok_iff.mp h
    obtain ⟨_, _, _, -, -, rfl, -⟩ := claimNotifications_run_eq_ok hc.notification_id hns
    exact .of_eq rfl
  | markNotificationSent =>
    obtain ⟨n, hn⟩ := Tx.run_discard_eq_ok_iff.mp h
    rcases markNotificationSent_run_eq_ok hc.notification_id hn with ⟨rfl, -⟩ | ⟨_, _, -, rfl, -⟩ <;> exact .of_eq rfl
  | rescheduleNotification =>
    obtain ⟨n, hn⟩ := Tx.run_discard_eq_ok_iff.mp h
    obtain ⟨_, _, -, -, rfl, -⟩ := rescheduleNotification_run_eq_ok hc.notification_id hn
    exact .of_eq rfl
  | deleteNotificationById =>
    obtain ⟨-, rfl⟩ := deleteNotificationById_run_eq_ok h
    exact .of_eq rfl
  | recordMessage =>
    obtain ⟨a, ha⟩ := Tx.run_discard_eq_ok_iff.mp h
    rcases recordMessage_run_eq_ok ha with ⟨_, -, -, -, -, -, -, -, rfl, -⟩ | rfl <;> exact .of_eq rfl
  | transitionMessage =>
    obtain ⟨a, ha⟩ := Tx.run_discard_eq_ok_iff.mp h
    rcases transitionMessage_run_eq_ok ha with rfl | ⟨-, _, -, rfl⟩ <;> exact .of_eq rfl
  | recordTask =>
    obtain ⟨a, ha⟩ := Tx.run_discard_eq_ok_iff.mp h
    obtain ⟨_, _, -, -, ⟨_, -, rfl, -⟩ | ⟨rfl, -⟩⟩ := recordTask_run_eq_ok ha <;> exact .of_eq rfl
  | transitionTask =>
    obtain ⟨a, ha⟩ := Tx.run_discard_eq_ok_iff.mp h
    rcases transitionTask_run_eq_ok ha with rfl | ⟨-, _, -, rfl⟩ <;> exact .of_eq rfl
  | appendAuditEvent =>
    obtain ⟨a, ha⟩ := Tx.run_discard_eq_ok_iff.mp h
    rcases appendAuditEvent_run_eq_ok ha with ⟨_, -, rfl, -⟩ | ⟨rfl, -⟩ <;> exact .of_eq rfl

/-- A quote of a consistent table can be loaded. -/
theorem Consistent.exists_quote (hc : Consistent env db) {quoteId : QuoteId}
    (h : ∃ row ∈ db.appointmentQuotes, row.quoteId = quoteId.text) :
    ∃ q, appointmentQuoteById env.timezones quoteId db = .ok q := by
  obtain ⟨row, hrow, hid⟩ := h
  obtain ⟨q, hq⟩ := hc.appointmentQuotes.readable row hrow
  exact ⟨q, appointmentQuoteById_eq_ok_iff.mpr ⟨row, hid ▸ Table.byKey_of_mem hc.quote_id hrow, hq⟩⟩

/-- **A quote that another call leaves was there before**, with its offer. -/
theorem offer_before (hc : Consistent env db) {c : Command} {u : Unit} (h : (c.transaction env).run db = .ok (u, db'))
    (hother : c.savesQuote = false) {quoteId : QuoteId} {q' : StoredAppointmentQuote}
    (hq' : appointmentQuoteById env.timezones quoteId db' = .ok q') :
    ∃ q, appointmentQuoteById env.timezones quoteId db = .ok q ∧ q.MovesTo q' := by
  obtain ⟨row', hrow', -⟩ := appointmentQuoteById_eq_ok_iff.mp hq'
  obtain ⟨hmem', hid'⟩ := Table.byKey_eq_some hrow'
  obtain ⟨row, hrow, hid⟩ := quotesFrom_of_run hc h hother row' hmem'
  obtain ⟨q, hq⟩ := hc.exists_quote ⟨row, hrow, hid.trans hid'⟩
  obtain ⟨q'', hq'', hmoves⟩ := (Command.changes hc h).movesTo hc hq
  obtain rfl := Except.ok.inj (hq'.symm.trans hq'')
  exact ⟨q, hq, hmoves⟩

/-- **A quote that was saved** is what is read back, and it is what was there or the one quote that was added. -/
theorem saveAppointmentQuote_stores {quote : Quote} {kind : AppointmentKind} {timezone : String}
    {offeredSlots : List AppointmentSlot} {q : StoredAppointmentQuote}
    (h : (saveAppointmentQuote env.timezones quote kind timezone offeredSlots).run db = .ok (q, db')) :
    (appointmentQuoteById env.timezones quote.id db' = .ok q ∧ q.quote.Same quote ∧ q.appointmentKind = kind ∧
      q.timezone = timezone ∧ q.offeredSlots.map (·.interval) = offeredSlots.map (·.interval)) ∧
      ∀ row ∈ db'.appointmentQuotes, row ∈ db.appointmentQuotes ∨ row.quoteId = quote.id.text := by
  simp only [saveAppointmentQuote, Tx.ofResult_bind_eq_ok_iff, Tx.read_bind, validateAppointmentQuoteTimezone_eq_ok_iff] at h
  obtain ⟨_, ⟨-, -, rfl⟩, _, -, issuedAt, -, expiresAt, -, h⟩ := h
  cases hstored : Table.byKey AppointmentQuoteStoredRow.quoteId quote.id.text db.appointmentQuotes with
  | some row =>
    rw [hstored] at h
    obtain ⟨stored, db₁, hdecode, hsame⟩ := Tx.run_bind_eq_ok_iff.mp h
    obtain ⟨hread, rfl⟩ := decodeAppointmentQuoteById_run_eq_ok_iff.mp hdecode
    simp only [Tx.ensure_bind_eq_ok_iff, Tx.run_pure, Except.ok.injEq, Prod.mk.injEq] at hsame
    obtain ⟨hsame, rfl, rfl⟩ := hsame
    exact ⟨⟨hread, hsame⟩, fun row hrow => .inl hrow⟩
  | none =>
    rw [hstored] at h
    simp only [Option.isNone_none, if_true, Tx.ofResult_bind_eq_ok_iff, Tx.write_bind] at h
    obtain ⟨slots, -, h⟩ := h
    obtain ⟨stored, db₁, hdecode, hsame⟩ := Tx.run_bind_eq_ok_iff.mp h
    obtain ⟨hread, rfl⟩ := decodeAppointmentQuoteById_run_eq_ok_iff.mp hdecode
    simp only [Tx.ensure_bind_eq_ok_iff, Tx.run_pure, Except.ok.injEq, Prod.mk.injEq] at hsame
    obtain ⟨hsame, rfl, rfl⟩ := hsame
    refine ⟨⟨hread, hsame⟩, fun row hrow => ?_⟩
    rcases List.mem_append.mp hrow with hrow | hrow
    · exact .inl hrow
    · obtain rfl := List.mem_singleton.mp hrow
      exact .inr rfl

end AgentVoice.Store

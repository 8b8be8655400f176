import AgentVoice.Store.QuoteHistory
import AgentVoice.Store.DraftDeletion

/-!
# The lifecycle of quotes

Over runs of the calls on quotes and on the drafts and proposals they refer to: every stored quote can be read and moves
on only, it is prepared and consumed within its validity, and no two quotes share a draft or a proposal. An exact retry
of a preparation returns the stored quote. An exact retry of a submission returns the stored proposal just where its key
has no outer white space and its time can be written: the key of a proposal is stored as it is given and trimmed when it
is read, and `submit_appointment_quote` compares what it read with what it was given.
-/

namespace AgentVoice.Store

open AgentVoice.Foundations AgentVoice.Domain

variable {env : Environment} {db db' : Database}

/-! ### Retrying a preparation -/

/-- A quote that was prepared stays prepared with the same draft and slot. -/
theorem IsPreparedWith.moves {q q' : StoredAppointmentQuote} {slotIndex : ℕ} {sourceId : String}
    {draft : AppointmentDraft} (h : IsPreparedWith q slotIndex sourceId draft) (hmoves : q.MovesTo q') :
    IsPreparedWith q' slotIndex sourceId draft := by
  obtain ⟨hstate, hindex, stored, hstored, hsame⟩ := h
  refine ⟨?_, hmoves.selectedSlotIndex slotIndex hindex, stored, hmoves.appointmentDraft stored hstored, hsame⟩
  intro hissued
  have hrank := hmoves.state
  rw [hissued] at hrank
  cases hq : q.state with
  | issued => exact hstate hq
  | prepared =>
    rw [hq] at hrank
    exact absurd hrank (by decide)
  | consumed =>
    rw [hq] at hrank
    exact absurd hrank (by decide)

/-- A draft that was saved, or found, is stored under its id. -/
theorem saveAppointmentDraftInTransaction_stored (hc : Consistent env db) {sourceId : String} {draft : AppointmentDraft}
    {d : StoredAppointmentDraft} (hsource : validateSourceId sourceId = .ok sourceId)
    (h : (saveAppointmentDraftInTransaction sourceId draft).run db = .ok (d, db')) :
    ∃ row, Table.byRowid d.id db'.appointmentDrafts = some row ∧ decodeAppointmentRow row = .ok d ∧
      d.sourceId = sourceId ∧ d.draft.Same draft := by
  have hunique := ((changes_saveAppointmentDraftInTransaction hsource h).consistent hc).draft_id
  rcases saveAppointmentDraftInTransaction_run_eq_ok hsource h with
    ⟨row, -, hdecode, -, hsourceId, rfl, rfl, -⟩ | ⟨rfl, row, hrow, hdecode, hsame⟩
  · rw [(decodeAppointmentRow_eq_ok hdecode).2.1]
    exact ⟨row, Table.byRowid_of_mem hunique (by simp), hdecode, hsourceId, .refl _⟩
  · rw [(decodeAppointmentRow_eq_ok hdecode).2.1]
    exact ⟨row, Table.byRowid_of_mem hunique hrow, hdecode, hsame⟩

/-- A quote that a call prepared holds the draft that the call saved, or found. -/
theorem Prepared.selects (hc : Consistent env db) {quoteId : QuoteId} {slotIndex : ℕ} {sourceId : String}
    {draft : AppointmentDraft} {now : OffsetDateTime} {q : StoredAppointmentQuote}
    (hsource : validateSourceId sourceId = .ok sourceId)
    (h : Prepared env.timezones quoteId slotIndex sourceId draft now db db' q) :
    appointmentQuoteById env.timezones quoteId db' = .ok q ∧ q.state ≠ .issued ∧
      q.selectedSlotIndex = some slotIndex ∧ ∃ stored db₁,
        (saveAppointmentDraftInTransaction sourceId draft).run db = .ok (stored, db₁) ∧
        q.appointmentDraft = some stored := by
  obtain ⟨row, current, stored, db₁, hrow, -, -, -, hsave, -, rfl, hdecode⟩ := h
  obtain ⟨hmem, hid⟩ := Table.byKey_eq_some hrow
  obtain ⟨t, rfl⟩ := saveAppointmentDraftInTransaction_quotes hsave
  have hfound := Table.byKey_updated (p := fun r => r.quoteId == row.quoteId)
    (f := AppointmentQuoteStoredRow.prepare stored.id slotIndex) (fun _ => rfl) hrow (by simp)
  have hholds := decodeAppointmentQuoteRow_eq_ok hdecode
  have hstate : q.state = .prepared := StoredAppointmentQuoteState.storageName_inj hholds.state.symm
  have hselected : q.state ≠ .issued := by
    intro hissued
    cases hstate.symm.trans hissued
  obtain ⟨index, d, hindex, hd, hselection⟩ := hholds.selection hselected
  obtain ⟨hdraftId, hslot, -⟩ := decodeQuoteSelection_draft hselection
  obtain rfl : slotIndex = index := Int.ofNat.inj (Option.some.inj hslot)
  obtain ⟨draftId, -, -, draftRow, ⟨hdraftId', -⟩, -, -, -, hdraftRow, hdraftDecode, -⟩ :=
    decodeQuoteSelection_eq_ok_iff.mp hselection
  obtain rfl : stored.id = draftId := Option.some.inj hdraftId'
  obtain ⟨savedRow, hsavedRow, hsaved, -⟩ := saveAppointmentDraftInTransaction_stored hc hsource hsave
  obtain rfl := Option.some.inj (hdraftRow.symm.trans hsavedRow)
  obtain rfl := Except.ok.inj (hdraftDecode.symm.trans hsaved)
  exact ⟨appointmentQuoteById_eq_ok_iff.mpr ⟨_, hfound, hdecode⟩, hselected, hindex, d, _, hsave, hd⟩

/-- **A successful preparation leaves the quote prepared** with its draft and its slot. -/
theorem prepareAppointmentDraftFromQuote_prepares (hc : Consistent env db) {quoteId : QuoteId} {slotIndex : ℕ}
    {sourceId : String} {draft : AppointmentDraft} {now : OffsetDateTime} {q : StoredAppointmentQuote}
    (h : (prepareAppointmentDraftFromQuote env.timezones quoteId slotIndex sourceId draft now).run db = .ok (q, db')) :
    appointmentQuoteById env.timezones quoteId db' = .ok q ∧ IsPreparedWith q slotIndex sourceId draft := by
  have hsource := validateSourceId_of_prepares h
  rcases prepareAppointmentDraftFromQuote_run_eq_ok hc.quote_id h with ⟨rfl, hstored⟩ | hprepared
  · exact hstored
  · obtain ⟨hq, hselected, hindex, stored, db₁, hsave, hd⟩ := hprepared.selects hc hsource
    obtain ⟨-, -, -, hsame⟩ := saveAppointmentDraftInTransaction_stored hc hsource hsave
    exact ⟨hq, hselected, hindex, stored, hd, hsame⟩

/-- **A preparation of a quote that was so prepared returns it**, whatever the time. -/
theorem prepareAppointmentDraftFromQuote_run_prepared {quoteId : QuoteId} {slotIndex : ℕ} {sourceId : String}
    {draft : AppointmentDraft} {q : StoredAppointmentQuote} (hsource : validateSourceId sourceId = .ok sourceId)
    (hq : appointmentQuoteById env.timezones quoteId db = .ok q) (h : IsPreparedWith q slotIndex sourceId draft)
    (now : OffsetDateTime) :
    (prepareAppointmentDraftFromQuote env.timezones quoteId slotIndex sourceId draft now).run db = .ok (q, db) := by
  obtain ⟨hstate, hindex, stored, hstored, hsame⟩ := h
  rw [prepareAppointmentDraftFromQuote, Tx.ofResult_bind_of_ok hsource,
    Tx.run_bind_of_ok (decodeAppointmentQuoteById_run_eq_ok_iff.mpr ⟨hq, rfl⟩), if_neg hstate]
  have hmatches : (q.appointmentDraft.any fun stored =>
      decide (stored.sourceId = sourceId ∧ stored.draft.Same draft)) = true := by
    rw [hstored, Option.any_some, decide_eq_true_eq]
    exact hsame
  rw [Tx.ensure_bind_of ⟨hindex, hmatches⟩, Tx.run_pure]

/-! ### Retrying a submission -/

/-- A proposal that was created, or found, is stored under its id. Its key is trimmed. -/
theorem createProposalInTransaction_stored (hc : Consistent env db) {key sourceId : String} {source : ProposalSource} {clock : SystemTime}
    {p : StoredProposal} (h : (createProposalInTransaction key sourceId source clock).run db = .ok (p, db')) :
    (∃ row, Table.byRowid p.id db'.proposals = some row ∧ decodeProposalRow row = .ok p) ∧
      p.idempotencyKey = trim key ∧ p.sourceId = sourceId ∧ p.source = source := by
  have hunique := ((changes_createProposalInTransaction h).consistent hc).proposal_id
  obtain ⟨-, ⟨-, rfl, hdecode⟩ | ⟨rfl, r, hr, hdecode, hkey, hsource⟩⟩ := createProposalInTransaction_run_eq_ok h
  · obtain ⟨-, hid, hkey, hsourceId, ha, ho, -⟩ := decodeProposalRow_eq_ok hdecode
    refine ⟨⟨_, ?_, hdecode⟩, hkey, hsourceId, ?_⟩
    · rw [hid]
      exact Table.byRowid_of_mem hunique (by simp)
    cases source <;> cases hs : p.source <;>
      simp_all [proposalInsert, ProposalSource.appointmentDraftId, ProposalSource.ownerTaskDraftId]
  · obtain ⟨-, hid, htrimmed, -⟩ := decodeProposalRow_eq_ok hdecode
    refine ⟨⟨r, ?_, hdecode⟩, ?_, hsource⟩
    · rw [hid]
      exact Table.byRowid_of_mem hunique hr
    · rw [← hkey, htrimmed, trim_trim]

/-- **A successful submission leaves the quote consumed** into the proposal it returns, whose key is trimmed. -/
theorem submitAppointmentQuote_consumes (hc : Consistent env db) {quoteId : QuoteId} {draftId : ℤ}
    {key sourceId : String} {now : OffsetDateTime} {clock : SystemTime} {p : StoredProposal}
    (h : (submitAppointmentQuote env.timezones quoteId draftId key sourceId now clock).run db = .ok (p, db')) :
    ∃ q, appointmentQuoteById env.timezones quoteId db' = .ok q ∧ IsConsumedAs db' q draftId (trim key) sourceId p := by
  obtain ⟨consumedAt, -, ⟨rfl, q, hq, hconsumed⟩ | ⟨hsubmitted⟩⟩ := submitAppointmentQuote_run_eq_ok h hc.quote_id
  · obtain ⟨hstate, hdraft, hproposal, hkey, hrest⟩ := hconsumed
    refine ⟨q, hq, hstate, hdraft, hproposal, ?_, hrest⟩
    obtain ⟨-, row, -, -, hdecode⟩ := hproposal
    rw [← hkey, (decodeProposalRow_eq_ok hdecode).2.2.1, trim_trim]
  · obtain ⟨row, current, created, db₁, q, hrow, hcurrent, hprepared, hdraft, -, hcreate, -, rfl, hdecode, proposalRow,
      hproposalRow, hp⟩ := hsubmitted
    obtain ⟨t, rfl⟩ := createProposalInTransaction_proposals hcreate
    have hfound := Table.byKey_updated (p := fun r => r.quoteId == row.quoteId)
      (f := AppointmentQuoteStoredRow.consume consumedAt created.id) (fun _ => rfl) hrow (by simp)
    have hmoves := movesTo_consume (decodeQuote_of_prepared hcurrent hprepared) hprepared hdecode
    have hholds := decodeAppointmentQuoteRow_eq_ok hdecode
    have hstate : q.state = .consumed := StoredAppointmentQuoteState.storageName_inj hholds.state.symm
    obtain ⟨d, t', proposalId, -, -, hproposalId, hconsumption⟩ := hholds.consumption hstate
    obtain ⟨-, ⟨hcolumn, -⟩, -⟩ := decodeQuoteConsumption_eq_ok_iff.mp hconsumption
    obtain rfl : created.id = proposalId := Option.some.inj hcolumn
    have hdraft' : q.appointmentDraftId = some draftId := by
      obtain ⟨d', hd', hid⟩ := Option.map_eq_some_iff.mp hdraft
      rw [StoredAppointmentQuote.appointmentDraftId, Option.mem_def.mp (hmoves.appointmentDraft d' hd'), Option.map_some,
        hid]
    refine ⟨q, appointmentQuoteById_eq_ok_iff.mpr ⟨_, hfound, hdecode⟩, hstate, hdraft',
      ⟨created.id, proposalRow, hproposalId, hproposalRow, hp⟩, ?_⟩
    obtain ⟨⟨createdRow, hcreatedRow, hcreated⟩, hrequest⟩ := createProposalInTransaction_stored hc hcreate
    obtain rfl := Option.some.inj (hproposalRow.symm.trans hcreatedRow)
    obtain rfl := Except.ok.inj (hp.symm.trans hcreated)
    exact hrequest

/-- The row of a consumed quote holds its proposal. -/
theorem quoteHolds_proposalId {row : AppointmentQuoteStoredRow} {q : StoredAppointmentQuote}
    (h : decodeAppointmentQuoteRow env.timezones db row = .ok q) (hconsumed : q.state = .consumed) :
    row.proposalId = q.proposalId := by
  obtain ⟨d, consumedAt, proposalId, -, -, hproposalId, hconsumption⟩ :=
    (decodeAppointmentQuoteRow_eq_ok h).consumption hconsumed
  obtain ⟨-, ⟨hcolumn, -⟩, -⟩ := decodeQuoteConsumption_eq_ok_iff.mp hconsumption
  rw [hcolumn, hproposalId]

/-- **Over any sequence of changes a consumed quote stays consumed**, into a proposal that asks for the same. -/
theorem Changes.isConsumedAs (h : Changes env db db') (hc : Consistent env db) {quoteId : QuoteId}
    {q : StoredAppointmentQuote} {draftId : ℤ} {key sourceId : String} {p : StoredProposal}
    (hq : appointmentQuoteById env.timezones quoteId db = .ok q) (hconsumed : IsConsumedAs db q draftId key sourceId p) :
    ∃ q' p', appointmentQuoteById env.timezones quoteId db' = .ok q' ∧ IsConsumedAs db' q' draftId key sourceId p' ∧
      p.SameRequest p' := by
  refine h.keeps (Q := fun db' => ∃ q' p', appointmentQuoteById env.timezones quoteId db' = .ok q' ∧
    IsConsumedAs db' q' draftId key sourceId p' ∧ p.SameRequest p') ?_ hc ⟨q, p, hq, hconsumed, .refl p⟩
  rintro db₁ db₂ hc₁ hchange ⟨q₁, p₁, hq₁, hconsumed₁, hsame₁⟩
  obtain ⟨hstate, hdraft, ⟨proposalId, proposalRow, hproposalId, hproposalRow, hdecode⟩, hkey, hsource, hdraftId⟩ :=
    hconsumed₁
  obtain ⟨row, hrow, hrowDecode⟩ := appointmentQuoteById_eq_ok_iff.mp hq₁
  obtain ⟨hmem, -⟩ := Table.byKey_eq_some hrow
  obtain ⟨q₂, hq₂, hmoves⟩ := Changes.movesTo (Relation.ReflTransGen.single hchange) hc₁ hq₁
  have hcolumn : row.proposalId = some proposalId := (quoteHolds_proposalId hrowDecode hstate).trans hproposalId
  obtain ⟨row₂, p₂, hrow₂, hdecode₂, hsame₂⟩ :=
    (hchange.sameReferences hc₁ hmem).proposal proposalId hcolumn proposalRow p₁ hproposalRow hdecode
  have hstate₂ : q₂.state = .consumed := by
    have hrank := hmoves.state
    rw [hstate] at hrank
    cases hq' : q₂.state with
    | consumed => rfl
    | _ =>
      rw [hq'] at hrank
      exact absurd hrank (by decide)
  have hdraft₂ : q₂.appointmentDraftId = some draftId := by
    obtain ⟨d, hd, hid⟩ := Option.map_eq_some_iff.mp hdraft
    rw [StoredAppointmentQuote.appointmentDraftId, Option.mem_def.mp (hmoves.appointmentDraft d hd), Option.map_some, hid]
  exact ⟨q₂, p₂, hq₂, ⟨hstate₂, hdraft₂, ⟨proposalId, row₂, hmoves.proposalId proposalId hproposalId, hrow₂, hdecode₂⟩,
    hsame₂.idempotencyKey.trans hkey, hsame₂.sourceId.trans hsource, hsame₂.source.trans hdraftId⟩,
    ⟨hsame₂.id.trans hsame₁.id, hsame₂.idempotencyKey.trans hsame₁.idempotencyKey,
      hsame₂.sourceId.trans hsame₁.sourceId, hsame₂.source.trans hsame₁.source⟩⟩

/-- **A submission of a consumed quote returns its proposal** where the key is the one that was read and the time can be
written. -/
theorem submitAppointmentQuote_run_consumed {quoteId : QuoteId} {draftId : ℤ} {key sourceId consumedAt : String}
    {q : StoredAppointmentQuote} {p : StoredProposal} {now : OffsetDateTime}
    (hready : SubmitReady draftId key sourceId now consumedAt) (hq : appointmentQuoteById env.timezones quoteId db = .ok q)
    (h : IsConsumedAs db q draftId key sourceId p) (clock : SystemTime) :
    (submitAppointmentQuote env.timezones quoteId draftId key sourceId now clock).run db = .ok (p, db) := by
  obtain ⟨hstate, hdraft, ⟨proposalId, row, hproposalId, hrow, hdecode⟩, hrequest⟩ := h
  have hconsumedAt : formatAppointmentQuoteDatetime now = .ok consumedAt := okOr_eq_ok_iff.mpr hready.consumedAt
  rw [submitAppointmentQuote, Tx.ensure_bind_of hready.draftId_pos,
    Tx.ofResult_bind_of_ok (validateNonEmpty_eq_ok_iff.mpr ⟨hready.key, rfl⟩),
    Tx.ofResult_bind_of_ok (validateSourceId_eq_ok_iff.mpr ⟨hready.sourceId, rfl⟩),
    Tx.ofResult_bind_of_ok hconsumedAt,
    Tx.run_bind_of_ok (decodeAppointmentQuoteById_run_eq_ok_iff.mpr ⟨hq, rfl⟩), hstate]
  show (submitConsumed q draftId key sourceId).run db = .ok (p, db)
  rw [submitConsumed, Tx.ofResult_bind_of_ok (okOr_eq_ok_iff.mpr hdraft),
    Tx.ofResult_bind_of_ok (okOr_eq_ok_iff.mpr hproposalId), Tx.read_bind,
    Tx.ofResult_bind_of_ok (okOr_eq_ok_iff.mpr hrow),
    Tx.ofResult_bind_of_ok (replaceError_eq_ok_iff.mpr hdecode), Tx.ensure_bind_of ⟨rfl, hrequest⟩, Tx.run_pure]

/-! ### Exact retries -/

/-- An exact retry of a preparation or a submission: the same arguments, at another time. -/
inductive Command.Retries : Command → Command → Prop
  | prepare (quoteId : QuoteId) (slotIndex : ℕ) (sourceId : String) (draft : AppointmentDraft)
      (now now' : OffsetDateTime) :
      Retries (.prepareAppointmentDraftFromQuote quoteId slotIndex sourceId draft now)
        (.prepareAppointmentDraftFromQuote quoteId slotIndex sourceId draft now')
  | submit (quoteId : QuoteId) (appointmentDraftId : ℤ) (key sourceId : String) (now now' : OffsetDateTime)
      (clock clock' : SystemTime) :
      Retries (.submitAppointmentQuote quoteId appointmentDraftId key sourceId now clock)
        (.submitAppointmentQuote quoteId appointmentDraftId key sourceId now' clock')

/-- A call returns what is stored, and changes nothing: a preparation the quote that holds its draft, a submission the
proposal its quote was consumed into. -/
def ReturnsStored (env : Environment) (db : Database) : Command → Prop
  | .prepareAppointmentDraftFromQuote quoteId slotIndex sourceId draft now =>
    ∃ q, (prepareAppointmentDraftFromQuote env.timezones quoteId slotIndex sourceId draft now).run db = .ok (q, db) ∧
      appointmentQuoteById env.timezones quoteId db = .ok q ∧ IsPreparedWith q slotIndex sourceId draft
  | .submitAppointmentQuote quoteId draftId key sourceId now clock =>
    ∃ q p, (submitAppointmentQuote env.timezones quoteId draftId key sourceId now clock).run db = .ok (p, db) ∧
      appointmentQuoteById env.timezones quoteId db = .ok q ∧ IsConsumedAs db q draftId key sourceId p
  | _ => True

/-- When a call can be retried: the key of a submission has no outer white space, and its time can be written. -/
def Command.Retriable : Command → Prop
  | .submitAppointmentQuote _ _ key _ now _ => trim key = key ∧ now.toUtc.format.isSome = true
  | _ => True

/-- **An exact retry of a call that succeeded returns what is stored just where it can be retried**, whatever happened in
between. -/
theorem returnsStored_iff_retriable (hc : Consistent env db) {c c' : Command} {u : Unit} (hretries : c.Retries c')
    (h : (c.transaction env).run db = .ok (u, db')) {later : Database} (hlater : Changes env db' later) :
    ReturnsStored env later c' ↔ c'.Retriable := by
  cases hretries with
  | prepare quoteId slotIndex sourceId draft now now' =>
    obtain ⟨q, hrun⟩ := Tx.run_discard_eq_ok_iff.mp h
    have hsource : validateSourceId sourceId = .ok sourceId := by
      simp only [prepareAppointmentDraftFromQuote, Tx.ofResult_bind_eq_ok_iff] at hrun
      obtain ⟨source, hvalid, -⟩ := hrun
      exact validateSourceId_eq_ok_iff.mpr ⟨(validateSourceId_eq_ok_iff.mp hvalid).1, rfl⟩
    obtain ⟨hq, hprepared⟩ := prepareAppointmentDraftFromQuote_prepares hc hrun
    have hc' := (changes_prepareAppointmentDraftFromQuote hc hrun).consistent hc
    obtain ⟨q', hq', hmoves⟩ := hlater.movesTo hc' hq
    have hprepared' := hprepared.moves hmoves
    exact iff_of_true ⟨q', prepareAppointmentDraftFromQuote_run_prepared hsource hq' hprepared' now', hq', hprepared'⟩
      trivial
  | submit quoteId draftId key sourceId now now' clock clock' =>
    obtain ⟨p, hrun⟩ := Tx.run_discard_eq_ok_iff.mp h
    obtain ⟨_, hready, -⟩ := submitAppointmentQuote_run_eq_ok hrun hc.quote_id
    obtain ⟨q, hq, hconsumed⟩ := submitAppointmentQuote_consumes hc hrun
    have hc' := (changes_submitAppointmentQuote hc hrun).consistent hc
    obtain ⟨q', p', hq', hconsumed', -⟩ := hlater.isConsumedAs hc' hq hconsumed
    constructor
    · rintro ⟨q'', p'', hrun', hq'', hconsumed''⟩
      obtain rfl := Except.ok.inj (hq'.symm.trans hq'')
      obtain ⟨consumedAt, hready', -⟩ := submitAppointmentQuote_run_eq_ok hrun' (hlater.consistent hc').quote_id
      refine ⟨?_, Option.isSome_iff_exists.mpr ⟨consumedAt, hready'.consumedAt⟩⟩
      obtain ⟨-, -, ⟨id, row, hid, hrow, hdecode⟩, hkey, -⟩ := hconsumed'
      obtain ⟨-, -, ⟨id', row', hid', hrow', hdecode'⟩, hkey', -⟩ := hconsumed''
      obtain rfl := Option.some.inj (hid.symm.trans hid')
      obtain rfl := Option.some.inj (hrow.symm.trans hrow')
      obtain rfl := Except.ok.inj (hdecode.symm.trans hdecode')
      exact hkey.symm.trans hkey'
    · rintro ⟨hkey, htime⟩
      obtain ⟨consumedAt, hconsumedAt⟩ := Option.isSome_iff_exists.mp htime
      rw [hkey] at hconsumed'
      have hready' : SubmitReady draftId key sourceId now' consumedAt :=
        ⟨hready.draftId_pos, hready.key, hready.sourceId, hconsumedAt⟩
      exact ⟨q', p', submitAppointmentQuote_run_consumed hready' hq' hconsumed' clock', hq', hconsumed'⟩

/-! ### What one call does to the quotes -/

/-- The calls on quotes, and on the drafts and proposals they refer to. -/
def Command.isQuoteLifecycle : Command → Bool
  | .saveAppointmentQuote .. | .prepareAppointmentDraftFromQuote .. | .submitAppointmentQuote .. |
    .saveAppointmentDraft .. | .createProposal .. | .transitionProposal .. | .deleteAppointmentDraftById .. |
    .deleteProposalById .. => true
  | _ => false

/-- The time at which a call prepares or submits a quote. -/
def Command.quoteTime : Command → Option OffsetDateTime
  | .prepareAppointmentDraftFromQuote _ _ _ _ now => some now
  | .submitAppointmentQuote _ _ _ _ now _ => some now
  | _ => none

/-- How a call may leave a quote: in its state, or in the next one, within its validity. -/
def StaysOrEnters (c : Command) (q q' : StoredAppointmentQuote) : Prop :=
  q'.state = q.state ∨ q'.state.rank = q.state.rank + 1 ∧ ∃ now ∈ c.quoteTime, q.quote.ValidAt now

/-- What a call does to the table of quotes: nothing, or it issues a quote, or it takes one to its next state. -/
inductive QuoteStep (env : Environment) (c : Command) (db db' : Database) : Prop
  | unchanged (quotes : db'.appointmentQuotes = db.appointmentQuotes)
  | issues {row : AppointmentQuoteStoredRow} (state : row.state = StoredAppointmentQuoteState.issued.storageName)
      (quotes : db'.appointmentQuotes = db.appointmentQuotes ++ [row])
  | advances {row : AppointmentQuoteStoredRow} {f : AppointmentQuoteStoredRow → AppointmentQuoteStoredRow}
      {current moved : StoredAppointmentQuote} {now : OffsetDateTime} (keeps : ∀ r, (f r).quoteId = r.quoteId)
      (mem : row ∈ db.appointmentQuotes) (before : decodeAppointmentQuoteRow env.timezones db row = .ok current)
      (after : decodeAppointmentQuoteRow env.timezones db' (f row) = .ok moved)
      (rank : moved.state.rank = current.state.rank + 1) (time : now ∈ c.quoteTime) (valid : current.quote.ValidAt now)
      (quotes : db'.appointmentQuotes = Table.updateWhere (fun r => r.quoteId == row.quoteId) f db.appointmentQuotes)

theorem quoteStep_prepare (hc : Consistent env db) {quoteId : QuoteId} {slotIndex : ℕ} {sourceId : String}
    {draft : AppointmentDraft} {now : OffsetDateTime} {q : StoredAppointmentQuote}
    (h : (prepareAppointmentDraftFromQuote env.timezones quoteId slotIndex sourceId draft now).run db = .ok (q, db')) :
    QuoteStep env (.prepareAppointmentDraftFromQuote quoteId slotIndex sourceId draft now) db db' := by
  rcases prepareAppointmentDraftFromQuote_run_eq_ok hc.quote_id h with ⟨rfl, -⟩ | ⟨hprepared⟩
  · exact .unchanged rfl
  obtain ⟨row, current, d, db₁, hrow, hcurrent, hissued, hvalid, hsave, -, rfl, hdecode⟩ := hprepared
  obtain ⟨t, rfl⟩ := saveAppointmentDraftInTransaction_quotes hsave
  have hprepared : q.state = .prepared :=
    StoredAppointmentQuoteState.storageName_inj (decodeAppointmentQuoteRow_eq_ok hdecode).state.symm
  have hrank : q.state.rank = current.state.rank + 1 := by
    rw [hprepared, hissued]
    rfl
  exact .advances (f := AppointmentQuoteStoredRow.prepare d.id slotIndex) (fun _ => rfl) (Table.byKey_eq_some hrow).1
    hcurrent hdecode hrank rfl hvalid rfl

theorem quoteStep_submit (hc : Consistent env db) {quoteId : QuoteId} {draftId : ℤ} {key sourceId : String}
    {now : OffsetDateTime} {clock : SystemTime} {p : StoredProposal}
    (h : (submitAppointmentQuote env.timezones quoteId draftId key sourceId now clock).run db = .ok (p, db')) :
    QuoteStep env (.submitAppointmentQuote quoteId draftId key sourceId now clock) db db' := by
  obtain ⟨consumedAt, -, ⟨rfl, -⟩ | ⟨hsubmitted⟩⟩ := submitAppointmentQuote_run_eq_ok h hc.quote_id
  · exact .unchanged rfl
  obtain ⟨row, current, created, db₁, q, hrow, hcurrent, hprepared, -, hvalid, hcreate, -, rfl, hdecode, -⟩ := hsubmitted
  obtain ⟨t, rfl⟩ := createProposalInTransaction_proposals hcreate
  have hconsumed : q.state = .consumed :=
    StoredAppointmentQuoteState.storageName_inj (decodeAppointmentQuoteRow_eq_ok hdecode).state.symm
  have hrank : q.state.rank = current.state.rank + 1 := by
    rw [hconsumed, hprepared]
    rfl
  exact .advances (f := AppointmentQuoteStoredRow.consume consumedAt created.id) (fun _ => rfl)
    (Table.byKey_eq_some hrow).1 hcurrent hdecode hrank rfl hvalid rfl

/-- **What a call of the lifecycle does to the table of quotes.** -/
theorem quoteStep_of_lifecycle (hc : Consistent env db) {c : Command} (hlifecycle : c.isQuoteLifecycle = true) :
    QuoteStep env c db (step env c db) := by
  cases h : (c.transaction env).run db with
  | error e =>
    rw [step_of_error h]
    exact .unchanged rfl
  | ok r =>
    obtain ⟨u, db'⟩ := r
    rw [step_of_ok h]
    cases c with
    | saveAppointmentQuote =>
      obtain ⟨stored, hrun⟩ := Tx.run_discard_eq_ok_iff.mp h
      rcases saveAppointmentQuote_run_eq_ok hrun with rfl | ⟨row, slots, -, -, hissued, rfl, -⟩
      · exact .unchanged rfl
      · exact .issues hissued rfl
    | prepareAppointmentDraftFromQuote =>
      obtain ⟨q, hrun⟩ := Tx.run_discard_eq_ok_iff.mp h
      exact quoteStep_prepare hc hrun
    | submitAppointmentQuote =>
      obtain ⟨p, hrun⟩ := Tx.run_discard_eq_ok_iff.mp h
      exact quoteStep_submit hc hrun
    | saveAppointmentDraft =>
      obtain ⟨d, hrun⟩ := Tx.run_discard_eq_ok_iff.mp h
      simp only [saveAppointmentDraft, Tx.ofResult_bind_eq_ok_iff] at hrun
      obtain ⟨_, -, hsave⟩ := hrun
      obtain ⟨t, rfl⟩ := saveAppointmentDraftInTransaction_quotes hsave
      exact .unchanged rfl
    | createProposal =>
      obtain ⟨p, hrun⟩ := Tx.run_discard_eq_ok_iff.mp h
      simp only [createProposal, Tx.ofResult_bind_eq_ok_iff] at hrun
      obtain ⟨_, -, _, -, _, -, hcreate⟩ := hrun
      obtain ⟨t, rfl⟩ := createProposalInTransaction_proposals hcreate
      exact .unchanged rfl
    | transitionProposal =>
      obtain ⟨p, hrun⟩ := Tx.run_discard_eq_ok_iff.mp h
      rcases transitionProposal_run_eq_ok hrun with rfl | ⟨-, -, rfl⟩
      · exact .unchanged rfl
      · exact .unchanged rfl
    | deleteAppointmentDraftById =>
      obtain ⟨-, rfl⟩ := deleteAppointmentDraftById_run_eq_ok h
      exact .unchanged rfl
    | deleteProposalById =>
      obtain ⟨-, -, rfl⟩ := deleteProposalById_run_eq_ok h
      exact .unchanged rfl
    | _ => cases hlifecycle

/-- Quotes read from rows with the same state are in the same state. -/
theorem state_eq_of_row {row row' : AppointmentQuoteStoredRow} {q q' : StoredAppointmentQuote}
    (h : decodeAppointmentQuoteRow env.timezones db row = .ok q)
    (h' : decodeAppointmentQuoteRow env.timezones db' row' = .ok q') (hstate : row'.state = row.state) :
    q'.state = q.state := by
  rw [(decodeAppointmentQuoteRow_eq_ok h).state, (decodeAppointmentQuoteRow_eq_ok h').state] at hstate
  exact StoredAppointmentQuoteState.storageName_inj hstate

/-- An update of one quote leaves the rows of the others. -/
theorem byKey_updateWhere_of_ne {f : AppointmentQuoteStoredRow → AppointmentQuoteStoredRow}
    (hf : ∀ r, (f r).quoteId = r.quoteId) {quoteId quoteId' : String} (hne : quoteId' ≠ quoteId)
    {t : List AppointmentQuoteStoredRow} :
    Table.byKey AppointmentQuoteStoredRow.quoteId quoteId' (Table.updateWhere (fun r => r.quoteId == quoteId) f t) =
      Table.byKey AppointmentQuoteStoredRow.quoteId quoteId' t := by
  rw [Table.byKey_updateWhere hf]
  cases h : Table.byKey AppointmentQuoteStoredRow.quoteId quoteId' t with
  | none => rfl
  | some row =>
    have hid : row.quoteId ≠ quoteId := (Table.byKey_eq_some h).2 ▸ hne
    rw [Option.map_some, if_neg (by simpa using hid)]

/-- **A stored quote stays in its state, or enters the next within its validity.** -/
theorem QuoteStep.staysOrEnters {c : Command} (h : QuoteStep env c db db') (hc : Consistent env db) {quoteId : QuoteId}
    {q q' : StoredAppointmentQuote} (hq : appointmentQuoteById env.timezones quoteId db = .ok q)
    (hq' : appointmentQuoteById env.timezones quoteId db' = .ok q') : StaysOrEnters c q q' := by
  obtain ⟨row, hrow, hdecode⟩ := appointmentQuoteById_eq_ok_iff.mp hq
  obtain ⟨row', hrow', hdecode'⟩ := appointmentQuoteById_eq_ok_iff.mp hq'
  cases h with
  | unchanged quotes =>
    rw [quotes] at hrow'
    obtain rfl := Option.some.inj (hrow.symm.trans hrow')
    exact Or.inl (state_eq_of_row hdecode hdecode' rfl)
  | issues state quotes =>
    rw [quotes] at hrow'
    obtain rfl := Option.some.inj ((Table.byKey_append hrow _).symm.trans hrow')
    exact Or.inl (state_eq_of_row hdecode hdecode' rfl)
  | @advances row₀ f current moved now keeps mem before after rank time valid quotes =>
    rw [quotes] at hrow'
    by_cases hsame : row.quoteId = row₀.quoteId
    · obtain rfl := hc.quote_id.eq (Table.byKey_eq_some hrow).1 mem hsame
      have hfound := Table.byKey_updated (p := fun r => r.quoteId == row.quoteId) (f := f) keeps hrow (by simp)
      obtain rfl := Option.some.inj (hfound.symm.trans hrow')
      obtain rfl := Except.ok.inj (hdecode.symm.trans before)
      obtain rfl := Except.ok.inj (hdecode'.symm.trans after)
      exact Or.inr ⟨rank, now, time, valid⟩
    · rw [(Table.byKey_eq_some hrow).2] at hsame
      rw [byKey_updateWhere_of_ne keeps hsame] at hrow'
      obtain rfl := Option.some.inj (hrow.symm.trans hrow')
      exact Or.inl (state_eq_of_row hdecode hdecode' rfl)

/-- **A quote that was not there is issued.** -/
theorem QuoteStep.issued_of_new {c : Command} (h : QuoteStep env c db db') (hc : Consistent env db) {quoteId : QuoteId}
    {q' : StoredAppointmentQuote} (hnew : ∀ q, appointmentQuoteById env.timezones quoteId db ≠ .ok q)
    (hq' : appointmentQuoteById env.timezones quoteId db' = .ok q') : q'.state = .issued := by
  have hnone : ∀ row ∈ db.appointmentQuotes, row.quoteId ≠ quoteId.text := by
    intro row hrow hid
    obtain ⟨q, hq⟩ := hc.appointmentQuotes.readable row hrow
    refine hnew q (appointmentQuoteById_eq_ok_iff.mpr ⟨row, ?_, hq⟩)
    rw [← hid]
    exact Table.byKey_of_mem hc.quote_id hrow
  obtain ⟨row', hrow', hdecode'⟩ := appointmentQuoteById_eq_ok_iff.mp hq'
  obtain ⟨hmem, hid⟩ := Table.byKey_eq_some hrow'
  cases h with
  | unchanged quotes => exact absurd hid (hnone row' (quotes ▸ hmem))
  | issues state quotes =>
    rw [quotes] at hmem
    rcases List.mem_append.mp hmem with hold | hnew
    · exact absurd hid (hnone row' hold)
    · rw [List.mem_singleton.mp hnew] at hdecode'
      exact StoredAppointmentQuoteState.storageName_inj ((decodeAppointmentQuoteRow_eq_ok hdecode').state.symm.trans state)
  | advances keeps mem before after rank time valid quotes =>
    rw [quotes] at hmem
    obtain ⟨r, hr, rfl⟩ := List.mem_map.mp hmem
    refine absurd ?_ (hnone r hr)
    rw [← hid]
    split
    · exact (keeps r).symm
    · rfl

/-! ### The lifecycle over runs -/

/-- What holds of the quotes in every state: each can be read, and no two have the same draft or the same proposal. -/
structure QuotesSound (env : Environment) (db : Database) : Prop where
  readable : ∀ row ∈ db.appointmentQuotes, ∃ q, decodeAppointmentQuoteRow env.timezones db row = .ok q
  apart : QuotesApart env db

/-- What holds of every call: where it fails it changes nothing, a new quote is issued, and every quote that was there
moves on only, into a state it enters within its validity. -/
structure MovesQuotes (env : Environment) (c : Command) (db : Database) : Prop where
  unchanged : ∀ e, (c.transaction env).run db = .error e → step env c db = db
  issued : ∀ quoteId q', (∀ q, appointmentQuoteById env.timezones quoteId db ≠ .ok q) →
    appointmentQuoteById env.timezones quoteId (step env c db) = .ok q' → q'.state = .issued
  moves : ∀ quoteId q, appointmentQuoteById env.timezones quoteId db = .ok q →
    ∃ q', appointmentQuoteById env.timezones quoteId (step env c db) = .ok q' ∧ q.MovesTo q' ∧ StaysOrEnters c q q'

/-- A call succeeds. -/
def Succeeds (env : Environment) (c : Command) (db : Database) : Prop :=
  ∃ u db', (c.transaction env).run db = .ok (u, db')

/-- The lifecycle of quotes over a run of the store: the quotes are sound in every state, every call moves them on, and
every exact retry of a call that succeeded returns what is stored. -/
structure QuoteLifecycle (env : Environment) (cs : List Command) : Prop where
  sound : Machine.Throughout (step env) (QuotesSound env) cs Database.empty
  moves : Machine.Along (step env) (MovesQuotes env) cs Database.empty
  retries : ∀ before c between c' after, cs = before ++ c :: (between ++ c' :: after) → c.Retries c' →
    Succeeds env c (run env before Database.empty) →
      ReturnsStored env (run env (before ++ c :: between) Database.empty) c'

theorem Consistent.quotesSound (hc : Consistent env db) : QuotesSound env db :=
  ⟨hc.appointmentQuotes.readable, hc.quotesApart⟩

theorem Consistent.movesQuotes (hc : Consistent env db) {c : Command} (hlifecycle : c.isQuoteLifecycle = true) :
    MovesQuotes env c db := by
  have hstep := quoteStep_of_lifecycle hc hlifecycle
  refine ⟨fun e => step_of_error, fun quoteId q' => hstep.issued_of_new hc, fun quoteId q hq => ?_⟩
  obtain ⟨q', hq', hmoves⟩ := (step_changes hc c).movesTo hc hq
  exact ⟨q', hq', hmoves, hstep.staysOrEnters hc hq hq'⟩

/-- **The lifecycle of quotes**, over every run: it is kept just where every exact retry of a call that succeeded can be
retried. -/
theorem quoteLifecycle_iff (env : Environment) {cs : List Command} (hcs : ∀ c ∈ cs, c.isQuoteLifecycle = true) :
    QuoteLifecycle env cs ↔ ∀ before c between c' after, cs = before ++ c :: (between ++ c' :: after) → c.Retries c' →
      Succeeds env c (run env before Database.empty) → c'.Retriable := by
  have hretry : ∀ before c between c', c.Retries c' → Succeeds env c (run env before Database.empty) →
      (ReturnsStored env (run env (before ++ c :: between) Database.empty) c' ↔ c'.Retriable) := by
    rintro before c between c' hretries ⟨u, db', hok⟩
    have hc := run_consistent (Consistent.empty env) before
    have hc' := (step_changes hc c).consistent hc
    rw [step_of_ok hok] at hc'
    have hlater := run_changes hc' between
    rw [run, Machine.run_append, Machine.run, ← run, ← run, step_of_ok hok]
    exact returnsStored_iff_retriable hc hretries hok hlater
  constructor
  · intro h before c between c' after hsplit hretries hok
    exact (hretry before c between c' hretries hok).mp (h.retries before c between c' after hsplit hretries hok)
  · intro h
    refine ⟨?_, ?_, fun before c between c' after hsplit hretries hok =>
      (hretry before c between c' hretries hok).mpr (h before c between c' after hsplit hretries hok)⟩
    · exact (Machine.throughout_iff_along (I := Consistent env) (P := fun _ _ => True) (fun _ => Consistent.quotesSound)
        (fun c _ hc _ => (step_changes hc c).consistent hc) (fun _ _ _ hnot => absurd trivial hnot)
        (Consistent.empty env) cs).mpr (Machine.Along.of_forall (fun _ _ _ => trivial) _)
    · exact Machine.Along.of_invariant (I := Consistent env) (P := fun c _ => c.isQuoteLifecycle = true)
        (fun c _ hc _ => (step_changes hc c).consistent hc) (fun _ _ hc => hc.movesQuotes) (Consistent.empty env)
        (Machine.Along.of_forall (fun c hc _ => hcs c hc) _)

/-- Submits the quote that was prepared under a key that ends in a space, twice. -/
def submittedTwice : List Command :=
  preparedQuote ++ [.submitAppointmentQuote someQuoteId 1 "proposal " "source-2" newYear.instant newYear,
    .submitAppointmentQuote someQuoteId 1 "proposal " "source-2" newYear.instant newYear]

theorem quoteLifecycle_iff_submittedTwice :
    QuoteLifecycle utcOnly submittedTwice ↔ ∀ before c between c' after,
      submittedTwice = before ++ c :: (between ++ c' :: after) → c.Retries c' →
        Succeeds utcOnly c (run utcOnly before Database.empty) → c'.Retriable :=
  quoteLifecycle_iff utcOnly (by decide)

/-- The second submission is an exact retry of the first, which succeeded, and fails. -/
theorem not_quoteLifecycle_submittedTwice : ¬ QuoteLifecycle utcOnly submittedTwice := by
  intro h
  have hsubmitted : (((Command.submitAppointmentQuote someQuoteId 1 "proposal " "source-2" newYear.instant
      newYear).transaction utcOnly).commit (run utcOnly preparedQuote .empty)).1 = .ok () := by
    decide +kernel
  have hretried : ((submitAppointmentQuote utcOnly.timezones someQuoteId 1 "proposal " "source-2" newYear.instant
      newYear).commit (run utcOnly (preparedQuote ++ [.submitAppointmentQuote someQuoteId 1 "proposal " "source-2"
        newYear.instant newYear]) .empty)).1 = .error (.conflict "appointment quote") := by
    decide +kernel
  obtain ⟨q, p, hrun, -⟩ := h.retries preparedQuote _ [] _ [] rfl (.submit someQuoteId 1 "proposal " "source-2"
    newYear.instant newYear.instant newYear newYear) ⟨(), _, Tx.commit_eq_ok_iff.mp (Prod.ext hsubmitted rfl)⟩
  rw [Tx.commit_of_ok hrun] at hretried
  cases hretried

end AgentVoice.Store

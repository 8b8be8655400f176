import AgentVoice.Store.Effects

/-!
# The history of a quote

A stored quote only moves on: its offer never changes, its state goes from issued to prepared to consumed, and
its draft, its slot, its consumption and its proposal stay once they are set (`Changes.movesTo`). No two quotes
share a draft or a proposal (`Consistent.quotesApart`).
-/

namespace AgentVoice.Store

open AgentVoice.Foundations AgentVoice.Domain

/-- How a stored quote may have moved: its offer is the same, its state went on, and what was set stayed. -/
structure StoredAppointmentQuote.MovesTo (q q' : StoredAppointmentQuote) : Prop where
  quote : q'.quote = q.quote
  appointmentKind : q'.appointmentKind = q.appointmentKind
  timezone : q'.timezone = q.timezone
  offeredSlots : q'.offeredSlots = q.offeredSlots
  state : q.state.rank ≤ q'.state.rank
  selectedSlotIndex : ∀ i ∈ q.selectedSlotIndex, i ∈ q'.selectedSlotIndex
  appointmentDraft : ∀ d ∈ q.appointmentDraft, d ∈ q'.appointmentDraft
  consumedAt : ∀ t ∈ q.consumedAt, t ∈ q'.consumedAt
  proposalId : ∀ p ∈ q.proposalId, p ∈ q'.proposalId

namespace StoredAppointmentQuote.MovesTo

theorem refl (q : StoredAppointmentQuote) : q.MovesTo q :=
  ⟨rfl, rfl, rfl, rfl, le_rfl, fun _ h => h, fun _ h => h, fun _ h => h, fun _ h => h⟩

theorem trans {q₁ q₂ q₃ : StoredAppointmentQuote} (h : q₁.MovesTo q₂) (h' : q₂.MovesTo q₃) : q₁.MovesTo q₃ :=
  ⟨h'.quote.trans h.quote, h'.appointmentKind.trans h.appointmentKind, h'.timezone.trans h.timezone,
    h'.offeredSlots.trans h.offeredSlots, h.state.trans h'.state,
    fun i hi => h'.selectedSlotIndex i (h.selectedSlotIndex i hi),
    fun d hd => h'.appointmentDraft d (h.appointmentDraft d hd), fun t ht => h'.consumedAt t (h.consumedAt t ht),
    fun p hp => h'.proposalId p (h.proposalId p hp)⟩

end StoredAppointmentQuote.MovesTo

variable {env : Environment} {db db' : Database}

/-! ### What a quote has not set -/

/-- An issued quote has set nothing. -/
theorem decodeQuote_unset_of_issued {timezones : Timezones} {row : AppointmentQuoteStoredRow}
    {q : StoredAppointmentQuote} (h : decodeAppointmentQuoteRow timezones db row = .ok q) (hissued : q.state = .issued) :
    q.selectedSlotIndex = none ∧ q.appointmentDraft = none ∧ q.consumedAt = none ∧ q.proposalId = none := by
  obtain ⟨offer, -, h⟩ := bind_eq_ok_iff.mp h
  obtain ⟨state, -, h⟩ := bind_eq_ok_iff.mp h
  cases state with
  | issued =>
    obtain ⟨u, -, h⟩ := bind_eq_ok_iff.mp h
    obtain rfl := Except.ok.inj h
    exact ⟨rfl, rfl, rfl, rfl⟩
  | prepared =>
    obtain ⟨⟨index, draft⟩, -, h⟩ := bind_eq_ok_iff.mp h
    obtain ⟨u, -, h⟩ := bind_eq_ok_iff.mp h
    obtain rfl := Except.ok.inj h
    cases hissued
  | consumed =>
    obtain ⟨⟨index, draft⟩, -, h⟩ := bind_eq_ok_iff.mp h
    obtain ⟨⟨consumedAt, proposalId⟩, -, h⟩ := bind_eq_ok_iff.mp h
    obtain rfl := Except.ok.inj h
    cases hissued

/-- A prepared quote is not consumed. -/
theorem decodeQuote_unset_of_prepared {timezones : Timezones} {row : AppointmentQuoteStoredRow}
    {q : StoredAppointmentQuote} (h : decodeAppointmentQuoteRow timezones db row = .ok q)
    (hprepared : q.state = .prepared) : q.consumedAt = none ∧ q.proposalId = none := by
  obtain ⟨offer, -, h⟩ := bind_eq_ok_iff.mp h
  obtain ⟨state, -, h⟩ := bind_eq_ok_iff.mp h
  cases state with
  | issued =>
    obtain ⟨u, -, h⟩ := bind_eq_ok_iff.mp h
    obtain rfl := Except.ok.inj h
    exact ⟨rfl, rfl⟩
  | prepared =>
    obtain ⟨⟨index, draft⟩, -, h⟩ := bind_eq_ok_iff.mp h
    obtain ⟨u, -, h⟩ := bind_eq_ok_iff.mp h
    obtain rfl := Except.ok.inj h
    exact ⟨rfl, rfl⟩
  | consumed =>
    obtain ⟨⟨index, draft⟩, -, h⟩ := bind_eq_ok_iff.mp h
    obtain ⟨⟨consumedAt, proposalId⟩, -, h⟩ := bind_eq_ok_iff.mp h
    obtain rfl := Except.ok.inj h
    cases hprepared

/-! ### How a quote moves -/

/-- Two readings of one offer. -/
theorem QuoteHolds.sameOffer {timezones : Timezones} {row row' : AppointmentQuoteStoredRow}
    {q q' : StoredAppointmentQuote} (h : QuoteHolds timezones db row q) (h' : QuoteHolds timezones db' row' q')
    (hsame : decodeQuoteOffer timezones db' row' = decodeQuoteOffer timezones db row) :
    q'.quote = q.quote ∧ q'.appointmentKind = q.appointmentKind ∧ q'.timezone = q.timezone ∧
      q'.offeredSlots = q.offeredSlots := by
  have hoffers := h'.offer
  rw [hsame, h.offer] at hoffers
  have heq := Except.ok.inj hoffers
  simp only [QuoteOffer.mk.injEq] at heq
  exact ⟨heq.1.symm, heq.2.1.symm, heq.2.2.1.symm, heq.2.2.2.symm⟩

/-- A quote moves by being prepared. -/
theorem movesTo_prepare {row : AppointmentQuoteStoredRow} {draftId : ℤ} {slotIndex : ℕ}
    {f : List AppointmentQuoteStoredRow → List AppointmentQuoteStoredRow} {q q' : StoredAppointmentQuote}
    (h : decodeAppointmentQuoteRow env.timezones db row = .ok q) (hissued : q.state = .issued)
    (h' : decodeAppointmentQuoteRow env.timezones (db.mapQuotes f) (row.prepare draftId slotIndex) = .ok q') :
    q.MovesTo q' := by
  obtain ⟨hquote, hkind, hzone, hslots⟩ :=
    (decodeAppointmentQuoteRow_eq_ok h).sameOffer (decodeAppointmentQuoteRow_eq_ok h') rfl
  obtain ⟨hindex, hdraft, hconsumed, hproposal⟩ := decodeQuote_unset_of_issued h hissued
  refine ⟨hquote, hkind, hzone, hslots, ?_, ?_, ?_, ?_, ?_⟩
  · rw [hissued]
    exact Nat.zero_le _
  · rw [hindex]
    exact fun _ h => absurd h (Option.not_mem_none _)
  · rw [hdraft]
    exact fun _ h => absurd h (Option.not_mem_none _)
  · rw [hconsumed]
    exact fun _ h => absurd h (Option.not_mem_none _)
  · rw [hproposal]
    exact fun _ h => absurd h (Option.not_mem_none _)

/-- A quote moves by being consumed. -/
theorem movesTo_consume {row : AppointmentQuoteStoredRow} {consumedAt : String} {proposalId : ℤ}
    {f : List AppointmentQuoteStoredRow → List AppointmentQuoteStoredRow} {q q' : StoredAppointmentQuote}
    (h : decodeAppointmentQuoteRow env.timezones db row = .ok q) (hprepared : q.state = .prepared)
    (h' : decodeAppointmentQuoteRow env.timezones (db.mapQuotes f) (row.consume consumedAt proposalId) = .ok q') :
    q.MovesTo q' := by
  have hholds := decodeAppointmentQuoteRow_eq_ok h
  have hholds' := decodeAppointmentQuoteRow_eq_ok h'
  obtain ⟨hquote, hkind, hzone, hslots⟩ := hholds.sameOffer hholds' rfl
  obtain ⟨hconsumed, hproposal⟩ := decodeQuote_unset_of_prepared h hprepared
  have hstate : q'.state = .consumed := StoredAppointmentQuoteState.storageName_inj hholds'.state.symm
  have hselected : q.state ≠ .issued := by
    rw [hprepared]
    nofun
  have hselected' : q'.state ≠ .issued := by
    rw [hstate]
    nofun
  obtain ⟨index, draft, hindex, hdraft, hselection⟩ := hholds.selection hselected
  obtain ⟨index', draft', hindex', hdraft', hselection'⟩ := hholds'.selection hselected'
  have hsame : (index', draft') = (index, draft) := by
    rw [hquote, hkind, hzone, hslots] at hselection'
    exact Except.ok.inj (hselection'.symm.trans hselection)
  cases hsame
  refine ⟨hquote, hkind, hzone, hslots, ?_, ?_, ?_, ?_, ?_⟩
  · rw [hprepared, hstate]
    decide
  · rw [hindex, hindex']
    exact fun _ hi => hi
  · rw [hdraft, hdraft']
    exact fun _ hd => hd
  · rw [hconsumed]
    exact fun _ h => absurd h (Option.not_mem_none _)
  · rw [hproposal]
    exact fun _ h => absurd h (Option.not_mem_none _)

/-- The row an update of one quote leaves. -/
theorem Consistent.mem_updated (hc : Consistent env db) {row row₀ : AppointmentQuoteStoredRow}
    (hrow : row ∈ db.appointmentQuotes) (hrow₀ : row₀ ∈ db.appointmentQuotes)
    (f : AppointmentQuoteStoredRow → AppointmentQuoteStoredRow) :
    row = row₀ ∧ f row ∈ Table.updateWhere (fun r => r.quoteId == row₀.quoteId) f db.appointmentQuotes ∨
      row ∈ Table.updateWhere (fun r => r.quoteId == row₀.quoteId) f db.appointmentQuotes := by
  by_cases hid : row.quoteId = row₀.quoteId
  · obtain rfl := hc.quote_id.eq hrow hrow₀ hid
    exact Or.inl ⟨rfl, List.mem_map.mpr ⟨row, hrow, if_pos (beq_self_eq_true _)⟩⟩
  · exact Or.inr (List.mem_map.mpr ⟨row, hrow, if_neg (by simpa using hid)⟩)

/-- **Every change moves a stored quote on**, or leaves it as it is. -/
theorem Change.movesTo (h : Change env db db') (hc : Consistent env db) {row : AppointmentQuoteStoredRow}
    {q : StoredAppointmentQuote} (hrow : row ∈ db.appointmentQuotes)
    (hq : decodeAppointmentQuoteRow env.timezones db row = .ok q) :
    ∃ row' ∈ db'.appointmentQuotes, row'.quoteId = row.quoteId ∧
      ∃ q', decodeAppointmentQuoteRow env.timezones db' row' = .ok q' ∧ q.MovesTo q' := by
  have hkept := decodeAppointmentQuoteRow_keeps (h.sameReferences hc hrow) hq
  cases h with
  | issueQuote => exact ⟨row, List.mem_append_left _ hrow, rfl, q, hkept, .refl q⟩
  | @prepareQuote row₀ draftId slotIndex now current q' mem decodes_before issued valid fresh decodes =>
    rcases hc.mem_updated hrow mem (AppointmentQuoteStoredRow.prepare draftId slotIndex) with ⟨rfl, hmem⟩ | hmem
    · obtain rfl := Except.ok.inj (decodes_before.symm.trans hq)
      exact ⟨_, hmem, rfl, q', decodes, movesTo_prepare hq issued decodes⟩
    · exact ⟨row, hmem, rfl, q, hkept, .refl q⟩
  | @consumeQuote row₀ consumedAt proposalId now current q' mem decodes_before prepared valid decodes =>
    rcases hc.mem_updated hrow mem (AppointmentQuoteStoredRow.consume consumedAt proposalId) with ⟨rfl, hmem⟩ | hmem
    · obtain rfl := Except.ok.inj (decodes_before.symm.trans hq)
      exact ⟨_, hmem, rfl, q', decodes, movesTo_consume hq prepared decodes⟩
    · exact ⟨row, hmem, rfl, q, hkept, .refl q⟩
  | _ => exact ⟨row, hrow, rfl, q, hkept, .refl q⟩

/-- **Over any sequence of changes a stored quote moves on.** -/
theorem Changes.movesTo (h : Changes env db db') (hc : Consistent env db) {quoteId : QuoteId}
    {q : StoredAppointmentQuote} (hq : appointmentQuoteById env.timezones quoteId db = .ok q) :
    ∃ q', appointmentQuoteById env.timezones quoteId db' = .ok q' ∧ q.MovesTo q' := by
  refine h.keeps (Q := fun db' => ∃ q', appointmentQuoteById env.timezones quoteId db' = .ok q' ∧ q.MovesTo q') ?_ hc
    ⟨q, hq, .refl q⟩
  rintro db₁ db₂ hc₁ hchange ⟨q₁, hq₁, hmoves⟩
  obtain ⟨row, hrow, hdecode⟩ := appointmentQuoteById_eq_ok_iff.mp hq₁
  obtain ⟨hmem, hid⟩ := Table.byKey_eq_some hrow
  obtain ⟨row', hmem', hid', q₂, hq₂, hmoves'⟩ := hchange.movesTo hc₁ hmem hdecode
  refine ⟨q₂, appointmentQuoteById_eq_ok_iff.mpr ⟨row', ?_, hq₂⟩, hmoves.trans hmoves'⟩
  have hfound := Table.byKey_of_mem (hchange.consistent hc₁).quote_id hmem'
  rwa [hid', hid] at hfound

/-! ### Quotes are apart -/

/-- No two quotes have the same draft or the same proposal. -/
def QuotesApart (env : Environment) (db : Database) : Prop :=
  ∀ quoteId quoteId' q q', appointmentQuoteById env.timezones quoteId db = .ok q →
    appointmentQuoteById env.timezones quoteId' db = .ok q' → quoteId ≠ quoteId' →
      (∀ d ∈ q.appointmentDraft, ∀ d' ∈ q'.appointmentDraft, d.id ≠ d'.id) ∧
        ∀ p ∈ q.proposalId, p ∉ q'.proposalId

/-- The row of a quote holds the id of its draft. -/
theorem quoteHolds_draft {timezones : Timezones} {row : AppointmentQuoteStoredRow} {q : StoredAppointmentQuote}
    (h : decodeAppointmentQuoteRow timezones db row = .ok q) {d : StoredAppointmentDraft}
    (hd : q.appointmentDraft = some d) : row.appointmentDraftId = some d.id := by
  have hselected : q.state ≠ .issued := by
    intro hissued
    rw [(decodeQuote_unset_of_issued h hissued).2.1] at hd
    cases hd
  obtain ⟨index, draft, -, hdraft, hselection⟩ := (decodeAppointmentQuoteRow_eq_ok h).selection hselected
  obtain rfl := Option.some.inj (hd.symm.trans hdraft)
  exact (decodeQuoteSelection_draft hselection).1

/-- A proposal belongs to the draft of its quote. -/
theorem quoteHolds_proposal {timezones : Timezones} {row : AppointmentQuoteStoredRow} {q : StoredAppointmentQuote}
    (h : decodeAppointmentQuoteRow timezones db row = .ok q) {proposalId : ℤ} (hp : q.proposalId = some proposalId) :
    ∃ d proposalRow p, q.appointmentDraft = some d ∧ Table.byRowid proposalId db.proposals = some proposalRow ∧
      decodeProposalRow proposalRow = .ok p ∧ p.source.appointmentDraftId = some d.id := by
  have hholds := decodeAppointmentQuoteRow_eq_ok h
  have hconsumed : q.state = .consumed := by
    cases hstate : q.state with
    | issued =>
      rw [(decodeQuote_unset_of_issued h hstate).2.2.2] at hp
      cases hp
    | prepared =>
      rw [(decodeQuote_unset_of_prepared h hstate).2] at hp
      cases hp
    | consumed => rfl
  obtain ⟨d, consumedAt, proposalId', hd, -, hp', hconsumption⟩ := hholds.consumption hconsumed
  obtain rfl := Option.some.inj (hp.symm.trans hp')
  obtain ⟨-, -, proposalRow, p, hrow, hdecode, hsource⟩ := decodeQuoteConsumption_eq_ok_iff.mp hconsumption
  exact ⟨d, proposalRow, p, hd, hrow, hdecode, hsource⟩

/-- **No two quotes share a draft or a proposal.** -/
theorem Consistent.quotesApart (hc : Consistent env db) : QuotesApart env db := by
  intro quoteId quoteId' q q' hq hq' hne
  obtain ⟨row, hrow, hdecode⟩ := appointmentQuoteById_eq_ok_iff.mp hq
  obtain ⟨row', hrow', hdecode'⟩ := appointmentQuoteById_eq_ok_iff.mp hq'
  obtain ⟨hmem, hid⟩ := Table.byKey_eq_some hrow
  obtain ⟨hmem', hid'⟩ := Table.byKey_eq_some hrow'
  have hdrafts : ∀ d ∈ q.appointmentDraft, ∀ d' ∈ q'.appointmentDraft, d.id ≠ d'.id := by
    intro d hd d' hd' heq
    have hcolumn := quoteHolds_draft hdecode hd
    have hcolumn' := quoteHolds_draft hdecode' hd'
    rw [← heq] at hcolumn'
    have hsame : row = row' :=
      hc.appointmentQuotes.eq (fun _ _ => AppointmentQuoteStoredRow.Clash.symm) hmem hmem'
        (Or.inr ⟨d.id, hcolumn, hcolumn'⟩)
    exact hne (QuoteId.ext (by rw [← hid, ← hid', hsame]))
  refine ⟨hdrafts, fun p hp hp' => ?_⟩
  obtain ⟨d, proposalRow, proposal, hd, hfound, hproposal, hsource⟩ := quoteHolds_proposal hdecode hp
  obtain ⟨d', proposalRow', proposal', hd', hfound', hproposal', hsource'⟩ := quoteHolds_proposal hdecode' hp'
  obtain rfl := Option.some.inj (hfound.symm.trans hfound')
  obtain rfl := Except.ok.inj (hproposal.symm.trans hproposal')
  exact hdrafts d hd d' hd' (Option.some.inj (hsource.symm.trans hsource'))

/-! ### Loading a quote by its draft -/

/-- What a quote holds together with its draft. -/
structure StoredAppointmentQuote.Selects (q : StoredAppointmentQuote) (d : StoredAppointmentDraft) (db : Database) :
    Prop where
  id_pos : 0 < d.id
  slot : ∃ index slot, q.selectedSlotIndex = some index ∧ q.offeredSlots[index]? = some slot ∧
    d.draft.startsAt.Same slot.startsAt ∧ d.draft.endsAt.Same slot.endsAt
  quoteId : d.draft.quoteId = q.quote.id
  row : ∃ row ∈ db.appointmentDrafts, decodeAppointmentRow row = .ok d

theorem selects_of_appointmentQuoteById {timezones : Timezones} {quoteId : QuoteId} {q : StoredAppointmentQuote}
    (hq : appointmentQuoteById timezones quoteId db = .ok q) {d : StoredAppointmentDraft}
    (hd : q.appointmentDraft = some d) : q.Selects d db := by
  obtain ⟨row, hrow, hdecode⟩ := appointmentQuoteById_eq_ok_iff.mp hq
  have hselected : q.state ≠ .issued := by
    intro hissued
    rw [(decodeQuote_unset_of_issued hdecode hissued).2.1] at hd
    cases hd
  obtain ⟨index, draft, hindex, hdraft, hselection⟩ := (decodeAppointmentQuoteRow_eq_ok hdecode).selection hselected
  obtain rfl := Option.some.inj (hd.symm.trans hdraft)
  obtain ⟨draftId, i, slot, draftRow, hdraftId, hi, rfl, hslot, hdraftRow, hdraftDecode, hquote, -, hstarts, hends⟩ :=
    decodeQuoteSelection_eq_ok_iff.mp hselection
  obtain ⟨hpos, hid, -⟩ := decodeAppointmentRow_eq_ok hdraftDecode
  exact ⟨hid ▸ hpos, ⟨_, slot, hindex, hslot, hstarts, hends⟩, hquote, draftRow, (Table.byRowid_eq_some hdraftRow).1,
    hdraftDecode⟩

/-- What the immutable part of a quote is read from. -/
theorem decodeQuoteOffer_eq_ok {timezones : Timezones} {row : AppointmentQuoteStoredRow} {offer : QuoteOffer}
    (h : decodeQuoteOffer timezones db row = .ok offer) :
    offer.quote.id.text = row.quoteId ∧ decodeSlotRows 0 (quoteSlotRows row.quoteId db) = .ok offer.offeredSlots := by
  obtain ⟨quoteId, hparse, h⟩ := bind_eq_ok_iff.mp h
  simp only [bind_eq_ok_iff, pure_eq_ok, Except.ok.injEq] at h
  obtain ⟨kind, -, zone, -, issuedAt, -, expiresAt, -, expected, -, -, -, -, -, -, -, slots, hslots, -, -, rfl⟩ := h
  exact ⟨QuoteId.parse_eq_ok_iff.mp hparse, hslots⟩

/-- A quote is found under its own identifier. -/
theorem id_of_appointmentQuoteById {timezones : Timezones} {quoteId : QuoteId} {q : StoredAppointmentQuote}
    (hq : appointmentQuoteById timezones quoteId db = .ok q) : q.quote.id = quoteId := by
  obtain ⟨row, hrow, hdecode⟩ := appointmentQuoteById_eq_ok_iff.mp hq
  have hid := (decodeQuoteOffer_eq_ok (decodeAppointmentQuoteRow_eq_ok hdecode).offer).1
  exact QuoteId.ext (hid.trans (Table.byKey_eq_some hrow).2)

/-- **A quote is found by its draft.** No other quote has the draft. -/
theorem Consistent.loadAppointmentQuoteByDraftId_run (hc : Consistent env db) {quoteId : QuoteId}
    {q : StoredAppointmentQuote} (hq : appointmentQuoteById env.timezones quoteId db = .ok q)
    {d : StoredAppointmentDraft} (hd : q.appointmentDraft = some d) :
    (loadAppointmentQuoteByDraftId env.timezones d.id).run db = .ok (q, db) := by
  obtain ⟨row, hrow, hdecode⟩ := appointmentQuoteById_eq_ok_iff.mp hq
  obtain ⟨hmem, hid⟩ := Table.byKey_eq_some hrow
  have hcolumn := quoteHolds_draft hdecode hd
  have hfind : db.appointmentQuotes.find? (fun r => r.appointmentDraftId == some d.id) = some row := by
    cases hfound : db.appointmentQuotes.find? fun r => r.appointmentDraftId == some d.id with
    | none => exact absurd hcolumn (by simpa using List.find?_eq_none.mp hfound row hmem)
    | some row' =>
      have hcolumn' : row'.appointmentDraftId = some d.id := by simpa using List.find?_some hfound
      rw [hc.appointmentQuotes.eq (fun _ _ => AppointmentQuoteStoredRow.Clash.symm) (List.mem_of_find?_eq_some hfound)
        hmem (Or.inr ⟨d.id, hcolumn', hcolumn⟩)]
  have hparse : QuoteId.parse row.quoteId quoteInvalid = .ok quoteId := QuoteId.parse_eq_ok_iff.mpr hid.symm
  have hpos := (selects_of_appointmentQuoteById hq hd).id_pos
  have hok : okOr (some row) (StoreError.notFound "appointment quote") = .ok row := rfl
  rw [loadAppointmentQuoteByDraftId, Tx.ensure_bind_of hpos, Tx.read_bind, hfind, Tx.ofResult_bind_of_ok hok,
    Tx.ofResult_bind_of_ok hparse]
  exact decodeAppointmentQuoteById_run_eq_ok_iff.mpr ⟨hq, rfl⟩

/-- Offered slots are in UTC. -/
theorem decodeSlotRows_utc {rows : List AppointmentQuoteSlotStoredRow} {index : ℤ} {slots : List AppointmentSlot}
    (h : decodeSlotRows index rows = .ok slots) : ∀ slot ∈ slots, slot.startsAt.offsetSeconds = 0 := by
  induction rows generalizing index slots with
  | nil =>
    obtain rfl := Except.ok.inj h
    exact List.forall_mem_nil _
  | cons row rows ih =>
    obtain ⟨_, -, h⟩ := bind_eq_ok_iff.mp h
    obtain ⟨startsAt, hstarts, h⟩ := bind_eq_ok_iff.mp h
    obtain ⟨endsAt, -, h⟩ := bind_eq_ok_iff.mp h
    obtain ⟨slot, hslot, h⟩ := bind_eq_ok_iff.mp h
    obtain ⟨slots', hslots, h⟩ := bind_eq_ok_iff.mp h
    obtain rfl := Except.ok.inj h
    rw [← (AppointmentSlot.new_eq_ok_iff.mp hslot).1] at hstarts
    exact List.forall_mem_cons.mpr ⟨(parseCanonical_eq_ok_iff.mp hstarts).1, ih hslots⟩

theorem offeredSlots_utc {timezones : Timezones} {quoteId : QuoteId} {q : StoredAppointmentQuote}
    (hq : appointmentQuoteById timezones quoteId db = .ok q) :
    ∀ slot ∈ q.offeredSlots, slot.startsAt.offsetSeconds = 0 := by
  obtain ⟨row, -, hdecode⟩ := appointmentQuoteById_eq_ok_iff.mp hq
  exact decodeSlotRows_utc (decodeQuoteOffer_eq_ok (decodeAppointmentQuoteRow_eq_ok hdecode).offer).2

end AgentVoice.Store

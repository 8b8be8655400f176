import AgentVoice.Store.AppointmentQuotes

/-!
# What the quote operations do

One lemma for each operation of the quotes: which row a successful call found, in which state and at which
time, and what it left. What is read from a quote depends on its own slots, its draft and its proposal only
(`decodeAppointmentQuoteRow_keeps`).
-/

namespace AgentVoice.Store

open AgentVoice.Foundations AgentVoice.Domain

variable {timezones : Timezones}

/-! ### Reading -/

/-- What reading a quote finds in the tables. -/
structure QuoteHolds (timezones : Timezones) (db : Database) (row : AppointmentQuoteStoredRow)
    (q : StoredAppointmentQuote) : Prop where
  offer : decodeQuoteOffer timezones db row = .ok ⟨q.quote, q.appointmentKind, q.timezone, q.offeredSlots⟩
  state : row.state = q.state.storageName
  issued : q.state = .issued → row.appointmentDraftId = none ∧ row.selectedSlotIndex = none ∧
    row.consumedAt = none ∧ row.proposalId = none
  selection : q.state ≠ .issued → ∃ index draft, q.selectedSlotIndex = some index ∧ q.appointmentDraft = some draft ∧
    decodeQuoteSelection db row ⟨q.quote, q.appointmentKind, q.timezone, q.offeredSlots⟩ = .ok (index, draft)
  prepared : q.state = .prepared → row.consumedAt = none ∧ row.proposalId = none
  consumption : q.state = .consumed → ∃ draft consumedAt proposalId, q.appointmentDraft = some draft ∧
    q.consumedAt = some consumedAt ∧ q.proposalId = some proposalId ∧
    decodeQuoteConsumption db row draft.id = .ok (consumedAt, proposalId)

theorem decodeAppointmentQuoteRow_eq_ok {db : Database} {row : AppointmentQuoteStoredRow} {q : StoredAppointmentQuote}
    (h : decodeAppointmentQuoteRow timezones db row = .ok q) : QuoteHolds timezones db row q := by
  obtain ⟨offer, hoffer, h⟩ := bind_eq_ok_iff.mp h
  obtain ⟨state, hstate, h⟩ := bind_eq_ok_iff.mp h
  rw [StoredAppointmentQuoteState.parse_eq_ok_iff] at hstate
  cases state with
  | issued =>
    obtain ⟨u, hcolumns, h⟩ := bind_eq_ok_iff.mp h
    obtain rfl := Except.ok.inj h
    rw [require_eq_ok_iff] at hcolumns
    exact ⟨hoffer, hstate, fun _ => hcolumns, fun hne => absurd rfl hne, nofun, nofun⟩
  | prepared =>
    obtain ⟨⟨index, draft⟩, hselection, h⟩ := bind_eq_ok_iff.mp h
    obtain ⟨u, hcolumns, h⟩ := bind_eq_ok_iff.mp h
    obtain rfl := Except.ok.inj h
    rw [require_eq_ok_iff] at hcolumns
    exact ⟨hoffer, hstate, nofun, fun _ => ⟨index, draft, rfl, rfl, hselection⟩, fun _ => hcolumns, nofun⟩
  | consumed =>
    obtain ⟨⟨index, draft⟩, hselection, h⟩ := bind_eq_ok_iff.mp h
    obtain ⟨⟨consumedAt, proposalId⟩, hconsumption, h⟩ := bind_eq_ok_iff.mp h
    obtain rfl := Except.ok.inj h
    exact ⟨hoffer, hstate, nofun, fun _ => ⟨index, draft, rfl, rfl, hselection⟩, nofun,
      fun _ => ⟨draft, consumedAt, proposalId, rfl, rfl, rfl, hconsumption⟩⟩

/-- When a selection is read. -/
theorem decodeQuoteSelection_eq_ok_iff {db : Database} {row : AppointmentQuoteStoredRow} {offer : QuoteOffer}
    {index : ℕ} {draft : StoredAppointmentDraft} :
    decodeQuoteSelection db row offer = .ok (index, draft) ↔
      ∃ draftId i slot draftRow, (row.appointmentDraftId = some draftId ∧ 0 < draftId) ∧
        (row.selectedSlotIndex = some i ∧ 0 ≤ i) ∧ i.toNat = index ∧ offer.offeredSlots[i.toNat]? = some slot ∧
        Table.byRowid draftId db.appointmentDrafts = some draftRow ∧ decodeAppointmentRow draftRow = .ok draft ∧
        draft.draft.quoteId = offer.quote.id ∧ draft.draft.kind = offer.appointmentKind ∧
        draft.draft.startsAt.Same slot.startsAt ∧ draft.draft.endsAt.Same slot.endsAt := by
  simp only [decodeQuoteSelection, bind_eq_ok_iff, okOr_eq_ok_iff, replaceError_eq_ok_iff, require_eq_ok_iff,
    pure_eq_ok, Except.ok.injEq, Prod.mk.injEq, Option.filter_eq_some_iff, decide_eq_true_eq]
  constructor
  · rintro ⟨draftId, hdraftId, i, hi, slot, hslot, draftRow, hrow, d, hdecode, -, hmatch, hindex, rfl⟩
    exact ⟨draftId, i, slot, draftRow, hdraftId, hi, hindex, hslot, hrow, hdecode, hmatch⟩
  · rintro ⟨draftId, i, slot, draftRow, hdraftId, hi, hindex, hslot, hrow, hdecode, hmatch⟩
    exact ⟨draftId, hdraftId, i, hi, slot, hslot, draftRow, hrow, draft, hdecode, (), hmatch, hindex, rfl⟩

/-- When a consumption is read. -/
theorem decodeQuoteConsumption_eq_ok_iff {db : Database} {row : AppointmentQuoteStoredRow} {draftId proposalId : ℤ}
    {consumedAt : OffsetDateTime} :
    decodeQuoteConsumption db row draftId = .ok (consumedAt, proposalId) ↔
      (∃ text, row.consumedAt = some text ∧ parseAppointmentQuoteDatetime text = .ok consumedAt) ∧
        (row.proposalId = some proposalId ∧ 0 < proposalId) ∧
        ∃ proposalRow proposal, Table.byRowid proposalId db.proposals = some proposalRow ∧
          decodeProposalRow proposalRow = .ok proposal ∧ proposal.source.appointmentDraftId = some draftId := by
  simp only [decodeQuoteConsumption, bind_eq_ok_iff, okOr_eq_ok_iff, replaceError_eq_ok_iff, require_eq_ok_iff,
    pure_eq_ok, Except.ok.injEq, Prod.mk.injEq, Option.filter_eq_some_iff, decide_eq_true_eq]
  constructor
  · rintro ⟨text, htext, t, hparse, id, hid, row', hrow, p, hp, -, hsource, rfl, rfl⟩
    exact ⟨⟨text, htext, hparse⟩, hid, row', p, hrow, hp, hsource⟩
  · rintro ⟨⟨text, htext, hparse⟩, hid, row', p, hrow, hp, hsource⟩
    exact ⟨text, htext, consumedAt, hparse, proposalId, hid, row', hrow, p, hp, (), hsource, rfl, rfl⟩

/-- The draft that the selection of a quote refers to. -/
theorem decodeQuoteSelection_draft {db : Database} {row : AppointmentQuoteStoredRow} {offer : QuoteOffer} {index : ℕ}
    {draft : StoredAppointmentDraft} (h : decodeQuoteSelection db row offer = .ok (index, draft)) :
    row.appointmentDraftId = some draft.id ∧ row.selectedSlotIndex = some (index : ℤ) ∧
      draft.draft.quoteId = offer.quote.id := by
  obtain ⟨draftId, i, -, draftRow, hdraftId, hi, rfl, -, hrow, hdecode, hquote, -⟩ := decodeQuoteSelection_eq_ok_iff.mp h
  obtain ⟨-, hid, -, -⟩ := decodeAppointmentRow_eq_ok hdecode
  have hsame : draft.id = draftId := hid.trans (Table.byRowid_eq_some hrow).2
  exact ⟨hsame ▸ hdraftId.1, by rw [hi.1, Int.toNat_of_nonneg hi.2], hquote⟩

/-- Two databases with the same slots, in which a quote's draft is the same and its proposal asks for the same. -/
structure SameReferences (db db' : Database) (row : AppointmentQuoteStoredRow) : Prop where
  slots : quoteSlotRows row.quoteId db' = quoteSlotRows row.quoteId db
  draft : ∀ id ∈ row.appointmentDraftId, ∀ r, Table.byRowid id db.appointmentDrafts = some r →
    Table.byRowid id db'.appointmentDrafts = some r
  proposal : ∀ id ∈ row.proposalId, ∀ r p, Table.byRowid id db.proposals = some r → decodeProposalRow r = .ok p →
    ∃ r' p', Table.byRowid id db'.proposals = some r' ∧ decodeProposalRow r' = .ok p' ∧ p.SameRequest p'

/-- **A quote is read the same** from two databases with the same references. -/
theorem decodeAppointmentQuoteRow_keeps {db db' : Database} {row : AppointmentQuoteStoredRow}
    {q : StoredAppointmentQuote} (hsame : SameReferences db db' row)
    (h : decodeAppointmentQuoteRow timezones db row = .ok q) : decodeAppointmentQuoteRow timezones db' row = .ok q := by
  obtain ⟨offer, hoffer, h⟩ := bind_eq_ok_iff.mp h
  obtain ⟨state, hstate, h⟩ := bind_eq_ok_iff.mp h
  have hoffer' : decodeQuoteOffer timezones db' row = .ok offer := by
    rw [← hoffer, decodeQuoteOffer, decodeQuoteOffer, hsame.slots]
  have hselection : ∀ index draft, decodeQuoteSelection db row offer = .ok (index, draft) →
      decodeQuoteSelection db' row offer = .ok (index, draft) := by
    intro index draft hdecode
    obtain ⟨draftId, i, slot, r, hid, hi, hindex, hslot, hr, hrest⟩ := decodeQuoteSelection_eq_ok_iff.mp hdecode
    exact decodeQuoteSelection_eq_ok_iff.mpr
      ⟨draftId, i, slot, r, hid, hi, hindex, hslot, hsame.draft draftId hid.1 r hr, hrest⟩
  have hconsumption : ∀ draftId r, decodeQuoteConsumption db row draftId = .ok r →
      decodeQuoteConsumption db' row draftId = .ok r := by
    rintro draftId ⟨consumedAt, proposalId⟩ hdecode
    obtain ⟨htext, hid, r, p, hr, hp, hsource⟩ := decodeQuoteConsumption_eq_ok_iff.mp hdecode
    obtain ⟨r', p', hr', hp', hsame'⟩ := hsame.proposal proposalId hid.1 r p hr hp
    exact decodeQuoteConsumption_eq_ok_iff.mpr ⟨htext, hid, r', p', hr', hp', hsame'.source ▸ hsource⟩
  rw [decodeAppointmentQuoteRow, hoffer', ok_bind, hstate, ok_bind]
  cases state with
  | issued => exact h
  | prepared =>
    obtain ⟨⟨index, draft⟩, hdecode, h⟩ := bind_eq_ok_iff.mp h
    simp only [hselection index draft hdecode, ok_bind]
    exact h
  | consumed =>
    obtain ⟨⟨index, draft⟩, hdecode, h⟩ := bind_eq_ok_iff.mp h
    obtain ⟨r, hdecode', h⟩ := bind_eq_ok_iff.mp h
    simp only [hselection index draft hdecode, hconsumption draft.id r hdecode', ok_bind]
    exact h

theorem appointmentQuoteById_eq_ok_iff {quoteId : QuoteId} {db : Database} {q : StoredAppointmentQuote} :
    appointmentQuoteById timezones quoteId db = .ok q ↔
      ∃ row, Table.byKey AppointmentQuoteStoredRow.quoteId quoteId.text db.appointmentQuotes = some row ∧
        decodeAppointmentQuoteRow timezones db row = .ok q := by
  unfold appointmentQuoteById
  cases Table.byKey AppointmentQuoteStoredRow.quoteId quoteId.text db.appointmentQuotes with
  | none =>
    simp only [reduceCtorEq, false_and, exists_false, iff_false]
    split <;> nofun
  | some row => simp

@[simp] theorem decodeAppointmentQuoteById_run_eq_ok_iff {quoteId : QuoteId} {db db' : Database}
    {q : StoredAppointmentQuote} :
    (decodeAppointmentQuoteById timezones quoteId).run db = .ok (q, db') ↔
      appointmentQuoteById timezones quoteId db = .ok q ∧ db' = db := by
  simp only [decodeAppointmentQuoteById, Tx.read_bind, Tx.run_ofResult_eq_ok_iff]

/-! ### Issuing -/

/-- The database with a new quote and its slots. -/
def Database.insertQuote (row : AppointmentQuoteStoredRow) (slots : List AppointmentQuoteSlotStoredRow)
    (db : Database) : Database :=
  { db with
    appointmentQuotes := db.appointmentQuotes ++ [row]
    appointmentQuoteSlots := db.appointmentQuoteSlots ++ slots }

/-- The database with a changed table of quotes. -/
def Database.mapQuotes (f : List AppointmentQuoteStoredRow → List AppointmentQuoteStoredRow) (db : Database) :
    Database :=
  { db with appointmentQuotes := f db.appointmentQuotes }

theorem quoteSlotRowsOf_quoteId {quoteId : String} {slotIndex : ℤ} {slots : List AppointmentSlot}
    {rows : List AppointmentQuoteSlotStoredRow} (h : quoteSlotRowsOf quoteId slotIndex slots = .ok rows) :
    ∀ s ∈ rows, s.quoteId = quoteId := by
  induction slots generalizing slotIndex rows with
  | nil =>
    obtain rfl := Except.ok.inj h
    simp
  | cons slot slots ih =>
    obtain ⟨startsAt, -, h⟩ := bind_eq_ok_iff.mp h
    obtain ⟨endsAt, -, h⟩ := bind_eq_ok_iff.mp h
    obtain ⟨later, hlater, h⟩ := bind_eq_ok_iff.mp h
    obtain rfl := Except.ok.inj h
    intro s hs
    rcases List.mem_cons.mp hs with rfl | hs
    · rfl
    · exact ih hlater s hs

/-- **Issuing a quote** adds a quote under an identifier no quote has, with its slots, and reads it back; or
finds the quote that holds exactly that offer. -/
theorem saveAppointmentQuote_run_eq_ok {quote : Quote} {kind : AppointmentKind} {timezone : String}
    {offeredSlots : List AppointmentSlot} {db db' : Database} {q : StoredAppointmentQuote}
    (h : (saveAppointmentQuote timezones quote kind timezone offeredSlots).run db = .ok (q, db')) :
    db' = db ∨ ∃ row slots, (∀ r ∈ db.appointmentQuotes, r.quoteId ≠ row.quoteId) ∧
      (∀ s ∈ slots, s.quoteId = row.quoteId) ∧ row.state = StoredAppointmentQuoteState.issued.storageName ∧
      db' = db.insertQuote row slots ∧ decodeAppointmentQuoteRow timezones db' row = .ok q := by
  simp only [saveAppointmentQuote, Tx.ofResult_bind_eq_ok_iff, Tx.read_bind] at h
  obtain ⟨zone, -, _, -, issuedAt, -, expiresAt, -, h⟩ := h
  cases hstored : Table.byKey AppointmentQuoteStoredRow.quoteId quote.id.text db.appointmentQuotes with
  | some row =>
    rw [hstored] at h
    obtain ⟨stored, db₁, hdecode, hsame⟩ := Tx.run_bind_eq_ok_iff.mp h
    obtain ⟨-, rfl⟩ := decodeAppointmentQuoteById_run_eq_ok_iff.mp hdecode
    simp only [Tx.ensure_bind_eq_ok_iff, Tx.run_pure, Except.ok.injEq, Prod.mk.injEq] at hsame
    exact Or.inl hsame.2.2.symm
  | none =>
    right
    have hfresh := Table.byKey_eq_none.mp hstored
    rw [hstored] at h
    simp only [Option.isNone_none, if_true, Tx.ofResult_bind_eq_ok_iff, Tx.write_bind] at h
    obtain ⟨slots, hslots, h⟩ := h
    obtain ⟨stored, db₁, hdecode, hsame⟩ := Tx.run_bind_eq_ok_iff.mp h
    obtain ⟨hread, rfl⟩ := decodeAppointmentQuoteById_run_eq_ok_iff.mp hdecode
    simp only [Tx.ensure_bind_eq_ok_iff, Tx.run_pure, Except.ok.injEq, Prod.mk.injEq] at hsame
    obtain ⟨-, rfl, rfl⟩ := hsame
    obtain ⟨row, hrow, hq⟩ := appointmentQuoteById_eq_ok_iff.mp hread
    obtain ⟨hmem, hid⟩ := Table.byKey_eq_some hrow
    rcases List.mem_append.mp hmem with hmem | hmem
    · exact absurd hid (hfresh row hmem)
    · obtain rfl := List.mem_singleton.mp hmem
      exact ⟨_, slots, hfresh, quoteSlotRowsOf_quoteId hslots, rfl, rfl, hq⟩

/-! ### Preparing and submitting -/

theorem ensureQuoteValidAt_run_eq_ok_iff {quote : Quote} {now : OffsetDateTime} {db db' : Database} {u : Unit} :
    (ensureQuoteValidAt quote now).run db = .ok (u, db') ↔ quote.ValidAt now ∧ db' = db := by
  simp only [ensureQuoteValidAt, Tx.ensure_bind_eq_ok_iff, Tx.run_ensure_eq_ok_iff, Quote.ValidAt, not_lt, not_le,
    and_assoc]

/-- An update of the one quote with a property. -/
theorem updateQuote_run_eq_ok {here : AppointmentQuoteStoredRow → Bool}
    {update : AppointmentQuoteStoredRow → AppointmentQuoteStoredRow} {db db' : Database}
    {quoteId : String} (hkey : ∀ r, here r = true → r.quoteId = quoteId) {u : Unit}
    (h : (updateQuote here update).run db = .ok (u, db'))
    (hunique : Table.Unique AppointmentQuoteStoredRow.quoteId db.appointmentQuotes) :
    ∃ row, Table.byKey AppointmentQuoteStoredRow.quoteId quoteId db.appointmentQuotes = some row ∧ here row = true ∧
      db' = db.mapQuotes (Table.updateWhere (fun r => r.quoteId == row.quoteId) update) := by
  simp only [updateQuote, Tx.read_bind, Tx.write_bind, Tx.run_ensure_eq_ok_iff] at h
  obtain ⟨hcount, rfl⟩ := h
  have hpos : 0 < db.appointmentQuotes.countP here := by
    rw [hcount]
    exact Nat.one_pos
  obtain ⟨row, hrow, hhere⟩ := List.countP_pos_iff.mp hpos
  have hid := hkey row hhere
  refine ⟨row, hid ▸ Table.byKey_of_mem hunique hrow, hhere, ?_⟩
  rw [Database.mapQuotes, Table.updateWhere_eq_of_unique hunique hrow hhere fun s hs => (hkey s hs).trans hid.symm]

/-- What preparing a quote did: the quote was issued and valid at the time of the call, and takes a draft no
quote has. -/
structure Prepared (timezones : Timezones) (quoteId : QuoteId) (slotIndex : ℕ) (sourceId : String)
    (draft : AppointmentDraft) (now : OffsetDateTime) (db db' : Database) (q : StoredAppointmentQuote) : Prop where
  exists_row : ∃ row current stored db₁,
    Table.byKey AppointmentQuoteStoredRow.quoteId quoteId.text db.appointmentQuotes = some row ∧
      decodeAppointmentQuoteRow timezones db row = .ok current ∧ current.state = .issued ∧
      current.quote.ValidAt now ∧ (saveAppointmentDraftInTransaction sourceId draft).run db = .ok (stored, db₁) ∧
      (∀ r ∈ db.appointmentQuotes, r.quoteId ≠ row.quoteId → r.appointmentDraftId ≠ some stored.id) ∧
      db' = db₁.mapQuotes (Table.updateWhere (fun r => r.quoteId == row.quoteId)
        (AppointmentQuoteStoredRow.prepare stored.id slotIndex)) ∧
      decodeAppointmentQuoteRow timezones db' (row.prepare stored.id slotIndex) = .ok q

/-- Whether a quote was prepared with a draft for a slot. -/
def IsPreparedWith (q : StoredAppointmentQuote) (slotIndex : ℕ) (sourceId : String) (draft : AppointmentDraft) : Prop :=
  q.state ≠ .issued ∧ q.selectedSlotIndex = some slotIndex ∧
    ∃ stored, q.appointmentDraft = some stored ∧ stored.sourceId = sourceId ∧ stored.draft.Same draft

/-- Saving a draft leaves the quotes alone. -/
theorem saveAppointmentDraftInTransaction_quotes {sourceId : String} {draft : AppointmentDraft} {db db' : Database}
    {d : StoredAppointmentDraft} (h : (saveAppointmentDraftInTransaction sourceId draft).run db = .ok (d, db')) :
    ∃ t, db' = { db with appointmentDrafts := t } := by
  simp only [saveAppointmentDraftInTransaction, Tx.ofResult_bind_eq_ok_iff] at h
  obtain ⟨startsAt, -, endsAt, -, hinsert⟩ := h
  obtain ⟨t, -, rfl⟩ := Tx.run_zoom_eq_ok_iff.mp hinsert
  exact ⟨t, rfl⟩

/-- A preparation that succeeds was asked for under a source id that is stored as it is. -/
theorem validateSourceId_of_prepares {quoteId : QuoteId} {slotIndex : ℕ} {sourceId : String} {draft : AppointmentDraft}
    {now : OffsetDateTime} {db : Database} {r : StoredAppointmentQuote × Database}
    (h : (prepareAppointmentDraftFromQuote timezones quoteId slotIndex sourceId draft now).run db = .ok r) :
    validateSourceId sourceId = .ok sourceId := by
  simp only [prepareAppointmentDraftFromQuote, Tx.ofResult_bind_eq_ok_iff] at h
  obtain ⟨source, hvalid, -⟩ := h
  exact validateSourceId_eq_ok_iff.mpr ⟨(validateSourceId_eq_ok_iff.mp hvalid).1, rfl⟩

/-- **Preparing a quote** finds it prepared with exactly that draft and slot, or prepares it. -/
theorem prepareAppointmentDraftFromQuote_run_eq_ok {quoteId : QuoteId} {slotIndex : ℕ} {sourceId : String}
    {draft : AppointmentDraft} {now : OffsetDateTime} {db db' : Database}
    (hunique : Table.Unique AppointmentQuoteStoredRow.quoteId db.appointmentQuotes) {q : StoredAppointmentQuote}
    (h : (prepareAppointmentDraftFromQuote timezones quoteId slotIndex sourceId draft now).run db = .ok (q, db')) :
    (db' = db ∧ appointmentQuoteById timezones quoteId db = .ok q ∧ IsPreparedWith q slotIndex sourceId draft) ∨
      Prepared timezones quoteId slotIndex sourceId draft now db db' q := by
  simp only [prepareAppointmentDraftFromQuote, Tx.ofResult_bind_eq_ok_iff, validateSourceId_eq_ok_iff] at h
  obtain ⟨_, ⟨-, rfl⟩, hload⟩ := h
  obtain ⟨current, db₀, hcurrent, hchoice⟩ := Tx.run_bind_eq_ok_iff.mp hload
  obtain ⟨hread, rfl⟩ := decodeAppointmentQuoteById_run_eq_ok_iff.mp hcurrent
  by_cases hissued : current.state = .issued
  · right
    rw [if_pos hissued] at hchoice
    simp only [prepareIssued, Tx.ensure_bind_eq_ok_iff] at hchoice
    obtain ⟨_, db₂, hwindow, hslot⟩ := Tx.run_bind_eq_ok_iff.mp hchoice.2
    obtain ⟨hvalid, rfl⟩ := ensureQuoteValidAt_run_eq_ok_iff.mp hwindow
    simp only [Tx.ofResult_bind_eq_ok_iff, Tx.ensure_bind_eq_ok_iff] at hslot
    obtain ⟨slot, -, -, hdraft⟩ := hslot
    obtain ⟨stored, db₁, hsave, htaken⟩ := Tx.run_bind_eq_ok_iff.mp hdraft
    obtain ⟨t, rfl⟩ := saveAppointmentDraftInTransaction_quotes hsave
    simp only [Tx.read_bind, Tx.ensure_bind_eq_ok_iff, List.any_eq_false, Bool.and_eq_true, bne_iff_ne, ne_eq,
      beq_iff_eq, not_and] at htaken
    obtain ⟨hfree, hlast⟩ := htaken
    obtain ⟨_, db₃, hupdate, hdecode⟩ := Tx.run_bind_eq_ok_iff.mp hlast
    have hkey : ∀ r : AppointmentQuoteStoredRow, (r.quoteId == quoteId.text &&
        r.state == StoredAppointmentQuoteState.issued.storageName) = true → r.quoteId = quoteId.text :=
      fun r hr => beq_iff_eq.mp (Bool.and_eq_true_iff.mp hr).1
    obtain ⟨row, hrow, -, rfl⟩ := updateQuote_run_eq_ok hkey hupdate hunique
    obtain ⟨hafter, rfl⟩ := decodeAppointmentQuoteById_run_eq_ok_iff.mp hdecode
    obtain ⟨row', hrow', hq⟩ := appointmentQuoteById_eq_ok_iff.mp hafter
    obtain ⟨row₀, hrow₀, hcurrent⟩ := appointmentQuoteById_eq_ok_iff.mp hread
    obtain rfl := Option.some.inj (hrow.symm.trans hrow₀)
    have hfound := Table.byKey_updated (p := fun r => r.quoteId == row.quoteId)
      (f := AppointmentQuoteStoredRow.prepare stored.id slotIndex) (fun _ => rfl) hrow (by simp)
    obtain rfl := Option.some.inj (hrow'.symm.trans hfound)
    obtain ⟨-, hid⟩ := Table.byKey_eq_some hrow
    exact ⟨row, current, stored, _, hrow, hcurrent, hissued, hvalid, hsave,
      fun r hr hne => hfree r hr (hid ▸ hne), rfl, hq⟩
  · left
    rw [if_neg hissued] at hchoice
    simp only [Tx.ensure_bind_eq_ok_iff, Tx.run_pure, Except.ok.injEq, Prod.mk.injEq, Option.any_eq_true,
      decide_eq_true_eq] at hchoice
    obtain ⟨⟨hindex, stored, hstored, hsame⟩, rfl, rfl⟩ := hchoice
    exact ⟨rfl, hread, hissued, hindex, stored, hstored, hsame⟩

/-- What submitting checks and computes before it looks at the quote. -/
structure SubmitReady (appointmentDraftId : ℤ) (key sourceId : String) (now : OffsetDateTime) (consumedAt : String) :
    Prop where
  draftId_pos : 0 < appointmentDraftId
  key : ¬ IsBlank key
  sourceId : ¬ IsBlank sourceId ∧ hasControl sourceId = false
  consumedAt : now.toUtc.format = some consumedAt

/-- Whether a quote was consumed into a proposal with the given key and source. -/
def IsConsumedAs (db : Database) (q : StoredAppointmentQuote) (appointmentDraftId : ℤ) (key sourceId : String)
    (p : StoredProposal) : Prop :=
  q.state = .consumed ∧ q.appointmentDraftId = some appointmentDraftId ∧
    (∃ proposalId row, q.proposalId = some proposalId ∧ Table.byRowid proposalId db.proposals = some row ∧
      decodeProposalRow row = .ok p) ∧
    p.idempotencyKey = key ∧ p.sourceId = sourceId ∧ p.source = .appointmentDraft appointmentDraftId

/-- What submitting a quote did: the quote was prepared with the draft and valid at the time of the call, and is
consumed into a pending proposal. -/
structure Submitted (timezones : Timezones) (quoteId : QuoteId) (appointmentDraftId : ℤ) (key sourceId : String)
    (consumedAt : String) (now : OffsetDateTime) (clock : SystemTime) (db db' : Database) (p : StoredProposal) :
    Prop where
  exists_row : ∃ row current created db₁ q,
    Table.byKey AppointmentQuoteStoredRow.quoteId quoteId.text db.appointmentQuotes = some row ∧
      decodeAppointmentQuoteRow timezones db row = .ok current ∧ current.state = .prepared ∧
      current.appointmentDraftId = some appointmentDraftId ∧ current.quote.ValidAt now ∧
      (createProposalInTransaction key sourceId (.appointmentDraft appointmentDraftId) clock).run db =
        .ok (created, db₁) ∧
      created.state = .pending ∧
      db' = db₁.mapQuotes (Table.updateWhere (fun r => r.quoteId == row.quoteId)
        (AppointmentQuoteStoredRow.consume consumedAt created.id)) ∧
      decodeAppointmentQuoteRow timezones db' (row.consume consumedAt created.id) = .ok q ∧
      ∃ proposalRow, Table.byRowid created.id db'.proposals = some proposalRow ∧
        decodeProposalRow proposalRow = .ok p

/-- Creating a proposal leaves the other tables alone. -/
theorem createProposalInTransaction_proposals {key sourceId : String} {source : ProposalSource} {now : SystemTime}
    {db db' : Database} {p : StoredProposal}
    (h : (createProposalInTransaction key sourceId source now).run db = .ok (p, db')) :
    ∃ t, db' = { db with proposals := t } := by
  obtain ⟨u, db₁, hexists, hinsert⟩ := Tx.run_bind_eq_ok_iff.mp h
  obtain ⟨rfl, -⟩ := ensureProposalSourceExists_run_eq_ok hexists
  obtain ⟨t, -, rfl⟩ := Tx.run_zoom_eq_ok_iff.mp hinsert
  exact ⟨t, rfl⟩

/-- **Submitting a quote** finds the proposal it was consumed into, if that is the one asked for, or consumes
it. -/
theorem submitAppointmentQuote_run_eq_ok {quoteId : QuoteId} {appointmentDraftId : ℤ} {key sourceId : String}
    {now : OffsetDateTime} {clock : SystemTime} {db db' : Database} {p : StoredProposal}
    (h : (submitAppointmentQuote timezones quoteId appointmentDraftId key sourceId now clock).run db = .ok (p, db'))
    (hunique : Table.Unique AppointmentQuoteStoredRow.quoteId db.appointmentQuotes) :
    ∃ consumedAt, SubmitReady appointmentDraftId key sourceId now consumedAt ∧
      ((db' = db ∧ ∃ q, appointmentQuoteById timezones quoteId db = .ok q ∧
          IsConsumedAs db q appointmentDraftId key sourceId p) ∨
        Submitted timezones quoteId appointmentDraftId key sourceId consumedAt now clock db db' p) := by
  simp only [submitAppointmentQuote, Tx.ensure_bind_eq_ok_iff, Tx.ofResult_bind_eq_ok_iff,
    validateNonEmpty_eq_ok_iff, validateSourceId_eq_ok_iff, formatAppointmentQuoteDatetime, okOr_eq_ok_iff] at h
  obtain ⟨hpos, _, ⟨hkey, rfl⟩, _, ⟨hsource, rfl⟩, consumedAt, hconsumedAt, hload⟩ := h
  refine ⟨consumedAt, ⟨hpos, hkey, hsource, hconsumedAt⟩, ?_⟩
  obtain ⟨current, db₀, hcurrent, hchoice⟩ := Tx.run_bind_eq_ok_iff.mp hload
  obtain ⟨hread, rfl⟩ := decodeAppointmentQuoteById_run_eq_ok_iff.mp hcurrent
  cases hstate : current.state with
  | issued =>
    rw [hstate] at hchoice
    cases hchoice
  | consumed =>
    left
    simp only [hstate, submitConsumed, Tx.ofResult_bind_eq_ok_iff, Tx.read_bind, Tx.ensure_bind_eq_ok_iff,
      okOr_eq_ok_iff, replaceError_eq_ok_iff, Tx.run_pure, Except.ok.injEq, Prod.mk.injEq] at hchoice
    obtain ⟨draftId, hdraftId, proposalId, hproposalId, row, hrow, p', hp, ⟨rfl, hsame⟩, rfl, rfl⟩ := hchoice
    exact ⟨rfl, current, hread, hstate, hdraftId, ⟨proposalId, row, hproposalId, hrow, hp⟩, hsame⟩
  | prepared =>
    right
    simp only [hstate, submitPrepared, Tx.ensure_bind_eq_ok_iff] at hchoice
    obtain ⟨hdraftId, hlater⟩ := hchoice
    obtain ⟨_, db₂, hwindow, hcreate⟩ := Tx.run_bind_eq_ok_iff.mp hlater
    obtain ⟨hvalid, rfl⟩ := ensureQuoteValidAt_run_eq_ok_iff.mp hwindow
    obtain ⟨created, db₁, hcreated, hpending⟩ := Tx.run_bind_eq_ok_iff.mp hcreate
    obtain ⟨t, rfl⟩ := createProposalInTransaction_proposals hcreated
    rw [Tx.ensure_bind_eq_ok_iff] at hpending
    obtain ⟨hpending, hlast⟩ := hpending
    obtain ⟨_, db₃, hupdate, hdecode⟩ := Tx.run_bind_eq_ok_iff.mp hlast
    have hkey' : ∀ r : AppointmentQuoteStoredRow, (r.quoteId == quoteId.text &&
        r.state == StoredAppointmentQuoteState.prepared.storageName &&
        r.appointmentDraftId == some appointmentDraftId) = true → r.quoteId = quoteId.text := by
      intro r hr
      simp only [Bool.and_eq_true, beq_iff_eq] at hr
      exact hr.1.1
    obtain ⟨row, hrow, -, rfl⟩ := updateQuote_run_eq_ok hkey' hupdate hunique
    obtain ⟨q, db₄, hafter, hend⟩ := Tx.run_bind_eq_ok_iff.mp hdecode
    obtain ⟨hread', rfl⟩ := decodeAppointmentQuoteById_run_eq_ok_iff.mp hafter
    simp only [Tx.ensure_bind_eq_ok_iff, Tx.read_bind, Tx.ofResult_bind_eq_ok_iff, okOr_eq_ok_iff,
      Tx.run_ofResult_eq_ok_iff] at hend
    obtain ⟨-, proposalRow, hproposalRow, hp, rfl⟩ := hend
    obtain ⟨row', hrow', hq⟩ := appointmentQuoteById_eq_ok_iff.mp hread'
    obtain ⟨row₀, hrow₀, hcurrent⟩ := appointmentQuoteById_eq_ok_iff.mp hread
    obtain rfl := Option.some.inj (hrow.symm.trans hrow₀)
    have hfound := Table.byKey_updated (p := fun r => r.quoteId == row.quoteId)
      (f := AppointmentQuoteStoredRow.consume consumedAt created.id) (fun _ => rfl) hrow (by simp)
    obtain rfl := Option.some.inj (hrow'.symm.trans hfound)
    exact ⟨row, current, created, _, q, hrow, hcurrent, hstate, hdraftId, hvalid, hcreated, hpending, rfl,
      hq, proposalRow, hproposalRow, hp⟩

end AgentVoice.Store

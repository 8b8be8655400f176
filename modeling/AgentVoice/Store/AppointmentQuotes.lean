import AgentVoice.Store.AppointmentDrafts
import AgentVoice.Store.Proposals
import Mathlib.Data.List.Sort

/-!
# Appointment quotes

`save_appointment_quote`, `prepare_appointment_draft_from_quote` and `submit_appointment_quote`. A quote is
issued with the slots it offers, prepared with a draft for one of them, and consumed into a proposal. The
aggregate is read from four tables (`decodeAppointmentQuoteRow`). The parser of IANA time zone names is a
parameter, given as the name of the zone that a text denotes.
-/

namespace AgentVoice.Store

open AgentVoice.Foundations AgentVoice.Domain

/-- The parser of time zone names: the name of the zone a text denotes. -/
abbrev Timezones := String → Option String

/-- `MAX_APPOINTMENT_QUOTE_SLOTS`. -/
def maxAppointmentQuoteSlots : ℕ := 100

/-- The error for a quote that cannot be read. -/
def quoteInvalid : StoreError := storedRecordInvalid "appointment quote"

/-- `StoredAppointmentQuoteState`. -/
inductive StoredAppointmentQuoteState where
  | issued | prepared | consumed
  deriving DecidableEq, Repr

namespace StoredAppointmentQuoteState

/-- `storage_name`. -/
def storageName : StoredAppointmentQuoteState → String
  | .issued => "issued"
  | .prepared => "prepared"
  | .consumed => "consumed"

/-- `parse_appointment_quote_state`. -/
def parse : String → StoreResult StoredAppointmentQuoteState :=
  parseName [.issued, .prepared, .consumed] storageName quoteInvalid

theorem parse_eq_ok_iff {value : String} {s : StoredAppointmentQuoteState} :
    parse value = .ok s ↔ value = s.storageName :=
  parseName_eq_ok_iff (by intro b; cases b <;> decide) (by decide)

theorem storageName_inj {s t : StoredAppointmentQuoteState} (h : s.storageName = t.storageName) : s = t :=
  Except.ok.inj ((parse_eq_ok_iff.mpr rfl).symm.trans (parse_eq_ok_iff.mpr h))

/-- The order of the lifecycle. -/
def rank : StoredAppointmentQuoteState → ℕ
  | .issued => 0
  | .prepared => 1
  | .consumed => 2

end StoredAppointmentQuoteState

/-- `StoredAppointmentQuote`. -/
structure StoredAppointmentQuote where
  quote : Quote
  appointmentKind : AppointmentKind
  timezone : String
  offeredSlots : List AppointmentSlot
  state : StoredAppointmentQuoteState
  selectedSlotIndex : Option ℕ
  appointmentDraft : Option StoredAppointmentDraft
  consumedAt : Option OffsetDateTime
  proposalId : Option ℤ
  deriving DecidableEq

/-- `appointment_draft_id`. -/
def StoredAppointmentQuote.appointmentDraftId (q : StoredAppointmentQuote) : Option ℤ :=
  q.appointmentDraft.map (·.id)

/-! ### Reading a quote -/

/-- `validate_appointment_quote_timezone`. -/
def validateAppointmentQuoteTimezone (timezones : Timezones) (value : String) : StoreResult String := do
  require (¬ IsBlank value) (.invalidInput "timezone")
  let name ← okOr (timezones value) (.invalidInput "timezone")
  require (name = value) (.invalidInput "timezone")
  return name

theorem validateAppointmentQuoteTimezone_eq_ok_iff {timezones : Timezones} {value name : String} :
    validateAppointmentQuoteTimezone timezones value = .ok name ↔
      ¬ IsBlank value ∧ timezones value = some value ∧ name = value := by
  simp only [validateAppointmentQuoteTimezone, bind_eq_ok_iff, require_eq_ok_iff, okOr_eq_ok_iff, pure_eq_ok,
    Except.ok.injEq]
  constructor
  · rintro ⟨-, hblank, a, hparse, -, rfl, rfl⟩
    exact ⟨hblank, hparse, rfl⟩
  · rintro ⟨hblank, hparse, rfl⟩
    exact ⟨(), hblank, name, hparse, (), rfl, rfl⟩

/-- What is wanted of offered slots: the duration of the kind, and no interval twice. -/
def SlotsFit (kind : AppointmentKind) (slots : List AppointmentSlot) : Prop :=
  (∀ s ∈ slots, s.duration = kind.duration) ∧ (slots.map (·.interval)).Nodup

instance (kind : AppointmentKind) (slots : List AppointmentSlot) : Decidable (SlotsFit kind slots) :=
  inferInstanceAs (Decidable (_ ∧ _))

/-- `validate_appointment_quote_slots`. -/
def validateAppointmentQuoteSlots (kind : AppointmentKind) (slots : List AppointmentSlot) : StoreResult Unit := do
  require (slots ≠ [] ∧ slots.length ≤ maxAppointmentQuoteSlots) (.invalidInput "offered_slots")
  require (SlotsFit kind slots) (.invalidInput "offered_slots")

/-- `format_appointment_quote_datetime`. -/
def formatAppointmentQuoteDatetime (value : OffsetDateTime) : StoreResult String :=
  okOr value.toUtc.format (.invalidInput "appointment_quote_time")

/-- `parse_appointment_quote_datetime`. -/
def parseAppointmentQuoteDatetime : String → StoreResult OffsetDateTime := parseCanonical "appointment quote"

/-- The slots of a quote: `SELECT … WHERE quote_id = ?1 ORDER BY slot_index ASC LIMIT ?2`. -/
def quoteSlotRows (quoteId : String) (db : Database) : List AppointmentQuoteSlotStoredRow :=
  ((db.appointmentQuoteSlots.filter fun s => s.quoteId == quoteId).insertionSort fun s t =>
    s.slotIndex ≤ t.slotIndex).take (maxAppointmentQuoteSlots + 1)

/-- The loop that decodes the slots of a quote, from an index on. -/
def decodeSlotRows : ℤ → List AppointmentQuoteSlotStoredRow → StoreResult (List AppointmentSlot)
  | _, [] => .ok []
  | expectedIndex, row :: rows => do
    require (row.slotIndex = expectedIndex) quoteInvalid
    let startsAt ← parseAppointmentQuoteDatetime row.startsAt
    let endsAt ← parseAppointmentQuoteDatetime row.endsAt
    let slot ← AppointmentSlot.new startsAt endsAt quoteInvalid
    let slots ← decodeSlotRows (expectedIndex + 1) rows
    return slot :: slots

/-- The immutable part of a quote. -/
structure QuoteOffer where
  quote : Quote
  appointmentKind : AppointmentKind
  timezone : String
  offeredSlots : List AppointmentSlot
  deriving DecidableEq

/-- Decodes the immutable part of a quote. -/
def decodeQuoteOffer (timezones : Timezones) (db : Database) (row : AppointmentQuoteStoredRow) :
    StoreResult QuoteOffer := do
  let quoteId ← QuoteId.parse row.quoteId quoteInvalid
  let kind ← parseAppointmentKind "appointment quote" row.appointmentKind
  let timezone ← replaceError (validateAppointmentQuoteTimezone timezones row.timezone) quoteInvalid
  let issuedAt ← parseAppointmentQuoteDatetime row.issuedAt
  let expiresAt ← parseAppointmentQuoteDatetime row.expiresAt
  let expectedExpiresAt ← okOr (issuedAt.checkedAdd Quote.validFor) quoteInvalid
  require (expectedExpiresAt.Same expiresAt) quoteInvalid
  let slots := quoteSlotRows row.quoteId db
  require (1 ≤ row.slotCount ∧ row.slotCount ≤ maxAppointmentQuoteSlots) quoteInvalid
  require ((slots.length : ℤ) = row.slotCount) quoteInvalid
  let offeredSlots ← decodeSlotRows 0 slots
  require (SlotsFit kind offeredSlots) quoteInvalid
  return ⟨⟨quoteId, issuedAt⟩, kind, timezone, offeredSlots⟩

/-- Decodes the selected slot and the draft of a quote that is prepared or consumed. -/
def decodeQuoteSelection (db : Database) (row : AppointmentQuoteStoredRow) (offer : QuoteOffer) :
    StoreResult (ℕ × StoredAppointmentDraft) := do
  let draftId ← okOr (row.appointmentDraftId.filter fun id => decide (0 < id)) quoteInvalid
  let index ← okOr (row.selectedSlotIndex.filter fun i => decide (0 ≤ i)) quoteInvalid
  let slot ← okOr offer.offeredSlots[index.toNat]? quoteInvalid
  let draftRow ← okOr (Table.byRowid draftId db.appointmentDrafts) quoteInvalid
  let draft ← replaceError (decodeAppointmentRow draftRow) quoteInvalid
  require (draft.draft.quoteId = offer.quote.id ∧ draft.draft.kind = offer.appointmentKind ∧
    draft.draft.startsAt.Same slot.startsAt ∧ draft.draft.endsAt.Same slot.endsAt) quoteInvalid
  return (index.toNat, draft)

/-- Decodes the consumption of a quote that is consumed. -/
def decodeQuoteConsumption (db : Database) (row : AppointmentQuoteStoredRow) (draftId : ℤ) :
    StoreResult (OffsetDateTime × ℤ) := do
  let consumedText ← okOr row.consumedAt quoteInvalid
  let consumedAt ← parseAppointmentQuoteDatetime consumedText
  let proposalId ← okOr (row.proposalId.filter fun id => decide (0 < id)) quoteInvalid
  let proposalRow ← okOr (Table.byRowid proposalId db.proposals) quoteInvalid
  let proposal ← replaceError (decodeProposalRow proposalRow) quoteInvalid
  require (proposal.source.appointmentDraftId = some draftId) quoteInvalid
  return (consumedAt, proposalId)

/-- `decode_appointment_quote_row`. -/
def decodeAppointmentQuoteRow (timezones : Timezones) (db : Database) (row : AppointmentQuoteStoredRow) :
    StoreResult StoredAppointmentQuote := do
  let offer ← decodeQuoteOffer timezones db row
  let state ← StoredAppointmentQuoteState.parse row.state
  match state with
  | .issued => do
    require (row.appointmentDraftId = none ∧ row.selectedSlotIndex = none ∧ row.consumedAt = none ∧
      row.proposalId = none) quoteInvalid
    return ⟨offer.quote, offer.appointmentKind, offer.timezone, offer.offeredSlots, .issued, none, none, none, none⟩
  | .prepared => do
    let (index, draft) ← decodeQuoteSelection db row offer
    require (row.consumedAt = none ∧ row.proposalId = none) quoteInvalid
    return ⟨offer.quote, offer.appointmentKind, offer.timezone, offer.offeredSlots, .prepared, some index, some draft,
      none, none⟩
  | .consumed => do
    let (index, draft) ← decodeQuoteSelection db row offer
    let (consumedAt, proposalId) ← decodeQuoteConsumption db row draft.id
    return ⟨offer.quote, offer.appointmentKind, offer.timezone, offer.offeredSlots, .consumed, some index, some draft,
      some consumedAt, some proposalId⟩

/-- Whether two texts are equal but for the case of ASCII letters (`COLLATE NOCASE`). -/
def sameNoCase (a b : String) : Bool := a.toLower == b.toLower

/-- `decode_appointment_quote_by_id`, on the tables. -/
def appointmentQuoteById (timezones : Timezones) (quoteId : QuoteId) (db : Database) :
    StoreResult StoredAppointmentQuote :=
  match Table.byKey AppointmentQuoteStoredRow.quoteId quoteId.text db.appointmentQuotes with
  | some row => decodeAppointmentQuoteRow timezones db row
  | none =>
    if db.appointmentQuotes.any fun r => sameNoCase r.quoteId quoteId.text then .error quoteInvalid
    else .error (.notFound "appointment quote")

/-- `decode_appointment_quote_by_id`. -/
def decodeAppointmentQuoteById (timezones : Timezones) (quoteId : QuoteId) :
    Tx StoreError Database StoredAppointmentQuote := do
  let decoded ← Tx.read (appointmentQuoteById timezones quoteId)
  Tx.ofResult decoded

/-- `PaStore::load_appointment_quote_by_draft_id`. -/
def loadAppointmentQuoteByDraftId (timezones : Timezones) (appointmentDraftId : ℤ) :
    Tx StoreError Database StoredAppointmentQuote := do
  Tx.ensure (0 < appointmentDraftId) (.invalidInput "appointment_draft_id")
  let row ← Tx.read fun db => db.appointmentQuotes.find? fun r => r.appointmentDraftId == some appointmentDraftId
  let row ← Tx.ofResult (okOr row (.notFound "appointment quote"))
  let quoteId ← Tx.ofResult (QuoteId.parse row.quoteId quoteInvalid)
  decodeAppointmentQuoteById timezones quoteId

/-! ### Issuing -/

/-- The rows of the slots of a quote, from an index on. -/
def quoteSlotRowsOf (quoteId : String) : ℤ → List AppointmentSlot → StoreResult (List AppointmentQuoteSlotStoredRow)
  | _, [] => .ok []
  | slotIndex, slot :: slots => do
    let startsAt ← formatAppointmentQuoteDatetime slot.startsAt
    let endsAt ← formatAppointmentQuoteDatetime slot.endsAt
    let rows ← quoteSlotRowsOf quoteId (slotIndex + 1) slots
    return ⟨quoteId, slotIndex, startsAt, endsAt⟩ :: rows

/-- The row of an issued quote. -/
def issuedRow (quoteId timezone issuedAt expiresAt : String) (kind : AppointmentKind) (slotCount : ℤ) :
    AppointmentQuoteStoredRow where
  quoteId := quoteId
  appointmentKind := appointmentKindStorageName kind
  timezone := timezone
  issuedAt := issuedAt
  expiresAt := expiresAt
  slotCount := slotCount
  state := StoredAppointmentQuoteState.issued.storageName
  appointmentDraftId := none
  selectedSlotIndex := none
  consumedAt := none
  proposalId := none

/-- `PaStore::save_appointment_quote`. -/
def saveAppointmentQuote (timezones : Timezones) (quote : Quote) (kind : AppointmentKind) (timezone : String)
    (offeredSlots : List AppointmentSlot) : Tx StoreError Database StoredAppointmentQuote := do
  let timezone ← Tx.ofResult (validateAppointmentQuoteTimezone timezones timezone)
  Tx.ofResult (validateAppointmentQuoteSlots kind offeredSlots)
  let issuedAt ← Tx.ofResult (formatAppointmentQuoteDatetime quote.issuedAt)
  let expiresAt ← Tx.ofResult (formatAppointmentQuoteDatetime quote.expiresAt)
  let stored ← Tx.read fun db => Table.byKey AppointmentQuoteStoredRow.quoteId quote.id.text db.appointmentQuotes
  if stored.isNone then
    let slots ← Tx.ofResult (quoteSlotRowsOf quote.id.text 0 offeredSlots)
    let row := issuedRow quote.id.text timezone issuedAt expiresAt kind offeredSlots.length
    Tx.write fun db =>
      { db with
        appointmentQuotes := db.appointmentQuotes ++ [row]
        appointmentQuoteSlots := db.appointmentQuoteSlots ++ slots }
  let stored ← decodeAppointmentQuoteById timezones quote.id
  Tx.ensure (stored.quote.Same quote ∧ stored.appointmentKind = kind ∧ stored.timezone = timezone ∧
    stored.offeredSlots.map (·.interval) = offeredSlots.map (·.interval)) (.conflict "appointment quote")
  return stored

/-! ### Preparing and submitting -/

/-- Wants the quote to be valid at an instant. -/
def ensureQuoteValidAt (quote : Quote) (now : OffsetDateTime) : Tx StoreError Database Unit := do
  Tx.ensure (¬ now.unixNanos < quote.issuedAt.unixNanos) .appointmentQuoteNotYetValid
  Tx.ensure (¬ quote.expiresAt.unixNanos ≤ now.unixNanos) .appointmentQuoteExpired

/-- Updates the quotes with a property; there must be one. -/
def updateQuote (here : AppointmentQuoteStoredRow → Bool)
    (update : AppointmentQuoteStoredRow → AppointmentQuoteStoredRow) : Tx StoreError Database Unit := do
  let updated ← Tx.read fun db => db.appointmentQuotes.countP here
  Tx.write fun db => { db with appointmentQuotes := Table.updateWhere here update db.appointmentQuotes }
  Tx.ensure (updated = 1) (.conflict "appointment quote")

/-- The row preparation leaves. -/
def AppointmentQuoteStoredRow.prepare (draftId : ℤ) (slotIndex : ℕ) (row : AppointmentQuoteStoredRow) :
    AppointmentQuoteStoredRow :=
  { row with
    state := StoredAppointmentQuoteState.prepared.storageName
    appointmentDraftId := some draftId
    selectedSlotIndex := some slotIndex }

/-- The row consumption leaves. -/
def AppointmentQuoteStoredRow.consume (consumedAt : String) (proposalId : ℤ) (row : AppointmentQuoteStoredRow) :
    AppointmentQuoteStoredRow :=
  { row with
    state := StoredAppointmentQuoteState.consumed.storageName
    consumedAt := some consumedAt
    proposalId := some proposalId }

/-- `prepare_appointment_draft_from_quote`, of a quote that is issued. -/
def prepareIssued (timezones : Timezones) (current : StoredAppointmentQuote) (quoteId : QuoteId) (slotIndex : ℕ)
    (sourceId : String) (draft : AppointmentDraft) (now : OffsetDateTime) :
    Tx StoreError Database StoredAppointmentQuote := do
  Tx.ensure (draft.quoteId = quoteId ∧ draft.kind = current.appointmentKind) (.conflict "appointment quote")
  ensureQuoteValidAt current.quote now
  let selected ← Tx.ofResult (okOr current.offeredSlots[slotIndex]? (.invalidInput "slot_index"))
  Tx.ensure (draft.startsAt.Same selected.startsAt ∧ draft.endsAt.Same selected.endsAt)
    (.conflict "appointment quote")
  let stored ← saveAppointmentDraftInTransaction sourceId draft
  -- `appointment_draft_id` is unique
  let taken ← Tx.read fun db =>
    db.appointmentQuotes.any fun r => r.quoteId != quoteId.text && r.appointmentDraftId == some stored.id
  Tx.ensure (taken = false) .sqlite
  updateQuote (fun r => r.quoteId == quoteId.text && r.state == StoredAppointmentQuoteState.issued.storageName)
    (AppointmentQuoteStoredRow.prepare stored.id slotIndex)
  decodeAppointmentQuoteById timezones quoteId

/-- `PaStore::prepare_appointment_draft_from_quote`. -/
def prepareAppointmentDraftFromQuote (timezones : Timezones) (quoteId : QuoteId) (slotIndex : ℕ) (sourceId : String)
    (draft : AppointmentDraft) (now : OffsetDateTime) : Tx StoreError Database StoredAppointmentQuote := do
  let sourceId ← Tx.ofResult (validateSourceId sourceId)
  let current ← decodeAppointmentQuoteById timezones quoteId
  if current.state = .issued then prepareIssued timezones current quoteId slotIndex sourceId draft now
  else do
    Tx.ensure (current.selectedSlotIndex = some slotIndex ∧
      (current.appointmentDraft.any fun stored =>
        decide (stored.sourceId = sourceId ∧ stored.draft.Same draft)) = true) (.conflict "appointment quote")
    return current

/-- `submit_appointment_quote`, of a quote that is consumed: the linked proposal, if it is the one asked for. -/
def submitConsumed (current : StoredAppointmentQuote) (appointmentDraftId : ℤ)
    (proposalIdempotencyKey proposalSourceId : String) : Tx StoreError Database StoredProposal := do
  let linkedDraftId ← Tx.ofResult (okOr current.appointmentDraftId quoteInvalid)
  let proposalId ← Tx.ofResult (okOr current.proposalId quoteInvalid)
  let row ← Tx.read fun db => Table.byRowid proposalId db.proposals
  let row ← Tx.ofResult (okOr row quoteInvalid)
  let proposal ← Tx.ofResult (replaceError (decodeProposalRow row) quoteInvalid)
  Tx.ensure (linkedDraftId = appointmentDraftId ∧ proposal.idempotencyKey = proposalIdempotencyKey ∧
    proposal.sourceId = proposalSourceId ∧ proposal.source = .appointmentDraft appointmentDraftId)
    (.conflict "appointment quote")
  return proposal

/-- `submit_appointment_quote`, of a quote that is prepared. -/
def submitPrepared (timezones : Timezones) (current : StoredAppointmentQuote) (quoteId : QuoteId)
    (appointmentDraftId : ℤ) (proposalIdempotencyKey proposalSourceId consumedAt : String) (now : OffsetDateTime)
    (clock : SystemTime) : Tx StoreError Database StoredProposal := do
  Tx.ensure (current.appointmentDraftId = some appointmentDraftId) (.conflict "appointment quote")
  ensureQuoteValidAt current.quote now
  let proposal ← createProposalInTransaction proposalIdempotencyKey proposalSourceId
    (.appointmentDraft appointmentDraftId) clock
  Tx.ensure (proposal.state = .pending) (.conflict "appointment quote")
  updateQuote (fun r => r.quoteId == quoteId.text && r.state == StoredAppointmentQuoteState.prepared.storageName &&
      r.appointmentDraftId == some appointmentDraftId)
    (AppointmentQuoteStoredRow.consume consumedAt proposal.id)
  let quote ← decodeAppointmentQuoteById timezones quoteId
  Tx.ensure (quote.proposalId = some proposal.id ∧
    quote.consumedAt.map (·.unixNanos) = some now.unixNanos) quoteInvalid
  let row ← Tx.read fun db => Table.byRowid proposal.id db.proposals
  let row ← Tx.ofResult (okOr row (storedRecordInvalid "proposal"))
  Tx.ofResult (decodeProposalRow row)

/-- `PaStore::submit_appointment_quote`. -/
def submitAppointmentQuote (timezones : Timezones) (quoteId : QuoteId) (appointmentDraftId : ℤ)
    (proposalIdempotencyKey proposalSourceId : String) (now : OffsetDateTime) (clock : SystemTime) :
    Tx StoreError Database StoredProposal := do
  Tx.ensure (0 < appointmentDraftId) (.invalidInput "appointment_draft_id")
  let proposalIdempotencyKey ← Tx.ofResult (validateNonEmpty proposalIdempotencyKey "idempotency_key")
  let proposalSourceId ← Tx.ofResult (validateSourceId proposalSourceId)
  let consumedAt ← Tx.ofResult (formatAppointmentQuoteDatetime now)
  let current ← decodeAppointmentQuoteById timezones quoteId
  match current.state with
  | .consumed => submitConsumed current appointmentDraftId proposalIdempotencyKey proposalSourceId
  | .issued => Tx.fail (.conflict "appointment quote")
  | .prepared =>
    submitPrepared timezones current quoteId appointmentDraftId proposalIdempotencyKey proposalSourceId consumedAt now
      clock

end AgentVoice.Store

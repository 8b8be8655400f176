import AgentVoice.PaService.RequestSubmission
import AgentVoice.PaService.Resumption
import AgentVoice.Store.QuoteLifecycle

/-!
# The rows of a submission

What the attempts to submit one prepared quote write: one proposal, one event mapping, a notification for each recipient
and an audit event under each of four keys (`Submission.Written`). Each write of an attempt adds such a row or finds it.
What an attempt has found or written stays (`Extends`).
-/

namespace AgentVoice.PaService

open AgentVoice.Foundations AgentVoice.Domain AgentVoice.Providers AgentVoice.Availability AgentVoice.Store

variable {env : Environment} {db db' : Database}

/-- Lists that are related to a third one are related. -/
theorem forall₂_trans {α : Type} {R : α → α → Prop} (htrans : ∀ a b c, R a b → R b c → R a c) {xs ys zs : List α}
    (h : List.Forall₂ R xs ys) (h' : List.Forall₂ R ys zs) : List.Forall₂ R xs zs := by
  induction h generalizing zs with
  | nil => exact h'
  | cons hxy _ ih =>
    obtain _ | ⟨hyz, hrest⟩ := h'
    exact .cons (htrans _ _ _ hxy hyz) (ih hrest)

/-- A value of a unique column is there once at most. -/
theorem countP_le_one {ρ κ : Type} [DecidableEq κ] {key : ρ → κ} {t : List ρ} (h : Table.Unique key t) (k : κ) :
    t.countP (fun row => key row == k) ≤ 1 := by
  cases hfind : t.find? fun row => key row == k with
  | none =>
    rw [List.countP_eq_zero.mpr (List.find?_eq_none.mp hfind)]
    exact Nat.zero_le 1
  | some row =>
    have hkey : key row = k := by simpa using List.find?_some hfind
    exact (Table.countP_eq_one h (List.mem_of_find?_eq_some hfind) hkey).le

/-! ### What stays -/

/-- A quote is consumed into a proposal. -/
def ConsumedInto (timezones : Timezones) (quoteId : QuoteId) (proposalId : ℤ) (db : Database) : Prop :=
  ∃ q, appointmentQuoteById timezones quoteId db = .ok q ∧ q.state = .consumed ∧ q.proposalId = some proposalId

/-- A mapping of a proposal is there. -/
def MappingOf (proposalId id : ℤ) (db : Database) : Prop :=
  ∃ row ∈ db.eventMappings, row.proposalId = proposalId ∧ row.id = id

/-- A notification with a key is there. -/
def NotificationUnder (key : String) (id : ℤ) (db : Database) : Prop :=
  ∃ row ∈ db.notificationOutbox, row.idempotencyKey = key ∧ row.id = id

/-- An audit event with a key is there. -/
def AuditUnder (key : String) (db : Database) : Prop := ∃ row ∈ db.auditEvents, row.idempotencyKey = key

/-- Tables that go on: calls change them, and no row of a submission is lost. -/
structure Extends (env : Environment) (db db' : Database) : Prop where
  changes : Changes env db db'
  grows : Grows db db'
  eventMappings : db.eventMappings ⊆ db'.eventMappings

theorem Extends.refl (env : Environment) (db : Database) : Extends env db db := ⟨.refl, .refl db, List.Subset.refl _⟩

theorem Extends.trans {db₁ db₂ db₃ : Database} (h : Extends env db₁ db₂) (h' : Extends env db₂ db₃) : Extends env db₁ db₃ :=
  ⟨h.changes.trans h'.changes, h.grows.trans h'.grows, List.Subset.trans h.eventMappings h'.eventMappings⟩

section Later

variable (h : Extends env db db')

include h

theorem ConsumedInto.later (hc : Consistent env db) {quoteId : QuoteId} {p : ℤ}
    (hconsumed : ConsumedInto env.timezones quoteId p db) : ConsumedInto env.timezones quoteId p db' := by
  obtain ⟨q, hq, hstate, hproposal⟩ := hconsumed
  obtain ⟨q', hq', hmoves⟩ := h.changes.movesTo hc hq
  refine ⟨q', hq', ?_, hmoves.proposalId p hproposal⟩
  have hrank := hmoves.state
  rw [hstate] at hrank
  cases hstate' : q'.state with
  | consumed => rfl
  | issued | prepared =>
    rw [hstate'] at hrank
    exact absurd hrank (by decide)

theorem MappingOf.later {p id : ℤ} (hmapping : MappingOf p id db) : MappingOf p id db' := by
  obtain ⟨row, hrow, hcontent⟩ := hmapping
  exact ⟨row, h.eventMappings hrow, hcontent⟩

theorem NotificationUnder.later {key : String} {id : ℤ} (hnotification : NotificationUnder key id db) :
    NotificationUnder key id db' := by
  obtain ⟨row, hrow, hkey, hid⟩ := hnotification
  obtain ⟨row', hrow', hsame⟩ := h.grows.notifications row hrow
  exact ⟨row', hrow', hsame.idempotencyKey.trans hkey, hsame.id.trans hid⟩

theorem AuditUnder.later {key : String} (haudit : AuditUnder key db) : AuditUnder key db' := by
  obtain ⟨row, hrow, hkey⟩ := haudit
  exact ⟨row, h.grows.auditEvents hrow, hkey⟩

end Later

/-- A quote is consumed into one proposal. -/
theorem ConsumedInto.unique {timezones : Timezones} {quoteId : QuoteId} {p p' : ℤ} (h : ConsumedInto timezones quoteId p db)
    (h' : ConsumedInto timezones quoteId p' db) : p = p' := by
  obtain ⟨q, hq, -, hp⟩ := h
  obtain ⟨q', hq', -, hp'⟩ := h'
  obtain rfl := Except.ok.inj (hq.symm.trans hq')
  exact Option.some.inj (hp.symm.trans hp')

/-- A quote with a proposal is consumed. -/
theorem state_of_proposalId {timezones : Timezones} {quoteId : QuoteId} {q : StoredAppointmentQuote} {p : ℤ}
    (hq : appointmentQuoteById timezones quoteId db = .ok q) (hp : q.proposalId = some p) : q.state = .consumed := by
  obtain ⟨row, -, hdecode⟩ := appointmentQuoteById_eq_ok_iff.mp hq
  cases hstate : q.state with
  | consumed => rfl
  | issued =>
    have hnone := (decodeQuote_unset_of_issued hdecode hstate).2.2.2
    rw [hp] at hnone
    cases hnone
  | prepared =>
    have hnone := (decodeQuote_unset_of_prepared hdecode hstate).2
    rw [hp] at hnone
    cases hnone

/-- A call that keeps the rows of a submission. -/
theorem Extends.of_call (hc : Consistent env db) {c : Command} {α : Type} {t : Tx StoreError Database α} {r : α}
    (ht : c.transaction env = t.discard) (hrun : t.run db = .ok (r, db')) (hgrows : Grows db db')
    (hmappings : db.eventMappings ⊆ db'.eventMappings) : Extends env db db' := by
  have hdiscard : (c.transaction env).run db = .ok ((), db') := by
    rw [ht]
    exact Tx.run_discard_eq_ok_iff.mpr ⟨r, hrun⟩
  exact ⟨Command.changes hc hdiscard, hgrows, hmappings⟩

/-- The proposal that a quote is consumed into. -/
theorem proposalId_of_isConsumedAs {q : StoredAppointmentQuote} {draftId : ℤ} {key sourceId : String} {p : StoredProposal}
    (h : IsConsumedAs db q draftId key sourceId p) : q.proposalId = some p.id := by
  obtain ⟨-, -, ⟨proposalId, row, hproposal, hrow, hdecode⟩, -⟩ := h
  rw [hproposal, (decodeProposalRow_eq_ok hdecode).2.1]
  exact congrArg some (Table.byRowid_eq_some hrow).2.symm

/-! ### Keys -/

/-- The text of an id has no white space. -/
theorem not_isWhitespace_idText (id : ℤ) {c : Char} (hc : c ∈ (idText id).toList) : isWhitespace c = false := by
  have hdigits : ∀ n : ℕ, ∀ c ∈ n.repr.toList, isWhitespace c = false := by
    intro n c hc
    rw [Nat.repr_eq_ofList_toDigits, String.toList_ofList] at hc
    obtain ⟨hge, hle⟩ : 48 ≤ c.toNat ∧ c.toNat ≤ 57 :=
      Char.isDigit_iff_toNat.mp (Nat.isDigit_of_mem_toDigits (by decide) (by decide) hc)
    simp only [isWhitespace, Bool.or_eq_false_iff, Bool.and_eq_false_iff, decide_eq_false_iff_not, beq_eq_false_iff_ne]
    omega
  rw [idText, Int.toString_eq_repr, Int.repr_eq_if] at hc
  split at hc
  · exact hdigits _ c hc
  · rw [String.toList_append, List.mem_append] at hc
    rcases hc with hc | hc
    · obtain rfl : c = '-' := by simpa using hc
      rfl
    · exact hdigits _ c hc

/-- The text of an id is trimmed, also behind a prefix without white space. -/
theorem trim_append_idText {text : String} (htext : text.toList.all (!isWhitespace ·) = true) (id : ℤ) :
    trim (text ++ idText id) = text ++ idText id := by
  refine trim_eq_self fun c hc => ?_
  rw [String.toList_append, List.mem_append] at hc
  rcases hc with hc | hc
  · simpa using List.all_eq_true.mp htext c hc
  · exact not_isWhitespace_idText id hc

theorem Recipient.trim_notificationKey (who : Recipient) (p : ℤ) : trim (who.notificationKey p) = who.notificationKey p := by
  cases who with
  | owner => exact trim_append_idText (by decide) p
  | requester => exact trim_append_idText (by decide) p

/-! ### What attempts write -/

/-- What attempts to submit a request are about: the service and its owner, the quote that is prepared and its draft, and
the tables and the events before the first attempt. -/
structure Submission where
  service : SubmissionService
  owner : MailAddress
  quote : StoredAppointmentQuote
  stored : StoredAppointmentDraft
  start : Database
  events : List CalendarEvent

namespace Submission

variable (g : Submission)

/-- The key of the event of the draft. -/
def operationKey : String := proposalOperationKey g.stored.id

/-- The quote is prepared with the draft, and the calendar has one event of the draft at most. -/
structure Opens : Prop where
  owner : g.service.owner = some g.owner
  reachable : Reachable g.service.env g.start
  quote : appointmentQuoteById g.service.env.timezones g.quote.quote.id g.start = .ok g.quote
  prepared : g.quote.state = .prepared
  draft : g.quote.appointmentDraft = some g.stored
  event : g.events.countP (fun e => e.operationKey == g.operationKey) ≤ 1

/-- The address of a recipient. -/
def address : Recipient → String
  | .owner => g.owner.value
  | .requester => g.stored.draft.caller.email.value

/-- Whether a recipient is told. -/
def Told : Recipient → Prop
  | .owner => True
  | .requester => g.stored.draft.requesterIncluded = true

/-- The keys of the audit events of a proposal. -/
inductive AuditKey (proposalId : ℤ) : String → Prop
  | request : AuditKey proposalId (requestAudit g.stored.id).idempotencyKey
  | proposal : AuditKey proposalId (proposalAudit proposalId).idempotencyKey
  | notification (who : Recipient) (told : g.Told who) : AuditKey proposalId (who.auditKey proposalId)

/-- A notification of a proposal. -/
structure Notifies (proposalId : ℤ) (who : Recipient) (row : NotificationStoredRow) : Prop where
  told : g.Told who
  key : row.idempotencyKey = who.notificationKey proposalId
  proposalId : row.proposalId = some proposalId
  recipient : row.recipient = g.address who

/-- The rows that were added since the start, where the quote has a proposal or none. -/
structure Written (proposalId : Option ℤ) (db : Database) (events : List CalendarEvent) : Prop where
  quote : ∃ q, appointmentQuoteById g.service.env.timezones g.quote.quote.id db = .ok q ∧ q.proposalId = proposalId
  proposals : ∃ new, db.proposals = g.start.proposals ++ new ∧ new.length ≤ 1 ∧ ∀ row ∈ new,
    some row.id = proposalId ∧ row.appointmentDraftId = some g.stored.id ∧ row.idempotencyKey = proposalKey g.stored.id
  eventMappings : ∃ new, db.eventMappings = g.start.eventMappings ++ new ∧ new.length ≤ 1 ∧ ∀ row ∈ new,
    some row.proposalId = proposalId ∧
      ∃ event ∈ events, event.operationKey = g.operationKey ∧ event.providerEventId = row.providerEventId
  notifications : ∃ new, List.Forall₂ NotificationStoredRow.SameRequest (g.start.notificationOutbox ++ new)
    db.notificationOutbox ∧ (new.map (·.idempotencyKey)).Nodup ∧
      ∀ row ∈ new, ∃ p who, proposalId = some p ∧ g.Notifies p who row
  auditEvents : ∃ new, db.auditEvents = g.start.auditEvents ++ new ∧ (new.map (·.idempotencyKey)).Nodup ∧
    ∀ row ∈ new, ∃ p, proposalId = some p ∧ g.AuditKey p row.idempotencyKey

variable {g} {p? : Option ℤ} {events : List CalendarEvent}

/-- Nothing was added at the start. -/
theorem Opens.written (h : g.Opens) : g.Written none g.start events where
  quote := by
    obtain ⟨row, -, hdecode⟩ := appointmentQuoteById_eq_ok_iff.mp h.quote
    exact ⟨g.quote, h.quote, (decodeQuote_unset_of_prepared hdecode h.prepared).2⟩
  proposals := ⟨[], (List.append_nil _).symm, Nat.zero_le 1, fun _ hrow => absurd hrow List.not_mem_nil⟩
  eventMappings := ⟨[], (List.append_nil _).symm, Nat.zero_le 1, fun _ hrow => absurd hrow List.not_mem_nil⟩
  notifications := by
    refine ⟨[], ?_, List.nodup_nil, fun _ hrow => absurd hrow List.not_mem_nil⟩
    rw [List.append_nil]
    exact (Delivered.refl g.start).outbox
  auditEvents := ⟨[], (List.append_nil _).symm, List.nodup_nil, fun _ hrow => absurd hrow List.not_mem_nil⟩

/-- The calendar may get further events. -/
theorem Written.events_subset (h : g.Written p? db events) {events' : List CalendarEvent} (hevents : events ⊆ events') :
    g.Written p? db events' := by
  obtain ⟨new, hnew, hone, hrows⟩ := h.eventMappings
  refine ⟨h.quote, h.proposals, ⟨new, hnew, hone, fun row hrow => ?_⟩, h.notifications, h.auditEvents⟩
  obtain ⟨hproposal, event, hevent, hkey⟩ := hrows row hrow
  exact ⟨hproposal, event, hevents hevent, hkey⟩

/-- Deliveries add nothing. -/
theorem Written.delivered (h : g.Written p? db events) (hd : Delivered db db') : g.Written p? db' events := by
  obtain ⟨new, hnew, hnodup, hrows⟩ := h.notifications
  rw [hd.others]
  refine ⟨h.quote, h.proposals, h.eventMappings, ⟨new, ?_, hnodup, hrows⟩, h.auditEvents⟩
  exact forall₂_trans (R := NotificationStoredRow.SameRequest) (fun _ _ _ hsame hsame' => hsame.trans hsame') hnew hd.outbox

/-! #### The writes of an attempt -/

/-- Where the quote has no proposal, no row is one of a proposal. -/
theorem eq_nil_of_none {α : Type} {f : α → ℤ} {rows : List α} (h : ∀ row ∈ rows, some (f row) = none) : rows = [] :=
  List.eq_nil_iff_forall_not_mem.mpr fun row hrow => Option.some_ne_none _ (h row hrow)

/-- **Submitting the quote** consumes it into a proposal, which is added unless it is there. -/
theorem Written.submit (hc : Consistent g.service.env db) (h : g.Written p? db events) {now : OffsetDateTime}
    {clock : SystemTime} {p : StoredProposal}
    (hrun : (submitAppointmentQuote g.service.env.timezones g.quote.quote.id g.stored.id (proposalKey g.stored.id)
      (proposalSource g.stored.id) now clock).run db = .ok (p, db')) :
    g.Written (some p.id) db' events ∧ Extends g.service.env db db' ∧
      ConsumedInto g.service.env.timezones g.quote.quote.id p.id db' := by
  obtain ⟨q, hq, hconsumed⟩ := submitAppointmentQuote_consumes hc hrun
  have hinto : ConsumedInto g.service.env.timezones g.quote.quote.id p.id db' := ⟨q, hq, hconsumed.1, proposalId_of_isConsumedAs hconsumed⟩
  obtain ⟨consumedAt, -, ⟨rfl, q₀, hq₀, hconsumed₀⟩ | ⟨⟨row, current, created, db₁, q', hrow, hcurrent, hprepared, -, -, hcreate,
    -, rfl, -, proposalRow, hproposalRow, hp⟩⟩⟩ := submitAppointmentQuote_run_eq_ok hrun hc.quote_id
  · obtain ⟨q', hq', hproposal⟩ := h.quote
    obtain rfl := Except.ok.inj (hq'.symm.trans hq₀)
    obtain rfl : p? = some p.id := hproposal.symm.trans (proposalId_of_isConsumedAs hconsumed₀)
    exact ⟨h, .refl _ _, hinto⟩
  · obtain ⟨q₀, hq₀, rfl⟩ := h.quote
    obtain rfl := Except.ok.inj (hq₀.symm.trans (appointmentQuoteById_eq_ok_iff.mpr ⟨row, hrow, hcurrent⟩))
    have hnone := (decodeQuote_unset_of_prepared hcurrent hprepared).2
    have hid : p.id = created.id :=
      (decodeProposalRow_eq_ok hp).2.1.trans (Table.byRowid_eq_some hproposalRow).2
    obtain ⟨proposals, hproposals, -, hadded⟩ := h.proposals
    obtain ⟨mappings, hmappings, hone, hmapped⟩ := h.eventMappings
    obtain ⟨notifications, hnotifications, hnodup, hnotified⟩ := h.notifications
    obtain ⟨audits, haudits, hnodup', haudited⟩ := h.auditEvents
    rw [hnone] at hadded hmapped hnotified haudited
    obtain rfl := eq_nil_of_none fun row hrow => (hadded row hrow).1
    have hproposal : ∃ new, db₁.proposals = g.start.proposals ++ new ∧ new.length ≤ 1 ∧ ∀ row ∈ new,
        some row.id = some p.id ∧ row.appointmentDraftId = some g.stored.id ∧
          row.idempotencyKey = proposalKey g.stored.id := by
      obtain ⟨-, ⟨-, rfl, hdecode⟩ | ⟨rfl, -⟩⟩ := createProposalInTransaction_run_eq_ok hcreate
      · set added := (proposalInsert (proposalKey g.stored.id) (proposalSource g.stored.id) (.appointmentDraft g.stored.id)
          clock).row (Table.nextRowid db.proposals)
        refine ⟨[added], by rw [hproposals, List.append_nil], le_rfl, fun row hrow => ?_⟩
        obtain rfl := List.mem_singleton.mp hrow
        exact ⟨congrArg some ((decodeProposalRow_eq_ok hdecode).2.1.symm.trans hid.symm), rfl, rfl⟩
      · exact ⟨[], hproposals, Nat.zero_le 1, fun _ hrow => absurd hrow List.not_mem_nil⟩
    obtain ⟨t, rfl⟩ := createProposalInTransaction_proposals hcreate
    refine ⟨⟨⟨q, hq, proposalId_of_isConsumedAs hconsumed⟩, hproposal, ⟨mappings, hmappings, hone, fun row hrow => ?_⟩,
      ⟨notifications, hnotifications, hnodup, fun row hrow => ?_⟩, ⟨audits, haudits, hnodup', fun row hrow => ?_⟩⟩, ?_, hinto⟩
    · exact absurd (hmapped row hrow).1 (Option.some_ne_none _)
    · obtain ⟨_, _, hnone, -⟩ := hnotified row hrow
      exact absurd hnone.symm (Option.some_ne_none _)
    · obtain ⟨_, hnone, -⟩ := haudited row hrow
      exact absurd hnone.symm (Option.some_ne_none _)
    · exact .of_call hc (c := .submitAppointmentQuote g.quote.quote.id g.stored.id (proposalKey g.stored.id)
        (proposalSource g.stored.id) now clock) rfl hrun ⟨List.Subset.refl _, (Grows.refl db).notifications, List.Subset.refl _⟩
        (List.Subset.refl _)

/-- **Attaching the event** adds a mapping of the proposal unless it is there. -/
theorem Written.attach (hc : Consistent g.service.env db) {p : ℤ} (h : g.Written (some p) db events) {event : CalendarEvent}
    (hevent : event ∈ events) (hkey : event.operationKey = g.operationKey) {sourceId : String}
    {startsAt endsAt : Option OffsetDateTime} {clock : SystemTime} {m : StoredEventMapping}
    (hrun : (attachEventMapping p "google_calendar" event.providerEventId sourceId startsAt endsAt clock).run db =
      .ok (m, db')) :
    g.Written (some p) db' events ∧ Extends g.service.env db db' ∧ MappingOf p m.id db' := by
  obtain ⟨-, ⟨row, -, hdecode, hproposal, -, hproviderEventId, -, -, -, rfl, hfresh⟩ |
    ⟨rfl, row, hrow, hdecode, hproposal, -⟩⟩ := attachEventMapping_run_eq_ok hrun
  · obtain ⟨new, hnew, -, hrows⟩ := h.eventMappings
    obtain rfl : new = [] := by
      refine List.eq_nil_iff_forall_not_mem.mpr fun r hr => ?_
      exact (hfresh r (hnew ▸ List.mem_append_right _ hr)).1 (Option.some.inj (hrows r hr).1)
    refine ⟨⟨h.quote, h.proposals, ⟨[row], by rw [hnew, List.append_nil], le_rfl, fun r hr => ?_⟩, h.notifications,
      h.auditEvents⟩, ?_, row, List.mem_append_right _ (List.mem_singleton.mpr rfl), hproposal,
      (decodeEventMappingRow_eq_ok hdecode).2.1.symm⟩
    · obtain rfl := List.mem_singleton.mp hr
      exact ⟨congrArg some hproposal, event, hevent, hkey, hproviderEventId.symm⟩
    · exact .of_call hc (c := .attachEventMapping p "google_calendar" event.providerEventId sourceId startsAt endsAt clock)
        rfl hrun ⟨List.Subset.refl _, (Grows.refl db).notifications, List.Subset.refl _⟩ (List.subset_append_left _ _)
  · obtain ⟨-, hid, hproposal', -⟩ := decodeEventMappingRow_eq_ok hdecode
    exact ⟨h, .refl _ _, row, hrow, hproposal'.symm.trans hproposal, hid.symm⟩

/-- **Enqueueing a notification** of the proposal adds it unless it is there. -/
theorem Written.enqueue (hc : Consistent g.service.env db) {p : ℤ} (h : g.Written (some p) db events) {who : Recipient}
    (htold : g.Told who) {recipient : NotificationRecipient} (haddress : recipient.value = g.address who) {mappingId : ℤ}
    {template : NotificationTemplateData} {consumedAt : OffsetDateTime} {clock : SystemTime} {n : StoredNotification}
    (hrun : (enqueueNotification g.service.env.json (who.notification p mappingId recipient template consumedAt) clock).run db =
      .ok (n, db')) :
    g.Written (some p) db' events ∧ Extends g.service.env db db' ∧
      NotificationUnder (who.notificationKey p) n.id db' := by
  obtain ⟨key, availableAt, hready, hadded⟩ := enqueueNotification_run_eq_ok hrun
  have hkey : key.text = who.notificationKey p := by
    rw [(storeKey_eq_ok_iff.mp hready.key).2]
    exact who.trim_notificationKey p
  rw [hkey] at hadded
  obtain ⟨persistedAt, row, hrow, hfresh, rfl, hdecode, -⟩ | ⟨rfl, row, hrow, hrowKey, hdecode, -⟩ := hadded
  · obtain ⟨new, hnew, hnodup, hrows⟩ := h.notifications
    have hrowKey : row.idempotencyKey = who.notificationKey p := by rw [hrow]; rfl
    refine ⟨⟨h.quote, h.proposals, h.eventMappings, ⟨new ++ [row], ?_, ?_, fun r hr => ?_⟩, h.auditEvents⟩, ?_, row,
      List.mem_append_right _ (List.mem_singleton.mpr rfl), hrowKey, (decodeNotificationRow_eq_ok hdecode).id.symm⟩
    · rw [← List.append_assoc]
      exact List.rel_append hnew (.cons (.refl row) .nil)
    · rw [List.map_append, List.nodup_append]
      refine ⟨hnodup, List.nodup_singleton _, fun k hk k' hk' => ?_⟩
      obtain ⟨r, hr, rfl⟩ := List.mem_map.mp hk
      obtain rfl := List.mem_singleton.mp hk'
      obtain ⟨r', hr', hsame⟩ := exists_of_mem_forall₂ hnew (List.mem_append_right _ hr)
      rw [← hsame.idempotencyKey]
      exact fun heq => hfresh r' hr' (heq.trans hrowKey)
    · rcases List.mem_append.mp hr with hr | hr
      · exact hrows r hr
      · obtain rfl := List.mem_singleton.mp hr
        exact ⟨p, who, rfl, htold, hrowKey, by rw [hrow]; rfl, by rw [hrow]; exact haddress⟩
    · exact .of_call hc (c := .enqueueNotification (who.notification p mappingId recipient template consumedAt) clock)
        rfl hrun (.outbox_append db row) (List.Subset.refl _)
  · exact ⟨h, .refl _ _, row, hrow, hrowKey, (decodeNotificationRow_eq_ok hdecode).id.symm⟩

/-- **Logging** adds an audit event unless it is there. -/
theorem Written.append (hc : Consistent g.service.env db) {p : ℤ} (h : g.Written (some p) db events) {entry : AuditEntry}
    (hkey : g.AuditKey p entry.idempotencyKey) {occurredAt : OffsetDateTime} {clock : SystemTime} {e : StoredAuditEvent}
    (hrun : (appendAuditEvent entry occurredAt clock).run db = .ok (e, db')) :
    g.Written (some p) db' events ∧ Extends g.service.env db db' ∧ AuditUnder entry.idempotencyKey db' := by
  obtain ⟨text, hfresh, rfl, -⟩ | ⟨rfl, row, hrow, hrowKey, -⟩ := appendAuditEvent_run_eq_ok hrun
  · obtain ⟨new, hnew, hnodup, hrows⟩ := h.auditEvents
    set row := entry.row text clock (Table.nextRowid db.auditEvents)
    refine ⟨⟨h.quote, h.proposals, h.eventMappings, h.notifications, ⟨new ++ [row], ?_, ?_, fun r hr => ?_⟩⟩, ?_, row,
      List.mem_append_right _ (List.mem_singleton.mpr rfl), rfl⟩
    · rw [← List.append_assoc, ← hnew]
    · rw [List.map_append, List.nodup_append]
      refine ⟨hnodup, List.nodup_singleton _, fun k hk k' hk' => ?_⟩
      obtain ⟨r, hr, rfl⟩ := List.mem_map.mp hk
      obtain rfl := List.mem_singleton.mp hk'
      exact hfresh r (hnew ▸ List.mem_append_right _ hr)
    · rcases List.mem_append.mp hr with hr | hr
      · exact hrows r hr
      · obtain rfl := List.mem_singleton.mp hr
        exact ⟨p, rfl, hkey⟩
    · exact .of_call hc (c := .appendAuditEvent entry occurredAt clock) rfl hrun (.auditEvents_append db _)
        (List.Subset.refl _)
  · exact ⟨h, .refl _ _, row, hrow, hrowKey⟩

end Submission

end AgentVoice.PaService

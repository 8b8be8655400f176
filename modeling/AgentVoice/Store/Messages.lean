import AgentVoice.Foundations.IdempotentInsert
import AgentVoice.Store.Columns
import AgentVoice.Store.Schema

/-!
# Messages

`record_message` and `transition_message`. A provider message is recorded once, in the state its provider
gives it, and an e-mail moves through the triage graph: unprocessed to actionable, ambiguous or ignored,
and actionable to scheduled. The store has no operation that deletes a message.
-/

namespace AgentVoice.Store

open AgentVoice.Foundations

/-- `MessageProvider`. -/
inductive MessageProvider where
  | voice | outlook | gmail
  deriving DecidableEq, Repr

namespace MessageProvider

/-- `as_str`. -/
def asStr : MessageProvider → String
  | .voice => "voice"
  | .outlook => "outlook"
  | .gmail => "gmail"

/-- `from_storage`. -/
def fromStorage : String → StoreResult MessageProvider :=
  parseName [.voice, .outlook, .gmail] asStr (storedRecordInvalid "message provider")

theorem fromStorage_eq_ok_iff {value : String} {p : MessageProvider} : fromStorage value = .ok p ↔ value = p.asStr :=
  parseName_eq_ok_iff (by intro b; cases b <;> decide) (by decide)

theorem asStr_inj {p q : MessageProvider} (h : p.asStr = q.asStr) : p = q := by
  have hp := fromStorage_eq_ok_iff.mpr (Eq.refl p.asStr)
  rw [h] at hp
  exact Except.ok.inj (hp.symm.trans (fromStorage_eq_ok_iff.mpr rfl))

end MessageProvider

/-- `MessageTriageState`. -/
inductive MessageTriageState where
  | recorded | unprocessed | actionable | ambiguous | ignored | scheduled
  deriving DecidableEq, Repr

namespace MessageTriageState

/-- `as_str`. -/
def asStr : MessageTriageState → String
  | .recorded => "recorded"
  | .unprocessed => "unprocessed"
  | .actionable => "actionable"
  | .ambiguous => "ambiguous"
  | .ignored => "ignored"
  | .scheduled => "scheduled"

/-- `from_storage`. -/
def fromStorage : String → StoreResult MessageTriageState :=
  parseName [.recorded, .unprocessed, .actionable, .ambiguous, .ignored, .scheduled] asStr
    (storedRecordInvalid "message triage state")

theorem fromStorage_eq_ok_iff {value : String} {s : MessageTriageState} :
    fromStorage value = .ok s ↔ value = s.asStr :=
  parseName_eq_ok_iff (by intro b; cases b <;> decide) (by decide)

theorem asStr_inj {s t : MessageTriageState} (h : s.asStr = t.asStr) : s = t := by
  have hs := fromStorage_eq_ok_iff.mpr (Eq.refl s.asStr)
  rw [h] at hs
  exact Except.ok.inj (hs.symm.trans (fromStorage_eq_ok_iff.mpr rfl))

end MessageTriageState

/-- `initial_message_state`. -/
def initialMessageState : MessageProvider → MessageTriageState
  | .voice => .recorded
  | .outlook | .gmail => .unprocessed

/-- `valid_message_state`. -/
def validMessageState : MessageProvider → MessageTriageState → Bool
  | .voice, s => s == .recorded
  | .outlook, s | .gmail, s => s != .recorded

/-- `valid_message_transition`. -/
def validMessageTransition : MessageTriageState → MessageTriageState → Bool
  | .unprocessed, .actionable | .unprocessed, .ambiguous | .unprocessed, .ignored => true
  | .actionable, .scheduled => true
  | _, _ => false

/-- `MAX_MESSAGE_SUMMARY_LENGTH`. -/
def maxMessageSummaryLength : ℕ := 4096

/-- `MAX_MESSAGE_SENDER_LENGTH`. -/
def maxMessageSenderLength : ℕ := 320

/-- `MessageSummary`. -/
@[ext]
structure MessageSummary where
  text : String
  valid : IsPlainText maxMessageSummaryLength text
  deriving DecidableEq

/-- `MessageSummary::new`. -/
def MessageSummary.new (value : String) : StoreResult MessageSummary :=
  if h : IsPlainText maxMessageSummaryLength value then .ok ⟨value, h⟩ else .error (.invalidInput "summary")

theorem MessageSummary.new_eq_ok_iff {value : String} {s : MessageSummary} :
    MessageSummary.new value = .ok s ↔ s.text = value := by
  unfold MessageSummary.new
  constructor
  · intro h
    split at h
    · cases h
      rfl
    · cases h
  · rintro rfl
    exact dif_pos s.valid

/-- `validate_message_subject`. -/
def validateMessageSubject (value : Option String) : StoreResult (Option String) :=
  transpose (validateMessageText · "subject" maxIdentifierLength) value

/-- `validate_message_sender`. -/
def validateMessageSender (value : Option String) : StoreResult (Option String) :=
  transpose (validateMessageText · "sender" maxMessageSenderLength) value

/-- `StoredMessage`. -/
structure StoredMessage where
  id : ℤ
  idempotencyKey : String
  sourceId : String
  provider : MessageProvider
  providerMessageId : String
  summary : MessageSummary
  subject : Option String
  sender : Option String
  receivedAt : OffsetDateTime
  triageState : MessageTriageState
  createdAt : String
  updatedAt : String
  deriving DecidableEq

/-- `parse_message_timestamp`. -/
def parseMessageTimestamp (value : String) : StoreResult OffsetDateTime := parseWholeSecond "message" value

/-- `parse_message_timestamp_text`. -/
def parseMessageTimestampText (value : String) : StoreResult String := do
  let parsed ← parseMessageTimestamp value
  okOr parsed.format (storedRecordInvalid "message")

theorem parseMessageTimestampText_eq_ok {value text : String} (h : parseMessageTimestampText value = .ok text) :
    text = value := parseWholeSecond_format h

/-- `decode_message_row`. -/
def decodeMessageRow (row : MessageStoredRow) : StoreResult StoredMessage := do
  require (0 < row.id) (storedRecordInvalid "message")
  let idempotencyKey ←
    replaceError (validateMachineIdentifier row.idempotencyKey "idempotency_key") (storedRecordInvalid "message")
  let sourceId ← replaceError (validateMachineIdentifier row.sourceId "source_id") (storedRecordInvalid "message")
  let provider ← replaceError (MessageProvider.fromStorage row.provider) (storedRecordInvalid "message")
  let providerMessageId ←
    replaceError (validateMachineIdentifier row.providerMessageId "provider_message_id")
      (storedRecordInvalid "message")
  let summary ← replaceError (MessageSummary.new row.summary) (storedRecordInvalid "message")
  let subject ← replaceError (validateMessageSubject row.subject) (storedRecordInvalid "message")
  let sender ← replaceError (validateMessageSender row.sender) (storedRecordInvalid "message")
  let receivedAt ← parseMessageTimestamp row.receivedAt
  let triageState ← replaceError (MessageTriageState.fromStorage row.triageState) (storedRecordInvalid "message")
  require (validMessageState provider triageState = true) (storedRecordInvalid "message")
  let createdAt ← parseMessageTimestampText row.createdAt
  let updatedAt ← parseMessageTimestampText row.updatedAt
  return ⟨row.id, idempotencyKey, sourceId, provider, providerMessageId, summary, subject, sender, receivedAt,
    triageState, createdAt, updatedAt⟩

/-! ### Recording -/

/-- `format_message_timestamp`. -/
def formatMessageTimestamp (value : OffsetDateTime) : StoreResult (OffsetDateTime × String) := do
  require (value.offsetSeconds = 0) (.invalidInput "received_at")
  wholeSecondText value "received_at"

/-- The arguments of `record_message`. -/
structure MessageRequest where
  idempotencyKey : String
  sourceId : String
  provider : MessageProvider
  providerMessageId : String
  summary : MessageSummary
  subject : Option String
  sender : Option String
  receivedAt : OffsetDateTime

/-- The insert of `record_message`. -/
def MessageRequest.insert (r : MessageRequest) (receivedAt : OffsetDateTime) (receivedAtText : String)
    (now : SystemTime) : IdempotentInsert StoreError MessageStoredRow StoredMessage where
  clashes row :=
    row.idempotencyKey == r.idempotencyKey || row.sourceId == r.sourceId ||
      (row.provider == r.provider.asStr && row.providerMessageId == r.providerMessageId)
  row id :=
    { id
      idempotencyKey := r.idempotencyKey
      sourceId := r.sourceId
      provider := r.provider.asStr
      providerMessageId := r.providerMessageId
      summary := r.summary.text
      subject := r.subject
      sender := r.sender
      receivedAt := receivedAtText
      triageState := (initialMessageState r.provider).asStr
      createdAt := strftimeNow now
      updatedAt := strftimeNow now }
  decode := decodeMessageRow
  same stored :=
    decide (stored.idempotencyKey = r.idempotencyKey ∧ stored.sourceId = r.sourceId ∧ stored.provider = r.provider ∧
      stored.providerMessageId = r.providerMessageId ∧ stored.summary = r.summary ∧ stored.subject = r.subject ∧
      stored.sender = r.sender ∧ stored.receivedAt = receivedAt)
  conflict := .conflict "message"
  unreadable := storedRecordInvalid "message"
  single := true

/-- A transaction on the table of messages. -/
def onMessages {α : Type} (t : Tx StoreError (List MessageStoredRow) α) : Tx StoreError Database α :=
  Tx.zoom Database.messages (fun t db => { db with messages := t }) t

/-- `PaStore::record_message`. -/
def recordMessage (r : MessageRequest) (now : SystemTime) : Tx StoreError Database StoredMessage := do
  let _ ← Tx.ofResult (validateMachineIdentifier r.idempotencyKey "idempotency_key")
  let _ ← Tx.ofResult (validateMachineIdentifier r.sourceId "source_id")
  let _ ← Tx.ofResult (validateMachineIdentifier r.providerMessageId "provider_message_id")
  let _ ← Tx.ofResult (validateMessageSubject r.subject)
  let _ ← Tx.ofResult (validateMessageSender r.sender)
  let (receivedAt, receivedAtText) ← Tx.ofResult (formatMessageTimestamp r.receivedAt)
  onMessages (r.insert receivedAt receivedAtText now).exec

/-! ### Moving -/

/-- `format_message_updated_timestamp` and `format_task_updated_timestamp`: a whole second, given in UTC. -/
def formatUpdatedTimestamp (value : OffsetDateTime) : StoreResult (OffsetDateTime × String) := do
  require (value.offsetSeconds = 0) (.invalidInput "updated_at")
  wholeSecondText value "updated_at"

/-- The row that a transition takes. -/
def ownMessage (sourceId : String) (expected : MessageTriageState) (row : MessageStoredRow) : Bool :=
  row.sourceId == sourceId && (row.provider == "outlook" || row.provider == "gmail") &&
    row.triageState == expected.asStr

/-- The row a transition leaves. -/
def MessageStoredRow.transition (next : MessageTriageState) (updatedAt : String) (row : MessageStoredRow) :
    MessageStoredRow :=
  { row with triageState := next.asStr, updatedAt }

/-- `PaStore::transition_message`. -/
def transitionMessage (sourceId : String) (expectedState nextState : MessageTriageState) (updatedAt : OffsetDateTime) :
    Tx StoreError Database StoredMessage := do
  let sourceId ← Tx.ofResult (validateMachineIdentifier sourceId "source_id")
  let (_, updatedAtText) ← Tx.ofResult (formatUpdatedTimestamp updatedAt)
  Tx.ensure (validMessageTransition expectedState nextState = true) (.conflict "message transition")
  let row ← Tx.read fun db => Table.byKey MessageStoredRow.sourceId sourceId db.messages
  let row ← Tx.ofResult (okOr row (.notFound "message"))
  let current ← Tx.ofResult (decodeMessageRow row)
  Tx.ensure (current.provider ≠ .voice) (.conflict "message transition")
  if current.triageState = nextState ∧ current.updatedAt = updatedAtText then return current
  else do
    Tx.ensure (current.triageState = expectedState) (.conflict "message transition")
    let updated ← Tx.read fun db => db.messages.countP (ownMessage sourceId expectedState)
    Tx.write fun db =>
      { db with
        messages :=
          Table.updateWhere (ownMessage sourceId expectedState) (MessageStoredRow.transition nextState updatedAtText)
            db.messages }
    Tx.ensure (updated = 1) (.conflict "message transition")
    let row ← Tx.read fun db => Table.byKey MessageStoredRow.sourceId sourceId db.messages
    let row ← Tx.ofResult (okOr row (storedRecordInvalid "message"))
    Tx.ofResult (decodeMessageRow row)

/-! ### What the operations do -/

/-- What a row that decodes holds. -/
structure MessageStoredRow.Holds (row : MessageStoredRow) (m : StoredMessage) : Prop where
  id : m.id = row.id
  id_pos : 0 < row.id
  idempotencyKey : m.idempotencyKey = row.idempotencyKey
  sourceId : m.sourceId = row.sourceId
  provider : row.provider = m.provider.asStr
  providerMessageId : m.providerMessageId = row.providerMessageId
  summary : m.summary.text = row.summary
  triageState : row.triageState = m.triageState.asStr
  valid : validMessageState m.provider m.triageState = true
  updatedAt : m.updatedAt = row.updatedAt

theorem decodeMessageRow_eq_ok {row : MessageStoredRow} {m : StoredMessage} (h : decodeMessageRow row = .ok m) :
    row.Holds m := by
  obtain ⟨_, hid, h⟩ := bind_eq_ok_iff.mp h
  obtain ⟨key, hkey, h⟩ := bind_eq_ok_iff.mp h
  obtain ⟨sourceId, hsource, h⟩ := bind_eq_ok_iff.mp h
  obtain ⟨provider, hprovider, h⟩ := bind_eq_ok_iff.mp h
  obtain ⟨providerMessageId, hmessage, h⟩ := bind_eq_ok_iff.mp h
  obtain ⟨summary, hsummary, h⟩ := bind_eq_ok_iff.mp h
  obtain ⟨subject, -, h⟩ := bind_eq_ok_iff.mp h
  obtain ⟨sender, -, h⟩ := bind_eq_ok_iff.mp h
  obtain ⟨receivedAt, -, h⟩ := bind_eq_ok_iff.mp h
  obtain ⟨state, hstate, h⟩ := bind_eq_ok_iff.mp h
  obtain ⟨_, hvalid, h⟩ := bind_eq_ok_iff.mp h
  obtain ⟨createdAt, -, h⟩ := bind_eq_ok_iff.mp h
  obtain ⟨updatedAt, hupdated, h⟩ := bind_eq_ok_iff.mp h
  obtain rfl := Except.ok.inj h
  rw [require_eq_ok_iff] at hid hvalid
  rw [replaceError_eq_ok_iff, validateMachineIdentifier_eq_ok_iff] at hkey hsource hmessage
  rw [replaceError_eq_ok_iff] at hprovider hsummary hstate
  exact
    { id := rfl
      id_pos := hid
      idempotencyKey := hkey.2.symm
      sourceId := hsource.2.symm
      provider := MessageProvider.fromStorage_eq_ok_iff.mp hprovider
      providerMessageId := hmessage.2.symm
      summary := MessageSummary.new_eq_ok_iff.mp hsummary
      triageState := MessageTriageState.fromStorage_eq_ok_iff.mp hstate
      valid := hvalid
      updatedAt := parseMessageTimestampText_eq_ok hupdated }

/-- **Recording a message** adds a row in its provider's first state, or finds a row. -/
theorem recordMessage_run_eq_ok {r : MessageRequest} {now : SystemTime} {db db' : Database} {m : StoredMessage}
    (h : (recordMessage r now).run db = .ok (m, db')) :
    (∃ row, Row.rowid row = Table.nextRowid db.messages ∧ decodeMessageRow row = .ok m ∧
        row.idempotencyKey = r.idempotencyKey ∧ row.sourceId = r.sourceId ∧ row.provider = r.provider.asStr ∧
        row.providerMessageId = r.providerMessageId ∧ row.triageState = (initialMessageState r.provider).asStr ∧
        db' = { db with messages := db.messages ++ [row] } ∧
        ∀ s ∈ db.messages, s.idempotencyKey ≠ r.idempotencyKey ∧ s.sourceId ≠ r.sourceId ∧
          ¬ (s.provider = r.provider.asStr ∧ s.providerMessageId = r.providerMessageId)) ∨
      db' = db := by
  simp only [recordMessage, Tx.ofResult_bind_eq_ok_iff] at h
  obtain ⟨_, -, _, -, _, -, _, -, _, -, ⟨receivedAt, receivedAtText⟩, -, hinsert⟩ := h
  obtain ⟨t, hexec, rfl⟩ := Tx.run_zoom_eq_ok_iff.mp hinsert
  rcases IdempotentInsert.run_exec_eq_ok (fun _ => rfl) hexec with ⟨hfresh, rfl, hdecode⟩ | ⟨rfl, -, -⟩
  · refine Or.inl ⟨_, rfl, hdecode, rfl, rfl, rfl, rfl, rfl, rfl, fun s hs => ?_⟩
    have hclash := hfresh s hs
    simp only [MessageRequest.insert, Bool.or_eq_false_iff, Bool.and_eq_false_iff, beq_eq_false_iff_ne] at hclash
    exact ⟨hclash.1.1, hclash.1.2, fun hboth => hclash.2.elim (absurd hboth.1) (absurd hboth.2)⟩
  · exact Or.inr rfl

/-- **Moving a message** returns the row as it is, or takes the row with the source from the expected state to
the next one; the row it leaves decodes. -/
theorem transitionMessage_run_eq_ok {sourceId : String} {expected next : MessageTriageState}
    {updatedAt : OffsetDateTime} {db db' : Database} {m : StoredMessage}
    (h : (transitionMessage sourceId expected next updatedAt).run db = .ok (m, db')) :
    db' = db ∨ validMessageTransition expected next = true ∧ ∃ updatedAtText,
      (∃ row, Table.byKey MessageStoredRow.sourceId sourceId db'.messages = some row ∧ decodeMessageRow row = .ok m) ∧
      db' = { db with
        messages := Table.updateWhere (ownMessage sourceId expected) (MessageStoredRow.transition next updatedAtText)
          db.messages } := by
  simp only [transitionMessage, Tx.ofResult_bind_eq_ok_iff, Tx.ensure_bind_eq_ok_iff, Tx.read_bind,
    validateMachineIdentifier_eq_ok_iff, okOr_eq_ok_iff] at h
  obtain ⟨_, ⟨-, rfl⟩, ⟨_, text⟩, -, hvalid, row, -, current, -, -, hmove⟩ := h
  by_cases hdone : current.triageState = next ∧ current.updatedAt = text
  · rw [if_pos hdone] at hmove
    cases hmove
    exact Or.inl rfl
  · rw [if_neg hdone] at hmove
    simp only [Tx.ensure_bind_eq_ok_iff, Tx.read_bind, Tx.write_bind, Tx.ofResult_bind_eq_ok_iff,
      okOr_eq_ok_iff, Tx.run_ofResult_eq_ok_iff] at hmove
    obtain ⟨-, -, row', hrow', hdecode, rfl⟩ := hmove
    exact Or.inr ⟨hvalid, text, ⟨row', hrow', hdecode⟩, rfl⟩

end AgentVoice.Store

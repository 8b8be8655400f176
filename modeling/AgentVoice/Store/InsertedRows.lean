import AgentVoice.Store.Effects
import Mathlib.Logic.Equiv.List
import Mathlib.Tactic.DeriveEncodable

/-!
# Rows that can be read back

What a call inserts can be read: the row of a message, of a notification and of an audit event decodes to what the
call was to insert. A call that is accepted and meets no other row therefore succeeds.
-/

namespace AgentVoice.Store

open AgentVoice.Foundations AgentVoice.Domain

/-! ### Texts -/

theorem parseWholeSecond_strftimeNow (resource : String) (clock : SystemTime) :
    parseWholeSecond resource (strftimeNow clock) = .ok clock.instant.wholeSecond :=
  parseWholeSecond_eq_ok_iff.mpr ⟨rfl, OffsetDateTime.wholeSecond_nanosecond _, strftimeNow_format clock⟩

/-- An instant that can be written is one that the type can hold. -/
theorem inRange_of_format {t : OffsetDateTime} {text : String} (hutc : t.offsetSeconds = 0)
    (h : t.format = some text) : t.InRange := by
  obtain ⟨⟨h0, h1⟩, -⟩ := OffsetDateTime.format_eq_some_iff.mp h
  simp only [OffsetDateTime.localNanos, hutc, epochNanos, calendarNanos, second] at h0 h1
  simp only [OffsetDateTime.InRange, hutc, second]
  omega

/-- The text of a whole second is read as that second. -/
theorem parseAuditTimestamp_of_format {t : OffsetDateTime} {text : String} (resource : String)
    (hutc : t.offsetSeconds = 0) (hnanos : t.nanosecond = 0) (h : t.format = some text) :
    parseAuditTimestamp text resource = .ok t := by
  have hself : t = ⟨t.unixTimestamp * second, 0⟩ := by
    obtain ⟨n, o⟩ := t
    obtain rfl : o = 0 := hutc
    refine congrArg (fun n => (⟨n, 0⟩ : OffsetDateTime)) ?_
    exact (Int.ediv_mul_cancel (Int.dvd_of_emod_eq_zero hnanos)).symm
  have hrange : OffsetDateTime.fromUnixTimestamp t.unixTimestamp = some t :=
    OffsetDateTime.fromUnixTimestamp_eq_some_iff.mpr ⟨hself, inRange_of_format hutc h⟩
  have hutc' : t.toUtc = t := OffsetDateTime.toUtc_eq_self hutc
  simp [parseAuditTimestamp, parse_format h, hrange, hutc', h, require]

/-! ### Messages -/

/-- The arguments `record_message` accepts. -/
structure MessageRequest.Accepted (r : MessageRequest) : Prop where
  idempotencyKey : isMachineIdentifier r.idempotencyKey = true
  sourceId : isMachineIdentifier r.sourceId = true
  providerMessageId : isMachineIdentifier r.providerMessageId = true
  subject : ∃ subject, validateMessageSubject r.subject = .ok subject
  sender : ∃ sender, validateMessageSender r.sender = .ok sender
  receivedAt : ∃ receivedAt, formatMessageTimestamp r.receivedAt = .ok receivedAt

theorem formatMessageTimestamp_eq_ok {value t : OffsetDateTime} {text : String}
    (h : formatMessageTimestamp value = .ok (t, text)) : t = value := by
  obtain ⟨_, hutc, htext⟩ := bind_eq_ok_iff.mp h
  obtain ⟨rfl, -⟩ := wholeSecondText_eq_ok_iff.mp htext
  exact OffsetDateTime.toUtc_eq_self (require_eq_ok_iff.mp hutc)

/-- The message that a request leaves. -/
def MessageRequest.stored (r : MessageRequest) (clock : SystemTime) (id : ℤ) : StoredMessage where
  id
  idempotencyKey := r.idempotencyKey
  sourceId := r.sourceId
  provider := r.provider
  providerMessageId := r.providerMessageId
  summary := r.summary
  subject := r.subject
  sender := r.sender
  receivedAt := r.receivedAt
  triageState := initialMessageState r.provider
  createdAt := strftimeNow clock
  updatedAt := strftimeNow clock

theorem validMessageState_initial (p : MessageProvider) : validMessageState p (initialMessageState p) = true := by
  cases p <;> rfl

theorem validateMessageSubject_eq_ok {value text : Option String} (h : validateMessageSubject value = .ok text) :
    value = text := eq_of_transpose_eq_ok (fun _ _ h => (validateMessageText_eq_ok_iff.mp h).2) h

theorem validateMessageSender_eq_ok {value text : Option String} (h : validateMessageSender value = .ok text) :
    value = text := eq_of_transpose_eq_ok (fun _ _ h => (validateMessageText_eq_ok_iff.mp h).2) h

/-- **The row of a message can be read.** -/
theorem decodeMessageRow_insert {r : MessageRequest} (h : r.Accepted) {receivedAt : OffsetDateTime} {text : String}
    (hformat : formatMessageTimestamp r.receivedAt = .ok (receivedAt, text)) (clock : SystemTime) {id : ℤ}
    (hid : 0 < id) : decodeMessageRow ((r.insert receivedAt text clock).row id) = .ok (r.stored clock id) := by
  obtain rfl := formatMessageTimestamp_eq_ok hformat
  obtain ⟨subject, hsubject⟩ := h.subject
  obtain ⟨sender, hsender⟩ := h.sender
  obtain rfl := validateMessageSubject_eq_ok hsubject
  obtain rfl := validateMessageSender_eq_ok hsender
  obtain ⟨_, hutc, htext⟩ := bind_eq_ok_iff.mp hformat
  obtain ⟨hself, hnanos, htext⟩ := wholeSecondText_eq_ok_iff.mp htext
  rw [← hself] at hnanos htext
  have hreceived : parseMessageTimestamp text = .ok r.receivedAt :=
    parseWholeSecond_eq_ok_iff.mpr ⟨require_eq_ok_iff.mp hutc, hnanos, htext⟩
  have hwritten : parseMessageTimestampText (strftimeNow clock) = .ok (strftimeNow clock) :=
    bind_eq_ok_iff.mpr ⟨_, parseWholeSecond_strftimeNow _ clock, okOr_eq_ok_iff.mpr (strftimeNow_format clock)⟩
  have hvalid : ∀ {value field : String}, isMachineIdentifier value = true →
      replaceError (validateMachineIdentifier value field) (storedRecordInvalid "message") = .ok value :=
    fun h => replaceError_eq_ok_iff.mpr (validateMachineIdentifier_eq_ok_iff.mpr ⟨h, rfl⟩)
  refine bind_eq_ok_iff.mpr ⟨(), require_of hid _, ?_⟩
  refine bind_eq_ok_iff.mpr ⟨_, hvalid h.idempotencyKey, ?_⟩
  refine bind_eq_ok_iff.mpr ⟨_, hvalid h.sourceId, ?_⟩
  refine bind_eq_ok_iff.mpr ⟨_, replaceError_eq_ok_iff.mpr (MessageProvider.fromStorage_eq_ok_iff.mpr rfl), ?_⟩
  refine bind_eq_ok_iff.mpr ⟨_, hvalid h.providerMessageId, ?_⟩
  refine bind_eq_ok_iff.mpr ⟨_, replaceError_eq_ok_iff.mpr (MessageSummary.new_eq_ok_iff.mpr rfl), ?_⟩
  refine bind_eq_ok_iff.mpr ⟨_, replaceError_eq_ok_iff.mpr hsubject, ?_⟩
  refine bind_eq_ok_iff.mpr ⟨_, replaceError_eq_ok_iff.mpr hsender, ?_⟩
  refine bind_eq_ok_iff.mpr ⟨_, hreceived, ?_⟩
  refine bind_eq_ok_iff.mpr ⟨_, replaceError_eq_ok_iff.mpr (MessageTriageState.fromStorage_eq_ok_iff.mpr rfl), ?_⟩
  refine bind_eq_ok_iff.mpr ⟨(), require_of (validMessageState_initial _) _, ?_⟩
  refine bind_eq_ok_iff.mpr ⟨_, hwritten, bind_eq_ok_iff.mpr ⟨_, hwritten, rfl⟩⟩

/-! ### Notifications -/

/-- The notification that a request leaves. -/
def EnqueueRequest.stored (r : EnqueueRequest) (key persistedAt : String) (id : ℤ) : StoredNotification where
  id
  idempotencyKey := key
  proposalId := r.proposalId
  eventMappingId := r.eventMappingId
  kind := r.kind
  recipient := r.recipient
  templateData := r.templateData
  status := .pending
  availableAt := r.availableAt.toUtc
  leaseUntil := none
  sentAt := none
  lastErrorCode := none
  attempts := 0
  createdAt := persistedAt
  updatedAt := persistedAt

theorem EnqueueRequest.sameAs_stored (r : EnqueueRequest) (key persistedAt : String) (id : ℤ) :
    r.SameAs (r.stored key persistedAt id) := ⟨rfl, rfl, rfl, rfl, rfl, rfl⟩

theorem validateStoredNotificationMetadataTimestamp_of_format {t : OffsetDateTime} {text : String}
    (hutc : t.offsetSeconds = 0) (h : t.format = some text) :
    validateStoredNotificationMetadataTimestamp text = .ok text :=
  bind_eq_ok_iff.mpr ⟨t, parseCanonical_eq_ok_iff.mpr ⟨hutc, h⟩,
    replaceError_eq_ok_iff.mpr (formatOffsetDatetime_eq_ok_iff.mpr h)⟩

/-- **The row of a notification can be read**, where the JSON library reads what it writes. -/
theorem decodeNotificationRow_row {json : TemplateJson} (hjson : json.RoundTrips) {r : EnqueueRequest} {db : Database}
    {key : IdempotencyKey} {availableAt : String} (h : r.Ready db key availableAt) {clock : SystemTime}
    {persistedAt : String} (hpersisted : formatOffsetDatetime clock.instant = .ok persistedAt) {id : ℤ} (hid : 0 < id) :
    decodeNotificationRow json (r.row json key.text availableAt persistedAt id) =
      .ok (r.stored key.text persistedAt id) := by
  obtain ⟨hproposal, hmapping, hrequires, hnone, -, -⟩ := h.references
  have hkind : r.kind.requiresProposal = r.proposalId.isSome ∧ (r.kind.requiresProposal = false → r.eventMappingId = none) := by
    refine ⟨?_, fun hfalse => (hnone hfalse).2⟩
    cases hkind : r.kind.requiresProposal with
    | true => exact (hrequires hkind).symm
    | false => rw [(hnone hkind).1, Option.isSome_none]
  have hrecipient : NotificationRecipient.new r.recipient.value = .ok r.recipient :=
    replaceError_eq_ok_iff.mpr (ConfirmedEmail.confirm_eq_ok_iff.mpr rfl)
  have havailable : parseStoredNotificationTimestamp availableAt = .ok r.availableAt.toUtc :=
    parseCanonical_eq_ok_iff.mpr ⟨rfl, formatOffsetDatetime_eq_ok_iff.mp h.availableAt⟩
  have hwritten := validateStoredNotificationMetadataTimestamp_of_format clock.utc
    (formatOffsetDatetime_eq_ok_iff.mp hpersisted)
  refine bind_eq_ok_iff.mpr ⟨(), require_of ⟨hid, le_rfl⟩ _, ?_⟩
  refine bind_eq_ok_iff.mpr ⟨key, replaceError_eq_ok_iff.mpr (IdempotencyKey.new_text key), ?_⟩
  refine bind_eq_ok_iff.mpr ⟨(), require_of hproposal _, ?_⟩
  refine bind_eq_ok_iff.mpr ⟨(), require_of hmapping _, ?_⟩
  refine bind_eq_ok_iff.mpr ⟨_, parseNotificationKind_eq_ok_iff.mpr rfl, ?_⟩
  refine bind_eq_ok_iff.mpr ⟨(), require_of hkind _, ?_⟩
  refine bind_eq_ok_iff.mpr ⟨_, replaceError_eq_ok_iff.mpr hrecipient, ?_⟩
  refine bind_eq_ok_iff.mpr ⟨_, okOr_some _ _, ?_⟩
  refine bind_eq_ok_iff.mpr ⟨_, okOr_eq_ok_iff.mpr (hjson r.templateData), ?_⟩
  refine bind_eq_ok_iff.mpr ⟨_, replaceError_eq_ok_iff.mpr (NotificationTemplateData.new_fields r.templateData), ?_⟩
  refine bind_eq_ok_iff.mpr ⟨.pending, parseNotificationStatus_eq_ok_iff.mpr rfl, ?_⟩
  refine bind_eq_ok_iff.mpr ⟨_, havailable, ?_⟩
  refine bind_eq_ok_iff.mpr ⟨none, rfl, bind_eq_ok_iff.mpr ⟨none, rfl, bind_eq_ok_iff.mpr ⟨none, rfl, ?_⟩⟩⟩
  refine bind_eq_ok_iff.mpr ⟨(), require_of ⟨rfl, rfl⟩ _, ?_⟩
  exact bind_eq_ok_iff.mpr ⟨_, hwritten, bind_eq_ok_iff.mpr ⟨_, hwritten, rfl⟩⟩

/-! ### Audit events -/

/-- **The row of an audit event can be read.** -/
theorem decodeAuditEventRow_row {a : AuditEntry} {t : OffsetDateTime} {text : String}
    (hkey : isMachineIdentifier a.idempotencyKey = true) (hentity : isMachineIdentifier a.entityId = true)
    (hutc : t.offsetSeconds = 0) (hnanos : t.nanosecond = 0) (htext : t.format = some text) (clock : SystemTime) {id : ℤ}
    (hid : 0 < id) :
    decodeAuditEventRow (a.row text clock id) =
      .ok ⟨id, a.idempotencyKey, a.eventType, a.entityType, a.entityId, t, strftimeNow clock⟩ := by
  have hvalid : ∀ {value field : String}, isMachineIdentifier value = true →
      replaceError (validateMachineIdentifier value field) (storedRecordInvalid "audit event") = .ok value :=
    fun h => replaceError_eq_ok_iff.mpr (validateMachineIdentifier_eq_ok_iff.mpr ⟨h, rfl⟩)
  have hcreated := parseAuditTimestamp_of_format "audit event" rfl (OffsetDateTime.wholeSecond_nanosecond _)
    (strftimeNow_format clock)
  refine bind_eq_ok_iff.mpr ⟨(), require_of ⟨hid, rfl⟩ _, ?_⟩
  refine bind_eq_ok_iff.mpr ⟨_, hvalid hkey, ?_⟩
  refine bind_eq_ok_iff.mpr ⟨_, replaceError_eq_ok_iff.mpr (AuditEventType.fromStorage_eq_ok_iff.mpr rfl), ?_⟩
  refine bind_eq_ok_iff.mpr ⟨_, replaceError_eq_ok_iff.mpr (AuditEntityType.fromStorage_eq_ok_iff.mpr rfl), ?_⟩
  refine bind_eq_ok_iff.mpr ⟨_, hvalid hentity, ?_⟩
  refine bind_eq_ok_iff.mpr ⟨_, parseAuditTimestamp_of_format "audit event" hutc hnanos htext, ?_⟩
  exact bind_eq_ok_iff.mpr ⟨_, hcreated, bind_eq_ok_iff.mpr ⟨_, okOr_eq_ok_iff.mpr (strftimeNow_format clock), rfl⟩⟩

/-! ### A JSON library that round-trips -/

instance encodableChar : Encodable Char := .ofLeftInjection Char.toNat (fun n => some (Char.ofNat n)) fun c => by simp

instance encodableString : Encodable String := .ofLeftInverse String.toList String.ofList fun _ => String.ofList_toList

deriving instance Encodable for OffsetDateTime, AppointmentKind, ProposalState, TemplateFields

/-- A JSON library that writes a text for one value, and longer texts for all others. -/
def TemplateJson.writing (f : TemplateFields) (text : String) : TemplateJson where
  encode g := if g = f then text else text ++ String.ofList (List.replicate (Encodable.encode g + 1) ' ')
  decode s := if s = text then some f else Encodable.decode (s.length - text.length - 1)

theorem TemplateJson.writing_roundTrips (f : TemplateFields) (text : String) : (writing f text).RoundTrips := by
  intro d
  by_cases hf : d.fields = f
  · simp [writing, hf]
  · have hlength : (text ++ String.ofList (List.replicate (Encodable.encode d.fields + 1) ' ')).length
        = text.length + (Encodable.encode d.fields + 1) := by simp
    have hne : text ++ String.ofList (List.replicate (Encodable.encode d.fields + 1) ' ') ≠ text := by
      intro h
      rw [h] at hlength
      omega
    have hnumber : text.length + (Encodable.encode d.fields + 1) - text.length - 1 = Encodable.encode d.fields := by omega
    simp only [writing, if_neg hf, if_neg hne, hlength, hnumber, Encodable.encodek]

end AgentVoice.Store

import AgentVoice.Store.EventMappings

/-!
# Notification rows

The values of a notification and how a row of the outbox is read: `decode_notification_row` and
`validate_stored_notification_references`. The payload is JSON that a serialisation library writes and
reads; `TemplateJson` stands for it, and the structured values are validated again after reading.
-/

namespace AgentVoice.Store

open AgentVoice.Foundations AgentVoice.Domain

/-- `NotificationKind`. -/
inductive NotificationKind where
  | callSummary | proposalRequested | proposalAccepted | proposalDeclined | proposalExpired
  deriving DecidableEq, Repr

namespace NotificationKind

/-- `storage_name`. -/
def storageName : NotificationKind → String
  | .callSummary => "call_summary"
  | .proposalRequested => "proposal_requested"
  | .proposalAccepted => "proposal_accepted"
  | .proposalDeclined => "proposal_declined"
  | .proposalExpired => "proposal_expired"

/-- `requires_proposal`. -/
def requiresProposal (k : NotificationKind) : Bool := k != .callSummary

end NotificationKind

/-- `parse_notification_kind`. -/
def parseNotificationKind (value : String) : StoreResult NotificationKind :=
  if value = "call_summary" then .ok .callSummary
  else if value = "proposal_requested" then .ok .proposalRequested
  else if value = "proposal_accepted" then .ok .proposalAccepted
  else if value = "proposal_declined" then .ok .proposalDeclined
  else if value = "proposal_expired" then .ok .proposalExpired
  else .error (storedRecordInvalid "notification")

theorem parseNotificationKind_eq_ok_iff {value : String} {k : NotificationKind} :
    parseNotificationKind value = .ok k ↔ value = k.storageName := by
  unfold parseNotificationKind
  cases k <;> simp only [NotificationKind.storageName] <;> split_ifs <;> simp_all

/-- `NotificationStatus`. -/
inductive NotificationStatus where
  | pending | delivering | sent
  deriving DecidableEq, Repr

/-- `as_str`. -/
def NotificationStatus.asStr : NotificationStatus → String
  | .pending => "pending"
  | .delivering => "delivering"
  | .sent => "sent"

/-- `parse_notification_status`. -/
def parseNotificationStatus (value : String) : StoreResult NotificationStatus :=
  if value = "pending" then .ok .pending
  else if value = "delivering" then .ok .delivering
  else if value = "sent" then .ok .sent
  else .error (storedRecordInvalid "notification")

theorem parseNotificationStatus_eq_ok_iff {value : String} {s : NotificationStatus} :
    parseNotificationStatus value = .ok s ↔ value = s.asStr := by
  unfold parseNotificationStatus
  cases s <;> simp only [NotificationStatus.asStr] <;> split_ifs <;> simp_all

theorem NotificationStatus.asStr_inj {s t : NotificationStatus} (h : s.asStr = t.asStr) : s = t := by
  cases s <;> cases t <;> first | rfl | exact absurd h (by decide)

/-- `NotificationRecipient`: a confirmed e-mail address. -/
abbrev NotificationRecipient := ConfirmedEmail

/-- `NotificationRecipient::new`. -/
def NotificationRecipient.new (value : String) : StoreResult NotificationRecipient :=
  replaceError (ConfirmedEmail.confirm value) (.invalidInput "recipient")

/-! ### Template data -/

/-- The fields of `NotificationTemplateData`, as its JSON carries them. -/
@[ext]
structure TemplateFields where
  title : Option String
  startsAt : Option OffsetDateTime
  endsAt : Option OffsetDateTime
  timezone : Option String
  appointmentKind : Option AppointmentKind
  proposalState : Option ProposalState
  deriving DecidableEq, Repr

namespace TemplateFields

/-- The checks of `NotificationTemplateData::new`. -/
def check (f : TemplateFields) : StoreResult Unit := do
  require (∀ v ∈ f.title, ¬ IsBlank v) (.invalidInput "title")
  require (∀ v ∈ f.timezone, ¬ IsBlank v) (.invalidInput "timezone")
  require (f.startsAt.isSome = f.endsAt.isSome) (.invalidInput "template_times")
  require (∀ t ∈ f.startsAt, t.offsetSeconds = 0) (.invalidInput "starts_at")
  require (∀ t ∈ f.endsAt, t.offsetSeconds = 0) (.invalidInput "ends_at")
  require (∀ s ∈ f.startsAt, ∀ e ∈ f.endsAt, s.unixNanos < e.unixNanos) (.invalidInput "template_times")

/-- The fields that `NotificationTemplateData::new` keeps. -/
def trimmed (f : TemplateFields) : TemplateFields :=
  { f with title := f.title.map trim, timezone := f.timezone.map trim }

end TemplateFields

/-- `NotificationTemplateData`: validated fields with trimmed texts. -/
@[ext]
structure NotificationTemplateData where
  fields : TemplateFields
  checked : fields.check = .ok ()
  trimmed : fields.trimmed = fields
  deriving DecidableEq

namespace NotificationTemplateData

theorem check_trimmed {f : TemplateFields} (h : f.check = .ok ()) : f.trimmed.check = .ok () := by
  simp only [TemplateFields.check, bind_eq_ok_iff, require_eq_ok_iff] at h ⊢
  obtain ⟨_, htitle, _, htimezone, hrest⟩ := h
  refine ⟨(), fun v hv => ?_, (), fun v hv => ?_, hrest⟩
  · obtain ⟨w, hw, rfl⟩ := Option.mem_map.mp hv
    exact fun hb => htitle w hw ((isBlank_trim w).mp hb)
  · obtain ⟨w, hw, rfl⟩ := Option.mem_map.mp hv
    exact fun hb => htimezone w hw ((isBlank_trim w).mp hb)

theorem trimmed_trimmed (f : TemplateFields) : f.trimmed.trimmed = f.trimmed := by
  have htrim : trim ∘ trim = trim := funext trim_trim
  simp [TemplateFields.trimmed, htrim]

/-- `NotificationTemplateData::new`. -/
def new (f : TemplateFields) : StoreResult NotificationTemplateData :=
  match h : f.check with
  | .ok () => .ok ⟨f.trimmed, check_trimmed h, trimmed_trimmed f⟩
  | .error e => .error e

/-- The data that accepted fields become. -/
def ofFields (f : TemplateFields) (h : f.check = .ok ()) : NotificationTemplateData :=
  ⟨f.trimmed, check_trimmed h, trimmed_trimmed f⟩

theorem new_of_check {f : TemplateFields} (h : f.check = .ok ()) : new f = .ok (ofFields f h) := by
  unfold new
  split
  · rfl
  · rename_i e herror
    rw [h] at herror
    cases herror

/-- Validated data is accepted as it is. -/
@[simp] theorem new_fields (d : NotificationTemplateData) : new d.fields = .ok d := by
  rw [new_of_check d.checked]
  exact congrArg Except.ok (NotificationTemplateData.ext d.trimmed)

end NotificationTemplateData

/-- The JSON library, on template data: what it writes, and the fields it reads from a text. -/
structure TemplateJson where
  encode : TemplateFields → String
  decode : String → Option TemplateFields

/-- What is written is read back. -/
def TemplateJson.RoundTrips (json : TemplateJson) : Prop :=
  ∀ d : NotificationTemplateData, json.decode (json.encode d.fields) = some d.fields

/-! ### Rows -/

/-- `validate_notification_error_code`. -/
def validateNotificationErrorCode (value : String) : StoreResult String :=
  if value ≠ "" ∧ byteLength value ≤ 64 ∧
      value.toList.all (fun c => isAsciiAlphanumeric c || c == '_' || c == '-') = true then .ok value
  else .error (.invalidInput "error_code")

theorem validateNotificationErrorCode_eq {value code : String} (h : validateNotificationErrorCode value = .ok code) :
    code = value := by
  unfold validateNotificationErrorCode at h
  split at h
  · exact (Except.ok.inj h).symm
  · cases h

/-- `StoredNotification`. -/
structure StoredNotification where
  id : ℤ
  idempotencyKey : String
  proposalId : Option ℤ
  eventMappingId : Option ℤ
  kind : NotificationKind
  recipient : NotificationRecipient
  templateData : NotificationTemplateData
  status : NotificationStatus
  availableAt : OffsetDateTime
  leaseUntil : Option OffsetDateTime
  sentAt : Option OffsetDateTime
  lastErrorCode : Option String
  attempts : ℤ
  createdAt : String
  updatedAt : String
  deriving DecidableEq

/-- `parse_stored_notification_timestamp`. -/
def parseStoredNotificationTimestamp (value : String) : StoreResult OffsetDateTime :=
  parseCanonical "notification" value

/-- `validate_stored_notification_metadata_timestamp`. -/
def validateStoredNotificationMetadataTimestamp (value : String) : StoreResult String := do
  let parsed ← parseStoredNotificationTimestamp value
  replaceError (formatOffsetDatetime parsed) (storedRecordInvalid "notification")

/-- The status of a row agrees with its attempt, lease, completion and error. -/
def StatusColumnsAgree (status : NotificationStatus) (attempts : ℤ) (leaseUntil sentAt : Option OffsetDateTime)
    (lastErrorCode : Option String) : Prop :=
  match status with
  | .pending => leaseUntil = none ∧ sentAt = none
  | .delivering => 0 < attempts ∧ leaseUntil.isSome = true ∧ sentAt = none ∧ lastErrorCode = none
  | .sent => 0 < attempts ∧ leaseUntil = none ∧ sentAt.isSome = true ∧ lastErrorCode = none

instance (status : NotificationStatus) (attempts : ℤ) (leaseUntil sentAt : Option OffsetDateTime)
    (lastErrorCode : Option String) : Decidable (StatusColumnsAgree status attempts leaseUntil sentAt lastErrorCode) := by
  unfold StatusColumnsAgree
  cases status <;> infer_instance

/-- `decode_notification_row`. -/
def decodeNotificationRow (json : TemplateJson) (row : NotificationStoredRow) : StoreResult StoredNotification := do
  require (0 < row.id ∧ 0 ≤ row.attempts) (storedRecordInvalid "notification")
  let idempotencyKey ← replaceError (IdempotencyKey.new row.idempotencyKey) (storedRecordInvalid "notification")
  require (∀ id ∈ row.proposalId, 0 < id) (storedRecordInvalid "notification")
  require (∀ id ∈ row.eventMappingId, 0 < id) (storedRecordInvalid "notification")
  let kind ← parseNotificationKind row.notificationKind
  require (kind.requiresProposal = row.proposalId.isSome ∧
    (kind.requiresProposal = false → row.eventMappingId = none)) (storedRecordInvalid "notification")
  let recipient ← replaceError (NotificationRecipient.new row.recipient) (storedRecordInvalid "notification")
  let payload ← okOr row.payload (storedRecordInvalid "notification")
  let fields ← okOr (json.decode payload) (storedRecordInvalid "notification")
  let templateData ← replaceError (NotificationTemplateData.new fields) (storedRecordInvalid "notification")
  let status ← parseNotificationStatus row.status
  let availableAt ← parseStoredNotificationTimestamp row.availableAt
  let leaseUntil ← transpose parseStoredNotificationTimestamp row.leaseUntil
  let sentAt ← transpose parseStoredNotificationTimestamp row.sentAt
  let lastErrorCode ←
    replaceError (transpose validateNotificationErrorCode row.lastErrorCode) (storedRecordInvalid "notification")
  require (StatusColumnsAgree status row.attempts leaseUntil sentAt lastErrorCode) (storedRecordInvalid "notification")
  let createdAt ← validateStoredNotificationMetadataTimestamp row.createdAt
  let updatedAt ← validateStoredNotificationMetadataTimestamp row.updatedAt
  return ⟨row.id, idempotencyKey.text, row.proposalId, row.eventMappingId, kind, recipient, templateData, status,
    availableAt, leaseUntil, sentAt, lastErrorCode, row.attempts, createdAt, updatedAt⟩

/-- `validate_stored_notification_references`, on the tables of proposals and mappings. -/
def validateStoredNotificationReferences (db : Database) (n : StoredNotification) : StoreResult Unit := do
  require (∀ id ∈ n.proposalId, (Table.byRowid id db.proposals).isSome = true) (storedRecordInvalid "notification")
  match n.eventMappingId with
  | none => return ()
  | some id =>
    let mapping ← okOr (Table.byRowid id db.eventMappings) (storedRecordInvalid "notification")
    require (some mapping.proposalId = n.proposalId) (storedRecordInvalid "notification")

/-- What a row that decodes holds. -/
structure NotificationStoredRow.Holds (json : TemplateJson) (row : NotificationStoredRow) (n : StoredNotification) :
    Prop where
  id : n.id = row.id
  id_pos : 0 < row.id
  attempts : n.attempts = row.attempts
  attempts_nonneg : 0 ≤ row.attempts
  idempotencyKey : n.idempotencyKey = trim row.idempotencyKey
  proposalId : n.proposalId = row.proposalId
  eventMappingId : n.eventMappingId = row.eventMappingId
  kind : row.notificationKind = n.kind.storageName
  recipient : n.recipient.value = row.recipient
  payload : ∃ payload fields, row.payload = some payload ∧ json.decode payload = some fields ∧
    NotificationTemplateData.new fields = .ok n.templateData
  status : row.status = n.status.asStr
  availableAt : n.availableAt.offsetSeconds = 0 ∧ n.availableAt.format = some row.availableAt
  leaseUntil : transpose parseStoredNotificationTimestamp row.leaseUntil = .ok n.leaseUntil
  columns : StatusColumnsAgree n.status row.attempts n.leaseUntil n.sentAt n.lastErrorCode
  sentAt : transpose parseStoredNotificationTimestamp row.sentAt = .ok n.sentAt
  lastErrorCode : transpose validateNotificationErrorCode row.lastErrorCode = .ok n.lastErrorCode

theorem decodeNotificationRow_eq_ok {json : TemplateJson} {row : NotificationStoredRow} {n : StoredNotification}
    (h : decodeNotificationRow json row = .ok n) : row.Holds json n := by
  obtain ⟨_, hids, h⟩ := bind_eq_ok_iff.mp h
  obtain ⟨key, hkey, h⟩ := bind_eq_ok_iff.mp h
  obtain ⟨_, -, h⟩ := bind_eq_ok_iff.mp h
  obtain ⟨_, -, h⟩ := bind_eq_ok_iff.mp h
  obtain ⟨kind, hkind, h⟩ := bind_eq_ok_iff.mp h
  obtain ⟨_, -, h⟩ := bind_eq_ok_iff.mp h
  obtain ⟨recipient, hrecipient, h⟩ := bind_eq_ok_iff.mp h
  obtain ⟨payload, hpayload, h⟩ := bind_eq_ok_iff.mp h
  obtain ⟨fields, hfields, h⟩ := bind_eq_ok_iff.mp h
  obtain ⟨templateData, htemplate, h⟩ := bind_eq_ok_iff.mp h
  obtain ⟨status, hstatus, h⟩ := bind_eq_ok_iff.mp h
  obtain ⟨availableAt, havailable, h⟩ := bind_eq_ok_iff.mp h
  obtain ⟨leaseUntil, hlease, h⟩ := bind_eq_ok_iff.mp h
  obtain ⟨sentAt, hsent, h⟩ := bind_eq_ok_iff.mp h
  obtain ⟨lastErrorCode, herror, h⟩ := bind_eq_ok_iff.mp h
  obtain ⟨_, hcolumns, h⟩ := bind_eq_ok_iff.mp h
  obtain ⟨createdAt, -, h⟩ := bind_eq_ok_iff.mp h
  obtain ⟨updatedAt, -, h⟩ := bind_eq_ok_iff.mp h
  obtain rfl := Except.ok.inj h
  rw [require_eq_ok_iff] at hids hcolumns
  rw [replaceError_eq_ok_iff, IdempotencyKey.new_eq_ok_iff] at hkey
  rw [replaceError_eq_ok_iff, NotificationRecipient.new, replaceError_eq_ok_iff,
    ConfirmedEmail.confirm_eq_ok_iff] at hrecipient
  rw [okOr_eq_ok_iff] at hpayload hfields
  rw [replaceError_eq_ok_iff] at htemplate herror
  exact
    { id := rfl
      id_pos := hids.1
      attempts := rfl
      attempts_nonneg := hids.2
      idempotencyKey := hkey.2
      proposalId := rfl
      eventMappingId := rfl
      kind := parseNotificationKind_eq_ok_iff.mp hkind
      recipient := hrecipient
      payload := ⟨payload, fields, hpayload, hfields, htemplate⟩
      status := parseNotificationStatus_eq_ok_iff.mp hstatus
      availableAt := parseCanonical_eq_ok_iff.mp havailable
      leaseUntil := hlease
      columns := hcolumns
      sentAt := hsent
      lastErrorCode := herror }

/-- The references of a decoded row hold. -/
theorem validateStoredNotificationReferences_eq_ok_iff {db : Database} {n : StoredNotification} {u : Unit} :
    validateStoredNotificationReferences db n = .ok u ↔
      (∀ id ∈ n.proposalId, (Table.byRowid id db.proposals).isSome = true) ∧
        ∀ id ∈ n.eventMappingId, ∃ m, Table.byRowid id db.eventMappings = some m ∧ some m.proposalId = n.proposalId := by
  unfold validateStoredNotificationReferences
  cases hmapping : n.eventMappingId with
  | none => simp [bind_eq_ok_iff]
  | some id => simp [bind_eq_ok_iff]

end AgentVoice.Store

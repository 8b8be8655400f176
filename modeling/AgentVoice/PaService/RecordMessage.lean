import AgentVoice.PaService.Service
import AgentVoice.Store.InsertLaws

/-!
# Recording a message

`PaService::record_message` stores a message, enqueues its notification and appends two audit events, each under a key
derived from the source.
-/

namespace AgentVoice.PaService

open AgentVoice.Foundations AgentVoice.Domain AgentVoice.Providers AgentVoice.Store

/-! ### Derived identities -/

/-- The source that is stored. -/
def storedSourceId (sourceId : String) : String := "voice:" ++ sourceId

def messageKey (sourceId : String) : String := "pa-voice-message-recorded-" ++ sourceId

def providerMessageId (sourceId : String) : String := "pa-voice-provider-message-" ++ sourceId

def notificationKey (sourceId : String) : String := "pa-voice-call-summary-notification-" ++ sourceId

def messageAuditKey (sourceId : String) : String := "pa-voice-message-recorded-audit-" ++ sourceId

def notificationAuditKey (sourceId : String) : String := "pa-voice-notification-enqueued-audit-" ++ sourceId

/-- `RecordedMessage`. -/
structure RecordedMessage where
  messageId : ℤ
  notificationId : ℤ
  deriving DecidableEq

/-- `i64::to_string`. -/
def idText (id : ℤ) : String := toString id

/-- What a call records. -/
structure MessageArguments where
  summary : MessageSummary
  sourceId : String
  receivedAt : OffsetDateTime

namespace MessageArguments

variable (a : MessageArguments)

/-- The message of a call. -/
def message : MessageRequest where
  idempotencyKey := messageKey a.sourceId
  sourceId := storedSourceId a.sourceId
  provider := .voice
  providerMessageId := providerMessageId a.sourceId
  summary := a.summary
  subject := none
  sender := none
  receivedAt := canonicalizeUtcSecond a.receivedAt

/-- The notification of a call. -/
def notification (recipient : NotificationRecipient) (template : NotificationTemplateData) : EnqueueRequest where
  idempotencyKey := notificationKey a.sourceId
  proposalId := none
  eventMappingId := none
  kind := .callSummary
  recipient
  templateData := template
  availableAt := canonicalizeUtcSecond a.receivedAt

/-- The audit event of the message. -/
def messageAudit (messageId : ℤ) : AuditEntry :=
  ⟨messageAuditKey a.sourceId, .messageRecorded, .message, idText messageId⟩

/-- The audit event of the notification. -/
def notificationAudit (notificationId : ℤ) : AuditEntry :=
  ⟨notificationAuditKey a.sourceId, .notificationEnqueued, .notification, idText notificationId⟩

end MessageArguments

variable {θ ρ : Type}

/-- The checks before the first write. -/
def validateIdentities (sourceId : String) : StoreResult Unit := do
  let _ ← validateMachineIdentifier sourceId "source_id"
  let _ ← validateMachineIdentifier (storedSourceId sourceId) "source_id"
  let _ ← validateMachineIdentifier (messageKey sourceId) "idempotency_key"
  let _ ← validateMachineIdentifier (providerMessageId sourceId) "provider_message_id"
  let _ ← validateMachineIdentifier (notificationKey sourceId) "idempotency_key"
  let _ ← validateMachineIdentifier (messageAuditKey sourceId) "idempotency_key"
  let _ ← validateMachineIdentifier (notificationAuditKey sourceId) "idempotency_key"

/-- `PaService::record_message`. -/
def recordMessage (json : TemplateJson) (owner : Option MailAddress) (a : MessageArguments) :
    Operation θ ρ RecordedMessage := do
  let owner ← Saga.ofResult (okOr owner .ownerNotConfigured)
  Saga.ofResult ((validateIdentities a.sourceId).mapError .store)
  let message ← Saga.store .store fun clock => Store.recordMessage a.message clock
  let recipient ← Saga.ofResult ((NotificationRecipient.new owner.value).mapError .store)
  let template ← Saga.ofResult ((NotificationTemplateData.new ⟨some a.summary.text, none, none, none, none, none⟩).mapError .store)
  let notification ← Saga.store .store fun clock => enqueueNotification json (a.notification recipient template) clock
  let _ ← Saga.store .store fun clock =>
    appendAuditEvent (a.messageAudit message.id) (canonicalizeUtcSecond a.receivedAt) clock
  let _ ← Saga.store .store fun clock =>
    appendAuditEvent (a.notificationAudit notification.id) (canonicalizeUtcSecond a.receivedAt) clock
  return ⟨message.id, notification.id⟩

end AgentVoice.PaService

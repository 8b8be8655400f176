import AgentVoice.Foundations.Machine
import AgentVoice.Store.Audit
import AgentVoice.Store.EventMappings
import AgentVoice.Store.NotificationEffects
import AgentVoice.Store.OwnerTaskEffects
import AgentVoice.Store.QuoteEffects

/-!
# The store as a state machine

Every call of the store that writes to the tables, as a command. A command runs in a transaction: it takes the
tables to the state its transaction left, or leaves them when the call fails. Workers and clocks do not appear:
a run is any sequence of calls, each with arguments and times of its own.
-/

namespace AgentVoice.Store

open AgentVoice.Foundations AgentVoice.Domain

/-- The libraries the store calls: the parser of time zone names and the JSON codec. -/
structure Environment where
  timezones : Timezones
  json : TemplateJson

/-- A call of the store. -/
inductive Command where
  | saveAppointmentDraft (sourceId : String) (draft : AppointmentDraft)
  | deleteAppointmentDraftById (id : ℤ)
  | saveAppointmentQuote (quote : Quote) (kind : AppointmentKind) (timezone : String) (slots : List AppointmentSlot)
  | prepareAppointmentDraftFromQuote (quoteId : QuoteId) (slotIndex : ℕ) (sourceId : String) (draft : AppointmentDraft)
      (now : OffsetDateTime)
  | submitAppointmentQuote (quoteId : QuoteId) (appointmentDraftId : ℤ) (key sourceId : String) (now : OffsetDateTime)
      (clock : SystemTime)
  | saveOwnerTaskDraft (sourceId : Option String) (draft : OwnerTaskDraft)
  | deleteOwnerTaskDraftById (id : ℤ)
  | saveOwnerTaskPlacement (ownerTaskDraftId : ℤ) (request : PlacementRequest)
  | savePreparedOwnerTask (sourceId : Option String) (draft : OwnerTaskDraft) (request : PlacementRequest)
  | submitOwnerTaskPlacement (ownerTaskDraftId : ℤ) (providerEventId : String)
  | createProposal (key sourceId : String) (source : ProposalSource) (clock : SystemTime)
  | transitionProposal (id : ℤ) (nextState : ProposalState) (clock : SystemTime)
  | deleteProposalById (id : ℤ)
  | attachEventMapping (proposalId : ℤ) (provider providerEventId sourceId : String)
      (startsAt endsAt : Option OffsetDateTime) (clock : SystemTime)
  | deleteEventMappingById (id : ℤ)
  | enqueueNotification (request : EnqueueRequest) (clock : SystemTime)
  | claimNotifications (now : OffsetDateTime) (limit : ℕ) (leaseDuration : ℤ) (clock : SystemTime)
  | markNotificationSent (id expectedAttempt : ℤ) (sentAt : OffsetDateTime) (clock : SystemTime)
  | rescheduleNotification (id expectedAttempt : ℤ) (availableAt : OffsetDateTime) (errorCode : String)
      (clock : SystemTime)
  | deleteNotificationById (id : ℤ)
  | recordMessage (request : MessageRequest) (clock : SystemTime)
  | transitionMessage (sourceId : String) (expectedState nextState : MessageTriageState) (updatedAt : OffsetDateTime)
  | recordTask (request : TaskRequest) (clock : SystemTime)
  | transitionTask (sourceId : String) (expectedState nextState : StoredTaskState) (updatedAt : OffsetDateTime)
  | appendAuditEvent (entry : AuditEntry) (occurredAt : OffsetDateTime) (clock : SystemTime)

namespace Command

/-- The transaction of a call, without its result. -/
def transaction (env : Environment) : Command → Tx StoreError Database Unit
  | saveAppointmentDraft sourceId draft => (Store.saveAppointmentDraft sourceId draft).discard
  | deleteAppointmentDraftById id => Store.deleteAppointmentDraftById id
  | saveAppointmentQuote quote kind timezone slots =>
    (Store.saveAppointmentQuote env.timezones quote kind timezone slots).discard
  | prepareAppointmentDraftFromQuote quoteId slotIndex sourceId draft now =>
    (Store.prepareAppointmentDraftFromQuote env.timezones quoteId slotIndex sourceId draft now).discard
  | submitAppointmentQuote quoteId appointmentDraftId key sourceId now clock =>
    (Store.submitAppointmentQuote env.timezones quoteId appointmentDraftId key sourceId now clock).discard
  | saveOwnerTaskDraft sourceId draft => (Store.saveOwnerTaskDraft sourceId draft).discard
  | deleteOwnerTaskDraftById id => Store.deleteOwnerTaskDraftById id
  | saveOwnerTaskPlacement ownerTaskDraftId request =>
    (Store.saveOwnerTaskPlacement env.timezones ownerTaskDraftId request).discard
  | savePreparedOwnerTask sourceId draft request =>
    (Store.savePreparedOwnerTask env.timezones sourceId draft request).discard
  | submitOwnerTaskPlacement ownerTaskDraftId providerEventId =>
    (Store.submitOwnerTaskPlacement env.timezones ownerTaskDraftId providerEventId).discard
  | createProposal key sourceId source clock => (Store.createProposal key sourceId source clock).discard
  | transitionProposal id nextState clock => (Store.transitionProposal id nextState clock).discard
  | deleteProposalById id => Store.deleteProposalById id
  | attachEventMapping proposalId provider providerEventId sourceId startsAt endsAt clock =>
    (Store.attachEventMapping proposalId provider providerEventId sourceId startsAt endsAt clock).discard
  | deleteEventMappingById id => Store.deleteEventMappingById id
  | enqueueNotification request clock => (Store.enqueueNotification env.json request clock).discard
  | claimNotifications now limit leaseDuration clock =>
    (Store.claimNotifications env.json now limit leaseDuration clock).discard
  | markNotificationSent id expectedAttempt sentAt clock =>
    (Store.markNotificationSent env.json id expectedAttempt sentAt clock).discard
  | rescheduleNotification id expectedAttempt availableAt errorCode clock =>
    (Store.rescheduleNotification env.json id expectedAttempt availableAt errorCode clock).discard
  | deleteNotificationById id => Store.deleteNotificationById id
  | recordMessage request clock => (Store.recordMessage request clock).discard
  | transitionMessage sourceId expectedState nextState updatedAt =>
    (Store.transitionMessage sourceId expectedState nextState updatedAt).discard
  | recordTask request clock => (Store.recordTask request clock).discard
  | transitionTask sourceId expectedState nextState updatedAt =>
    (Store.transitionTask sourceId expectedState nextState updatedAt).discard
  | appendAuditEvent entry occurredAt clock => (Store.appendAuditEvent entry occurredAt clock).discard

end Command

/-- The tables after a call. -/
def step (env : Environment) (c : Command) (db : Database) : Database := ((c.transaction env).commit db).2

/-- The tables after a run. -/
def run (env : Environment) (cs : List Command) (db : Database) : Database := Machine.run (step env) cs db

/-- The states of the store: those that a run from the freshly migrated store leads to. -/
def Reachable (env : Environment) (db : Database) : Prop := ∃ cs, run env cs Database.empty = db

theorem Reachable.run {env : Environment} {db : Database} (h : Reachable env db) (cs : List Command) :
    Reachable env (Store.run env cs db) := by
  obtain ⟨cs₀, rfl⟩ := h
  exact ⟨cs₀ ++ cs, Machine.run_append cs₀ cs Database.empty⟩

/-- **A call that returns an error leaves all tables unchanged.** -/
theorem step_of_error {env : Environment} {c : Command} {db : Database} {e : StoreError}
    (h : (c.transaction env).run db = .error e) : step env c db = db := by
  rw [step, Tx.commit_of_error h]

theorem step_of_ok {env : Environment} {c : Command} {db db' : Database} {u : Unit}
    (h : (c.transaction env).run db = .ok (u, db')) : step env c db = db' := by
  rw [step, Tx.commit_of_ok h]

/-- What a call that succeeds leads to can be reached. -/
theorem Reachable.call {env : Environment} {c : Command} {db db' : Database} {α : Type} {t : Tx StoreError Database α}
    {a : α} (h : Reachable env db) (hc : c.transaction env = t.discard) (hrun : t.run db = .ok (a, db')) :
    Reachable env db' := by
  have hstep : step env c db = db' := step_of_ok (u := ()) (by
    rw [hc]
    exact Tx.run_discard_eq_ok_iff.mpr ⟨a, hrun⟩)
  have hreached := h.run [c]
  rwa [Store.run, Machine.run, Machine.run, hstep] at hreached

end AgentVoice.Store

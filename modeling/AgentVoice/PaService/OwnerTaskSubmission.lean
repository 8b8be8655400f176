import AgentVoice.PaService.OwnerTaskAdmission
import AgentVoice.Store.Delivery

/-!
# Submitting owner tasks

What attempts of `submit_owner_task` do over time, with clocks, answers of the providers and failures of every kind:
an attempt asks for the creation of one event at most, after its lookup found none and both calendars were free
(`CreatesChecked`); a placement gets its event once; and all attempts that succeed return that event and leave one audit
event (`submitOwnerTask_converges`). The contract of one attempt (`submitOwnerTask_triple`) follows the steps of the
saga; the exchanges with the providers are recorded, the last first.
-/

namespace AgentVoice.PaService

open AgentVoice.Foundations AgentVoice.Domain AgentVoice.Providers AgentVoice.Availability AgentVoice.Store

variable {env : Environment} {db db' : Database}

/-! ### What surrounds an attempt -/

/-- A call of a provider and its answer. -/
abbrev Exchange := CalendarCall × CalendarAnswer

/-- Around an attempt other calls of the store are made, and a provider may answer anything; what was asked and answered
is recorded. -/
def calendarSurroundings (env : Environment) :
    Saga.Surroundings Command CalendarAnswer Database (List Exchange) CalendarCall CalendarAnswer where
  interfere := step env
  answer oracle call exchanges := (oracle, (call, oracle) :: exchanges)

/-- Only submissions log events of submitted tasks, under the keys that are derived for them. -/
def Command.KeysSubmissions : Command → Prop
  | .appendAuditEvent entry _ _ =>
    entry.eventType = .ownerTaskSubmitted → entry.idempotencyKey = "pa-owner-task-submitted-" ++ entry.entityId
  | _ => True

/-- The events of submitted tasks in the log have the keys that are derived for them. -/
def SubmissionsKeyed (db : Database) : Prop :=
  ∀ row ∈ db.auditEvents, row.eventType = AuditEventType.ownerTaskSubmitted.asStr →
    row.idempotencyKey = "pa-owner-task-submitted-" ++ row.entityId

theorem asStr_injective {e e' : AuditEventType} (h : e.asStr = e'.asStr) : e = e' :=
  Except.ok.inj ((AuditEventType.fromStorage_eq_ok_iff.mpr rfl).symm.trans (AuditEventType.fromStorage_eq_ok_iff.mpr h))

theorem SubmissionsKeyed.run (hc : Consistent env db) (h : SubmissionsKeyed db) {c : Command} {u : Unit}
    (hrun : (c.transaction env).run db = .ok (u, db')) (hkeys : Command.KeysSubmissions c) : SubmissionsKeyed db' := by
  rcases logs_of_run hc hrun with heq | ⟨entry, occurredAt, clock, text, rfl, heq⟩
  · rw [SubmissionsKeyed, heq]
    exact h
  · rw [SubmissionsKeyed, heq]
    intro row hrow htype
    rcases List.mem_append.mp hrow with hrow | hrow
    · exact h row hrow htype
    · obtain rfl := List.mem_singleton.mp hrow
      exact hkeys (asStr_injective htype)

/-! ### What an attempt leaves -/

/-- The placement of a task has an event. -/
def SubmittedAs (ownerTaskDraftId : ℤ) (providerEventId : String) (db : Database) : Prop :=
  ∃ row ∈ db.ownerTaskPlacements, row.ownerTaskDraftId = ownerTaskDraftId ∧ row.providerEventId = some providerEventId

/-- The event of a submission is logged. -/
def Audited (ownerTaskDraftId : ℤ) (db : Database) : Prop :=
  ∃ row ∈ db.auditEvents, row.idempotencyKey = ownerTaskSubmissionAuditKey ownerTaskDraftId ∧
    row.eventType = AuditEventType.ownerTaskSubmitted.asStr ∧ row.entityType = AuditEntityType.ownerTask.asStr ∧
    row.entityId = idText ownerTaskDraftId

/-- A draft is the event of the placement of a task. -/
def DraftsEvent (env : Environment) (ownerTaskDraftId : ℤ) (draft : OwnerEventDraft) (db : Database) : Prop :=
  ∃ p, (loadOwnerTaskPlacement env.timezones ownerTaskDraftId).run db = .ok (p, db) ∧
    draft.operationKey = p.operationKey ∧ draft.timezone = p.timezone ∧ draft.timeRange.start = p.startsAt.unixNanos ∧
    draft.timeRange.stop = p.endsAt.unixNanos

section Later

variable (hc : Consistent env db) (h : Changes env db db')

include hc h

theorem SubmittedAs.later {id : ℤ} {providerEventId : String} (hsubmitted : SubmittedAs id providerEventId db) :
    SubmittedAs id providerEventId db' := by
  obtain ⟨row, hrow, hid, hevent⟩ := hsubmitted
  exact ⟨row, h.submitted_placement hc hrow (by rw [hevent]; exact Option.some_ne_none _), hid, hevent⟩

theorem DraftsEvent.later {id : ℤ} {draft : OwnerEventDraft} (hdrafts : DraftsEvent env id draft db) :
    DraftsEvent env id draft db' := by
  obtain ⟨p, hload, hkey, htimezone, hstart, hstop⟩ := hdrafts
  obtain ⟨q, hbecomes, hload'⟩ := h.loadOwnerTaskPlacement hc hload
  obtain ⟨-, hstarts, hends, hzone, hoperation, -⟩ := hbecomes.content
  exact ⟨q, hload', hkey.trans hoperation.symm, htimezone.trans hzone.symm, by rw [hstarts, hstart], by rw [hends, hstop]⟩

end Later

/-- A task has one event. -/
theorem SubmittedAs.unique (hc : Consistent env db) {id : ℤ} {e e' : String} (h : SubmittedAs id e db)
    (h' : SubmittedAs id e' db) : e = e' := by
  obtain ⟨row, hrow, hid, hevent⟩ := h
  obtain ⟨row', hrow', hid', hevent'⟩ := h'
  obtain rfl := hc.placement_id.eq hrow hrow' (hid.trans hid'.symm)
  exact Option.some.inj (hevent.symm.trans hevent')

/-! ### What is asked of the providers -/

/-- A lookup found no event, and then both calendars were free. -/
structure Checked (draft : OwnerEventDraft) (before : List Exchange) : Prop where
  asked : ∃ found outlook google outlookBusy googleBusy,
    before = [(.listGoogleBusy draft.timeRange, google), (.listOutlookBusy draft.timeRange, outlook),
      (.findOwnerEvent draft, found)] ∧
    found.event = .error .notFound ∧ outlook.busy = .ok outlookBusy ∧ google.busy = .ok googleBusy ∧
    busyOverlaps outlookBusy draft.timeRange.start draft.timeRange.stop = false ∧
    busyOverlaps googleBusy draft.timeRange.start draft.timeRange.stop = false

/-- What an attempt may have asked so far. -/
inductive Exchanged (draft : OwnerEventDraft) : List Exchange → Prop
  | found (found : CalendarAnswer) : Exchanged draft [(.findOwnerEvent draft, found)]
  | outlook (found outlook : CalendarAnswer) :
      Exchanged draft [(.listOutlookBusy draft.timeRange, outlook), (.findOwnerEvent draft, found)]
  | google (found outlook google : CalendarAnswer) :
      Exchanged draft [(.listGoogleBusy draft.timeRange, google), (.listOutlookBusy draft.timeRange, outlook),
        (.findOwnerEvent draft, found)]
  | created (created : CalendarAnswer) {before : List Exchange} (checked : Checked draft before) :
      Exchanged draft ((.createOwnerEvent draft, created) :: before)
  | recovered (recovered created : CalendarAnswer) {before : List Exchange} (checked : Checked draft before) :
      Exchanged draft ((.findOwnerEvent draft, recovered) :: (.createOwnerEvent draft, created) :: before)

/-- Whether an exchange asks for the creation of an event. -/
def isCreation : Exchange → Bool
  | (.createOwnerEvent _, _) => true
  | _ => false

/-- An event is created once at most, and only after the checks. -/
structure CreatesChecked (exchanges : List Exchange) : Prop where
  once : exchanges.countP isCreation ≤ 1
  checked : ∀ draft answer before, (.createOwnerEvent draft, answer) :: before <:+ exchanges → Checked draft before

/-- Nothing is created where no exchange is a creation. -/
theorem CreatesChecked.of_none {exchanges : List Exchange} (h : exchanges.countP isCreation = 0) :
    CreatesChecked exchanges where
  once := h.trans_le (Nat.zero_le 1)
  checked draft answer before hsuffix := by
    have hmem : (CalendarCall.createOwnerEvent draft, answer) ∈ exchanges := hsuffix.subset List.mem_cons_self
    exact absurd rfl (List.countP_eq_zero.mp h _ hmem)

/-- A further exchange that creates nothing. -/
theorem CreatesChecked.cons {exchanges : List Exchange} (h : CreatesChecked exchanges) {x : Exchange}
    (hx : isCreation x = false) : CreatesChecked (x :: exchanges) where
  once := by
    rw [List.countP_cons_of_neg (by rw [hx]; exact Bool.false_ne_true)]
    exact h.once
  checked draft answer before hsuffix := by
    rcases List.suffix_cons_iff.mp hsuffix with heq | hsuffix
    · obtain ⟨rfl, -⟩ := List.cons.inj heq
      cases hx
    · exact h.checked draft answer before hsuffix

/-- A creation after the checks. -/
theorem Checked.created {draft : OwnerEventDraft} {before : List Exchange} (h : Checked draft before)
    (answer : CalendarAnswer) : CreatesChecked ((.createOwnerEvent draft, answer) :: before) := by
  have hnone : before.countP isCreation = 0 := by
    obtain ⟨_, _, _, _, _, rfl, -⟩ := h.asked
    rfl
  constructor
  · rw [List.countP_cons_of_pos rfl, hnone]
  · intro draft' answer' before' hsuffix
    rcases List.suffix_cons_iff.mp hsuffix with heq | hsuffix
    · obtain ⟨hhead, rfl⟩ := List.cons.inj heq
      obtain ⟨hcall, -⟩ := Prod.mk.inj hhead
      obtain rfl := CalendarCall.createOwnerEvent.inj hcall
      exact h
    · exact (CreatesChecked.of_none hnone).checked draft' answer' before' hsuffix

/-- What an attempt asks is checked. -/
theorem Exchanged.createsChecked {draft : OwnerEventDraft} {exchanges : List Exchange} (h : Exchanged draft exchanges) :
    CreatesChecked exchanges := by
  cases h with
  | found | outlook | google => exact .of_none rfl
  | created answer hchecked => exact hchecked.created answer
  | recovered answer answer' hchecked => exact (hchecked.created answer').cons rfl

/-- A creation that an attempt asks for is that of its draft. -/
theorem Exchanged.draft_of_creation {draft draft' : OwnerEventDraft} {exchanges : List Exchange}
    (h : Exchanged draft exchanges) {answer : CalendarAnswer} (hmem : (.createOwnerEvent draft', answer) ∈ exchanges) :
    draft' = draft := by
  cases h with
  | found | outlook | google => simp at hmem
  | created _ hchecked | recovered _ _ hchecked =>
    obtain ⟨_, _, _, _, _, rfl, -⟩ := hchecked.asked
    simp at hmem
    exact hmem.1

/-! ### The contract of an attempt -/

/-- The placement of a task has some event. -/
def HasEvent (ownerTaskDraftId : ℤ) (db : Database) : Prop := ∃ providerEventId, SubmittedAs ownerTaskDraftId providerEventId db

/-- What was asked since an attempt started: nothing, or something about the event of a task that had none. -/
def AskedFor (env : Environment) (ownerTaskDraftId : ℤ) (start db : Database) (exchanges : List Exchange) : Prop :=
  exchanges = [] ∨ ¬HasEvent ownerTaskDraftId start ∧
    ∃ draft, Exchanged draft exchanges ∧ DraftsEvent env ownerTaskDraftId draft db

/-- What holds of the tables throughout an attempt. -/
structure Submitting (env : Environment) (start db : Database) : Prop where
  started : Consistent env start
  reachable : Reachable env db
  keyed : SubmissionsKeyed db
  changes : Changes env start db

/-- Where an attempt may stop, or end. -/
structure Halfway (env : Environment) (ownerTaskDraftId : ℤ) (start : Database) (before : List Exchange) (db : Database)
    (world : List Exchange) : Prop where
  submitting : Submitting env start db
  asked : ∃ exchanges, world = exchanges ++ before ∧ AskedFor env ownerTaskDraftId start db exchanges

/-- What may happen around an attempt. -/
def submission (env : Environment) (ownerTaskDraftId : ℤ) (start : Database) (before : List Exchange) :
    Saga.Setting SystemTime StoreError Database CalendarCall CalendarAnswer Command CalendarAnswer (List Exchange) where
  surroundings := calendarSurroundings env
  allowed
    | .interfere c => Command.KeysSubmissions c
    | _ => True
  asks _ _ _ := True
  stops := Halfway env ownerTaskDraftId start before

section Contract

variable {id : ℤ} {start : Database} {before : List Exchange}

theorem Submitting.call (h : Submitting env start db) {c : Command} {α : Type} {t : Tx StoreError Database α} {r : α}
    (hc : c.transaction env = t.discard) (hkeys : Command.KeysSubmissions c) (hrun : t.run db = .ok (r, db')) :
    Submitting env start db' ∧ Changes env db db' := by
  have hrun' : (c.transaction env).run db = .ok ((), db') := by
    rw [hc]
    exact Tx.run_discard_eq_ok_iff.mpr ⟨r, hrun⟩
  have hchanges := Command.changes h.reachable.consistent hrun'
  exact ⟨⟨h.started, h.reachable.call hc hrun, h.keyed.run h.reachable.consistent hrun' hkeys, h.changes.trans hchanges⟩, hchanges⟩

theorem Submitting.interfere (h : Submitting env start db) {c : Command} (hkeys : Command.KeysSubmissions c) :
    Submitting env start (step env c db) ∧ Changes env db (step env c db) := by
  cases hrun : (c.transaction env).run db with
  | error e =>
    rw [step_of_error hrun]
    exact ⟨h, .refl⟩
  | ok r =>
    rw [step_of_ok (u := ()) hrun]
    have hchanges := Command.changes h.reachable.consistent hrun
    have hreachable := h.reachable.run [c]
    rw [Store.run, Machine.run, Machine.run, step_of_ok (u := ()) hrun] at hreachable
    exact ⟨⟨h.started, hreachable, h.keyed.run h.reachable.consistent hrun hkeys, h.changes.trans hchanges⟩, hchanges⟩

theorem Halfway.later {world : List Exchange} (h : Halfway env id start before db world)
    (hsubmitting : Submitting env start db') (hchanges : Changes env db db') : Halfway env id start before db' world := by
  obtain ⟨hsubmitting₀, exchanges, hworld, hasked⟩ := h
  refine ⟨hsubmitting, exchanges, hworld, hasked.imp_right ?_⟩
  rintro ⟨hnone, draft, hexchanged, hdrafts⟩
  exact ⟨hnone, draft, hexchanged, hdrafts.later hsubmitting₀.reachable.consistent hchanges⟩

/-- What stays under changes of the tables is stable. -/
theorem stable_of_later {P : Database → List Exchange → Prop}
    (hhalfway : ∀ db world, P db world → Halfway env id start before db world)
    (hlater : ∀ db db' world, Consistent env db → Submitting env start db' → Changes env db db' → P db world → P db' world) :
    Saga.Stable (submission env id start before) P where
  interfere := by
    intro c db world hkeys hP
    have hsubmitting := (hhalfway db world hP).submitting
    obtain ⟨hnext, hchanges⟩ := hsubmitting.interfere hkeys
    exact hlater _ _ world hsubmitting.reachable.consistent hnext hchanges hP
  stops := hhalfway

theorem stable_submitted (e : String) :
    Saga.Stable (submission env id start before) fun db world =>
      Halfway env id start before db world ∧ SubmittedAs id e db :=
  stable_of_later (fun _ _ h => h.1) fun _ _ _ hc hsubmitting hchanges h =>
    ⟨h.1.later hsubmitting hchanges, h.2.later hc hchanges⟩

theorem stable_halfway : Saga.Stable (submission env id start before) (Halfway env id start before) :=
  stable_of_later (fun _ _ h => h) fun _ _ _ _ hsubmitting hchanges h => h.later hsubmitting hchanges

/-- What an attempt promises of its result. -/
def Ends (env : Environment) (id : ℤ) (start : Database) (before : List Exchange) (r : ServiceResult SubmittedOwnerTask)
    (db : Database) (world : List Exchange) : Prop :=
  Halfway env id start before db world ∧
    ∀ s, r = .ok s → s.ownerTaskDraftId = id ∧ SubmittedAs id s.providerEventId db ∧ Audited id db

/-! #### The audit event -/

theorem Audited.of_row {row : AuditEventStoredRow} (hrow : row ∈ db.auditEvents)
    (hkey : row.idempotencyKey = ownerTaskSubmissionAuditKey id) {e : StoredAuditEvent}
    (hdecode : decodeAuditEventRow row = .ok e) (hcontent : (submissionAudit id).IsContentOf e) : Audited id db := by
  obtain ⟨-, -, htype, hentity, hid⟩ := decodeAuditEventRow_eq_ok hdecode
  obtain ⟨htype', hentity', hid'⟩ := hcontent
  exact ⟨row, hrow, hkey, htype.trans (congrArg _ htype'), hentity.trans (congrArg _ hentity'), hid.symm.trans hid'⟩

/-- What is promised of the step that logs a submission. -/
def Logs (env : Environment) (id : ℤ) (start : Database) (before : List Exchange) (e : String) (r : ServiceResult Unit)
    (db : Database) (world : List Exchange) : Prop :=
  (Halfway env id start before db world ∧ SubmittedAs id e db) ∧ (r = .ok () → Audited id db)

/-- The event that is there is compared with the submission. -/
theorem compare_triple (e : String) (audit : StoredAuditEvent) :
    Saga.Triple (submission env id start before)
      (fun db world => (Halfway env id start before db world ∧ SubmittedAs id e db) ∧
        ((submissionAudit id).IsContentOf audit → Audited id db))
      (Saga.ensure ((submissionAudit id).IsContentOf audit) (ServiceError.store (.conflict "owner task audit")))
      (Logs env id start before e) :=
  Saga.Triple.done fun _ _ h => ⟨h.1, fun hok => h.2 (require_eq_ok_iff.mp hok)⟩

/-- Where an event is there already, it is loaded. -/
theorem resolve_triple (e : String) (appended : Except StoreError StoredAuditEvent) :
    Saga.Triple (submission env id start before)
      (fun db world => (Halfway env id start before db world ∧ SubmittedAs id e db) ∧
        ∀ audit, appended = .ok audit → (submissionAudit id).IsContentOf audit → Audited id db)
      (resolveAudit (ownerTaskSubmissionAuditKey id) appended >>= fun audit =>
        Saga.ensure ((submissionAudit id).IsContentOf audit) (ServiceError.store (.conflict "owner task audit")))
      (Logs env id start before e) := by
  cases appended with
  | ok audit => exact (compare_triple e audit).weaken (fun db world h => ⟨h.1, h.2 audit rfl⟩) fun _ _ _ h => h
  | error error =>
    cases error with
    | conflict resource =>
      refine Saga.Triple.weaken (P := fun db world => Halfway env id start before db world ∧ SubmittedAs id e db) ?_
        (fun _ _ h => h.1) fun _ _ _ h => h
      refine Saga.Triple.store_bind
        (R := fun audit db world => (Halfway env id start before db world ∧ SubmittedAs id e db) ∧
          ((submissionAudit id).IsContentOf audit → Audited id db)) (stable_submitted e) ?_
        (fun _ _ _ _ _ h _ => ⟨h, nofun⟩) (fun _ _ _ _ h => ⟨h, nofun⟩) fun audit => compare_triple e audit
      rintro clock audit db db' world - h hrun
      obtain ⟨rfl, row, hrow, hkey, hdecode⟩ := loadAuditEventByIdempotencyKey_run_eq_ok hrun
      exact ⟨h, fun hcontent => Audited.of_row hrow hkey hdecode hcontent⟩
    | _ => exact Saga.Triple.done fun db world h => ⟨h.1, nofun⟩

/-- **A submission is logged once**: the event is appended, or it is there. -/
theorem ensureOwnerTaskSubmissionAudit_triple (occurredAt : OffsetDateTime) (e : String) :
    Saga.Triple (submission env id start before)
      (fun db world => Halfway env id start before db world ∧ SubmittedAs id e db)
      (ensureOwnerTaskSubmissionAudit id occurredAt) (Logs env id start before e) := by
  refine Saga.Triple.attempt_bind (stable_submitted e) (fun clock r _ => ?_) fun error _ => ?_
  · refine (resolve_triple e r).weaken ?_ fun _ _ _ h => h
    rintro db' world ⟨db, ⟨hhalfway, hsubmitted⟩, hcommit⟩
    cases r with
    | error error =>
      obtain ⟨-, rfl⟩ := Tx.commit_eq_error hcommit
      exact ⟨⟨hhalfway, hsubmitted⟩, fun _ hok => by cases hok⟩
    | ok audit =>
      have hrun := Tx.commit_eq_ok_iff.mp hcommit
      obtain ⟨hnext, hchanges⟩ := hhalfway.submitting.call (c := .appendAuditEvent (submissionAudit id) occurredAt clock) rfl
        (fun _ => rfl) hrun
      have hc := hhalfway.submitting.reachable.consistent
      refine ⟨⟨hhalfway.later hnext hchanges, hsubmitted.later hc hchanges⟩, ?_⟩
      intro stored hstored hcontent
      obtain rfl := Except.ok.inj hstored
      rcases appendAuditEvent_run_eq_ok hrun with ⟨text, -, rfl, hdecode⟩ | ⟨rfl, row, hrow, hkey, hdecode, -⟩
      · exact Audited.of_row (List.mem_append_right _ (List.mem_singleton.mpr rfl)) rfl hdecode hcontent
      · exact Audited.of_row hrow hkey hdecode hcontent
  · exact (resolve_triple e (.error error)).weaken (fun _ _ h => ⟨h, fun _ hok => by cases hok⟩) fun _ _ _ h => h

/-- Logging a submission ends an attempt. -/
theorem auditSubmission_triple {a : SubmitArguments} (ha : a.prepared.ownerTaskDraftId = id) (e : String) :
    Saga.Triple (submission env id start before)
      (fun db world => Halfway env id start before db world ∧ SubmittedAs id e db) (auditSubmission a e)
      (Ends env id start before) := by
  subst ha
  refine Saga.Triple.bind (R := fun _ db world => (Halfway env a.prepared.ownerTaskDraftId start before db world ∧
    SubmittedAs a.prepared.ownerTaskDraftId e db) ∧ Audited a.prepared.ownerTaskDraftId db) ?_ fun _ => ?_
  · refine (ensureOwnerTaskSubmissionAudit_triple a.now e).weaken (fun _ _ h => h) fun r db world h => ?_
    cases r with
    | ok u => exact ⟨h.1, h.2 rfl⟩
    | error error => exact ⟨h.1.1, nofun⟩
  · refine Saga.Triple.pure fun db world h => ⟨h.1.1, fun s hs => ?_⟩
    obtain rfl := Except.ok.inj hs
    exact ⟨rfl, h.1.2, h.2⟩

/-! #### Obtaining the event -/

/-- The attempt has asked for the event of a placement that has none. -/
structure Asked (env : Environment) (id : ℤ) (start : Database) (before : List Exchange) (draft : OwnerEventDraft)
    (exchanges : List Exchange) (db : Database) (world : List Exchange) : Prop where
  submitting : Submitting env start db
  none : ¬HasEvent id start
  drafts : DraftsEvent env id draft db
  world : world = exchanges ++ before

/-- What an attempt has asked, at each of its questions. -/
def Asking (draft : OwnerEventDraft) (exchanges : List Exchange) : Prop := exchanges = [] ∨ Exchanged draft exchanges

variable {draft : OwnerEventDraft} {exchanges : List Exchange}

theorem Asked.halfway {world : List Exchange} (h : Asked env id start before draft exchanges db world)
    (hasking : Asking draft exchanges) : Halfway env id start before db world :=
  ⟨h.submitting, exchanges, h.world, hasking.imp_right fun hexchanged => ⟨h.none, draft, hexchanged, h.drafts⟩⟩

theorem stable_asked (hasking : Asking draft exchanges) :
    Saga.Stable (submission env id start before) (Asked env id start before draft exchanges) :=
  stable_of_later (fun _ _ h => h.halfway hasking) fun _ _ _ hc hsubmitting hchanges h =>
    ⟨hsubmitting, h.none, h.drafts.later hc hchanges, h.world⟩

/-- **A question** adds an exchange. -/
theorem ask_triple {α : Type} {call : CalendarCall} {f : CalendarAnswer → Operation CalendarCall CalendarAnswer α}
    {Q : ServiceResult α → Database → List Exchange → Prop} (hasking : Asking draft exchanges)
    (hnext : ∀ answer, Saga.Triple (submission env id start before)
      (Asked env id start before draft ((call, answer) :: exchanges)) (f answer) Q) :
    Saga.Triple (submission env id start before) (Asked env id start before draft exchanges) (Saga.query call >>= f) Q := by
  refine Saga.Triple.query_bind (stable_asked hasking) (fun _ _ _ => trivial) fun oracle answer _ => ?_
  refine (hnext answer).weaken ?_ fun _ _ _ h => h
  rintro db world' ⟨world, h, hanswer⟩
  obtain ⟨rfl, rfl⟩ := Prod.mk.inj hanswer
  exact ⟨h.submitting, h.none, h.drafts, congrArg _ h.world⟩

/-- An answer ends the questions. -/
theorem answered_triple (hexchanged : Exchanged draft exchanges) (r : ServiceResult CalendarEvent) :
    Saga.Triple (submission env id start before) (Asked env id start before draft exchanges)
      (Saga.ofResult r : Operation CalendarCall CalendarAnswer CalendarEvent)
      fun _ db world => Halfway env id start before db world :=
  Saga.Triple.done fun _ _ h => h.halfway (.inr hexchanged)

theorem createOwnerEvent_triple (hchecked : Checked draft exchanges) (hasking : Asking draft exchanges) :
    Saga.Triple (submission env id start before) (Asked env id start before draft exchanges) (createOwnerEvent draft)
      fun _ db world => Halfway env id start before db world := by
  refine ask_triple hasking fun created => ?_
  cases created.event with
  | ok event => exact answered_triple (.created created hchecked) _
  | error createError =>
    exact ask_triple (.inr (.created created hchecked)) fun recovered =>
      answered_triple (.recovered recovered created hchecked) _

theorem createWhereFree_triple {found : CalendarAnswer} (hfound : found.event = .error .notFound)
    {p : StoredOwnerTaskPlacement} (hstart : p.startsAt.unixNanos = draft.timeRange.start)
    (hstop : p.endsAt.unixNanos = draft.timeRange.stop) :
    Saga.Triple (submission env id start before)
      (Asked env id start before draft [(.findOwnerEvent draft, found)]) (createWhereFree p draft)
      fun _ db world => Halfway env id start before db world := by
  refine ask_triple (.inr (.found found)) fun outlook => ?_
  refine Saga.Triple.ofResult_bind (fun outlookBusy houtlook => ?_)
    fun _ _ _ _ h => h.halfway (.inr (.outlook found outlook))
  refine ask_triple (.inr (.outlook found outlook)) fun google => ?_
  refine Saga.Triple.ofResult_bind (fun googleBusy hgoogle => ?_)
    fun _ _ _ _ h => h.halfway (.inr (.google found outlook google))
  refine Saga.Triple.ensure_bind (fun hfree => ?_) fun _ _ _ h => h.halfway (.inr (.google found outlook google))
  rw [hstart, hstop] at hfree
  exact createOwnerEvent_triple
    ⟨found, outlook, google, outlookBusy, googleBusy, rfl, hfound, mapError_eq_ok_iff.mp houtlook,
      mapError_eq_ok_iff.mp hgoogle, hfree⟩ (.inr (.google found outlook google))

/-- **Obtaining the event** asks for nothing but what is checked. -/
theorem obtainOwnerEvent_triple {p : StoredOwnerTaskPlacement} (hstart : p.startsAt.unixNanos = draft.timeRange.start)
    (hstop : p.endsAt.unixNanos = draft.timeRange.stop) :
    Saga.Triple (submission env id start before) (Asked env id start before draft []) (obtainOwnerEvent p draft)
      fun _ db world => Halfway env id start before db world := by
  refine ask_triple (.inl rfl) fun found => ?_
  cases hfound : found.event with
  | ok event => exact answered_triple (.found found) _
  | error error =>
    cases error with
    | notFound => exact createWhereFree_triple hfound hstart hstop
    | _ => exact answered_triple (.found found) _

/-! #### Recording the event -/

/-- **Recording an event** submits the placement with it. -/
theorem recordSubmission_triple {a : SubmitArguments} (ha : a.prepared.ownerTaskDraftId = id) (event : CalendarEvent) :
    Saga.Triple (submission env id start before) (Halfway env id start before) (recordSubmission env.timezones a event)
      (Ends env id start before) := by
  refine Saga.Triple.store_bind
    (R := fun _ db world => Halfway env id start before db world ∧ SubmittedAs id event.providerEventId db)
    stable_halfway ?_ (fun _ _ _ _ _ h _ => ⟨h, nofun⟩) (fun _ _ _ _ h => ⟨h, nofun⟩) fun submitted => ?_
  · rintro clock submitted db db' world - h hrun
    rw [ha] at hrun
    have hc := h.submitting.reachable.consistent
    obtain ⟨hnext, hchanges⟩ := h.submitting.call (c := .submitOwnerTaskPlacement id event.providerEventId) rfl trivial hrun
    refine ⟨h.later hnext hchanges, ?_⟩
    obtain ⟨hevent, hid, ⟨rfl, row, hrow, hdecode⟩ | hsubmitted⟩ := submitOwnerTaskPlacement_run_eq_ok hrun hc.placement_id
    · have hholds := decodeOwnerTaskPlacement_eq_ok hdecode
      exact ⟨row, hrow, hholds.ownerTaskDraftId.symm.trans hid, hholds.providerEventId.symm.trans hevent⟩
    · obtain ⟨row, hrow, hrowId, -, -⟩ := hsubmitted.exists_row
      obtain rfl := hsubmitted.eq
      exact ⟨_, Table.mem_updateWhere.mpr (.inl ⟨row, hrow, beq_iff_eq.mpr hrowId, rfl⟩), hrowId, rfl⟩
  · refine Saga.Triple.ofResult_bind (fun e he => ?_) fun _ _ _ _ h => ⟨h.1, nofun⟩
    refine Saga.Triple.ensure_bind (fun hsame => ?_) fun _ _ _ h => ⟨h.1, nofun⟩
    obtain ⟨rfl, -⟩ := hsame
    exact auditSubmission_triple ha _

/-! #### The whole attempt -/

theorem toChronoUtc_eq_ok {t : OffsetDateTime} {n : ℤ} (h : toChronoUtc t = .ok n) : n = t.unixNanos := by
  obtain ⟨_, -, h⟩ := bind_eq_ok_iff.mp h
  exact (Except.ok.inj h).symm

/-- The event of a placement is at its time and under its key. -/
theorem ownerEventDraft_eq_ok {timezones : Timezones} {stored : StoredOwnerTaskDraft} {p : StoredOwnerTaskPlacement}
    (h : ownerEventDraft timezones stored p = .ok draft) :
    draft.operationKey = p.operationKey ∧ draft.timezone = p.timezone ∧ draft.timeRange.start = p.startsAt.unixNanos ∧
      draft.timeRange.stop = p.endsAt.unixNanos := by
  obtain ⟨startsAt, hstarts, h⟩ := bind_eq_ok_iff.mp h
  obtain ⟨endsAt, hends, h⟩ := bind_eq_ok_iff.mp h
  obtain ⟨range, hrange, h⟩ := bind_eq_ok_iff.mp h
  obtain ⟨-, -, hstart, hstop⟩ := TimeRange.new_eq_ok_iff.mp (replaceError_eq_ok_iff.mp hrange)
  obtain ⟨-, -, -, rfl⟩ := OwnerEventDraft.new_eq_ok_iff.mp (mapError_eq_ok_iff.mp h)
  exact ⟨rfl, rfl, hstart.trans (toChronoUtc_eq_ok hstarts), hstop.trans (toChronoUtc_eq_ok hends)⟩

/-- What the opening of an attempt found. -/
structure Admitted (env : Environment) (id : ℤ) (start : Database) (before : List Exchange)
    (admitted : StoredOwnerTaskPlacement × OwnerEventDraft) (db : Database) (world : List Exchange) : Prop where
  submitting : Submitting env start db
  world : world = before
  drafts : DraftsEvent env id admitted.2 db
  startsAt : admitted.1.startsAt.unixNanos = admitted.2.timeRange.start
  endsAt : admitted.1.endsAt.unixNanos = admitted.2.timeRange.stop
  submitted : ∀ e, admitted.1.providerEventId = some e → SubmittedAs id e db
  prepared : admitted.1.providerEventId = none → ¬HasEvent id start

theorem halfway_start {world : List Exchange} (h : Submitting env start db) (hworld : world = before) :
    Halfway env id start before db world := ⟨h, [], hworld, .inl rfl⟩

theorem admitOwnerTask_triple {a : SubmitArguments} (ha : a.prepared.ownerTaskDraftId = id) :
    Saga.Triple (submission env id start before) (fun db world => Submitting env start db ∧ world = before)
      (admitOwnerTask env.timezones a) fun r db world =>
        match r with
        | .ok admitted => Admitted env id start before admitted db world
        | .error error => Ends env id start before (.error error) db world := by
  have hstable : Saga.Stable (submission env id start before)
      fun db world => Submitting env start db ∧ world = before :=
    stable_of_later (fun _ _ h => halfway_start h.1 h.2) fun _ _ _ _ hsubmitting _ h => ⟨hsubmitting, h.2⟩
  refine Saga.Triple.ofResult_bind (fun _ _ => ?_) fun _ _ _ _ h => ⟨halfway_start h.1 h.2, nofun⟩
  refine Saga.Triple.store_bind (R := fun _ db world => Submitting env start db ∧ world = before) hstable ?_
    (fun _ _ _ _ _ h _ => ⟨halfway_start h.1 h.2, nofun⟩) (fun _ _ _ _ h => ⟨halfway_start h.1 h.2, nofun⟩)
    fun stored => ?_
  · rintro clock stored db db' world - h hrun
    simp only [loadOwnerTaskDraftById, Tx.read_bind, Tx.ofResult_bind_eq_ok_iff, Tx.run_ofResult_eq_ok_iff] at hrun
    obtain ⟨_, -, -, rfl⟩ := hrun
    exact h
  refine Saga.Triple.store_bind
    (R := fun p db world => (Submitting env start db ∧ world = before) ∧
      (loadOwnerTaskPlacement env.timezones id).run db = .ok (p, db)) hstable ?_
    (fun _ _ _ _ _ h _ => ⟨halfway_start h.1 h.2, nofun⟩) (fun _ _ _ _ h => ⟨halfway_start h.1 h.2, nofun⟩)
    fun p => Saga.Triple.done fun db world h => ?_
  · rintro clock p db db' world - h hrun
    rw [ha] at hrun
    obtain ⟨rfl, -⟩ := loadOwnerTaskPlacement_run_eq_ok_iff.mp hrun
    exact ⟨h, hrun⟩
  · obtain ⟨⟨hsubmitting, hworld⟩, hload⟩ := h
    cases hadmitted : admitStoredTask env.timezones a.prepared a.verified stored p with
    | error error => exact ⟨halfway_start hsubmitting hworld, nofun⟩
    | ok admitted =>
      obtain ⟨_, -, hevent⟩ := bind_eq_ok_iff.mp hadmitted
      obtain ⟨draft, hdraft, hpair⟩ := bind_eq_ok_iff.mp hevent
      obtain rfl := Except.ok.inj hpair
      obtain ⟨hkey, hzone, hstart, hstop⟩ := ownerEventDraft_eq_ok hdraft
      obtain ⟨-, -, row, hrow, hdecode⟩ := loadOwnerTaskPlacement_run_eq_ok_iff.mp hload
      obtain ⟨hmem, hid⟩ := Table.byRowid_eq_some hrow
      have hholds := decodeOwnerTaskPlacement_eq_ok hdecode
      have hc := hsubmitting.reachable.consistent
      refine ⟨hsubmitting, hworld, ⟨p, hload, hkey, hzone, hstart, hstop⟩, hstart.symm, hstop.symm, ?_, ?_⟩
      · exact fun e he => ⟨row, hmem, hid, hholds.providerEventId.symm.trans he⟩
      · -- an event that was set at the start would be set now
        rintro hnone ⟨e, hsubmitted⟩
        obtain ⟨row', hmem', hid', hevent'⟩ := hsubmitted.later hsubmitting.started hsubmitting.changes
        obtain rfl := hc.placement_id.eq hmem hmem' (hid.trans hid'.symm)
        rw [← hholds.providerEventId, hnone] at hevent'
        cases hevent'

/-- **The contract of `submit_owner_task`.** -/
theorem submitOwnerTask_triple {a : SubmitArguments} (ha : a.prepared.ownerTaskDraftId = id) :
    Saga.Triple (submission env id start before) (fun db world => Submitting env start db ∧ world = before)
      (submitOwnerTask env.timezones a) (Ends env id start before) := by
  refine Saga.Triple.bind (R := Admitted env id start before) ?_ fun admitted => ?_
  · refine (admitOwnerTask_triple ha).weaken (fun _ _ h => h) fun r _ _ h => ?_
    cases r with
    | ok admitted => exact h
    | error error => exact h
  cases hevent : admitted.1.providerEventId with
  | some e =>
    exact (auditSubmission_triple ha e).weaken
      (fun db world h => ⟨halfway_start h.submitting h.world, h.submitted e hevent⟩) fun _ _ _ h => h
  | none =>
    intro turns hallowed db world h
    refine (Saga.Triple.bind (P := Asked env id start before admitted.2 [])
      (R := fun _ db world => Halfway env id start before db world) ?_ fun event => recordSubmission_triple ha event)
      turns hallowed db world ⟨h.submitting, h.prepared hevent, h.drafts, h.world⟩
    refine (obtainOwnerEvent_triple h.startsAt h.endsAt).weaken (fun _ _ h => h) fun r _ _ h => ?_
    cases r with
    | ok event => exact h
    | error error => exact ⟨h, nofun⟩

end Contract

/-! ### Histories -/

section Histories

variable (env : Environment)

/-- A turn around an attempt: its calls are made or fail, its questions are answered, or another call is made. -/
def SubmitTurn : Saga.Turn SystemTime StoreError Command CalendarAnswer → Prop
  | .interfere c => Command.KeysSubmissions c
  | _ => True

/-- An attempt to submit a task. -/
def submitAttempt (a : SubmitArguments) (turns : List (Saga.Turn SystemTime StoreError Command CalendarAnswer))
    (s : Database × List Exchange) : Saga.Ran Database (List Exchange) CalendarCall ServiceError SubmittedOwnerTask :=
  Saga.run (calendarSurroundings env) turns (submitOwnerTask env.timezones a) s.1 s.2

/-- The turns of an episode. -/
def SubmitEpisode : Saga.Episode SubmitArguments SystemTime StoreError Command CalendarAnswer → Prop
  | .attempt _ turns => ∀ t ∈ turns, SubmitTurn t
  | .interfere c => Command.KeysSubmissions c

/-- The tables and the exchanges after attempts to submit tasks, and other calls between them. -/
def afterSubmissions (episodes : List (Saga.Episode SubmitArguments SystemTime StoreError Command CalendarAnswer))
    (s : Database × List Exchange) : Database × List Exchange :=
  Machine.run (Saga.Episode.step (calendarSurroundings env) (submitOwnerTask env.timezones)) episodes s

/-- The submission of a task is logged once. -/
def OneSubmission (ownerTaskDraftId : ℤ) (db : Database) : Prop :=
  db.auditEvents.countP (fun row => row.eventType == AuditEventType.ownerTaskSubmitted.asStr &&
    row.entityType == AuditEntityType.ownerTask.asStr && row.entityId == idText ownerTaskDraftId) = 1

/-- What an attempt asks and returns: it asks for one creation at most, of the event of its task and after the checks; it
asks nothing where the task has an event; and what it returns is the event of the task, whose submission is logged
once. -/
structure AttemptSafe (a : SubmitArguments) (turns : List (Saga.Turn SystemTime StoreError Command CalendarAnswer))
    (s : Database × List Exchange) : Prop where
  asked : ∃ exchanges, (submitAttempt env a turns s).world = exchanges ++ s.2 ∧ CreatesChecked exchanges ∧
    (∀ draft answer, (.createOwnerEvent draft, answer) ∈ exchanges →
      DraftsEvent env a.prepared.ownerTaskDraftId draft (submitAttempt env a turns s).store) ∧
    (HasEvent a.prepared.ownerTaskDraftId s.1 → exchanges = [])
  returned : ∀ submitted, (submitAttempt env a turns s).result = some (.ok submitted) →
    submitted.ownerTaskDraftId = a.prepared.ownerTaskDraftId ∧
      SubmittedAs a.prepared.ownerTaskDraftId submitted.providerEventId (submitAttempt env a turns s).store ∧
      OneSubmission a.prepared.ownerTaskDraftId (submitAttempt env a turns s).store

/-- How attempts to submit tasks go on from some tables: each is safe; no two placements have the same event; a
placement that has an event stays as it is; and attempts that succeed agree. -/
structure SubmissionsConverge (s : Database × List Exchange) : Prop where
  safe : ∀ a turns, (∀ t ∈ turns, SubmitTurn t) → AttemptSafe env a turns s
  apart : ∀ row ∈ s.1.ownerTaskPlacements, ∀ row' ∈ s.1.ownerTaskPlacements, ∀ e,
    row.providerEventId = some e → row'.providerEventId = some e → row = row'
  stays : ∀ later, (∀ e ∈ later, SubmitEpisode e) → ∀ row ∈ s.1.ownerTaskPlacements, row.providerEventId ≠ none →
    row ∈ (afterSubmissions env later s).1.ownerTaskPlacements
  agree : ∀ a turns submitted, (∀ t ∈ turns, SubmitTurn t) → (submitAttempt env a turns s).result = some (.ok submitted) →
    ∀ later, (∀ e ∈ later, SubmitEpisode e) → ∀ a' turns' submitted', (∀ t ∈ turns', SubmitTurn t) →
      a'.prepared.ownerTaskDraftId = a.prepared.ownerTaskDraftId →
      (submitAttempt env a' turns' (afterSubmissions env later
        ((submitAttempt env a turns s).store, (submitAttempt env a turns s).world))).result = some (.ok submitted') →
      submitted'.providerEventId = submitted.providerEventId

variable {env}

theorem Audited.one (hc : Consistent env db) (hkeyed : SubmissionsKeyed db) {id : ℤ} (h : Audited id db) :
    OneSubmission id db := by
  obtain ⟨row, hrow, hkey, htype, hentity, hid⟩ := h
  rw [OneSubmission, List.countP_eq_length_filter, Table.filter_eq_singleton hc.audit_key hrow, List.length_singleton]
  · rw [htype, hentity, hid]
    simp only [beq_self_eq_true, Bool.and_self]
  · intro row' hrow' hcontent
    simp only [Bool.and_eq_true, beq_iff_eq] at hcontent
    obtain ⟨⟨htype', -⟩, hid'⟩ := hcontent
    refine hc.audit_key.eq hrow' hrow ?_
    rw [hkeyed row' hrow' htype', hid', hkey]
    rfl

/-- An attempt keeps its contract. -/
theorem submitAttempt_ends {a : SubmitArguments} {turns : List (Saga.Turn SystemTime StoreError Command CalendarAnswer)}
    (hturns : ∀ t ∈ turns, SubmitTurn t) {s : Database × List Exchange} (hreachable : Reachable env s.1)
    (hkeyed : SubmissionsKeyed s.1) :
    Halfway env a.prepared.ownerTaskDraftId s.1 s.2 (submitAttempt env a turns s).store (submitAttempt env a turns s).world ∧
      ∀ r, (submitAttempt env a turns s).result = some r →
        Ends env a.prepared.ownerTaskDraftId s.1 s.2 r (submitAttempt env a turns s).store (submitAttempt env a turns s).world := by
  have hallowed : ∀ t ∈ turns, (submission env a.prepared.ownerTaskDraftId s.1 s.2).allowed t := by
    intro t ht
    have hturn := hturns t ht
    cases t with
    | interfere c => exact hturn
    | call | fail | answer => trivial
  have hstart : Submitting env s.1 s.1 := ⟨hreachable.consistent, hreachable, hkeyed, .refl⟩
  obtain ⟨-, hstops, hreturns⟩ := submitOwnerTask_triple rfl turns hallowed s.1 s.2 ⟨hstart, rfl⟩
  refine ⟨?_, hreturns⟩
  cases hresult : (submitAttempt env a turns s).result with
  | none => exact hstops hresult
  | some r => exact (hreturns r hresult).1

/-- Attempts and other calls keep the tables reachable, and their log keyed. -/
theorem afterSubmissions_submitting {start : Database} {s : Database × List Exchange} (h : Submitting env start s.1)
    {episodes : List (Saga.Episode SubmitArguments SystemTime StoreError Command CalendarAnswer)}
    (hepisodes : ∀ e ∈ episodes, SubmitEpisode e) : Submitting env start (afterSubmissions env episodes s).1 := by
  refine Saga.Episode.run_invariant (x := submission env 0 start [])
    (I := fun db _ => Submitting env start db) ?_ (fun c db _ hkeys h => (h.interfere hkeys).1) ?_ h
  · intro a turns hturns db world h
    have hallowed : ∀ t ∈ turns, SubmitTurn t := by
      intro t ht
      have hturn := hturns t ht
      cases t with
      | interfere c => exact hturn
      | call | fail | answer => trivial
    obtain ⟨hhalfway, -⟩ := submitAttempt_ends (a := a) (s := (db, world)) hallowed h.reachable h.keyed
    have hattempt := hhalfway.submitting
    exact ⟨h.started, hattempt.reachable, hattempt.keyed, h.changes.trans hattempt.changes⟩
  · intro e he
    have hepisode := hepisodes e he
    cases e with
    | interfere c => exact hepisode
    | attempt _ turns =>
      intro t ht
      have hturn := hepisode t ht
      cases t with
      | interfere c => exact hturn
      | call | fail | answer => trivial

theorem submitAttempt_safe {a : SubmitArguments} {turns : List (Saga.Turn SystemTime StoreError Command CalendarAnswer)}
    (hturns : ∀ t ∈ turns, SubmitTurn t) {s : Database × List Exchange} (hreachable : Reachable env s.1)
    (hkeyed : SubmissionsKeyed s.1) : AttemptSafe env a turns s := by
  obtain ⟨⟨hsubmitting, exchanges, hworld, hasked⟩, hends⟩ := submitAttempt_ends (a := a) hturns hreachable hkeyed
  refine ⟨⟨exchanges, hworld, ?_⟩, fun submitted hresult => ?_⟩
  · rcases hasked with rfl | ⟨hnone, draft, hexchanged, hdrafts⟩
    · exact ⟨.of_none rfl, fun _ _ hmem => absurd hmem List.not_mem_nil, fun _ => rfl⟩
    · refine ⟨hexchanged.createsChecked, fun draft' answer hmem => ?_, fun hevent => absurd hevent hnone⟩
      rw [hexchanged.draft_of_creation hmem]
      exact hdrafts
  · obtain ⟨-, hreturned⟩ := hends _ hresult
    obtain ⟨hid, hsubmitted, haudited⟩ := hreturned submitted rfl
    exact ⟨hid, hsubmitted, haudited.one hsubmitting.reachable.consistent hsubmitting.keyed⟩

/-- **Submissions of owner tasks converge**, after every history of attempts and other calls. -/
theorem submitOwnerTask_converges (env : Environment)
    {episodes : List (Saga.Episode SubmitArguments SystemTime StoreError Command CalendarAnswer)}
    (hepisodes : ∀ e ∈ episodes, SubmitEpisode e) :
    SubmissionsConverge env (afterSubmissions env episodes (.empty, [])) := by
  have hempty : Submitting env .empty .empty := ⟨.empty env, ⟨[], rfl⟩, nofun, .refl⟩
  have h := afterSubmissions_submitting (s := (.empty, [])) hempty hepisodes
  generalize afterSubmissions env episodes (.empty, []) = s at h
  have hc := h.reachable.consistent
  constructor
  · exact fun a turns hturns => submitAttempt_safe hturns h.reachable h.keyed
  · intro row hrow row' hrow' e he he'
    exact hc.ownerTaskPlacements.eq (fun _ _ => OwnerTaskPlacementStoredRow.Clash.symm) hrow hrow'
      (.inr (.inr ⟨e, he, he'⟩))
  · intro later hlater row hrow hsubmitted
    have hstart : Submitting env s.1 s.1 := ⟨hc, h.reachable, h.keyed, .refl⟩
    exact (afterSubmissions_submitting hstart hlater).changes.submitted_placement hc hrow hsubmitted
  · intro a turns submitted hturns hresult later hlater a' turns' submitted' hturns' hid hresult'
    obtain ⟨hhalfway, -⟩ := submitAttempt_ends (a := a) hturns h.reachable h.keyed
    have hfirst := hhalfway.submitting
    have hstart : Submitting env (submitAttempt env a turns s).store (submitAttempt env a turns s).store :=
      ⟨hfirst.reachable.consistent, hfirst.reachable, hfirst.keyed, .refl⟩
    have hafter := afterSubmissions_submitting (s := ((submitAttempt env a turns s).store, (submitAttempt env a turns s).world))
      hstart hlater
    obtain ⟨hhalfway', -⟩ := submitAttempt_ends (a := a') hturns' hafter.reachable hafter.keyed
    obtain ⟨-, hsubmitted, -⟩ := (submitAttempt_safe hturns h.reachable h.keyed).returned submitted hresult
    obtain ⟨-, hsubmitted', -⟩ := (submitAttempt_safe hturns' hafter.reachable hafter.keyed).returned submitted' hresult'
    have hchanges := hafter.changes.trans hhalfway'.submitting.changes
    rw [hid] at hsubmitted'
    exact hsubmitted'.unique hhalfway'.submitting.reachable.consistent
      (hsubmitted.later hfirst.reachable.consistent hchanges)

/-! ### An attempt that stopped -/

/-- The event of the task at noon. -/
def noonEvent : CalendarEvent where
  providerEventId := "event-1"
  operationKey := "water-plants"
  title := "Water plants"
  timeRange :=
    ⟨noon.unixNanos, noon.unixNanos + 45 * minute, by decide +kernel, by decide +kernel, by decide +kernel⟩
  timezone := "UTC"
  attendees := []
  lastModifiedAt := newYear.instant.unixNanos

/-- No event, and no busy time. -/
def nothingThere : CalendarAnswer := ⟨.error .notFound, .ok []⟩

/-- The event. -/
def eventThere : CalendarAnswer := ⟨.ok noonEvent, .ok []⟩

/-- Submits the task at noon. -/
def submitNoonTask : SubmitArguments :=
  ⟨⟨1, noon, ⟨noon.unixNanos + 45 * minute, 0⟩, "UTC", "water-plants"⟩, verifiedOwner, "+1 555 0100", newYear.instant⟩

/-- The task is prepared, and an attempt stops after its event was created. -/
def stoppedAttempt : List (Saga.Episode SubmitArguments SystemTime StoreError Command CalendarAnswer) :=
  [.interfere (.savePreparedOwnerTask none waterPlants
      ⟨noon, ⟨noon.unixNanos + 45 * minute, 0⟩, "UTC", "water-plants", verifiedOwner.fingerprint⟩),
    .attempt submitNoonTask [.call newYear, .call newYear, .answer nothingThere, .answer nothingThere,
      .answer nothingThere, .answer eventThere]]

theorem submitOwnerTask_converges_stoppedAttempt :
    SubmissionsConverge utcOnly (afterSubmissions utcOnly stoppedAttempt (.empty, [])) ∧
      (submitAttempt utcOnly submitNoonTask
        [.call newYear, .call newYear, .answer eventThere, .call newYear, .call newYear]
        (afterSubmissions utcOnly stoppedAttempt (.empty, []))).result = some (.ok ⟨1, "event-1", "submitted"⟩) := by
  refine ⟨submitOwnerTask_converges utcOnly ?_, by decide +kernel⟩
  intro e he
  rcases List.mem_cons.mp he with rfl | he
  · trivial
  · obtain rfl := List.mem_singleton.mp he
    intro t ht
    simp only [List.mem_cons, List.not_mem_nil, or_false] at ht
    rcases ht with rfl | rfl | rfl | rfl | rfl | rfl <;> trivial

end Histories

end AgentVoice.PaService

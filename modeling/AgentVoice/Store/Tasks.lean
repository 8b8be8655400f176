import AgentVoice.Domain.Values
import AgentVoice.Store.Messages

/-!
# Tasks

`record_task` and `transition_task`. A task is recorded once for an actionable e-mail and moves from
pending to proposed or no slot, and from proposed to scheduled or no slot. Recording looks at the message
first, for a new task as for a retry, and wants it actionable; the other operations also accept a message
that was scheduled since (`validateTaskMessageLifecycle`).
-/

namespace AgentVoice.Store

open AgentVoice.Foundations AgentVoice.Domain

/-- `StoredTaskState`. -/
inductive StoredTaskState where
  | pending | proposed | scheduled | noSlot
  deriving DecidableEq, Repr

namespace StoredTaskState

/-- `as_str`. -/
def asStr : StoredTaskState → String
  | .pending => "pending"
  | .proposed => "proposed"
  | .scheduled => "scheduled"
  | .noSlot => "no_slot"

/-- `from_storage`. -/
def fromStorage : String → StoreResult StoredTaskState :=
  parseName [.pending, .proposed, .scheduled, .noSlot] asStr (storedRecordInvalid "task state")

theorem fromStorage_eq_ok_iff {value : String} {s : StoredTaskState} : fromStorage value = .ok s ↔ value = s.asStr :=
  parseName_eq_ok_iff (by intro b; cases b <;> decide) (by decide)

theorem asStr_inj {s t : StoredTaskState} (h : s.asStr = t.asStr) : s = t := by
  have hs := fromStorage_eq_ok_iff.mpr (Eq.refl s.asStr)
  rw [h] at hs
  exact Except.ok.inj (hs.symm.trans (fromStorage_eq_ok_iff.mpr rfl))

end StoredTaskState

/-- `valid_task_transition`. -/
def validTaskTransition : StoredTaskState → StoredTaskState → Bool
  | .pending, .proposed | .pending, .noSlot => true
  | .proposed, .scheduled | .proposed, .noSlot => true
  | _, _ => false

/-- `task_kind_storage_name`. -/
def taskKindStorageName : TaskKind → String
  | .bill => "bill"
  | .callback => "callback"
  | .reading => "reading"
  | .emailReply => "email_reply"
  | .preparation => "preparation"

/-- `parse_task_kind`. -/
def parseTaskKind : String → StoreResult TaskKind :=
  parseName [.bill, .callback, .reading, .emailReply, .preparation] taskKindStorageName
    (storedRecordInvalid "owner task draft")

theorem parseTaskKind_eq_ok_iff {value : String} {k : TaskKind} :
    parseTaskKind value = .ok k ↔ value = taskKindStorageName k :=
  parseName_eq_ok_iff (by intro b; cases b <;> decide) (by decide)

/-- `TaskTitle`. -/
@[ext]
structure TaskTitle where
  text : String
  valid : IsPlainText maxIdentifierLength text
  deriving DecidableEq

/-- `TaskTitle::new`. -/
def TaskTitle.new (value : String) : StoreResult TaskTitle :=
  if h : IsPlainText maxIdentifierLength value then .ok ⟨value, h⟩ else .error (.invalidInput "title")

theorem TaskTitle.new_eq_ok_iff {value : String} {t : TaskTitle} : TaskTitle.new value = .ok t ↔ t.text = value := by
  unfold TaskTitle.new
  constructor
  · intro h
    split at h
    · cases h
      rfl
    · cases h
  · rintro rfl
    exact dif_pos t.valid

/-- `MAX_TASK_DURATION_MINUTES`. -/
def maxTaskDurationMinutes : ℤ := 24 * 60

/-- `validate_task_duration_i64`, and `validate_task_duration` on the values of a `u32`. -/
def validateTaskDuration (minutes : ℤ) : StoreResult DurationMinutes :=
  if h : 0 < minutes ∧ minutes ≤ maxTaskDurationMinutes then
    .ok ⟨minutes.toNat, by omega, by have := h.2; simp only [maxTaskDurationMinutes] at this; omega⟩
  else .error (.invalidInput "duration_minutes")

theorem validateTaskDuration_eq_ok_iff {minutes : ℤ} {d : DurationMinutes} :
    validateTaskDuration minutes = .ok d ↔ minutes ≤ maxTaskDurationMinutes ∧ (d.minutes : ℤ) = minutes := by
  have hpos := d.pos
  unfold validateTaskDuration
  split
  · rename_i h
    rw [Except.ok.injEq, DurationMinutes.ext_iff]
    dsimp only
    omega
  · rename_i h
    simp only [reduceCtorEq, false_iff]
    omega

/-- `StoredTask`. -/
structure StoredTask where
  id : ℤ
  idempotencyKey : String
  sourceId : String
  messageId : ℤ
  title : TaskTitle
  kind : TaskKind
  duration : DurationMinutes
  dueAt : Option OffsetDateTime
  state : StoredTaskState
  createdAt : String
  updatedAt : String
  deriving DecidableEq

/-- `parse_task_timestamp`. -/
def parseTaskTimestamp (value resource : String) : StoreResult OffsetDateTime := parseWholeSecond resource value

/-- `parse_task_timestamp_text`. -/
def parseTaskTimestampText (value : String) : StoreResult String := do
  let parsed ← parseTaskTimestamp value "task"
  okOr parsed.format (storedRecordInvalid "task")

theorem parseTaskTimestampText_eq_ok {value text : String} (h : parseTaskTimestampText value = .ok text) :
    text = value := parseWholeSecond_format h

/-- `decode_task_row`. -/
def decodeTaskRow (row : TaskStoredRow) : StoreResult StoredTask := do
  require (0 < row.id ∧ 0 < row.messageId) (storedRecordInvalid "task")
  let idempotencyKey ←
    replaceError (validateMachineIdentifier row.idempotencyKey "idempotency_key") (storedRecordInvalid "task")
  let sourceId ← replaceError (validateMachineIdentifier row.sourceId "source_id") (storedRecordInvalid "task")
  let title ← replaceError (TaskTitle.new row.title) (storedRecordInvalid "task")
  let kind ← replaceError (parseTaskKind row.kind) (storedRecordInvalid "task")
  let duration ← replaceError (validateTaskDuration row.durationMinutes) (storedRecordInvalid "task")
  let dueAt ← transpose (parseTaskTimestamp · "task") row.dueAt
  let state ← replaceError (StoredTaskState.fromStorage row.state) (storedRecordInvalid "task")
  let createdAt ← parseTaskTimestampText row.createdAt
  let updatedAt ← parseTaskTimestampText row.updatedAt
  return ⟨row.id, idempotencyKey, sourceId, row.messageId, title, kind, duration, dueAt, state, createdAt, updatedAt⟩

/-! ### The message of a task -/

/-- An e-mail in the state that recording a task wants. -/
def Actionable (m : StoredMessage) : Prop :=
  (m.provider = .outlook ∨ m.provider = .gmail) ∧ m.triageState = .actionable

/-- An e-mail in one of the states that a recorded task's message may have. -/
def HasTasks (m : StoredMessage) : Prop :=
  (m.provider = .outlook ∨ m.provider = .gmail) ∧ (m.triageState = .actionable ∨ m.triageState = .scheduled)

instance (m : StoredMessage) : Decidable (Actionable m) := inferInstanceAs (Decidable (_ ∧ _))

instance (m : StoredMessage) : Decidable (HasTasks m) := inferInstanceAs (Decidable (_ ∧ _))

/-- `validate_actionable_message`. -/
def validateActionableMessage (message : StoredMessage) (resource : String) : StoreResult Unit :=
  require (Actionable message) (storedRecordInvalid resource)

/-- `validate_task_message_lifecycle`. -/
def validateTaskMessageLifecycle (message : StoredMessage) (resource : String) : StoreResult Unit :=
  require (HasTasks message) (storedRecordInvalid resource)

/-- Loads the message with an id and checks it; a message that is missing or does not decode is an error of
the resource. -/
def validateTaskMessage (check : StoredMessage → String → StoreResult Unit) (messageId : ℤ) (resource : String) :
    Tx StoreError Database Unit := do
  let row ← Tx.read fun db => Table.byRowid messageId db.messages
  let row ← Tx.ofResult (okOr row (storedRecordInvalid resource))
  let message ← Tx.ofResult (replaceError (decodeMessageRow row) (storedRecordInvalid resource))
  Tx.ofResult (check message resource)

/-- `validate_task_message_in_transaction`. -/
def validateTaskMessageInTransaction (messageId : ℤ) : Tx StoreError Database Unit :=
  validateTaskMessage validateActionableMessage messageId "task"

/-- `validate_task_message_in_lifecycle_transaction`. -/
def validateTaskMessageInLifecycleTransaction (messageId : ℤ) : Tx StoreError Database Unit :=
  validateTaskMessage validateTaskMessageLifecycle messageId "task"

/-! ### Recording -/

/-- `format_task_timestamp`. -/
def formatTaskTimestamp (value : OffsetDateTime) (field : String) : StoreResult (OffsetDateTime × String) :=
  wholeSecondText value field

/-- The arguments of `record_task`. -/
structure TaskRequest where
  idempotencyKey : String
  sourceId : String
  messageId : ℤ
  title : TaskTitle
  kind : TaskKind
  durationMinutes : Option ℕ
  dueAt : Option OffsetDateTime

/-- The row `record_task` inserts. -/
def TaskRequest.row (r : TaskRequest) (duration : DurationMinutes) (dueAt : Option String) (now : SystemTime) (id : ℤ) :
    TaskStoredRow where
  id := id
  idempotencyKey := r.idempotencyKey
  sourceId := r.sourceId
  messageId := r.messageId
  title := r.title.text
  kind := taskKindStorageName r.kind
  durationMinutes := duration.minutes
  dueAt := dueAt
  state := "pending"
  createdAt := strftimeNow now
  updatedAt := strftimeNow now

/-- Whether a stored task has the content of a request. -/
def TaskRequest.IsContentOf (r : TaskRequest) (duration : DurationMinutes) (dueAt : Option OffsetDateTime)
    (stored : StoredTask) : Prop :=
  stored.idempotencyKey = r.idempotencyKey ∧ stored.sourceId = r.sourceId ∧ stored.messageId = r.messageId ∧
    stored.title = r.title ∧ stored.kind = r.kind ∧ stored.duration = duration ∧ stored.dueAt = dueAt

instance decidableTaskContent (r : TaskRequest) (duration : DurationMinutes) (dueAt : Option OffsetDateTime)
    (stored : StoredTask) : Decidable (r.IsContentOf duration dueAt stored) := inferInstanceAs (Decidable (_ ∧ _))

/-- The loop over the rows that share an identity with a task. -/
def taskRetry (r : TaskRequest) (duration : DurationMinutes) (dueAt : Option OffsetDateTime) :
    List TaskStoredRow → Option StoredTask → Tx StoreError Database StoredTask
  | [], found => Tx.ofResult (okOr found (storedRecordInvalid "task"))
  | row :: rows, found => do
    let stored ← Tx.ofResult (decodeTaskRow row)
    validateTaskMessageInTransaction stored.messageId
    Tx.ensure (r.IsContentOf duration dueAt stored) (.conflict "task")
    Tx.ensure (found = none) (storedRecordInvalid "task")
    taskRetry r duration dueAt rows (some stored)

/-- `PaStore::record_task`. -/
def recordTask (r : TaskRequest) (now : SystemTime) : Tx StoreError Database StoredTask := do
  let _ ← Tx.ofResult (validateMachineIdentifier r.idempotencyKey "idempotency_key")
  let _ ← Tx.ofResult (validateMachineIdentifier r.sourceId "source_id")
  Tx.ensure (0 < r.messageId) (.invalidInput "message_id")
  let duration ← Tx.ofResult (validateTaskDuration (r.durationMinutes.getD r.kind.durationMinutes))
  let due ← Tx.ofResult (transpose (formatTaskTimestamp · "due_at") r.dueAt)
  validateTaskMessage validateActionableMessage r.messageId "message"
  let candidates ← Tx.read fun db =>
    db.tasks.filter fun row => row.idempotencyKey == r.idempotencyKey || row.sourceId == r.sourceId
  if candidates.isEmpty then
    let id ← Tx.read fun db => Table.nextRowid db.tasks
    Tx.write fun db => { db with tasks := db.tasks ++ [r.row duration (due.map Prod.snd) now id] }
    let row ← Tx.read fun db => Table.byRowid id db.tasks
    let row ← Tx.ofResult (okOr row (storedRecordInvalid "task"))
    let stored ← Tx.ofResult (decodeTaskRow row)
    validateTaskMessageInTransaction stored.messageId
    return stored
  else taskRetry r duration (due.map Prod.fst) candidates none

/-! ### Moving -/

/-- The row that a transition takes. -/
def ownTask (sourceId : String) (expected : StoredTaskState) (row : TaskStoredRow) : Bool :=
  row.sourceId == sourceId && row.state == expected.asStr

/-- The row a transition leaves. -/
def TaskStoredRow.transition (next : StoredTaskState) (updatedAt : String) (row : TaskStoredRow) : TaskStoredRow :=
  { row with state := next.asStr, updatedAt }

/-- `PaStore::transition_task`. -/
def transitionTask (sourceId : String) (expectedState nextState : StoredTaskState) (updatedAt : OffsetDateTime) :
    Tx StoreError Database StoredTask := do
  let sourceId ← Tx.ofResult (validateMachineIdentifier sourceId "source_id")
  let (_, updatedAtText) ← Tx.ofResult (formatUpdatedTimestamp updatedAt)
  Tx.ensure (validTaskTransition expectedState nextState = true) (.conflict "task transition")
  let row ← Tx.read fun db => Table.byKey TaskStoredRow.sourceId sourceId db.tasks
  let row ← Tx.ofResult (okOr row (.notFound "task"))
  let current ← Tx.ofResult (decodeTaskRow row)
  validateTaskMessageInLifecycleTransaction current.messageId
  if current.state = nextState ∧ current.updatedAt = updatedAtText then return current
  else do
    Tx.ensure (current.state = expectedState) (.conflict "task transition")
    let updated ← Tx.read fun db => db.tasks.countP (ownTask sourceId expectedState)
    Tx.write fun db =>
      { db with
        tasks := Table.updateWhere (ownTask sourceId expectedState) (TaskStoredRow.transition nextState updatedAtText)
          db.tasks }
    Tx.ensure (updated = 1) (.conflict "task transition")
    let row ← Tx.read fun db => Table.byKey TaskStoredRow.sourceId sourceId db.tasks
    let row ← Tx.ofResult (okOr row (storedRecordInvalid "task"))
    let stored ← Tx.ofResult (decodeTaskRow row)
    validateTaskMessageInLifecycleTransaction stored.messageId
    return stored

/-! ### Loading -/

/-- `validate_task_message_on_connection`. -/
def validateTaskMessageOnConnection (messageId : ℤ) (db : Database) : StoreResult Unit := do
  let row ← okOr (Table.byRowid messageId db.messages) (storedRecordInvalid "task")
  let message ← replaceError (decodeMessageRow row) (storedRecordInvalid "task")
  validateTaskMessageLifecycle message "task"

/-- `PaStore::load_task_by_id`. -/
def loadTaskById (id : ℤ) (db : Database) : StoreResult StoredTask := do
  require (0 < id) (.invalidInput "id")
  let row ← okOr (Table.byRowid id db.tasks) (.notFound "task")
  let task ← decodeTaskRow row
  validateTaskMessageOnConnection task.messageId db
  return task

/-- `MAX_TASK_LIST_LIMIT`. -/
def maxTaskListLimit : ℕ := 100

/-- `PaStore::list_tasks_by_state`. -/
def listTasksByState (state : StoredTaskState) (afterId : Option ℤ) (limit : ℕ) (db : Database) :
    StoreResult (List StoredTask) := do
  require (∀ id ∈ afterId, 0 < id) (.invalidInput "cursor")
  require (limit ≠ 0 ∧ limit ≤ maxTaskListLimit) (.invalidInput "limit")
  let rows := db.tasks.mergeSort fun r s => decide (r.id ≤ s.id)
  let tasks ← rows.mapM fun row => do
    let task ← decodeTaskRow row
    replaceError (validateTaskMessageOnConnection task.messageId db) (storedRecordInvalid "task")
    return task
  return (tasks.filter fun task => decide (task.state = state ∧ ∀ cursor ∈ afterId, cursor < task.id)).take limit

/-! ### What the operations do -/

/-- What a row that decodes holds. -/
structure TaskStoredRow.Holds (row : TaskStoredRow) (t : StoredTask) : Prop where
  id : t.id = row.id
  id_pos : 0 < row.id
  messageId_pos : 0 < row.messageId
  idempotencyKey : t.idempotencyKey = row.idempotencyKey
  sourceId : t.sourceId = row.sourceId
  messageId : t.messageId = row.messageId
  title : t.title.text = row.title
  kind : row.kind = taskKindStorageName t.kind
  duration : (t.duration.minutes : ℤ) = row.durationMinutes
  dueAt : transpose (parseTaskTimestamp · "task") row.dueAt = .ok t.dueAt
  state : row.state = t.state.asStr
  updatedAt : t.updatedAt = row.updatedAt

theorem decodeTaskRow_eq_ok {row : TaskStoredRow} {t : StoredTask} (h : decodeTaskRow row = .ok t) : row.Holds t := by
  obtain ⟨_, hids, h⟩ := bind_eq_ok_iff.mp h
  obtain ⟨key, hkey, h⟩ := bind_eq_ok_iff.mp h
  obtain ⟨sourceId, hsource, h⟩ := bind_eq_ok_iff.mp h
  obtain ⟨title, htitle, h⟩ := bind_eq_ok_iff.mp h
  obtain ⟨kind, hkind, h⟩ := bind_eq_ok_iff.mp h
  obtain ⟨duration, hduration, h⟩ := bind_eq_ok_iff.mp h
  obtain ⟨dueAt, hdue, h⟩ := bind_eq_ok_iff.mp h
  obtain ⟨state, hstate, h⟩ := bind_eq_ok_iff.mp h
  obtain ⟨createdAt, -, h⟩ := bind_eq_ok_iff.mp h
  obtain ⟨updatedAt, hupdated, h⟩ := bind_eq_ok_iff.mp h
  obtain rfl := Except.ok.inj h
  rw [require_eq_ok_iff] at hids
  rw [replaceError_eq_ok_iff, validateMachineIdentifier_eq_ok_iff] at hkey hsource
  rw [replaceError_eq_ok_iff] at htitle hkind hduration hstate
  exact
    { id := rfl
      id_pos := hids.1
      messageId_pos := hids.2
      idempotencyKey := hkey.2.symm
      sourceId := hsource.2.symm
      messageId := rfl
      title := TaskTitle.new_eq_ok_iff.mp htitle
      kind := parseTaskKind_eq_ok_iff.mp hkind
      duration := (validateTaskDuration_eq_ok_iff.mp hduration).2
      dueAt := hdue
      state := StoredTaskState.fromStorage_eq_ok_iff.mp hstate
      updatedAt := parseTaskTimestampText_eq_ok hupdated }

/-- The stored message with an id has a property. -/
def MessageIs (P : StoredMessage → Prop) (db : Database) (messageId : ℤ) : Prop :=
  ∃ row m, Table.byRowid messageId db.messages = some row ∧ decodeMessageRow row = .ok m ∧ P m

theorem validateTaskMessage_run_eq_ok_iff {check : StoredMessage → String → StoreResult Unit}
    {P : StoredMessage → Prop} (hcheck : ∀ m resource u, check m resource = .ok u ↔ P m) {messageId : ℤ}
    {resource : String} {db db' : Database} {u : Unit} :
    (validateTaskMessage check messageId resource).run db = .ok (u, db') ↔ db' = db ∧ MessageIs P db messageId := by
  simp only [validateTaskMessage, Tx.read_bind, Tx.ofResult_bind_eq_ok_iff, okOr_eq_ok_iff, replaceError_eq_ok_iff,
    Tx.run_ofResult_eq_ok_iff, hcheck, MessageIs]
  constructor
  · rintro ⟨row, hrow, m, hm, hP, hdb⟩
    exact ⟨hdb, row, m, hrow, hm, hP⟩
  · rintro ⟨hdb, row, m, hrow, hm, hP⟩
    exact ⟨row, hrow, m, hm, hP, hdb⟩

theorem validateActionableMessage_run_eq_ok_iff {messageId : ℤ} {resource : String} {db db' : Database} {u : Unit} :
    (validateTaskMessage validateActionableMessage messageId resource).run db = .ok (u, db') ↔
      db' = db ∧ MessageIs Actionable db messageId :=
  validateTaskMessage_run_eq_ok_iff (P := Actionable) fun _ _ _ => require_eq_ok_iff

theorem validateTaskMessageOnConnection_eq_ok_iff {messageId : ℤ} {db : Database} {u : Unit} :
    validateTaskMessageOnConnection messageId db = .ok u ↔ MessageIs HasTasks db messageId := by
  simp only [validateTaskMessageOnConnection, bind_eq_ok_iff, okOr_eq_ok_iff, replaceError_eq_ok_iff,
    validateTaskMessageLifecycle, require_eq_ok_iff, MessageIs]
  constructor
  · rintro ⟨row, hrow, m, hm, hP⟩
    exact ⟨row, m, hrow, hm, hP⟩
  · rintro ⟨row, m, hrow, hm, hP⟩
    exact ⟨row, hrow, m, hm, hP⟩

theorem validateLifecycle_run_eq_ok_iff {messageId : ℤ} {db db' : Database} {u : Unit} :
    (validateTaskMessageInLifecycleTransaction messageId).run db = .ok (u, db') ↔
      db' = db ∧ MessageIs HasTasks db messageId :=
  validateTaskMessage_run_eq_ok_iff (P := HasTasks) fun _ _ _ => require_eq_ok_iff

/-- The durations and due times that a request asks for. -/
structure TaskRequest.Ready (r : TaskRequest) (duration : DurationMinutes)
    (due : Option (OffsetDateTime × String)) : Prop where
  key : isMachineIdentifier r.idempotencyKey = true
  source : isMachineIdentifier r.sourceId = true
  messageId : 0 < r.messageId
  duration : validateTaskDuration (r.durationMinutes.getD r.kind.durationMinutes) = .ok duration
  due : transpose (formatTaskTimestamp · "due_at") r.dueAt = .ok due

theorem taskRetry_run_eq_ok {r : TaskRequest} {duration : DurationMinutes} {dueAt : Option OffsetDateTime}
    {rows : List TaskStoredRow} {found : Option StoredTask} {db db' : Database} {t : StoredTask}
    (h : (taskRetry r duration dueAt rows found).run db = .ok (t, db')) :
    db' = db ∧ (rows = [] ∧ found = some t ∨
      ∃ row ∈ rows, decodeTaskRow row = .ok t ∧ r.IsContentOf duration dueAt t) := by
  induction rows generalizing found with
  | nil =>
    rw [taskRetry, Tx.run_ofResult_eq_ok_iff, okOr_eq_ok_iff] at h
    exact ⟨h.2, Or.inl ⟨rfl, h.1⟩⟩
  | cons row rows ih =>
    rw [taskRetry, Tx.ofResult_bind_eq_ok_iff] at h
    obtain ⟨stored, hdecode, hcheck⟩ := h
    obtain ⟨u, db₁, hmessage, hlater⟩ := Tx.run_bind_eq_ok_iff.mp hcheck
    obtain ⟨rfl, -⟩ := validateActionableMessage_run_eq_ok_iff.mp hmessage
    simp only [Tx.ensure_bind_eq_ok_iff] at hlater
    obtain ⟨hsame, -, hrest⟩ := hlater
    obtain ⟨hdb, hlast⟩ := ih hrest
    refine ⟨hdb, Or.inr ?_⟩
    rcases hlast with ⟨-, hfound⟩ | ⟨row', hrow', ht⟩
    · obtain rfl := Option.some.inj hfound
      exact ⟨row, by simp, hdecode, hsame⟩
    · exact ⟨row', by simp [hrow'], ht⟩

/-- **Recording a task** needs the message to be actionable, and adds a row under a key and a source no row
has, or finds a row with the same content. -/
theorem recordTask_run_eq_ok {r : TaskRequest} {now : SystemTime} {db db' : Database} {t : StoredTask}
    (h : (recordTask r now).run db = .ok (t, db')) :
    ∃ duration due, r.Ready duration due ∧ MessageIs Actionable db r.messageId ∧
      ((∃ row, row = r.row duration (due.map Prod.snd) now (Table.nextRowid db.tasks) ∧
          db' = { db with tasks := db.tasks ++ [row] } ∧ decodeTaskRow row = .ok t ∧
          ∀ s ∈ db.tasks, s.idempotencyKey ≠ r.idempotencyKey ∧ s.sourceId ≠ r.sourceId) ∨
        (db' = db ∧ ∃ row ∈ db.tasks, decodeTaskRow row = .ok t ∧ r.IsContentOf duration (due.map Prod.fst) t)) := by
  simp only [recordTask, Tx.ofResult_bind_eq_ok_iff, Tx.ensure_bind_eq_ok_iff,
    validateMachineIdentifier_eq_ok_iff] at h
  obtain ⟨_, ⟨hkey, -⟩, _, ⟨hsource, -⟩, hmessageId, duration, hduration, due, hdue, hrest⟩ := h
  obtain ⟨u, db₁, hmessage, hinsert⟩ := Tx.run_bind_eq_ok_iff.mp hrest
  obtain ⟨rfl, hactionable⟩ := validateActionableMessage_run_eq_ok_iff.mp hmessage
  refine ⟨duration, due, ⟨hkey, hsource, hmessageId, hduration, hdue⟩, hactionable, ?_⟩
  rw [Tx.read_bind] at hinsert
  cases hempty : (db₁.tasks.filter fun row =>
      row.idempotencyKey == r.idempotencyKey || row.sourceId == r.sourceId).isEmpty with
  | true =>
    rw [if_pos hempty] at hinsert
    simp only [Tx.read_bind, Tx.write_bind, Tx.ofResult_bind_eq_ok_iff, okOr_eq_ok_iff] at hinsert
    obtain ⟨row, hrow, stored, hdecode, hlast⟩ := hinsert
    obtain ⟨v, db₂, hcheck, hpure⟩ := Tx.run_bind_eq_ok_iff.mp hlast
    obtain ⟨rfl, -⟩ := validateActionableMessage_run_eq_ok_iff.mp hcheck
    cases hpure
    obtain rfl := Option.some.inj (hrow.symm.trans (Table.byRowid_insert rfl))
    refine Or.inl ⟨_, rfl, rfl, hdecode, fun s hs => ?_⟩
    rw [List.isEmpty_iff, List.filter_eq_nil_iff] at hempty
    simpa using hempty s hs
  | false =>
    rw [if_neg (by rw [hempty]; decide)] at hinsert
    obtain ⟨rfl, hlast⟩ := taskRetry_run_eq_ok hinsert
    right
    rcases hlast with ⟨-, hnone⟩ | ⟨row, hrow, ht⟩
    · cases hnone
    · exact ⟨rfl, row, (List.mem_filter.mp hrow).1, ht⟩

/-- **A retry finds the stored task, if its message is still actionable.** Where one row has the identities of
the request and holds its content, recording returns that row's task, or the message is not actionable and
recording fails. -/
theorem recordTask_run_existing {r : TaskRequest} {now : SystemTime} {db : Database} {duration : DurationMinutes}
    {due : Option (OffsetDateTime × String)} (hready : r.Ready duration due)
    (hunique : Table.Unique Row.rowid db.tasks) {row : TaskStoredRow} {t : StoredTask} (hrow : row ∈ db.tasks)
    (honly : ∀ s ∈ db.tasks, s.idempotencyKey = r.idempotencyKey ∨ s.sourceId = r.sourceId → s = row)
    (hdecode : decodeTaskRow row = .ok t) (hsame : r.IsContentOf duration (due.map Prod.fst) t)
    (hmessage : MessageIs Actionable db r.messageId) : (recordTask r now).run db = .ok (t, db) := by
  have hholds := decodeTaskRow_eq_ok hdecode
  have hclash : (row.idempotencyKey == r.idempotencyKey || row.sourceId == r.sourceId) = true := by
    simp [← hholds.idempotencyKey, hsame.1]
  have hfilter := Table.filter_eq_singleton (p := fun s => s.idempotencyKey == r.idempotencyKey ||
    s.sourceId == r.sourceId) hunique hrow hclash fun s hs hcs => honly s hs (by simpa using hcs)
  have hcheck : ∀ resource, (validateTaskMessage validateActionableMessage r.messageId resource).run db =
      .ok ((), db) := fun resource => validateActionableMessage_run_eq_ok_iff.mpr ⟨rfl, hmessage⟩
  rw [recordTask, Tx.ofResult_bind_of_ok (validateMachineIdentifier_eq_ok_iff.mpr ⟨hready.key, rfl⟩),
    Tx.ofResult_bind_of_ok (validateMachineIdentifier_eq_ok_iff.mpr ⟨hready.source, rfl⟩),
    Tx.ensure_bind_of hready.messageId, Tx.ofResult_bind_of_ok hready.duration, Tx.ofResult_bind_of_ok hready.due,
    Tx.run_bind_of_ok (hcheck "message"), Tx.read_bind, hfilter, if_neg (by simp), taskRetry,
    Tx.ofResult_bind_of_ok hdecode, validateTaskMessageInTransaction, hsame.2.2.1, Tx.run_bind_of_ok (hcheck "task"),
    Tx.ensure_bind_of hsame, Tx.ensure_bind_of rfl, taskRetry]
  rfl

/-- **Moving a task** returns the row as it is, or takes the row with the source from the expected state to the
next one; the row it leaves decodes. -/
theorem transitionTask_run_eq_ok {sourceId : String} {expected next : StoredTaskState} {updatedAt : OffsetDateTime}
    {db db' : Database} {t : StoredTask} (h : (transitionTask sourceId expected next updatedAt).run db = .ok (t, db')) :
    db' = db ∨ validTaskTransition expected next = true ∧ ∃ updatedAtText,
      (∃ row, Table.byKey TaskStoredRow.sourceId sourceId db'.tasks = some row ∧ decodeTaskRow row = .ok t) ∧
      db' = { db with
        tasks := Table.updateWhere (ownTask sourceId expected) (TaskStoredRow.transition next updatedAtText) db.tasks } := by
  simp only [transitionTask, Tx.ofResult_bind_eq_ok_iff, Tx.ensure_bind_eq_ok_iff, Tx.read_bind,
    validateMachineIdentifier_eq_ok_iff, okOr_eq_ok_iff] at h
  obtain ⟨_, ⟨-, rfl⟩, ⟨_, text⟩, -, hvalid, row, -, current, -, hrest⟩ := h
  obtain ⟨u, db₁, hcheck, hmove⟩ := Tx.run_bind_eq_ok_iff.mp hrest
  obtain ⟨rfl, -⟩ := validateLifecycle_run_eq_ok_iff.mp hcheck
  by_cases hdone : current.state = next ∧ current.updatedAt = text
  · rw [if_pos hdone] at hmove
    cases hmove
    exact Or.inl rfl
  · rw [if_neg hdone] at hmove
    simp only [Tx.ensure_bind_eq_ok_iff, Tx.read_bind, Tx.write_bind, Tx.ofResult_bind_eq_ok_iff,
      okOr_eq_ok_iff] at hmove
    obtain ⟨-, -, row', hrow', stored, hdecode, hlast⟩ := hmove
    obtain ⟨v, db₂, hcheck', hpure⟩ := Tx.run_bind_eq_ok_iff.mp hlast
    obtain ⟨rfl, -⟩ := validateLifecycle_run_eq_ok_iff.mp hcheck'
    cases hpure
    exact Or.inr ⟨hvalid, text, ⟨row', hrow', hdecode⟩, rfl⟩

end AgentVoice.Store

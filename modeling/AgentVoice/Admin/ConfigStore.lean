import AgentVoice.Admin.Configuration
import AgentVoice.Foundations.CompareAndSet
import Mathlib.Data.List.Iterate

/-!
# Updates of the configuration

`AdminConfigStore::update_config`. A call checks its patch against the configuration as it reads it, and then
takes a transaction in which the version must be the one it expects; other calls may take theirs in between. The
versions that the successful calls of a run expected count up one by one (`updateConfig_history`), and every call
that fails leaves the row alone.
-/

namespace AgentVoice.Admin

open AgentVoice.Foundations AgentVoice.Foundations.CompareAndSet AgentVoice.Domain AgentVoice.Store

/-! ### Patches -/

/-- `TaskDurationsPatch`. -/
structure TaskDurationsPatch where
  bill : Option ℤ
  callback : Option ℤ
  reading : Option ℤ
  emailReply : Option ℤ
  preparation : Option ℤ
  deriving DecidableEq, Repr

namespace TaskDurationsPatch

/-- `is_empty`. -/
def isEmpty (p : TaskDurationsPatch) : Bool :=
  p.bill.isNone && p.callback.isNone && p.reading.isNone && p.emailReply.isNone && p.preparation.isNone

/-- `validate`. -/
def validate (p : TaskDurationsPatch) : StoreResult Unit := do
  p.bill.forM (validateTaskDurationMinutes · "task_duration_bill_minutes")
  p.callback.forM (validateTaskDurationMinutes · "task_duration_callback_minutes")
  p.reading.forM (validateTaskDurationMinutes · "task_duration_reading_minutes")
  p.emailReply.forM (validateTaskDurationMinutes · "task_duration_email_reply_minutes")
  p.preparation.forM (validateTaskDurationMinutes · "task_duration_preparation_minutes")

/-- The durations with those of the patch put in. -/
def apply (p : TaskDurationsPatch) (durations : TaskDurations) : TaskDurations where
  bill := p.bill.getD durations.bill
  callback := p.callback.getD durations.callback
  reading := p.reading.getD durations.reading
  emailReply := p.emailReply.getD durations.emailReply
  preparation := p.preparation.getD durations.preparation

end TaskDurationsPatch

/-- `AdminConfigPatch`. -/
structure AdminConfigPatch where
  ownerTimezone : Option String
  workingDays : Option (List WorkingDay)
  workingWindowStart : Option String
  workingWindowEnd : Option String
  minimumNoticeMinutes : Option ℤ
  bookingHorizonDays : Option ℤ
  meetingBufferMinutes : Option ℤ
  retentionDays : Option ℤ
  taskDurationMinutes : Option TaskDurationsPatch
  model : Option String
  deriving DecidableEq, Repr

variable {τ : Type} (timezones : Timezones) (chrono : SecondChrono τ)

namespace AdminConfigPatch

/-- Whether the patch has no member. -/
def isEmpty (p : AdminConfigPatch) : Bool :=
  p.ownerTimezone.isNone && p.workingDays.isNone && p.workingWindowStart.isNone && p.workingWindowEnd.isNone &&
    p.minimumNoticeMinutes.isNone && p.bookingHorizonDays.isNone && p.meetingBufferMinutes.isNone &&
    p.retentionDays.isNone && p.taskDurationMinutes.isNone && p.model.isNone

/-- `validate`. -/
def validate (p : AdminConfigPatch) : StoreResult Unit := do
  require (p.isEmpty = false) (invalid "patch")
  let _ ← transpose (validateTimezone timezones · "owner_timezone") p.ownerTimezone
  p.workingDays.forM (validateWorkingDays · "working_days")
  p.workingWindowStart.forM (validateTime · "working_window_start")
  p.workingWindowEnd.forM (validateTime · "working_window_end")
  p.minimumNoticeMinutes.forM (validateNonNegative · "minimum_notice_minutes")
  p.bookingHorizonDays.forM (validatePositive · "booking_horizon_days")
  p.meetingBufferMinutes.forM (validateNonNegative · "meeting_buffer_minutes")
  p.retentionDays.forM (validatePositive · "retention_days")
  p.taskDurationMinutes.forM fun durations => do
    require (durations.isEmpty = false) (invalid "task_duration_minutes")
    durations.validate
  p.model.forM (validateModel · "model")

/-- The configuration with the members of the patch put in. -/
def merge (p : AdminConfigPatch) (current : AdminConfig) : AdminConfig where
  version := current.version
  ownerTimezone := p.ownerTimezone.or current.ownerTimezone
  workingDays := p.workingDays.getD current.workingDays
  workingWindowStart := p.workingWindowStart.getD current.workingWindowStart
  workingWindowEnd := p.workingWindowEnd.getD current.workingWindowEnd
  minimumNoticeMinutes := p.minimumNoticeMinutes.getD current.minimumNoticeMinutes
  bookingHorizonDays := p.bookingHorizonDays.getD current.bookingHorizonDays
  meetingBufferMinutes := p.meetingBufferMinutes.getD current.meetingBufferMinutes
  retentionDays := p.retentionDays.getD current.retentionDays
  taskDurationMinutes := p.taskDurationMinutes.elim current.taskDurationMinutes (·.apply current.taskDurationMinutes)
  model := p.model.getD current.model
  updatedAt := current.updatedAt

/-- `apply`. -/
def apply (p : AdminConfigPatch) (current : AdminConfig) : StoreResult AdminConfig := do
  let _ ← transpose (validateTimezone timezones · "owner_timezone") p.ownerTimezone
  p.workingDays.forM (validateWorkingDays · "working_days")
  p.workingWindowStart.forM (validateTime · "working_window_start")
  p.workingWindowEnd.forM (validateTime · "working_window_end")
  let next := p.merge current
  require (isWindow next.workingWindowStart next.workingWindowEnd = true) (invalid "working_window")
  validateConfig timezones chrono next
  return next

theorem apply_eq_ok {p : AdminConfigPatch} {current next : AdminConfig}
    (h : p.apply timezones chrono current = .ok next) :
    next = p.merge current ∧ validateConfig timezones chrono next = .ok () := by
  simp only [apply, bind_eq_ok_iff, pure_eq_ok] at h
  obtain ⟨-, -, -, -, -, -, -, -, -, -, u, hvalid, h⟩ := h
  obtain rfl := Except.ok.inj h
  exact ⟨rfl, hvalid⟩

end AdminConfigPatch

/-! ### The table -/

/-- The row of `configuration`; the key, which is always 1, is left out. -/
structure ConfigurationRow extends RawConfig where
  ownerEmail : Value
  ownerPhone : Value
  createdAt : Value
  deriving DecidableEq, Repr

/-- The row that the schema seeds. -/
def ConfigurationRow.seeded (now : SystemTime) : ConfigurationRow where
  version := .integer 1
  ownerTimezone := .null
  workingDays := .text "monday,tuesday,wednesday,thursday,friday"
  workingWindowStart := .text "08:00"
  workingWindowEnd := .text "18:00"
  minimumNoticeMinutes := .integer 60
  bookingHorizonDays := .integer 60
  meetingBufferMinutes := .integer 0
  retentionDays := .integer 90
  taskDurationBillMinutes := .integer 15
  taskDurationCallbackMinutes := .integer 15
  taskDurationReadingMinutes := .integer 30
  taskDurationEmailReplyMinutes := .integer 30
  taskDurationPreparationMinutes := .integer 60
  model := .text "gpt-5.6-luna"
  updatedAt := .text (currentTimestamp now)
  ownerEmail := .null
  ownerPhone := .null
  createdAt := .text (currentTimestamp now)

/-- `query_raw`, on the table of one row. -/
def queryRaw (row : Option ConfigurationRow) : StoreResult RawConfig :=
  okOr (row.map ConfigurationRow.toRawConfig) configInvalid

/-- `AdminConfigStore::read`. -/
def readConfig (row : Option ConfigurationRow) : StoreResult AdminConfig :=
  queryRaw row >>= decodeConfig timezones chrono

/-- `i64::MAX`. -/
def maxInteger : ℤ := 9223372036854775807

/-- `version + 1` in SQL, where the sum of the largest integer and one is a floating point number. -/
def versionPlusOne (version : ℤ) : Value :=
  if version < maxInteger then .integer (version + 1) else .real 0x43E0000000000000#64

theorem versionPlusOne_eq_integer {version value : ℤ} (h : (versionPlusOne version).integerValue = some value) :
    versionPlusOne version = .integer (version + 1) := by
  unfold versionPlusOne at h ⊢
  split_ifs at h ⊢
  · rfl
  · cases h

/-- The row that the update leaves. -/
def ConfigurationRow.update (next : AdminConfig) (expectedVersion : ℤ) (now : SystemTime) (row : ConfigurationRow) :
    ConfigurationRow :=
  { row with
    toRawConfig := RawConfig.write next (versionPlusOne expectedVersion) (.text (strftimeNow now)) }

/-- The checks of `update_config` before its transaction. -/
def checkUpdate (patch : AdminConfigPatch) (row : Option ConfigurationRow) : StoreResult Unit := do
  patch.validate timezones
  let current ← readConfig timezones chrono row
  let _ ← patch.apply timezones chrono current

/-- The transaction of `update_config`. -/
def updateTransaction (expectedVersion : ℤ) (patch : AdminConfigPatch) (now : SystemTime) :
    Tx StoreError (Option ConfigurationRow) AdminConfig := do
  let rawVersion ← Tx.read fun row => row.map (·.version)
  let rawVersion ← Tx.ofResult (okOr rawVersion configInvalid)
  let currentVersion ← Tx.ofResult (okOr rawVersion.integerValue configInvalid)
  Tx.ensure (1 ≤ currentVersion) configInvalid
  Tx.ensure (currentVersion = expectedVersion) (.cursorConflict "configuration")
  let raw ← Tx.read queryRaw
  let current ← Tx.ofResult (raw >>= decodeConfig timezones chrono)
  let next ← Tx.ofResult (patch.apply timezones chrono current)
  -- the column's check: the version is an integer; the checks of the other columns follow from those made above
  Tx.ensure ((versionPlusOne expectedVersion).integerValue.isSome = true) configInvalid
  let own := fun (row : ConfigurationRow) => decide (row.version = .integer expectedVersion)
  let updated ← Tx.read fun row => row.toList.countP own
  Tx.write (Option.map fun row => if own row then row.update next expectedVersion now else row)
  Tx.ensure (updated = 1) (.cursorConflict "configuration")
  let raw ← Tx.read queryRaw
  Tx.ofResult (raw >>= decodeConfig timezones chrono)

/-! ### The columns -/

/-- The columns of `configuration` that a row has values for. -/
inductive Column where
  | version | ownerTimezone | workingDays | workingWindowStart | workingWindowEnd | minimumNoticeMinutes
  | bookingHorizonDays | meetingBufferMinutes | retentionDays | taskDurationBillMinutes | taskDurationCallbackMinutes
  | taskDurationReadingMinutes | taskDurationEmailReplyMinutes | taskDurationPreparationMinutes | emailTriageModel
  | updatedAt | ownerEmail | ownerPhone | createdAt
  deriving DecidableEq, Repr

/-- The value of a column. -/
def ConfigurationRow.column (row : ConfigurationRow) : Column → Value
  | .version => row.version
  | .ownerTimezone => row.ownerTimezone
  | .workingDays => row.workingDays
  | .workingWindowStart => row.workingWindowStart
  | .workingWindowEnd => row.workingWindowEnd
  | .minimumNoticeMinutes => row.minimumNoticeMinutes
  | .bookingHorizonDays => row.bookingHorizonDays
  | .meetingBufferMinutes => row.meetingBufferMinutes
  | .retentionDays => row.retentionDays
  | .taskDurationBillMinutes => row.taskDurationBillMinutes
  | .taskDurationCallbackMinutes => row.taskDurationCallbackMinutes
  | .taskDurationReadingMinutes => row.taskDurationReadingMinutes
  | .taskDurationEmailReplyMinutes => row.taskDurationEmailReplyMinutes
  | .taskDurationPreparationMinutes => row.taskDurationPreparationMinutes
  | .emailTriageModel => row.model
  | .updatedAt => row.updatedAt
  | .ownerEmail => row.ownerEmail
  | .ownerPhone => row.ownerPhone
  | .createdAt => row.createdAt

/-- Whether a patch names a column. -/
def AdminConfigPatch.names (p : AdminConfigPatch) : Column → Bool
  | .ownerTimezone => p.ownerTimezone.isSome
  | .workingDays => p.workingDays.isSome
  | .workingWindowStart => p.workingWindowStart.isSome
  | .workingWindowEnd => p.workingWindowEnd.isSome
  | .minimumNoticeMinutes => p.minimumNoticeMinutes.isSome
  | .bookingHorizonDays => p.bookingHorizonDays.isSome
  | .meetingBufferMinutes => p.meetingBufferMinutes.isSome
  | .retentionDays => p.retentionDays.isSome
  | .taskDurationBillMinutes => (p.taskDurationMinutes.bind (·.bill)).isSome
  | .taskDurationCallbackMinutes => (p.taskDurationMinutes.bind (·.callback)).isSome
  | .taskDurationReadingMinutes => (p.taskDurationMinutes.bind (·.reading)).isSome
  | .taskDurationEmailReplyMinutes => (p.taskDurationMinutes.bind (·.emailReply)).isSome
  | .taskDurationPreparationMinutes => (p.taskDurationMinutes.bind (·.preparation)).isSome
  | .emailTriageModel => p.model.isSome
  | .version | .updatedAt | .ownerEmail | .ownerPhone | .createdAt => false

/-- **A merge keeps what the patch does not name.** -/
theorem column_update_merge {p : AdminConfigPatch} {row : ConfigurationRow} {current : AdminConfig}
    {version expectedVersion : ℤ} {updatedAt : Value} (now : SystemTime)
    (hrow : row.toRawConfig = RawConfig.write current (.integer version) updatedAt) {c : Column}
    (hversion : c ≠ .version) (hupdated : c ≠ .updatedAt) (hnames : p.names c = false) :
    (row.update (p.merge current) expectedVersion now).column c = row.column c := by
  cases c with
  | version => exact absurd rfl hversion
  | updatedAt => exact absurd rfl hupdated
  | ownerEmail | ownerPhone | createdAt => rfl
  | taskDurationBillMinutes | taskDurationCallbackMinutes | taskDurationReadingMinutes
  | taskDurationEmailReplyMinutes | taskDurationPreparationMinutes =>
    simp only [AdminConfigPatch.names, Option.isSome_eq_false_iff, Option.isNone_iff_eq_none] at hnames
    simp only [ConfigurationRow.column, ConfigurationRow.update, hrow, RawConfig.write, AdminConfigPatch.merge]
    cases hdurations : p.taskDurationMinutes with
    | none => rfl
    | some durations =>
      rw [hdurations, Option.bind_some] at hnames
      simp [TaskDurationsPatch.apply, hnames]
  | _ =>
    simp only [AdminConfigPatch.names, Option.isSome_eq_false_iff, Option.isNone_iff_eq_none] at hnames
    simp [ConfigurationRow.column, ConfigurationRow.update, hrow, RawConfig.write, AdminConfigPatch.merge, hnames]

/-! ### What an update does -/

/-- What a successful update does with the row. -/
structure Updated (expectedVersion : ℤ) (patch : AdminConfigPatch) (now : SystemTime)
    (row row' : ConfigurationRow) (config : AdminConfig) : Prop where
  /-- The call expected the stored version. -/
  version : row.version = .integer expectedVersion
  /-- It raises the version by one. -/
  next : row'.version = .integer (expectedVersion + 1)
  /-- It stamps the row. -/
  stamp : row'.updatedAt = .text (strftimeNow now)
  /-- Apart from these two, only the columns that the patch names change. -/
  others : ∀ c, c ≠ .version → c ≠ .updatedAt → patch.names c = false → row'.column c = row.column c
  /-- The patch is merged with the configuration that was stored. -/
  merged : ∃ current, readConfig timezones chrono (some row) = .ok current ∧
    { patch.merge current with
      version := expectedVersion + 1
      updatedAt := config.updatedAt } = config
  /-- The row is read as the configuration that the call returns. -/
  reads : readConfig timezones chrono (some row') = .ok config
  /-- That configuration passes the checks. -/
  valid : validateConfig timezones chrono config = .ok ()

/-- What a successful transaction does. -/
theorem updateTransaction_run_eq_ok {expectedVersion : ℤ} {patch : AdminConfigPatch} {now : SystemTime}
    {t t' : Option ConfigurationRow} {config : AdminConfig}
    (h : (updateTransaction timezones chrono expectedVersion patch now).run t = .ok (config, t')) :
    ∃ row row', t = some row ∧ t' = some row' ∧ Updated timezones chrono expectedVersion patch now row row' config := by
  simp only [updateTransaction, Tx.read_bind, Tx.write_bind, Tx.ofResult_bind_eq_ok_iff, Tx.ensure_bind_eq_ok_iff,
    Tx.run_ofResult_eq_ok_iff, okOr_eq_ok_iff, Value.integerValue_eq_some_iff, Option.map_eq_some_iff] at h
  obtain ⟨_, ⟨row, rfl, rfl⟩, version, hversion, -, rfl, current, hcurrent, next, hnext, hcheck, -, hread, rfl⟩ := h
  obtain ⟨raw, hraw, hdecode⟩ := bind_eq_ok_iff.mp hcurrent
  obtain rfl := Except.ok.inj hraw
  obtain ⟨rfl, hvalid⟩ := AdminConfigPatch.apply_eq_ok timezones chrono hnext
  have hwritten := (decodeConfig_eq_ok timezones chrono hdecode).1
  have hown : decide (row.version = .integer version) = true := decide_eq_true hversion
  rw [Option.map_some, if_pos hown] at hread ⊢
  obtain ⟨raw', hraw', hdecode'⟩ := bind_eq_ok_iff.mp hread
  obtain rfl := Except.ok.inj hraw'
  obtain ⟨hwritten', hvalid'⟩ := decodeConfig_eq_ok timezones chrono hdecode'
  obtain ⟨value, hinteger⟩ := Option.isSome_iff_exists.mp hcheck
  have hplus := versionPlusOne_eq_integer hinteger
  have hconfig : config.version = version + 1 := by
    have := congrArg RawConfig.version hwritten'
    exact (Value.integer.inj (hplus.symm.trans this)).symm
  have hmerged := eq_of_write_eq timezones chrono hvalid' hvalid hwritten'
  rw [hconfig] at hmerged
  exact ⟨row, _, rfl, rfl,
    { version := hversion
      next := hplus
      stamp := rfl
      others := fun c hc hc' hnames => column_update_merge now hwritten hc hc' hnames
      merged := ⟨current, hcurrent, hmerged⟩
      reads := hread
      valid := hvalid' }⟩

/-! ### The machine -/

/-- A call of `update_config` that has passed its checks and not taken its transaction. -/
structure Pending where
  expectedVersion : ℤ
  patch : AdminConfigPatch

/-- The row, and the calls under way. -/
structure Clients (κ : Type) where
  row : Option ConfigurationRow
  pending : κ → Option Pending

variable {κ : Type} [DecidableEq κ]

/-- The call is answered. -/
def Clients.answered (call : κ) (s : Clients κ) : Clients κ :=
  { s with pending := Function.update s.pending call none }

/-- The version of the row. -/
def Clients.version (s : Clients κ) : Option ℤ := s.row.bind fun row => row.version.integerValue

/-- What happens to a call. -/
inductive Action (κ : Type) where
  /-- The call is made; its patch is checked, also against the row as it is now. -/
  | start (call : κ) (expectedVersion : ℤ) (patch : AdminConfigPatch)
  /-- The call takes its transaction. -/
  | transact (call : κ) (now : SystemTime)
  /-- The transaction of the call cannot begin, or cannot be committed. -/
  | refuse (call : κ)

/-- An action: the answer of the call, if it is answered, and the state after it. -/
def act : Action κ → Clients κ → Option (StoreResult AdminConfig) × Clients κ
  | .start call expectedVersion patch, s =>
    match s.pending call, checkUpdate timezones chrono patch s.row with
    | some _, _ => (none, s)
    | none, .error e => (some (.error e), s)
    | none, .ok () => (none, { s with pending := Function.update s.pending call (some ⟨expectedVersion, patch⟩) })
  | .transact call now, s =>
    match s.pending call with
    | none => (none, s)
    | some p =>
      let r := (updateTransaction timezones chrono p.expectedVersion p.patch now).commit s.row
      (some r.1, { s.answered call with row := r.2 })
  | .refuse call, s =>
    match s.pending call with
    | none => (none, s)
    | some _ => (some (.error configInvalid), s.answered call)

/-- The state after an action. -/
def step (a : Action κ) (s : Clients κ) : Clients κ := (act timezones chrono a s).2

/-- The version that a successful call expected, and the version that it left. -/
def accepted (a : Action κ) (s : Clients κ) : Option (Exchange (Option ℤ)) :=
  match a, (act timezones chrono a s).1 with
  | .transact call _, some (.ok _) =>
    (s.pending call).map fun p => ⟨some p.expectedVersion, (step timezones chrono a s).version⟩
  | _, _ => none

/-- A call that succeeds. -/
theorem act_eq_ok {a : Action κ} {s : Clients κ} {config : AdminConfig}
    (h : (act timezones chrono a s).1 = some (.ok config)) :
    ∃ call p now row row', a = .transact call now ∧ s.pending call = some p ∧ s.row = some row ∧
      step timezones chrono a s = { s.answered call with row := some row' } ∧
      Updated timezones chrono p.expectedVersion p.patch now row row' config := by
  cases a with
  | start call expectedVersion patch =>
    unfold act at h
    cases hpending : s.pending call with
    | some p => simp [hpending] at h
    | none => cases hcheck : checkUpdate timezones chrono patch s.row <;> simp [hpending, hcheck] at h
  | refuse call =>
    unfold act at h
    cases hpending : s.pending call <;> simp [hpending] at h
  | transact call now =>
    cases hpending : s.pending call with
    | none => simp [act, hpending] at h
    | some p =>
      simp only [act, hpending, Option.some.injEq] at h
      obtain ⟨row, row', hrow, hrow', hupdated⟩ :=
        updateTransaction_run_eq_ok timezones chrono (Tx.commit_eq_ok_iff.mp (Prod.ext h rfl))
      exact ⟨call, p, now, row, row', rfl, hpending, hrow, by simp only [step, act, hpending, hrow'], hupdated⟩

/-- An action that answers no call with a success leaves the row alone. -/
theorem row_act {a : Action κ} {s : Clients κ} (h : ∀ config, (act timezones chrono a s).1 ≠ some (.ok config)) :
    (step timezones chrono a s).row = s.row := by
  cases a with
  | start call expectedVersion patch =>
    cases hpending : s.pending call with
    | some p => simp [step, act, hpending]
    | none => cases hcheck : checkUpdate timezones chrono patch s.row <;> simp [step, act, hpending, hcheck]
  | refuse call =>
    cases hpending : s.pending call <;> simp [step, act, hpending, Clients.answered]
  | transact call now =>
    cases hpending : s.pending call with
    | none => simp only [step, act, hpending]
    | some p =>
      simp only [act, hpending] at h
      cases hrun : (updateTransaction timezones chrono p.expectedVersion p.patch now).run s.row with
      | error e => simp only [step, act, hpending, Tx.commit_of_error hrun]
      | ok r =>
        obtain ⟨config, row⟩ := r
        rw [Tx.commit_of_ok hrun] at h
        exact absurd rfl (h config)

/-- A call that succeeds expects the version before and leaves the one after it. -/
theorem accepted_some {a : Action κ} {s : Clients κ} {e : Exchange (Option ℤ)}
    (h : accepted timezones chrono a s = some e) :
    ∃ version, e = ⟨some version, some (version + 1)⟩ ∧ s.version = some version ∧
      (step timezones chrono a s).version = some (version + 1) := by
  cases hanswer : (act timezones chrono a s).1 with
  | none => cases a <;> simp [accepted, hanswer] at h
  | some r =>
    cases r with
    | error e' => cases a <;> simp [accepted, hanswer] at h
    | ok config =>
      obtain ⟨call, p, now, row, row', rfl, hpending, hrow, hstep, hupdated⟩ := act_eq_ok timezones chrono hanswer
      simp only [accepted, hanswer, hpending, Option.map_some, Option.some.injEq] at h
      subst h
      have hversion : s.version = some p.expectedVersion := by
        rw [Clients.version, hrow, Option.bind_some, hupdated.version]
        rfl
      have hnext : (step timezones chrono (.transact call now) s).version = some (p.expectedVersion + 1) := by
        rw [hstep, Clients.version, Option.bind_some, hupdated.next]
        rfl
      exact ⟨p.expectedVersion, by rw [hnext], hversion, hnext⟩

theorem accepted_none {a : Action κ} {s : Clients κ} (h : accepted timezones chrono a s = none) :
    (step timezones chrono a s).version = s.version := by
  have hfail : ∀ config, (act timezones chrono a s).1 ≠ some (.ok config) := by
    intro config hanswer
    obtain ⟨call, p, now, row, row', rfl, hpending, -⟩ := act_eq_ok timezones chrono hanswer
    simp [accepted, hanswer, hpending] at h
  rw [Clients.version, row_act timezones chrono hfail, Clients.version]

/-- **Updates are linearizable.** In every run of calls, the versions that the successful calls expected are, in
order, the first version and those after it, and the last version is the one after them. Whatever happens next: a
call that succeeds merges its patch with the configuration that is stored, which has the version it expects, raises
the version by one, stamps the row, and changes no other column that the patch does not name; what it leaves passes
the checks and is what it returns. Otherwise the row stays as it is. -/
theorem updateConfig_history (actions : List (Action κ)) (s : Clients κ) :
    ((exchanges (step timezones chrono) (accepted timezones chrono) actions s).map Exchange.expected =
        List.iterate (Option.map (· + 1)) s.version
          (exchanges (step timezones chrono) (accepted timezones chrono) actions s).length ∧
      (Machine.run (step timezones chrono) actions s).version =
        (Option.map (· + 1))^[(exchanges (step timezones chrono) (accepted timezones chrono) actions s).length]
          s.version) ∧
    ∀ a, (∀ config, (act timezones chrono a (Machine.run (step timezones chrono) actions s)).1 = some (.ok config) →
        ∃ call p now row row', a = .transact call now ∧
          (Machine.run (step timezones chrono) actions s).pending call = some p ∧
          (Machine.run (step timezones chrono) actions s).row = some row ∧
          (step timezones chrono a (Machine.run (step timezones chrono) actions s)).row = some row' ∧
          Updated timezones chrono p.expectedVersion p.patch now row row' config) ∧
      ((∀ config, (act timezones chrono a (Machine.run (step timezones chrono) actions s)).1 ≠ some (.ok config)) →
        (step timezones chrono a (Machine.run (step timezones chrono) actions s)).row =
          (Machine.run (step timezones chrono) actions s).row) := by
  have hlinked : Linked s.version (exchanges (step timezones chrono) (accepted timezones chrono) actions s)
      (Machine.run (step timezones chrono) actions s).version := by
    refine linked_exchanges Clients.version (fun a t e he => ?_)
      (fun _ _ => accepted_none timezones chrono) actions s
    obtain ⟨version, rfl, hversion, hnext⟩ := accepted_some timezones chrono he
    refine ⟨hversion.symm, hnext.symm, ?_⟩
    rw [hversion, hnext, ne_eq, Option.some.injEq]
    omega
  have hsucc : ∀ e ∈ exchanges (step timezones chrono) (accepted timezones chrono) actions s,
      e.next = e.expected.map (· + 1) := by
    refine forall_mem_exchanges (fun a t e he => ?_) actions s
    obtain ⟨version, rfl, -⟩ := accepted_some timezones chrono he
    rfl
  refine ⟨hlinked.expected_eq_iterate hsucc, fun a => ⟨fun config h => ?_, row_act timezones chrono⟩⟩
  obtain ⟨call, p, now, row, row', ha, hpending, hrow, hstep, hupdated⟩ := act_eq_ok timezones chrono h
  exact ⟨call, p, now, row, row', ha, hpending, hrow, by rw [hstep], hupdated⟩

/-- An update of the model only. -/
def modelPatch : AdminConfigPatch where
  ownerTimezone := none
  workingDays := none
  workingWindowStart := none
  workingWindowEnd := none
  minimumNoticeMinutes := none
  bookingHorizonDays := none
  meetingBufferMinutes := none
  retentionDays := none
  taskDurationMinutes := none
  model := some "gpt-5.6-terra"

/-- The one call under way, on the seeded row: an update of the model only. -/
def modelUpdate : Clients Unit :=
  step (fun _ => none) SecondChrono.fourDigitYears (.start () 1 modelPatch)
    ⟨some (ConfigurationRow.seeded newYear), fun _ => none⟩

/-- Not only the columns that the patch names change, and the version: a successful update of the model also changes
the stamp. -/
theorem updateConfig_changes_updatedAt :
    ∃ config row row',
      (act (fun _ => none) SecondChrono.fourDigitYears (.transact () newYear) modelUpdate).1 = some (.ok config) ∧
      modelUpdate.row = some row ∧
      (step (fun _ => none) SecondChrono.fourDigitYears (.transact () newYear) modelUpdate).row = some row' ∧
      modelPatch.names .updatedAt = false ∧ row'.column .updatedAt ≠ row.column .updatedAt := by
  refine ⟨⟨2, none, [.monday, .tuesday, .wednesday, .thursday, .friday], "08:00", "18:00", 60, 60, 0, 90,
      ⟨15, 15, 30, 30, 60⟩, "gpt-5.6-terra", "2026-01-01T00:00:00Z"⟩, ConfigurationRow.seeded newYear,
    { ConfigurationRow.seeded newYear with
      version := .integer 2
      model := .text "gpt-5.6-terra"
      updatedAt := .text "2026-01-01T00:00:00Z" }, ?_, ?_, ?_, ?_, ?_⟩
  · decide +kernel
  · decide +kernel
  · decide +kernel
  · decide +kernel
  · decide +kernel

end AgentVoice.Admin

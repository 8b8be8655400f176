import AgentVoice.Domain.Chrono
import AgentVoice.Store.AppointmentQuotes
import AgentVoice.Store.Tasks
import Mathlib.Data.List.SplitOn

/-!
# The configuration

The admin configuration and its patches, as `src/pa/admin_config.rs` checks and merges them. The
configuration is read from a row of untyped SQL values (`decodeConfig`), and a patch is merged with what
was read (`AdminConfigPatch.apply`). What is read determines the values of the row it was read from
(`decodeConfig_eq_ok`), and a merge keeps what the patch does not name (`apply_eq_ok`). The parser of time
zone names and the date library are parameters.
-/

namespace AgentVoice.Admin

open AgentVoice.Foundations AgentVoice.Domain AgentVoice.Store

/-- `invalid`. -/
def invalid (field : String) : StoreError := .invalidInput field

/-- `config_invalid`. -/
def configInvalid : StoreError := storedRecordInvalid "configuration"

/-! ### Working days -/

/-- `WorkingDay`. -/
inductive WorkingDay where
  | monday | tuesday | wednesday | thursday | friday | saturday | sunday
  deriving DecidableEq, Repr

namespace WorkingDay

/-- `as_str`. -/
def asStr : WorkingDay → String
  | monday => "monday"
  | tuesday => "tuesday"
  | wednesday => "wednesday"
  | thursday => "thursday"
  | friday => "friday"
  | saturday => "saturday"
  | sunday => "sunday"

/-- `parse_storage`. -/
def parseStorage (value : String) : Option WorkingDay :=
  [monday, tuesday, wednesday, thursday, friday, saturday, sunday].find? fun day => day.asStr == value

theorem asStr_of_parseStorage {value : String} {day : WorkingDay} (h : parseStorage value = some day) :
    day.asStr = value := beq_iff_eq.mp (List.find?_some (p := fun d : WorkingDay => d.asStr == value) h)

theorem parseStorage_asStr (day : WorkingDay) : parseStorage day.asStr = some day := by
  cases day <;> decide

end WorkingDay

/-- `has_duplicate_days`. -/
def hasDuplicateDays (days : List WorkingDay) : Bool := !decide days.Nodup

/-- `parse_working_days`. -/
def parseWorkingDays (value : String) : Option (List WorkingDay) := do
  let days ← (value.toList.splitOn ',').mapM fun part => WorkingDay.parseStorage (String.ofList part)
  if days.isEmpty || hasDuplicateDays days then none else some days

/-- `validate_working_days`. -/
def validateWorkingDays (days : List WorkingDay) (field : String) : StoreResult Unit :=
  if days.isEmpty || hasDuplicateDays days then .error (invalid field) else .ok ()

/-- `working_days_storage`. -/
def workingDaysStorage (days : List WorkingDay) : String := String.intercalate "," (days.map WorkingDay.asStr)

/-- What names the days is what the days are stored as. -/
theorem map_toList_of_mapM {parts : List (List Char)} {days : List WorkingDay}
    (h : parts.mapM (fun part => WorkingDay.parseStorage (String.ofList part)) = some days) :
    days.map (fun day => day.asStr.toList) = parts := by
  induction parts generalizing days with
  | nil =>
    obtain rfl := Option.some.inj h
    rfl
  | cons part parts ih =>
    simp only [List.mapM_cons, Option.bind_eq_bind, Option.pure_def, Option.bind_eq_some_iff] at h
    obtain ⟨day, hday, rest, hrest, hpure⟩ := h
    obtain rfl := Option.some.inj hpure
    rw [List.map_cons, ih hrest, WorkingDay.asStr_of_parseStorage hday, String.toList_ofList]

/-- **The days are stored as the text they are read from.** -/
theorem workingDaysStorage_of_parse {value : String} {days : List WorkingDay}
    (h : parseWorkingDays value = some days) : workingDaysStorage days = value := by
  obtain ⟨days', hparts, h⟩ := Option.bind_eq_some_iff.mp h
  split_ifs at h
  obtain rfl := Option.some.inj h
  rw [← String.toList_inj, workingDaysStorage, String.toList_intercalate, List.map_map,
    show (String.toList ∘ WorkingDay.asStr) = fun day : WorkingDay => day.asStr.toList from rfl,
    map_toList_of_mapM hparts]
  exact List.intercalate_splitOn ','

/-- **The days are read back from what they are stored as.** -/
theorem parseWorkingDays_storage {days : List WorkingDay} (hne : days.isEmpty = false)
    (hunique : hasDuplicateDays days = false) : parseWorkingDays (workingDaysStorage days) = some days := by
  have hparts : (workingDaysStorage days).toList.splitOn ',' = days.map fun day => day.asStr.toList := by
    rw [workingDaysStorage, String.toList_intercalate, List.map_map,
      show (String.toList ∘ WorkingDay.asStr) = fun day : WorkingDay => day.asStr.toList from rfl]
    refine List.splitOn_intercalate ',' ?_ (by simpa using hne)
    intro part hpart
    obtain ⟨day, -, rfl⟩ := List.mem_map.mp hpart
    cases day <;> decide
  have hread : (days.map fun day => day.asStr.toList).mapM
      (fun part => WorkingDay.parseStorage (String.ofList part)) = some days := by
    clear hparts hne hunique
    induction days with
    | nil => rfl
    | cons day days ih => simp [List.mapM_cons, WorkingDay.parseStorage_asStr, ih]
  rw [parseWorkingDays, hparts, hread, Option.bind_eq_bind, Option.bind_some, hne, hunique]
  rfl

/-- `validate_working_days`, as a condition. -/
theorem validateWorkingDays_eq_ok_iff {days : List WorkingDay} {field : String} {u : Unit} :
    validateWorkingDays days field = .ok u ↔ days.isEmpty = false ∧ hasDuplicateDays days = false := by
  unfold validateWorkingDays
  cases days.isEmpty <;> cases hasDuplicateDays days <;> simp

/-! ### Times of day -/

/-- `Time::parse(_, HH_MM)`: the minutes since midnight. -/
def parseTime (value : String) : Option ℕ := do
  let (hour, cs) ← readNumber 2 value.toList
  let cs ← readChar ':' cs
  let (minute, cs) ← readNumber 2 cs
  if cs = [] ∧ hour ≤ 23 ∧ minute ≤ 59 then some (hour * 60 + minute) else none

/-- `Time::format(_, HH_MM)`. -/
def formatTime (t : ℕ) : String := String.ofList (decimal 2 (t / 60) ++ ':' :: decimal 2 (t % 60))

/-- `canonical_time`. -/
def canonicalTime (value : String) : Option String := do
  let parsed ← parseTime value
  let canonical := formatTime parsed
  if canonical = value then some canonical else none

theorem eq_of_canonicalTime {value text : String} (h : canonicalTime value = some text) : text = value := by
  obtain ⟨parsed, -, h⟩ := Option.bind_eq_some_iff.mp h
  by_cases hsame : formatTime parsed = value
  · rw [if_pos hsame] at h
    exact (Option.some.inj h).symm.trans hsame
  · rw [if_neg hsame] at h
    cases h

/-- Whether both times can be read and the first is before the second. -/
def isWindow (start stop : String) : Bool :=
  match parseTime start, parseTime stop with
  | some start, some stop => decide (start < stop)
  | _, _ => false

/-! ### The checks -/

variable {τ : Type} (timezones : Timezones) (chrono : SecondChrono τ)

/-- `validate_time`. -/
def validateTime (value field : String) : StoreResult Unit :=
  require ((canonicalTime value).isSome = true) (invalid field)

/-- `validate_timezone`. -/
def validateTimezone (value field : String) : StoreResult String := do
  require (value.isEmpty = false ∧ trim value = value ∧ (timezones value).isSome = true) (invalid field)
  return value

/-- `MODEL_MAX_BYTES`. -/
def modelMaxBytes : ℕ := 128

/-- `validate_model`. -/
def validateModel (value field : String) : StoreResult Unit :=
  require (value.isEmpty = false ∧ byteLength value ≤ modelMaxBytes ∧
    value.toList.all (fun c => !isControl c && !isWhitespace c) = true) (invalid field)

/-- `validate_non_negative`. -/
def validateNonNegative (value : ℤ) (field : String) : StoreResult Unit := require (0 ≤ value) (invalid field)

/-- `validate_positive`. -/
def validatePositive (value : ℤ) (field : String) : StoreResult Unit := require (1 ≤ value) (invalid field)

/-- `validate_task_duration_minutes`. -/
def validateTaskDurationMinutes (value : ℤ) (field : String) : StoreResult Unit := do
  validatePositive value field
  require (value ≤ maxTaskDurationMinutes) (invalid field)

/-- `canonical_timestamp`. -/
def canonicalTimestamp (value : String) : Option String :=
  ((chrono.parseFromRfc3339 value).or (chrono.parseFromStr value)).map chrono.toRfc3339

theorem validateTimezone_eq_ok_iff {value field text : String} :
    validateTimezone timezones value field = .ok text ↔
      (value.isEmpty = false ∧ trim value = value ∧ (timezones value).isSome = true) ∧ text = value := by
  simp only [validateTimezone, bind_eq_ok_iff, require_eq_ok_iff, pure_eq_ok, Except.ok.injEq, eq_comm (a := value),
    exists_and_left, exists_const]

/-! ### The configuration -/

/-- `TaskDurations`. -/
structure TaskDurations where
  bill : ℤ
  callback : ℤ
  reading : ℤ
  emailReply : ℤ
  preparation : ℤ
  deriving DecidableEq, Repr

/-- `AdminConfig`. -/
structure AdminConfig where
  version : ℤ
  ownerTimezone : Option String
  workingDays : List WorkingDay
  workingWindowStart : String
  workingWindowEnd : String
  minimumNoticeMinutes : ℤ
  bookingHorizonDays : ℤ
  meetingBufferMinutes : ℤ
  retentionDays : ℤ
  taskDurationMinutes : TaskDurations
  model : String
  updatedAt : String
  deriving DecidableEq, Repr

/-- `validate_config`. -/
def validateConfig (config : AdminConfig) : StoreResult Unit := do
  validatePositive config.version "version"
  let _ ← transpose (validateTimezone timezones · "owner_timezone") config.ownerTimezone
  validateWorkingDays config.workingDays "working_days"
  validateTime config.workingWindowStart "working_window_start"
  validateTime config.workingWindowEnd "working_window_end"
  require (isWindow config.workingWindowStart config.workingWindowEnd = true) configInvalid
  validateNonNegative config.minimumNoticeMinutes "minimum_notice_minutes"
  validatePositive config.bookingHorizonDays "booking_horizon_days"
  validateNonNegative config.meetingBufferMinutes "meeting_buffer_minutes"
  validatePositive config.retentionDays "retention_days"
  validateTaskDurationMinutes config.taskDurationMinutes.bill "task_duration_bill_minutes"
  validateTaskDurationMinutes config.taskDurationMinutes.callback "task_duration_callback_minutes"
  validateTaskDurationMinutes config.taskDurationMinutes.reading "task_duration_reading_minutes"
  validateTaskDurationMinutes config.taskDurationMinutes.emailReply "task_duration_email_reply_minutes"
  validateTaskDurationMinutes config.taskDurationMinutes.preparation "task_duration_preparation_minutes"
  validateModel config.model "model"
  require ((canonicalTimestamp chrono config.updatedAt).isSome = true) configInvalid

/-! ### Reading the row -/

/-- `rusqlite::types::Value`. -/
inductive Value where
  | null
  | integer (value : ℤ)
  | real (bits : BitVec 64)
  | text (value : String)
  | blob (value : List UInt8)
  deriving DecidableEq, Repr

namespace Value

/-- `text_value`. -/
def textValue : Value → Option String
  | text value => some value
  | _ => none

/-- `optional_text`. -/
def optionalText : Value → Option (Option String)
  | null => some none
  | text value => some (some value)
  | _ => none

/-- `integer_value`. -/
def integerValue : Value → Option ℤ
  | integer value => some value
  | _ => none

/-- What an optional text is bound as. -/
def ofOptional : Option String → Value
  | none => null
  | some value => text value

theorem textValue_eq_some_iff {v : Value} {value : String} : v.textValue = some value ↔ v = text value := by
  cases v <;> simp [textValue]

theorem optionalText_eq_some_iff {v : Value} {value : Option String} :
    v.optionalText = some value ↔ v = ofOptional value := by
  cases v <;> cases value <;> simp [optionalText, ofOptional]

theorem integerValue_eq_some_iff {v : Value} {value : ℤ} : v.integerValue = some value ↔ v = integer value := by
  cases v <;> simp [integerValue]

end Value

/-- `RawConfig`. -/
structure RawConfig where
  version : Value
  ownerTimezone : Value
  workingDays : Value
  workingWindowStart : Value
  workingWindowEnd : Value
  minimumNoticeMinutes : Value
  bookingHorizonDays : Value
  meetingBufferMinutes : Value
  retentionDays : Value
  taskDurationBillMinutes : Value
  taskDurationCallbackMinutes : Value
  taskDurationReadingMinutes : Value
  taskDurationEmailReplyMinutes : Value
  taskDurationPreparationMinutes : Value
  model : Value
  updatedAt : Value
  deriving DecidableEq, Repr

/-- `decode_config`. -/
def decodeConfig (raw : RawConfig) : StoreResult AdminConfig := do
  let version ← okOr raw.version.integerValue configInvalid
  let ownerTimezone ← okOr raw.ownerTimezone.optionalText configInvalid
  let ownerTimezone ←
    replaceError (transpose (validateTimezone timezones · "owner_timezone") ownerTimezone) configInvalid
  let workingDays ← okOr (raw.workingDays.textValue.bind parseWorkingDays) configInvalid
  let workingWindowStart ← okOr (raw.workingWindowStart.textValue.bind canonicalTime) configInvalid
  let workingWindowEnd ← okOr (raw.workingWindowEnd.textValue.bind canonicalTime) configInvalid
  require (isWindow workingWindowStart workingWindowEnd = true) configInvalid
  let minimumNoticeMinutes ← okOr raw.minimumNoticeMinutes.integerValue configInvalid
  let bookingHorizonDays ← okOr raw.bookingHorizonDays.integerValue configInvalid
  let meetingBufferMinutes ← okOr raw.meetingBufferMinutes.integerValue configInvalid
  let retentionDays ← okOr raw.retentionDays.integerValue configInvalid
  let bill ← okOr raw.taskDurationBillMinutes.integerValue configInvalid
  let callback ← okOr raw.taskDurationCallbackMinutes.integerValue configInvalid
  let reading ← okOr raw.taskDurationReadingMinutes.integerValue configInvalid
  let emailReply ← okOr raw.taskDurationEmailReplyMinutes.integerValue configInvalid
  let preparation ← okOr raw.taskDurationPreparationMinutes.integerValue configInvalid
  let model ← okOr raw.model.textValue configInvalid
  let updatedAt ← okOr (raw.updatedAt.textValue.bind (canonicalTimestamp chrono)) configInvalid
  let config : AdminConfig :=
    ⟨version, ownerTimezone, workingDays, workingWindowStart, workingWindowEnd, minimumNoticeMinutes,
      bookingHorizonDays, meetingBufferMinutes, retentionDays, ⟨bill, callback, reading, emailReply, preparation⟩,
      model, updatedAt⟩
  replaceError (validateConfig timezones chrono config) configInvalid
  return config

/-- The values that the configuration is written as, beside the ones the database computes. -/
def RawConfig.write (next : AdminConfig) (version updatedAt : Value) : RawConfig where
  version := version
  ownerTimezone := .ofOptional next.ownerTimezone
  workingDays := .text (workingDaysStorage next.workingDays)
  workingWindowStart := .text next.workingWindowStart
  workingWindowEnd := .text next.workingWindowEnd
  minimumNoticeMinutes := .integer next.minimumNoticeMinutes
  bookingHorizonDays := .integer next.bookingHorizonDays
  meetingBufferMinutes := .integer next.meetingBufferMinutes
  retentionDays := .integer next.retentionDays
  taskDurationBillMinutes := .integer next.taskDurationMinutes.bill
  taskDurationCallbackMinutes := .integer next.taskDurationMinutes.callback
  taskDurationReadingMinutes := .integer next.taskDurationMinutes.reading
  taskDurationEmailReplyMinutes := .integer next.taskDurationMinutes.emailReply
  taskDurationPreparationMinutes := .integer next.taskDurationMinutes.preparation
  model := .text next.model
  updatedAt := updatedAt

/-- **What is read determines the row.** A row that can be read is what the configuration read from it is written
as, and the configuration passes the checks. -/
theorem decodeConfig_eq_ok {raw : RawConfig} {config : AdminConfig}
    (h : decodeConfig timezones chrono raw = .ok config) :
    raw = RawConfig.write config (.integer config.version) raw.updatedAt ∧
      validateConfig timezones chrono config = .ok () := by
  simp only [decodeConfig, bind_eq_ok_iff, okOr_eq_ok_iff, require_eq_ok_iff, replaceError_eq_ok_iff, pure_eq_ok,
    Value.integerValue_eq_some_iff, Value.optionalText_eq_some_iff, Value.textValue_eq_some_iff,
    Option.bind_eq_some_iff] at h
  obtain ⟨version, hversion, zone, hzone, zone', hzone', days, ⟨daysText, hdaysText, hdays⟩, start,
    ⟨startText, hstartText, hstart⟩, stop, ⟨stopText, hstopText, hstop⟩, -, -, notice, hnotice, horizon, hhorizon,
    buffer, hbuffer, retention, hretention, bill, hbill, callback, hcallback, reading, hreading, email, hemail,
    preparation, hpreparation, model, hmodel, updated, -, u, hvalid, h⟩ := h
  obtain rfl := Except.ok.inj h
  refine ⟨?_, hvalid⟩
  obtain rfl := eq_of_transpose_eq_ok (fun _ _ h => ((validateTimezone_eq_ok_iff timezones).mp h).2.symm) hzone'
  obtain rfl := workingDaysStorage_of_parse hdays
  obtain rfl := eq_of_canonicalTime hstart
  obtain rfl := eq_of_canonicalTime hstop
  rw [RawConfig.write, ← hversion, ← hzone, ← hdaysText, ← hstartText, ← hstopText, ← hnotice, ← hhorizon, ← hbuffer,
    ← hretention, ← hbill, ← hcallback, ← hreading, ← hemail, ← hpreparation, ← hmodel]

theorem validateConfig_workingDays {config : AdminConfig} (h : validateConfig timezones chrono config = .ok ()) :
    parseWorkingDays (workingDaysStorage config.workingDays) = some config.workingDays := by
  simp only [validateConfig, bind_eq_ok_iff] at h
  obtain ⟨-, -, -, -, u, hdays, -⟩ := h
  obtain ⟨hne, hunique⟩ := validateWorkingDays_eq_ok_iff.mp hdays
  exact parseWorkingDays_storage hne hunique

/-- Configurations that pass the checks and are written alike are the same apart from the version and the stamp. -/
theorem eq_of_write_eq {config next : AdminConfig} {version version' updatedAt updatedAt' : Value}
    (hconfig : validateConfig timezones chrono config = .ok ()) (hnext : validateConfig timezones chrono next = .ok ())
    (h : RawConfig.write next version updatedAt = RawConfig.write config version' updatedAt') :
    { next with
      version := config.version
      updatedAt := config.updatedAt } = config := by
  have hdays := validateConfig_workingDays timezones chrono hconfig
  have hdays' := validateConfig_workingDays timezones chrono hnext
  have hdurations : next.taskDurationMinutes = config.taskDurationMinutes := by
    obtain ⟨-, -, -, -, -, -, -, -, -, bill, callback, reading, email, preparation, -⟩ := RawConfig.mk.inj h
    calc next.taskDurationMinutes
        = ⟨next.taskDurationMinutes.bill, next.taskDurationMinutes.callback, next.taskDurationMinutes.reading,
            next.taskDurationMinutes.emailReply, next.taskDurationMinutes.preparation⟩ := rfl
      _ = config.taskDurationMinutes := by
          rw [Value.integer.inj bill, Value.integer.inj callback, Value.integer.inj reading, Value.integer.inj email,
            Value.integer.inj preparation]
  obtain ⟨-, zone, days, start, stop, notice, horizon, buffer, retention, -, -, -, -, -, model, -⟩ := RawConfig.mk.inj h
  rw [Value.text.inj days, hdays] at hdays'
  have hzone : next.ownerTimezone = config.ownerTimezone := by
    have := Value.optionalText_eq_some_iff.mpr zone
    rw [Value.optionalText_eq_some_iff.mpr rfl] at this
    exact Option.some.inj this
  rw [hzone, ← Option.some.inj hdays', Value.text.inj start, Value.text.inj stop, Value.integer.inj notice,
    Value.integer.inj horizon, Value.integer.inj buffer, Value.integer.inj retention, hdurations, Value.text.inj model]

end AgentVoice.Admin

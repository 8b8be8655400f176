import AgentVoice.Domain.Values
import AgentVoice.Store.Error

/-!
# Columns of the store

How the values of a column are written, read back and checked: instants as RFC 3339 text, the texts of
`CURRENT_TIMESTAMP`, identifiers. An instant read from a canonical column is the one instant whose text
the column holds (`parseCanonical_eq_ok_iff`).
-/

namespace AgentVoice.Store

open AgentVoice.Foundations AgentVoice.Domain

/-- `stored_record_invalid`. -/
def storedRecordInvalid (resource : String) : StoreError := .storedRecordInvalid resource

/-! ### Instants -/

/-- What the system clock returns (`OffsetDateTime::now_utc()`): a UTC instant of the years 0 to 9999. -/
structure SystemTime where
  instant : OffsetDateTime
  utc : instant.offsetSeconds = 0
  writable : instant.YearWritable

/-- `format_offset_datetime`. -/
def formatOffsetDatetime (value : OffsetDateTime) : StoreResult String :=
  okOr value.format (storedRecordInvalid "draft")

theorem formatOffsetDatetime_eq_ok_iff {value : OffsetDateTime} {text : String} :
    formatOffsetDatetime value = .ok text ↔ value.format = some text := okOr_eq_ok_iff

/-- The midnight at which 2026 begins in UTC. -/
def newYear : SystemTime := ⟨⟨1767225600 * second, 0⟩, rfl, by decide⟩

/-- The clock's instants can be written. -/
theorem SystemTime.exists_format (now : SystemTime) : ∃ text, formatOffsetDatetime now.instant = .ok text := by
  have hoffset : OffsetWritable now.instant.offsetSeconds := by
    rw [now.utc]
    decide
  exact ⟨_, formatOffsetDatetime_eq_ok_iff.mpr (if_pos ⟨now.writable, hoffset⟩)⟩

/-- `parse_offset_datetime`. -/
def parseOffsetDatetime (value : String) : StoreResult OffsetDateTime :=
  okOr (parse value) (storedRecordInvalid "draft")

/-- Reads a UTC instant whose text must be the one its own instant is written as. -/
def parseCanonical (resource value : String) : StoreResult OffsetDateTime := do
  let parsed ← okOr (parse value) (storedRecordInvalid resource)
  let canonical ← okOr parsed.toUtc.format (storedRecordInvalid resource)
  require (canonical = value) (storedRecordInvalid resource)
  return parsed.toUtc

/-- **A canonical column holds the text of the instant that is read from it.** -/
theorem parseCanonical_eq_ok_iff {resource value : String} {t : OffsetDateTime} :
    parseCanonical resource value = .ok t ↔ t.offsetSeconds = 0 ∧ t.format = some value := by
  constructor
  · intro h
    obtain ⟨parsed, -, h⟩ := bind_eq_ok_iff.mp h
    obtain ⟨canonical, hformat, h⟩ := bind_eq_ok_iff.mp h
    obtain ⟨u, hsame, h⟩ := bind_eq_ok_iff.mp h
    obtain rfl := Except.ok.inj h
    rw [require_eq_ok_iff] at hsame
    rw [okOr_eq_ok_iff, hsame] at hformat
    exact ⟨rfl, hformat⟩
  · rintro ⟨hutc, hformat⟩
    have hself : t.toUtc = t := OffsetDateTime.toUtc_eq_self hutc
    simp [parseCanonical, parse_format hformat, hself, hformat, require]

/-- Formats a whole second in UTC; the error names the field. -/
def wholeSecondText (value : OffsetDateTime) (field : String) : StoreResult (OffsetDateTime × String) := do
  let value := value.toUtc
  require (value.nanosecond = 0) (.invalidInput field)
  let text ← okOr value.format (.invalidInput field)
  return (value, text)

theorem wholeSecondText_eq_ok_iff {value t : OffsetDateTime} {field text : String} :
    wholeSecondText value field = .ok (t, text) ↔
      t = value.toUtc ∧ value.toUtc.nanosecond = 0 ∧ value.toUtc.format = some text := by
  simp only [wholeSecondText, bind_eq_ok_iff, require_eq_ok_iff, okOr_eq_ok_iff, pure_eq_ok, Except.ok.injEq,
    Prod.mk.injEq]
  constructor
  · rintro ⟨-, hnanos, text, hformat, rfl, rfl⟩
    exact ⟨rfl, hnanos, hformat⟩
  · rintro ⟨rfl, hnanos, hformat⟩
    exact ⟨(), hnanos, text, hformat, rfl, rfl⟩

/-- Reads a whole second in UTC whose text must be the one it is written as. -/
def parseWholeSecond (resource value : String) : StoreResult OffsetDateTime := do
  let parsed ← okOr (parse value) (storedRecordInvalid resource)
  require (parsed.toUtc.nanosecond = 0) (storedRecordInvalid resource)
  let canonical ← okOr parsed.toUtc.format (storedRecordInvalid resource)
  require (canonical = value) (storedRecordInvalid resource)
  return parsed.toUtc

theorem parseWholeSecond_eq_ok_iff {resource value : String} {t : OffsetDateTime} :
    parseWholeSecond resource value = .ok t ↔
      t.offsetSeconds = 0 ∧ t.nanosecond = 0 ∧ t.format = some value := by
  constructor
  · intro h
    obtain ⟨parsed, -, h⟩ := bind_eq_ok_iff.mp h
    obtain ⟨u, hnanos, h⟩ := bind_eq_ok_iff.mp h
    obtain ⟨canonical, hformat, h⟩ := bind_eq_ok_iff.mp h
    obtain ⟨v, hsame, h⟩ := bind_eq_ok_iff.mp h
    obtain rfl := Except.ok.inj h
    rw [require_eq_ok_iff] at hsame hnanos
    rw [okOr_eq_ok_iff, hsame] at hformat
    exact ⟨rfl, hnanos, hformat⟩
  · rintro ⟨hutc, hnanos, hformat⟩
    have hself : t.toUtc = t := OffsetDateTime.toUtc_eq_self hutc
    simp [parseWholeSecond, parse_format hformat, hself, hformat, hnanos, require]

/-- A whole second that is read and written again has the text it was read from. -/
theorem parseWholeSecond_format {resource value text : String} {e : StoreError}
    (h : (parseWholeSecond resource value >>= fun t => okOr t.format e) = .ok text) : text = value := by
  obtain ⟨t, ht, htext⟩ := bind_eq_ok_iff.mp h
  obtain ⟨-, -, hformat⟩ := parseWholeSecond_eq_ok_iff.mp ht
  exact Option.some.inj ((okOr_eq_ok_iff.mp htext).symm.trans hformat)

/-- The text `strftime('%Y-%m-%dT%H:%M:%SZ', 'now')` has at an instant. -/
def strftimeNow (now : SystemTime) : String := String.ofList (wholeText now.instant.fields ++ ['Z'])

theorem strftimeNow_format (now : SystemTime) : now.instant.wholeSecond.format = some (strftimeNow now) :=
  OffsetDateTime.wholeSecond_format now.utc now.writable

/-! ### `CURRENT_TIMESTAMP` -/

/-- The text `CURRENT_TIMESTAMP` has at an instant. -/
def currentTimestamp (now : SystemTime) : String :=
  String.ofList (dateText now.instant.fields.date ++ ' ' :: timeText now.instant.fields)

/-- Whether a text is a date and a time as `%Y-%m-%d %H:%M:%S` writes them. -/
def isSqlTimestamp (value : String) : Bool :=
  Option.isSome do
    let (date, cs) ← readDate value.toList
    let cs ← readChar ' ' cs
    let ((hour, min, sec), cs) ← readTime cs
    guard (cs = [] ∧ hour ≤ 23 ∧ min ≤ 59 ∧ sec ≤ 60)
    dayOfCivil date

/-- `validate_stored_timestamp`. -/
def validateStoredTimestamp (value resource : String) : StoreResult String :=
  if isSqlTimestamp value then .ok value else .error (storedRecordInvalid resource)

/-! ### Closed sets of names -/

/-- Reads a value of a closed set from its storage name. -/
def parseName {α : Type} (all : List α) (name : α → String) (error : StoreError) (value : String) : StoreResult α :=
  okOr (all.find? fun a => name a == value) error

theorem parseName_eq_ok_iff {α : Type} {all : List α} {name : α → String} {error : StoreError} {value : String} {a : α}
    (hall : ∀ b, b ∈ all) (hinj : ∀ b ∈ all, ∀ c ∈ all, name b = name c → b = c) :
    parseName all name error value = .ok a ↔ value = name a := by
  rw [parseName, okOr_eq_ok_iff]
  constructor
  · intro h
    have hname := @List.find?_some _ (fun b => name b == value) _ _ h
    exact (beq_iff_eq.mp hname).symm
  · rintro rfl
    cases hfind : all.find? fun b => name b == name a with
    | none => exact absurd (List.find?_eq_none.mp hfind a (hall a)) (by simp)
    | some b =>
      have hname : name b = name a := by simpa using List.find?_some hfind
      rw [hinj b (hall b) a (hall a) hname]

/-! ### Identifiers -/

/-- `validate_non_empty`: the text is kept as it is. -/
def validateNonEmpty (value field : String) : StoreResult String :=
  if IsBlank value then .error (.invalidInput field) else .ok value

theorem validateNonEmpty_eq_ok_iff {value field text : String} :
    validateNonEmpty value field = .ok text ↔ ¬ IsBlank value ∧ value = text := by
  rw [validateNonEmpty]
  by_cases h : IsBlank value <;> simp [h]

/-- `validate_source_id`. -/
def validateSourceId (value : String) : StoreResult String := do
  let value ← validateNonEmpty value "source_id"
  require (hasControl value = false) (.invalidInput "source_id")
  return value

theorem validateSourceId_eq_ok_iff {value text : String} :
    validateSourceId value = .ok text ↔ (¬ IsBlank value ∧ hasControl value = false) ∧ value = text := by
  rw [validateSourceId, validateNonEmpty]
  by_cases h : IsBlank value
  · simp [h]
  · cases hc : hasControl value <;> simp [h, hc, require]

/-- The bound on the bytes of machine identifiers, titles and subjects (`MAX_MESSAGE_ID_LENGTH`). -/
def maxIdentifierLength : ℕ := 256

/-- Whether a text is a machine identifier: not empty, bounded, of ASCII letters, digits, `.`, `_`, `:`, `-`. -/
def isMachineIdentifier (value : String) : Bool :=
  value != "" && decide (byteLength value ≤ maxIdentifierLength) &&
    value.toList.all fun c => isAsciiAlphanumeric c || c == '.' || c == '_' || c == ':' || c == '-'

/-- A machine identifier is trimmed. -/
theorem trim_of_isMachineIdentifier {value : String} (h : isMachineIdentifier value = true) : trim value = value := by
  refine trim_eq_self fun c hc => ?_
  have hall := (Bool.and_eq_true_iff.mp h).2
  have hchar := List.all_eq_true.mp hall c hc
  simp only [isAsciiAlphanumeric, Bool.or_eq_true_iff, Bool.and_eq_true_iff, decide_eq_true_iff, beq_iff_eq] at hchar
  rw [Bool.eq_false_iff]
  intro hspace
  rcases hchar with (((((⟨h₁, h₂⟩ | ⟨h₁, h₂⟩) | ⟨h₁, h₂⟩) | rfl) | rfl) | rfl) | rfl
  all_goals simp [isWhitespace] at hspace
  all_goals omega

/-- The text of a 64-bit id is a machine identifier. -/
theorem isMachineIdentifier_toString {id : ℤ} (hpos : 0 < id) (hfits : id < 2 ^ 63) :
    isMachineIdentifier (toString id) = true := by
  obtain ⟨n, rfl⟩ := Int.eq_ofNat_of_zero_le hpos.le
  have htext : toString (n : ℤ) = String.ofList (Nat.toDigits 10 n) := by
    rw [Int.toString_eq_repr, Int.repr_eq_if, if_pos (by omega), Int.toNat_natCast, Nat.repr_eq_ofList_toDigits]
  have hlength : (Nat.toDigits 10 n).length ≤ 19 :=
    (Nat.length_toDigits_le_iff (by decide) (by decide)).mpr (by omega)
  have hbytes : byteLength (String.ofList (Nat.toDigits 10 n)) ≤ maxIdentifierLength :=
    (byteLength_ofList_le _).trans ((Nat.mul_le_mul_left 4 hlength).trans (by decide))
  have hdigits : ∀ c ∈ Nat.toDigits 10 n, isAsciiAlphanumeric c = true := by
    intro c hc
    have hdigit := Nat.isDigit_of_mem_toDigits (by decide) (by decide) hc
    obtain ⟨hge, hle⟩ : 48 ≤ c.toNat ∧ c.toNat ≤ 57 := Char.isDigit_iff_toNat.mp hdigit
    simp [isAsciiAlphanumeric, hge, hle]
  have hne : String.ofList (Nat.toDigits 10 n) ≠ "" := by
    rw [← Nat.repr_eq_ofList_toDigits]
    exact Nat.repr_ne_empty
  rw [htext, isMachineIdentifier, Bool.and_eq_true_iff, Bool.and_eq_true_iff, bne_iff_ne, decide_eq_true_iff,
    List.all_eq_true, String.toList_ofList]
  exact ⟨⟨hne, hbytes⟩, fun c hc => by simp [hdigits c hc]⟩

/-- `validate_machine_identifier` and its siblings for messages, tasks and audit events, which differ in the
field they name. -/
def validateMachineIdentifier (value field : String) : StoreResult String :=
  if isMachineIdentifier value = true then .ok value else .error (.invalidInput field)

theorem validateMachineIdentifier_eq_ok_iff {value field text : String} :
    validateMachineIdentifier value field = .ok text ↔ isMachineIdentifier value = true ∧ value = text := by
  rw [validateMachineIdentifier]
  by_cases h : isMachineIdentifier value = true <;> simp [h]

/-- Whether a text is not blank, bounded in bytes, and free of control characters. -/
def IsPlainText (maximumLength : ℕ) (value : String) : Prop :=
  ¬ IsBlank value ∧ byteLength value ≤ maximumLength ∧ hasControl value = false

instance (maximumLength : ℕ) (value : String) : Decidable (IsPlainText maximumLength value) :=
  inferInstanceAs (Decidable (_ ∧ _))

/-- `validate_message_text`. -/
def validateMessageText (value field : String) (maximumLength : ℕ) : StoreResult String :=
  if IsPlainText maximumLength value then .ok value else .error (.invalidInput field)

theorem validateMessageText_eq_ok_iff {value field text : String} {maximumLength : ℕ} :
    validateMessageText value field maximumLength = .ok text ↔ IsPlainText maximumLength value ∧ value = text := by
  rw [validateMessageText]
  by_cases h : IsPlainText maximumLength value <;> simp [h]

/-- The idempotency key of a store operation. -/
def storeKey (value : String) : StoreResult IdempotencyKey :=
  replaceError (IdempotencyKey.new value) (.invalidInput "idempotency_key")

theorem storeKey_eq_ok_iff {value : String} {k : IdempotencyKey} :
    storeKey value = .ok k ↔ ¬ IsBlank value ∧ k.text = trim value := by
  rw [storeKey, replaceError_eq_ok_iff, IdempotencyKey.new_eq_ok_iff]

end AgentVoice.Store

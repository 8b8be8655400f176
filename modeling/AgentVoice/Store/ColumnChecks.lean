import AgentVoice.Foundations.SqlText
import AgentVoice.Store.Tasks

/-!
# The constraints of messages and tasks

The `CHECK` constraints of the tables that `apply_schema_v6` and `apply_schema_v7` create, next to the validators that the
store decodes their rows with. Both say the same of a column: an identifier, a text, a name of a closed set, an instant
(`messageColumnChecks_iff`, `taskColumnChecks_iff`), so that a row of validated arguments is always accepted.

`strftime` is the database's; it is only taken to give a canonical instant of the years 0 to 9999 the text it has. The
functions on texts are those of texts without the character zero, which every constraint excludes first.
-/

namespace AgentVoice.Store

open AgentVoice.Foundations AgentVoice.Domain

/-- `strftime`, of a format and an instant's text. -/
abbrev Strftime := String → String → Option String

/-- `%Y-%m-%dT%H:%M:%SZ`. -/
def utcSeconds : String := "%Y-%m-%dT%H:%M:%SZ"

/-- The text of a whole second in UTC, of the years 0 to 9999. -/
def IsCanonicalTimestamp (value : String) : Prop :=
  ∃ t : OffsetDateTime, t.offsetSeconds = 0 ∧ t.nanosecond = 0 ∧ t.format = some value

/-- What is used of `strftime`: a canonical instant is written as it is. -/
def Strftime.KeepsCanonical (strftime : Strftime) : Prop :=
  ∀ value, IsCanonicalTimestamp value → strftime utcSeconds value = some value

/-! ### Constraints of a column -/

/-- `'*[^A-Za-z0-9._:-]*'`. -/
def foreignPattern : List Char := "*[^A-Za-z0-9._:-]*".toList

/-- `'*[' || char(1) || '-' || char(31) || char(127) || '-' || char(159) || ']*'`. -/
def controlPattern : List Char :=
  "*[".toList ++ [Char.ofNat 1, '-', Char.ofNat 31, Char.ofNat 127, '-', Char.ofNat 159] ++ "]*".toList

/-- `'????-??-??T??:??:??Z'`. -/
def timestampPattern : List Char := "????-??-??T??:??:??Z".toList

/-- The characters that a text is trimmed of: `char(9, 10, ..)`. -/
def trimmedCharacters : List Char :=
  [9, 10, 11, 12, 13, 32, 133, 160, 5760, 8192, 8193, 8194, 8195, 8196, 8197, 8198, 8199, 8200, 8201, 8202, 8232, 8233,
    8239, 8287, 12288].map Char.ofNat

/-- The constraint of an identifier. -/
def identifierCheck (value : String) : Bool :=
  decide (1 ≤ (utf8 value).length) && decide ((utf8 value).length ≤ 256) && instr (utf8 value) [0] == 0 &&
    !glob foreignPattern value

/-- The constraint of a text of some bytes at most. -/
def textCheck (maximum : ℕ) (value : String) : Bool :=
  decide (1 ≤ (utf8 value).length) && decide ((utf8 value).length ≤ maximum) && instr (utf8 value) [0] == 0 &&
    decide (0 < (sqlTrim value trimmedCharacters).toList.length) && !glob controlPattern value

/-- The constraint of an instant. -/
def timestampCheck (strftime : Strftime) (value : String) : Bool :=
  (utf8 value).length == 20 && instr (utf8 value) [0] == 0 && glob timestampPattern value &&
    strftime utcSeconds value == some value

/-! ### Constraints of the tables -/

/-- The constraints of the columns of `messages`. -/
structure MessageColumnChecks (strftime : Strftime) (row : MessageStoredRow) : Prop where
  idempotencyKey : identifierCheck row.idempotencyKey = true
  sourceId : identifierCheck row.sourceId = true
  provider : row.provider ∈ ["voice", "outlook", "gmail"]
  providerMessageId : identifierCheck row.providerMessageId = true
  summary : textCheck 4096 row.summary = true
  subject : ∀ subject ∈ row.subject, textCheck 256 subject = true
  sender : ∀ sender ∈ row.sender, textCheck 320 sender = true
  receivedAt : timestampCheck strftime row.receivedAt = true
  triageState : row.triageState ∈ ["recorded", "unprocessed", "actionable", "ambiguous", "ignored", "scheduled"]
  createdAt : timestampCheck strftime row.createdAt = true
  updatedAt : timestampCheck strftime row.updatedAt = true

/-- The constraints of `messages`: those of the columns, and that of a row. -/
structure MessageChecks (strftime : Strftime) (row : MessageStoredRow) : Prop extends
    MessageColumnChecks strftime row where
  lifecycle : row.provider = "voice" ∧ row.triageState = "recorded" ∨
    row.provider ∈ ["outlook", "gmail"] ∧ row.triageState = "unprocessed" ∨
    row.triageState ∈ ["actionable", "ambiguous", "ignored", "scheduled"]

/-- The constraints of `tasks`, all of them of columns. -/
structure TaskChecks (strftime : Strftime) (row : TaskStoredRow) : Prop where
  idempotencyKey : identifierCheck row.idempotencyKey = true
  sourceId : identifierCheck row.sourceId = true
  title : textCheck 256 row.title = true
  kind : row.kind ∈ ["bill", "callback", "reading", "email_reply", "preparation"]
  durationMinutes : 1 ≤ row.durationMinutes ∧ row.durationMinutes ≤ 1440
  dueAt : ∀ dueAt ∈ row.dueAt, timestampCheck strftime dueAt = true
  state : row.state ∈ ["pending", "proposed", "scheduled", "no_slot"]
  createdAt : timestampCheck strftime row.createdAt = true
  updatedAt : timestampCheck strftime row.updatedAt = true

/-! ### Validators of the columns -/

/-- A validator accepts a value. -/
def Accepts {α : Type} (result : StoreResult α) : Prop := ∃ value, result = .ok value

/-- The validators that `decode_message_row` reads the columns with. -/
structure MessageColumnsRead (row : MessageStoredRow) : Prop where
  idempotencyKey : Accepts (validateMachineIdentifier row.idempotencyKey "idempotency_key")
  sourceId : Accepts (validateMachineIdentifier row.sourceId "source_id")
  provider : Accepts (MessageProvider.fromStorage row.provider)
  providerMessageId : Accepts (validateMachineIdentifier row.providerMessageId "provider_message_id")
  summary : Accepts (MessageSummary.new row.summary)
  subject : Accepts (validateMessageSubject row.subject)
  sender : Accepts (validateMessageSender row.sender)
  receivedAt : Accepts (parseMessageTimestamp row.receivedAt)
  triageState : Accepts (MessageTriageState.fromStorage row.triageState)
  createdAt : Accepts (parseMessageTimestampText row.createdAt)
  updatedAt : Accepts (parseMessageTimestampText row.updatedAt)

/-- The validators that `decode_task_row` reads the columns with. -/
structure TaskColumnsRead (row : TaskStoredRow) : Prop where
  idempotencyKey : Accepts (validateMachineIdentifier row.idempotencyKey "idempotency_key")
  sourceId : Accepts (validateMachineIdentifier row.sourceId "source_id")
  title : Accepts (TaskTitle.new row.title)
  kind : Accepts (parseTaskKind row.kind)
  durationMinutes : Accepts (validateTaskDuration row.durationMinutes)
  dueAt : Accepts (transpose (parseTaskTimestamp · "task") row.dueAt)
  state : Accepts (StoredTaskState.fromStorage row.state)
  createdAt : Accepts (parseTaskTimestampText row.createdAt)
  updatedAt : Accepts (parseTaskTimestampText row.updatedAt)

/-- The instants of a row are canonical. -/
structure MessageStoredRow.CanonicalTimes (row : MessageStoredRow) : Prop where
  receivedAt : IsCanonicalTimestamp row.receivedAt
  createdAt : IsCanonicalTimestamp row.createdAt
  updatedAt : IsCanonicalTimestamp row.updatedAt

/-- The instants of a row are canonical. -/
structure TaskStoredRow.CanonicalTimes (row : TaskStoredRow) : Prop where
  dueAt : ∀ dueAt ∈ row.dueAt, IsCanonicalTimestamp dueAt
  createdAt : IsCanonicalTimestamp row.createdAt
  updatedAt : IsCanonicalTimestamp row.updatedAt

/-! ### Validated arguments -/

/-- The arguments of `record_message` have been validated, and the instant written. -/
structure MessageRequest.Validated (r : MessageRequest) (receivedAt : OffsetDateTime) (text : String) : Prop where
  idempotencyKey : Accepts (validateMachineIdentifier r.idempotencyKey "idempotency_key")
  sourceId : Accepts (validateMachineIdentifier r.sourceId "source_id")
  providerMessageId : Accepts (validateMachineIdentifier r.providerMessageId "provider_message_id")
  subject : Accepts (validateMessageSubject r.subject)
  sender : Accepts (validateMessageSender r.sender)
  receivedAt : formatMessageTimestamp r.receivedAt = .ok (receivedAt, text)

/-! ### Identifiers and texts -/

theorem glob_foreignPattern_eq_false_iff {value : String} :
    glob foreignPattern value = false ↔
      ∀ c ∈ value.toList, isAsciiAlphanumeric c = true ∨ c = '.' ∨ c = '_' ∨ c = ':' ∨ c = '-' := by
  have hparts : readGlob foreignPattern = some [.anyText,
      .oneOf true [('A', 'A'), ('A', 'Z'), ('a', 'a'), ('a', 'z'), ('0', '0'), ('0', '9'), ('.', '.'), ('_', '_'),
        (':', ':'), ('-', '-')], .anyText] := by
    decide
  rw [glob, hparts, Option.any_some, ← Bool.not_eq_true, globMatch_around]
  simp only [not_exists, not_and, ne_eq, not_not]
  refine forall₂_congr fun c _ => ?_
  simp only [inRanges, List.any_cons, List.any_nil, Bool.or_false, Bool.or_eq_true, decide_eq_true_iff,
    isAsciiAlphanumeric, Bool.and_eq_true, ← Char.toNat_inj]
  have hpoints : 'A'.toNat = 65 ∧ 'Z'.toNat = 90 ∧ 'a'.toNat = 97 ∧ 'z'.toNat = 122 ∧ '0'.toNat = 48 ∧ '9'.toNat = 57 ∧
      '.'.toNat = 46 ∧ '_'.toNat = 95 ∧ ':'.toNat = 58 ∧ '-'.toNat = 45 := by decide
  omega

theorem glob_controlPattern_eq_false_iff {value : String} :
    glob controlPattern value = false ↔
      ∀ c ∈ value.toList, ¬ (1 ≤ c.toNat ∧ c.toNat ≤ 31) ∧ ¬ (127 ≤ c.toNat ∧ c.toNat ≤ 159) := by
  have hparts : readGlob controlPattern = some [.anyText,
      .oneOf false [(Char.ofNat 1, Char.ofNat 1), (Char.ofNat 1, Char.ofNat 31), (Char.ofNat 127, Char.ofNat 127),
        (Char.ofNat 127, Char.ofNat 159)], .anyText] := by
    decide
  rw [glob, hparts, Option.any_some, ← Bool.not_eq_true, globMatch_around]
  simp only [not_exists, not_and, ne_eq, not_not]
  refine forall₂_congr fun c _ => ?_
  have hpoints : (Char.ofNat 1).toNat = 1 ∧ (Char.ofNat 31).toNat = 31 ∧ (Char.ofNat 127).toNat = 127 ∧
      (Char.ofNat 159).toNat = 159 := by decide
  obtain ⟨h1, h31, h127, h159⟩ := hpoints
  simp only [inRanges, List.any_cons, List.any_nil, Bool.or_false, Bool.or_eq_false_iff, decide_eq_false_iff_not, h1, h31,
    h127, h159]
  omega

theorem instr_zero_iff {value : String} : instr (utf8 value) [0] = 0 ↔ ∀ c ∈ value.toList, c.toNat ≠ 0 := by
  rw [instr_singleton_eq_zero_iff, zero_mem_utf8_iff]
  simp only [not_exists, not_and, ne_eq]

theorem one_le_byteLength_iff {value : String} : 1 ≤ byteLength value ↔ value ≠ "" := by
  rw [byteLength, Nat.one_le_iff_ne_zero, Ne, String.utf8ByteSize_eq_zero_iff]

/-- **The constraint of an identifier is its validator.** -/
theorem identifierCheck_iff {value : String} : identifierCheck value = true ↔ isMachineIdentifier value = true := by
  simp only [identifierCheck, isMachineIdentifier, Bool.and_eq_true, decide_eq_true_eq, beq_iff_eq, Bool.not_eq_true',
    glob_foreignPattern_eq_false_iff, instr_zero_iff, one_le_byteLength_iff, length_utf8, maxIdentifierLength,
    List.all_eq_true, Bool.or_eq_true, bne_iff_ne, ne_eq]
  constructor
  · rintro ⟨⟨⟨hne, hle⟩, -⟩, hall⟩
    refine ⟨⟨hne, hle⟩, fun c hc => ?_⟩
    have := hall c hc
    tauto
  · rintro ⟨⟨hne, hle⟩, hall⟩
    refine ⟨⟨⟨hne, hle⟩, fun c hc hzero => ?_⟩, fun c hc => ?_⟩
    · obtain rfl : c = Char.ofNat 0 := Char.toNat_inj.mp hzero
      exact absurd (hall _ hc) (by decide)
    · have := hall c hc
      tauto

/-- The trimmed characters are the white space. -/
theorem contains_trimmedCharacters (c : Char) : trimmedCharacters.contains c = isWhitespace c := by
  have hpoint (n : ℕ) (hvalid : (Char.ofNat n).toNat = n) : c = Char.ofNat n ↔ c.toNat = n := by
    rw [← Char.toNat_inj, hvalid]
  rw [Bool.eq_iff_iff, List.contains_iff_mem, trimmedCharacters]
  simp only [List.map_cons, List.map_nil, List.mem_cons, List.not_mem_nil, or_false]
  repeat rw [hpoint _ (by decide)]
  simp only [isWhitespace, Bool.or_eq_true, Bool.and_eq_true, decide_eq_true_iff, beq_iff_eq]
  omega

/-- **The constraint of a text is its validator.** -/
theorem textCheck_iff {maximum : ℕ} {value : String} : textCheck maximum value = true ↔ IsPlainText maximum value := by
  have htrim : 0 < (sqlTrim value trimmedCharacters).toList.length ↔ ¬ IsBlank value := by
    rw [sqlTrim, String.toList_ofList, List.length_pos_iff, Ne, trimMatches_eq_nil_iff, isBlank_iff]
    simp only [contains_trimmedCharacters]
  have hcontrol : hasControl value = false ↔ (∀ c ∈ value.toList, c.toNat ≠ 0) ∧
      ∀ c ∈ value.toList, ¬ (1 ≤ c.toNat ∧ c.toNat ≤ 31) ∧ ¬ (127 ≤ c.toNat ∧ c.toNat ≤ 159) := by
    rw [hasControl, List.any_eq_false, ← forall₂_and]
    refine forall₂_congr fun c _ => ?_
    simp only [isControl, Bool.or_eq_true, Bool.and_eq_true, decide_eq_true_iff]
    omega
  simp only [textCheck, IsPlainText, Bool.and_eq_true, decide_eq_true_eq, beq_iff_eq, Bool.not_eq_true']
  rw [length_utf8, glob_controlPattern_eq_false_iff, instr_zero_iff, htrim, hcontrol]
  constructor
  · rintro ⟨⟨⟨⟨-, hle⟩, hzero⟩, hblank⟩, hrange⟩
    exact ⟨hblank, hle, hzero, hrange⟩
  · rintro ⟨hblank, hle, hzero, hrange⟩
    refine ⟨⟨⟨⟨?_, hle⟩, hzero⟩, hblank⟩, hrange⟩
    refine one_le_byteLength_iff.mpr ?_
    rintro rfl
    exact hblank rfl

/-! ### Instants -/

theorem exists_decimal_two (n : ℕ) : ∃ a b, decimal 2 n = [a, b] := List.length_eq_two.mp (length_decimal 2 n)

/-- The characters of a whole second in UTC. -/
theorem exists_wholeText (f : Fields) : ∃ y₁ y₂ y₃ y₄ m₁ m₂ d₁ d₂ h₁ h₂ i₁ i₂ s₁ s₂, wholeText f =
    [y₁, y₂, y₃, y₄, '-', m₁, m₂, '-', d₁, d₂, 'T', h₁, h₂, ':', i₁, i₂, ':', s₁, s₂] := by
  obtain ⟨y₁, y₂, y₃, y₄, hyear⟩ := List.length_eq_four.mp (length_decimal 4 f.date.year)
  obtain ⟨m₁, m₂, hmonth⟩ := exists_decimal_two f.date.month
  obtain ⟨d₁, d₂, hday⟩ := exists_decimal_two f.date.day
  obtain ⟨h₁, h₂, hhour⟩ := exists_decimal_two f.hour
  obtain ⟨i₁, i₂, hminute⟩ := exists_decimal_two f.minute
  obtain ⟨s₁, s₂, hsec⟩ := exists_decimal_two f.sec
  refine ⟨y₁, y₂, y₃, y₄, m₁, m₂, d₁, d₂, h₁, h₂, i₁, i₂, s₁, s₂, ?_⟩
  rw [wholeText, dateText, timeText, hyear, hmonth, hday, hhour, hminute, hsec]
  rfl

/-- A character of a whole second is an ASCII character, and not the character zero. -/
theorem wholeText_ascii {t : OffsetDateTime} (h : t.YearWritable) {c : Char} (hc : c ∈ wholeText t.fields ++ ['Z']) :
    c.toNat ≠ 0 ∧ c.utf8Size = 1 := by
  have hdigit : ∀ c : Char, c.isDigit = true → c.toNat ≠ 0 ∧ c.utf8Size = 1 := by
    intro c hdigit
    obtain ⟨hge, hle⟩ : 48 ≤ c.toNat ∧ c.toNat ≤ 57 := Char.isDigit_iff_toNat.mp hdigit
    refine ⟨by omega, ?_⟩
    have hval : c.val ≤ 127 := by
      rw [UInt32.le_iff_toNat_le]
      show c.toNat ≤ 127
      omega
    exact if_pos hval
  have hdash : '-'.toNat ≠ 0 ∧ '-'.utf8Size = 1 := ⟨by decide, by decide⟩
  have hT : 'T'.toNat ≠ 0 ∧ 'T'.utf8Size = 1 := ⟨by decide, by decide⟩
  have hcolon : ':'.toNat ≠ 0 ∧ ':'.utf8Size = 1 := ⟨by decide, by decide⟩
  have hZ : 'Z'.toNat ≠ 0 ∧ 'Z'.utf8Size = 1 := ⟨by decide, by decide⟩
  obtain ⟨hmonth, hday, hhour, hminute, hsec⟩ := fields_bounds t
  simp only [wholeText, dateText, timeText, List.mem_append, List.mem_cons, List.not_mem_nil, or_false] at hc
  rcases hc with ((hc | rfl | hc | rfl | hc) | rfl | hc | rfl | hc | rfl | hc) | rfl
  · exact hdigit c (isDigit_of_mem_decimal (fields_year_lt h) hc)
  · exact hdash
  · exact hdigit c (isDigit_of_mem_decimal hmonth hc)
  · exact hdash
  · exact hdigit c (isDigit_of_mem_decimal hday hc)
  · exact hT
  · exact hdigit c (isDigit_of_mem_decimal hhour hc)
  · exact hcolon
  · exact hdigit c (isDigit_of_mem_decimal hminute hc)
  · exact hcolon
  · exact hdigit c (isDigit_of_mem_decimal (hsec.trans (by decide)) hc)
  · exact hZ

/-- **A canonical instant meets its constraint.** -/
theorem timestampCheck_of_canonical {strftime : Strftime} (hstrftime : strftime.KeepsCanonical) {value : String}
    (h : IsCanonicalTimestamp value) : timestampCheck strftime value = true := by
  obtain ⟨t, hutc, hnanos, hformat⟩ := h
  obtain ⟨hyear, htext⟩ := OffsetDateTime.format_wholeSecond hutc hnanos hformat
  have hascii : ∀ c ∈ value.toList, c.toNat ≠ 0 ∧ c.utf8Size = 1 := by
    rw [htext]
    exact fun c hc => wholeText_ascii hyear hc
  have hlength : (utf8 value).length = 20 := by
    have hsize := byteLength_ofList_of_utf8Size fun c hc => (hascii c hc).2
    rw [String.ofList_toList] at hsize
    rw [length_utf8, hsize, htext, List.length_append, length_wholeText]
    rfl
  have hpattern : readGlob timestampPattern = some [.anyChar, .anyChar, .anyChar, .anyChar, .char '-', .anyChar, .anyChar,
      .char '-', .anyChar, .anyChar, .char 'T', .anyChar, .anyChar, .char ':', .anyChar, .anyChar, .char ':', .anyChar,
      .anyChar, .char 'Z'] := by decide
  have hglob : glob timestampPattern value = true := by
    obtain ⟨y₁, y₂, y₃, y₄, m₁, m₂, d₁, d₂, h₁, h₂, i₁, i₂, s₁, s₂, hwhole⟩ := exists_wholeText t.fields
    rw [glob, hpattern, Option.any_some, htext, hwhole]
    rfl
  simp only [timestampCheck, Bool.and_eq_true, beq_iff_eq]
  exact ⟨⟨⟨hlength, instr_zero_iff.mpr fun c hc => (hascii c hc).1⟩, hglob⟩, hstrftime value ⟨t, hutc, hnanos, hformat⟩⟩

/-- A canonical instant is read. -/
theorem accepts_parseWholeSecond_iff {resource value : String} :
    Accepts (parseWholeSecond resource value) ↔ IsCanonicalTimestamp value := by
  constructor
  · rintro ⟨t, ht⟩
    exact ⟨t, parseWholeSecond_eq_ok_iff.mp ht⟩
  · rintro ⟨t, ht⟩
    exact ⟨t, parseWholeSecond_eq_ok_iff.mpr ht⟩

theorem accepts_parseMessageTimestampText_iff {value : String} :
    Accepts (parseMessageTimestampText value) ↔ IsCanonicalTimestamp value := by
  constructor
  · rintro ⟨text, htext⟩
    obtain ⟨t, ht, -⟩ := bind_eq_ok_iff.mp htext
    exact ⟨t, parseWholeSecond_eq_ok_iff.mp ht⟩
  · rintro ⟨t, ht⟩
    exact ⟨value, bind_eq_ok_iff.mpr ⟨t, parseWholeSecond_eq_ok_iff.mpr ht, okOr_eq_ok_iff.mpr ht.2.2⟩⟩

theorem accepts_parseTaskTimestampText_iff {value : String} :
    Accepts (parseTaskTimestampText value) ↔ IsCanonicalTimestamp value := by
  constructor
  · rintro ⟨text, htext⟩
    obtain ⟨t, ht, -⟩ := bind_eq_ok_iff.mp htext
    exact ⟨t, parseWholeSecond_eq_ok_iff.mp ht⟩
  · rintro ⟨t, ht⟩
    exact ⟨value, bind_eq_ok_iff.mpr ⟨t, parseWholeSecond_eq_ok_iff.mpr ht, okOr_eq_ok_iff.mpr ht.2.2⟩⟩

/-! ### Columns -/

theorem accepts_identifier_iff {value field : String} :
    Accepts (validateMachineIdentifier value field) ↔ identifierCheck value = true := by
  rw [identifierCheck_iff]
  exact ⟨fun ⟨_, h⟩ => (validateMachineIdentifier_eq_ok_iff.mp h).1,
    fun h => ⟨value, validateMachineIdentifier_eq_ok_iff.mpr ⟨h, rfl⟩⟩⟩

theorem accepts_text_iff {value field : String} {maximum : ℕ} :
    Accepts (validateMessageText value field maximum) ↔ textCheck maximum value = true := by
  rw [textCheck_iff]
  exact ⟨fun ⟨_, h⟩ => (validateMessageText_eq_ok_iff.mp h).1,
    fun h => ⟨value, validateMessageText_eq_ok_iff.mpr ⟨h, rfl⟩⟩⟩

theorem accepts_summary_iff {value : String} : Accepts (MessageSummary.new value) ↔ textCheck 4096 value = true := by
  rw [textCheck_iff]
  constructor
  · rintro ⟨summary, h⟩
    exact MessageSummary.new_eq_ok_iff.mp h ▸ summary.valid
  · intro h
    exact ⟨⟨value, h⟩, MessageSummary.new_eq_ok_iff.mpr rfl⟩

theorem accepts_title_iff {value : String} : Accepts (TaskTitle.new value) ↔ textCheck 256 value = true := by
  rw [textCheck_iff]
  constructor
  · rintro ⟨title, h⟩
    exact TaskTitle.new_eq_ok_iff.mp h ▸ title.valid
  · intro h
    exact ⟨⟨value, h⟩, TaskTitle.new_eq_ok_iff.mpr rfl⟩

/-- A validator of a value that may be absent. -/
theorem accepts_transpose_iff {α β : Type} {f : α → StoreResult β} {x : Option α} :
    Accepts (transpose f x) ↔ ∀ a ∈ x, Accepts (f a) := by
  obtain - | a := x
  · exact iff_of_true ⟨none, rfl⟩ fun a ha => absurd ha.symm (Option.some_ne_none _)
  · constructor
    · rintro ⟨y, hy⟩ b hb
      obtain rfl := Option.some.inj hb
      obtain - | y := y
      · exact absurd (transpose_eq_ok_none_iff.mp hy) (Option.some_ne_none _)
      · obtain ⟨c, hc, hy⟩ := transpose_eq_ok_some_iff.mp hy
        obtain rfl := Option.some.inj hc
        exact ⟨y, hy⟩
    · intro h
      obtain ⟨y, hy⟩ := h a rfl
      exact ⟨some y, transpose_eq_ok_some_iff.mpr ⟨a, rfl, hy⟩⟩

theorem accepts_provider_iff {value : String} :
    Accepts (MessageProvider.fromStorage value) ↔ value ∈ ["voice", "outlook", "gmail"] := by
  simp only [Accepts, MessageProvider.fromStorage_eq_ok_iff, List.mem_cons, List.not_mem_nil, or_false]
  constructor
  · rintro ⟨p, rfl⟩
    cases p <;> simp [MessageProvider.asStr]
  · rintro (rfl | rfl | rfl)
    · exact ⟨.voice, rfl⟩
    · exact ⟨.outlook, rfl⟩
    · exact ⟨.gmail, rfl⟩

theorem accepts_triageState_iff {value : String} : Accepts (MessageTriageState.fromStorage value) ↔
    value ∈ ["recorded", "unprocessed", "actionable", "ambiguous", "ignored", "scheduled"] := by
  simp only [Accepts, MessageTriageState.fromStorage_eq_ok_iff, List.mem_cons, List.not_mem_nil, or_false]
  constructor
  · rintro ⟨s, rfl⟩
    cases s <;> simp [MessageTriageState.asStr]
  · rintro (rfl | rfl | rfl | rfl | rfl | rfl)
    · exact ⟨.recorded, rfl⟩
    · exact ⟨.unprocessed, rfl⟩
    · exact ⟨.actionable, rfl⟩
    · exact ⟨.ambiguous, rfl⟩
    · exact ⟨.ignored, rfl⟩
    · exact ⟨.scheduled, rfl⟩

theorem accepts_kind_iff {value : String} :
    Accepts (parseTaskKind value) ↔ value ∈ ["bill", "callback", "reading", "email_reply", "preparation"] := by
  simp only [Accepts, parseTaskKind_eq_ok_iff, List.mem_cons, List.not_mem_nil, or_false]
  constructor
  · rintro ⟨k, rfl⟩
    cases k <;> simp [taskKindStorageName]
  · rintro (rfl | rfl | rfl | rfl | rfl)
    · exact ⟨.bill, rfl⟩
    · exact ⟨.callback, rfl⟩
    · exact ⟨.reading, rfl⟩
    · exact ⟨.emailReply, rfl⟩
    · exact ⟨.preparation, rfl⟩

theorem accepts_state_iff {value : String} :
    Accepts (StoredTaskState.fromStorage value) ↔ value ∈ ["pending", "proposed", "scheduled", "no_slot"] := by
  simp only [Accepts, StoredTaskState.fromStorage_eq_ok_iff, List.mem_cons, List.not_mem_nil, or_false]
  constructor
  · rintro ⟨s, rfl⟩
    cases s <;> simp [StoredTaskState.asStr]
  · rintro (rfl | rfl | rfl | rfl)
    · exact ⟨.pending, rfl⟩
    · exact ⟨.proposed, rfl⟩
    · exact ⟨.scheduled, rfl⟩
    · exact ⟨.noSlot, rfl⟩

theorem accepts_duration_iff {minutes : ℤ} : Accepts (validateTaskDuration minutes) ↔ 1 ≤ minutes ∧ minutes ≤ 1440 := by
  have hmax : maxTaskDurationMinutes = 1440 := rfl
  simp only [Accepts, validateTaskDuration, hmax]
  split_ifs with h
  · exact iff_of_true ⟨_, rfl⟩ h
  · refine iff_of_false ?_ h
    rintro ⟨_, heq⟩
    cases heq

/-! ### Agreement -/

/-- **The columns of a message with canonical instants meet their constraints exactly when they are read.** -/
theorem messageColumnChecks_iff {strftime : Strftime} (hstrftime : strftime.KeepsCanonical) {row : MessageStoredRow}
    (htimes : row.CanonicalTimes) : MessageColumnChecks strftime row ↔ MessageColumnsRead row := by
  constructor
  · intro h
    exact
      { idempotencyKey := accepts_identifier_iff.mpr h.idempotencyKey
        sourceId := accepts_identifier_iff.mpr h.sourceId
        provider := accepts_provider_iff.mpr h.provider
        providerMessageId := accepts_identifier_iff.mpr h.providerMessageId
        summary := accepts_summary_iff.mpr h.summary
        subject := accepts_transpose_iff.mpr fun s hs => accepts_text_iff.mpr (h.subject s hs)
        sender := accepts_transpose_iff.mpr fun s hs => accepts_text_iff.mpr (h.sender s hs)
        receivedAt := accepts_parseWholeSecond_iff.mpr htimes.receivedAt
        triageState := accepts_triageState_iff.mpr h.triageState
        createdAt := accepts_parseMessageTimestampText_iff.mpr htimes.createdAt
        updatedAt := accepts_parseMessageTimestampText_iff.mpr htimes.updatedAt }
  · intro h
    exact
      { idempotencyKey := accepts_identifier_iff.mp h.idempotencyKey
        sourceId := accepts_identifier_iff.mp h.sourceId
        provider := accepts_provider_iff.mp h.provider
        providerMessageId := accepts_identifier_iff.mp h.providerMessageId
        summary := accepts_summary_iff.mp h.summary
        subject := fun s hs => accepts_text_iff.mp (accepts_transpose_iff.mp h.subject s hs)
        sender := fun s hs => accepts_text_iff.mp (accepts_transpose_iff.mp h.sender s hs)
        receivedAt := timestampCheck_of_canonical hstrftime htimes.receivedAt
        triageState := accepts_triageState_iff.mp h.triageState
        createdAt := timestampCheck_of_canonical hstrftime htimes.createdAt
        updatedAt := timestampCheck_of_canonical hstrftime htimes.updatedAt }

/-- **The columns of a task with canonical instants meet their constraints exactly when they are read.** -/
theorem taskChecks_iff {strftime : Strftime} (hstrftime : strftime.KeepsCanonical) {row : TaskStoredRow}
    (htimes : row.CanonicalTimes) : TaskChecks strftime row ↔ TaskColumnsRead row := by
  constructor
  · intro h
    exact
      { idempotencyKey := accepts_identifier_iff.mpr h.idempotencyKey
        sourceId := accepts_identifier_iff.mpr h.sourceId
        title := accepts_title_iff.mpr h.title
        kind := accepts_kind_iff.mpr h.kind
        durationMinutes := accepts_duration_iff.mpr h.durationMinutes
        dueAt := accepts_transpose_iff.mpr fun d hd => accepts_parseWholeSecond_iff.mpr (htimes.dueAt d hd)
        state := accepts_state_iff.mpr h.state
        createdAt := accepts_parseTaskTimestampText_iff.mpr htimes.createdAt
        updatedAt := accepts_parseTaskTimestampText_iff.mpr htimes.updatedAt }
  · intro h
    exact
      { idempotencyKey := accepts_identifier_iff.mp h.idempotencyKey
        sourceId := accepts_identifier_iff.mp h.sourceId
        title := accepts_title_iff.mp h.title
        kind := accepts_kind_iff.mp h.kind
        durationMinutes := accepts_duration_iff.mp h.durationMinutes
        dueAt := fun d hd => timestampCheck_of_canonical hstrftime (htimes.dueAt d hd)
        state := accepts_state_iff.mp h.state
        createdAt := timestampCheck_of_canonical hstrftime htimes.createdAt
        updatedAt := timestampCheck_of_canonical hstrftime htimes.updatedAt }

/-- A whole second that is written is canonical. -/
theorem isCanonicalTimestamp_of_wholeSecondText {value t : OffsetDateTime} {field text : String}
    (h : wholeSecondText value field = .ok (t, text)) : IsCanonicalTimestamp text := by
  obtain ⟨rfl, hnanos, hformat⟩ := wholeSecondText_eq_ok_iff.mp h
  exact ⟨value.toUtc, rfl, hnanos, hformat⟩

/-- The text of the clock is canonical. -/
theorem isCanonicalTimestamp_strftimeNow (now : SystemTime) : IsCanonicalTimestamp (strftimeNow now) :=
  ⟨now.instant.wholeSecond, rfl, OffsetDateTime.wholeSecond_nanosecond _, strftimeNow_format now⟩

/-- The row that `record_message` builds of validated arguments meets every constraint. -/
theorem MessageRequest.Validated.checks {r : MessageRequest} {receivedAt : OffsetDateTime} {text : String}
    (h : r.Validated receivedAt text) {strftime : Strftime} (hstrftime : strftime.KeepsCanonical) (now : SystemTime)
    (id : ℤ) : MessageChecks strftime ((r.insert receivedAt text now).row id) := by
  obtain ⟨⟨⟩, -, htext⟩ := bind_eq_ok_iff.mp h.receivedAt
  have htimes : ((r.insert receivedAt text now).row id).CanonicalTimes :=
    ⟨isCanonicalTimestamp_of_wholeSecondText htext, isCanonicalTimestamp_strftimeNow now,
      isCanonicalTimestamp_strftimeNow now⟩
  have hread : MessageColumnsRead ((r.insert receivedAt text now).row id) :=
    { idempotencyKey := h.idempotencyKey
      sourceId := h.sourceId
      provider := ⟨r.provider, MessageProvider.fromStorage_eq_ok_iff.mpr rfl⟩
      providerMessageId := h.providerMessageId
      summary := ⟨r.summary, MessageSummary.new_eq_ok_iff.mpr rfl⟩
      subject := h.subject
      sender := h.sender
      receivedAt := accepts_parseWholeSecond_iff.mpr htimes.receivedAt
      triageState := ⟨initialMessageState r.provider, MessageTriageState.fromStorage_eq_ok_iff.mpr rfl⟩
      createdAt := accepts_parseMessageTimestampText_iff.mpr htimes.createdAt
      updatedAt := accepts_parseMessageTimestampText_iff.mpr htimes.updatedAt }
  refine ⟨(messageColumnChecks_iff hstrftime htimes).mpr hread, ?_⟩
  show r.provider.asStr = "voice" ∧ (initialMessageState r.provider).asStr = "recorded" ∨
    r.provider.asStr ∈ ["outlook", "gmail"] ∧ (initialMessageState r.provider).asStr = "unprocessed" ∨
    (initialMessageState r.provider).asStr ∈ ["actionable", "ambiguous", "ignored", "scheduled"]
  cases r.provider <;> decide

/-- The row that `record_task` builds of validated arguments meets every constraint. -/
theorem TaskRequest.Ready.checks {r : TaskRequest} {duration : DurationMinutes}
    {due : Option (OffsetDateTime × String)} (h : r.Ready duration due) {strftime : Strftime}
    (hstrftime : strftime.KeepsCanonical) (now : SystemTime) (id : ℤ) :
    TaskChecks strftime (r.row duration (due.map Prod.snd) now id) := by
  have hdue : ∀ text ∈ due.map Prod.snd, IsCanonicalTimestamp text := by
    intro text htext
    obtain ⟨⟨t, text'⟩, rfl, rfl⟩ := Option.map_eq_some_iff.mp htext
    obtain ⟨value, -, hformat⟩ := transpose_eq_ok_some_iff.mp h.due
    exact isCanonicalTimestamp_of_wholeSecondText hformat
  have htimes : (r.row duration (due.map Prod.snd) now id).CanonicalTimes :=
    ⟨hdue, isCanonicalTimestamp_strftimeNow now, isCanonicalTimestamp_strftimeNow now⟩
  have hminutes := (validateTaskDuration_eq_ok_iff.mp h.duration).2
  refine (taskChecks_iff hstrftime htimes).mpr
    { idempotencyKey := accepts_identifier_iff.mpr (identifierCheck_iff.mpr h.key)
      sourceId := accepts_identifier_iff.mpr (identifierCheck_iff.mpr h.source)
      title := ⟨r.title, TaskTitle.new_eq_ok_iff.mpr rfl⟩
      kind := ⟨r.kind, parseTaskKind_eq_ok_iff.mpr rfl⟩
      durationMinutes := ⟨duration, ?_⟩
      dueAt := accepts_transpose_iff.mpr fun d hd => accepts_parseWholeSecond_iff.mpr (hdue d hd)
      state := ⟨.pending, StoredTaskState.fromStorage_eq_ok_iff.mpr rfl⟩
      createdAt := accepts_parseTaskTimestampText_iff.mpr htimes.createdAt
      updatedAt := accepts_parseTaskTimestampText_iff.mpr htimes.updatedAt }
  show validateTaskDuration (duration.minutes : ℤ) = .ok duration
  rw [hminutes]
  exact h.duration

/-- The validators and the constraints agree: rows of validated arguments meet every constraint, and what meets the
constraint of a column is read by its validator. -/
structure ChecksAgree (strftime : Strftime) : Prop where
  recordMessage : ∀ (r : MessageRequest) receivedAt text now id, r.Validated receivedAt text →
    MessageChecks strftime ((r.insert receivedAt text now).row id)
  recordTask : ∀ (r : TaskRequest) duration due now id, r.Ready duration due →
    TaskChecks strftime (r.row duration (due.map Prod.snd) now id)
  message : ∀ row : MessageStoredRow, row.CanonicalTimes → MessageColumnChecks strftime row → MessageColumnsRead row
  task : ∀ row : TaskStoredRow, row.CanonicalTimes → TaskChecks strftime row → TaskColumnsRead row

/-- **The validators of messages and tasks agree with the constraints of their tables.** -/
theorem checksAgree_of_keepsCanonical (strftime : Strftime) (hstrftime : strftime.KeepsCanonical) :
    ChecksAgree strftime where
  recordMessage _ _ _ now id h := h.checks hstrftime now id
  recordTask _ _ _ now id h := h.checks hstrftime now id
  message _ htimes h := (messageColumnChecks_iff hstrftime htimes).mp h
  task _ htimes h := (taskChecks_iff hstrftime htimes).mp h

/-- The database's `strftime` on the texts of instants: the whole second, in UTC. -/
def strftimeOfInstants : Strftime := fun format value =>
  if format = utcSeconds then (parse value).bind fun t => t.wholeSecond.format else none

/-- The agreement for `strftimeOfInstants`. -/
theorem checksAgree_strftimeOfInstants : ChecksAgree strftimeOfInstants := by
  refine checksAgree_of_keepsCanonical strftimeOfInstants fun value ⟨t, hutc, hnanos, hformat⟩ => ?_
  have hwhole : t.wholeSecond = t := by
    have hnanos' : t.unixNanos % second = 0 := hnanos
    have hseconds : t.unixTimestamp * second = t.unixNanos := Int.ediv_mul_cancel (Int.dvd_of_emod_eq_zero hnanos')
    rw [OffsetDateTime.wholeSecond, hseconds, ← hutc]
  rw [strftimeOfInstants, if_pos rfl, parse_format hformat, Option.bind_some, hwhole, hformat]

end AgentVoice.Store

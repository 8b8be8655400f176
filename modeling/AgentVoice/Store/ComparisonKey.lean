import AgentVoice.Store.Columns

/-!
# Comparison keys of the notification outbox

The outbox stores its instants without trailing zeros, so their texts are not ordered as the instants
are. The claim query compares nine-digit keys instead: `format_notification_comparison_datetime` writes
the key of an instant, and a SQL expression computes the key of a column from its text. On the column of
an instant both give the same key (`comparisonSql_eq_key`), and keys are ordered as instants
(`comparisonKey_le_iff`).
-/

namespace AgentVoice.Store

open AgentVoice.Foundations

/-- The zeros that `format_notification_comparison_datetime` appends to a fraction. -/
def fillFraction (fraction : List Char) : List Char := fraction ++ List.replicate (9 - fraction.length) '0'

/-- `format_notification_comparison_datetime`. -/
def formatNotificationComparisonDatetime (value : OffsetDateTime) : StoreResult String := do
  let text ← formatOffsetDatetime value.toUtc
  require (text.toList.getLast? = some 'Z') (storedRecordInvalid "notification")
  let withoutOffset := text.toList.dropLast
  let whole := withoutOffset.takeWhile (· != '.')
  let fraction := (withoutOffset.dropWhile (· != '.')).drop 1
  require (fraction.length ≤ 9) (storedRecordInvalid "notification")
  return String.ofList (whole ++ '.' :: (fillFraction fraction ++ ['Z']))

/-- The SQL expression of `notification_timestamp_comparison_sql`, on the text of a column. -/
def notificationTimestampComparisonSql (column : String) : String :=
  let cs := column.toList
  if cs.contains '.' then
    let whole := cs.takeWhile (· != '.')
    let fraction := ((cs.dropWhile (· != '.')).drop 1).dropLast
    let padded := fraction ++ List.replicate (9 - fraction.length) ' '
    String.ofList (whole ++ '.' :: (padded.map (fun c => if c = ' ' then '0' else c) ++ ['Z']))
  else String.ofList (cs.flatMap fun c => if c = 'Z' then ".000000000Z".toList else [c])

/-! ### The parts of a text -/

theorem fillFraction_trimZeros {n : ℕ} : fillFraction (trimZeros (decimal 9 n)) = decimal 9 n := by
  have hpad := padZeros_trimZeros (length_decimal 9 n)
  obtain ⟨k, hk⟩ := trimZeros_append_replicate (decimal 9 n)
  have hlength : (trimZeros (decimal 9 n)).length ≤ 9 := by
    have := congrArg List.length hk
    rw [length_decimal, List.length_append] at this
    omega
  rw [padZeros, List.take_append, List.take_of_length_le hlength, List.take_replicate] at hpad
  rw [fillFraction]
  rwa [Nat.min_eq_left (Nat.sub_le _ _)] at hpad

theorem wholeText_chars {t : OffsetDateTime} (h : t.YearWritable) {c : Char} (hc : c ∈ wholeText t.fields) :
    c ≠ '.' ∧ c ≠ 'Z' := by
  obtain ⟨hmonth, hday, hhour, hminute, hsec⟩ := fields_bounds t
  have hyear := fields_year_lt h
  have hsec : t.fields.sec < 10 ^ 2 := hsec.trans (by decide)
  have hdigit : c.isDigit = true ∨ c = '-' ∨ c = 'T' ∨ c = ':' := by
    simp only [wholeText, dateText, timeText, List.mem_append, List.mem_cons] at hc
    rcases hc with (hc | rfl | hc | rfl | hc) | rfl | hc | rfl | hc | rfl | hc
    · exact Or.inl (isDigit_of_mem_decimal hyear hc)
    · exact Or.inr (Or.inl rfl)
    · exact Or.inl (isDigit_of_mem_decimal hmonth hc)
    · exact Or.inr (Or.inl rfl)
    · exact Or.inl (isDigit_of_mem_decimal hday hc)
    · exact Or.inr (Or.inr (Or.inl rfl))
    · exact Or.inl (isDigit_of_mem_decimal hhour hc)
    · exact Or.inr (Or.inr (Or.inr rfl))
    · exact Or.inl (isDigit_of_mem_decimal hminute hc)
    · exact Or.inr (Or.inr (Or.inr rfl))
    · exact Or.inl (isDigit_of_mem_decimal hsec hc)
  rcases hdigit with hdigit | rfl | rfl | rfl
  · constructor <;> rintro rfl <;> exact absurd hdigit (by decide)
  all_goals decide

theorem fraction_chars {n : ℕ} (h : n < 10 ^ 9) {c : Char} (hc : c ∈ trimZeros (decimal 9 n)) : c ≠ ' ' := by
  have hdigit := isDigit_of_mem_decimal h (mem_of_mem_trimZeros hc)
  rintro rfl
  exact absurd hdigit (by decide)

theorem takeWhile_append_point {l : List Char} (h : ∀ c ∈ l, c ≠ '.') (r : List Char) :
    (l ++ '.' :: r).takeWhile (· != '.') = l ∧ (l ++ '.' :: r).dropWhile (· != '.') = '.' :: r := by
  have hall : ∀ c ∈ l, (c != '.') = true := fun c hc => by simpa using h c hc
  constructor
  · rw [List.takeWhile_append_of_pos hall]
    simp
  · rw [List.dropWhile_append_of_pos hall]
    simp

theorem takeWhile_no_point {l : List Char} (h : ∀ c ∈ l, c ≠ '.') :
    l.takeWhile (· != '.') = l ∧ l.dropWhile (· != '.') = [] := by
  have hall : ∀ c ∈ l, (c != '.') = true := fun c hc => by simpa using h c hc
  exact ⟨List.takeWhile_eq_self_iff.mpr hall, List.dropWhile_eq_nil_iff.mpr hall⟩

/-! ### The keys -/

/-- The key of an instant. -/
def comparisonKey (t : OffsetDateTime) : String := String.ofList t.keyText

theorem utc_text {t : OffsetDateTime} {text : String} (hutc : t.offsetSeconds = 0) (h : t.format = some text) :
    t.YearWritable ∧ text.toList = wholeText t.fields ++ (fractionText t.fields.nanos ++ ['Z']) := by
  obtain ⟨hyear, -, htext⟩ := OffsetDateTime.format_eq_some_iff.mp h
  rw [hutc] at htext
  exact ⟨hyear, htext⟩

/-- The key written for an instant. -/
theorem formatNotificationComparisonDatetime_eq {t : OffsetDateTime} {text : String} (h : t.toUtc.format = some text) :
    formatNotificationComparisonDatetime t = .ok (comparisonKey t.toUtc) := by
  obtain ⟨hyear, htext⟩ := utc_text (t := t.toUtc) rfl h
  have hwhole : ∀ c ∈ wholeText t.toUtc.fields, c ≠ '.' := fun c hc => (wholeText_chars hyear hc).1
  have hlast : text.toList.getLast? = some 'Z' := by simp [htext]
  rw [formatNotificationComparisonDatetime, formatOffsetDatetime_eq_ok_iff.mpr h, ok_bind, require_of hlast, ok_bind]
  by_cases hzero : t.toUtc.fields.nanos = 0
  · have hcut : text.toList.dropLast = wholeText t.toUtc.fields := by simp [htext, hzero, fractionText]
    obtain ⟨htake, hdrop⟩ := takeWhile_no_point hwhole
    simp only [hcut, htake, hdrop, comparisonKey, OffsetDateTime.keyText, hzero]
    rfl
  · have hcut : text.toList.dropLast =
        wholeText t.toUtc.fields ++ '.' :: trimZeros (decimal 9 t.toUtc.fields.nanos) := by
      rw [htext, fractionText, if_neg hzero, List.cons_append, ← List.cons_append, ← List.append_assoc]
      exact List.dropLast_concat
    obtain ⟨htake, hdrop⟩ := takeWhile_append_point hwhole (trimZeros (decimal 9 t.toUtc.fields.nanos))
    have hlength : (trimZeros (decimal 9 t.toUtc.fields.nanos)).length ≤ 9 := by
      have := congrArg List.length (fillFraction_trimZeros (n := t.toUtc.fields.nanos))
      rw [fillFraction, List.length_append, length_decimal] at this
      omega
    simp only [hcut, htake, hdrop, List.drop_one, List.tail_cons, require_of hlength, ok_bind, pure_eq_ok,
      fillFraction_trimZeros, comparisonKey, OffsetDateTime.keyText]

/-- **The SQL expression computes the key of the instant in the column.** -/
theorem comparisonSql_eq_key {t : OffsetDateTime} {text : String} (hutc : t.offsetSeconds = 0)
    (h : t.format = some text) : notificationTimestampComparisonSql text = comparisonKey t := by
  obtain ⟨hyear, htext⟩ := utc_text hutc h
  have hwhole : ∀ c ∈ wholeText t.fields, c ≠ '.' := fun c hc => (wholeText_chars hyear hc).1
  have hoffset : ∀ c ∈ wholeText t.fields, c ≠ 'Z' := fun c hc => (wholeText_chars hyear hc).2
  unfold notificationTimestampComparisonSql
  by_cases hzero : t.fields.nanos = 0
  · have hcs : text.toList = wholeText t.fields ++ ['Z'] := by simp [htext, hzero, fractionText]
    have hpoint : text.toList.contains '.' = false := by
      rw [hcs]
      simpa using fun hmem => hwhole '.' hmem rfl
    have hkeep : (wholeText t.fields).flatMap (fun c => if c = 'Z' then ".000000000Z".toList else [c]) =
        wholeText t.fields := by
      rw [List.flatMap_congr fun c hc => if_neg (hoffset c hc)]
      exact List.flatMap_singleton' _
    rw [if_neg (by rw [hpoint]; decide), hcs, List.flatMap_append, hkeep, comparisonKey, OffsetDateTime.keyText, hzero]
    rfl
  · have hcs : text.toList = wholeText t.fields ++ '.' :: (trimZeros (decimal 9 t.fields.nanos) ++ ['Z']) := by
      rw [htext, fractionText, if_neg hzero, List.cons_append]
    have hpoint : text.toList.contains '.' = true := by simp [hcs]
    obtain ⟨htake, hdrop⟩ := takeWhile_append_point hwhole (trimZeros (decimal 9 t.fields.nanos) ++ ['Z'])
    have hkeep : (trimZeros (decimal 9 t.fields.nanos)).map (fun c => if c = ' ' then '0' else c) =
        trimZeros (decimal 9 t.fields.nanos) := by
      rw [List.map_congr_left fun c hc => if_neg (fraction_chars (fields_nanos_lt t) hc)]
      exact List.map_id' _
    rw [if_pos hpoint]
    simp only [hcs, htake, hdrop, List.drop_one, List.tail_cons, List.dropLast_concat, List.map_append, hkeep,
      List.map_replicate, if_true]
    rw [← fillFraction, fillFraction_trimZeros, comparisonKey, OffsetDateTime.keyText]

/-- **Keys are compared as instants are.** -/
theorem comparisonKey_le_iff {t u : OffsetDateTime} (ht : t.YearWritable) (hu : u.YearWritable)
    (htutc : t.offsetSeconds = 0) (huutc : u.offsetSeconds = 0) :
    comparisonKey t ≤ comparisonKey u ↔ t.unixNanos ≤ u.unixNanos := by
  rw [← String.not_lt, String.lt_iff, comparisonKey, comparisonKey, String.toList_ofList, String.toList_ofList,
    OffsetDateTime.keyText_lt_iff hu ht]
  simp only [OffsetDateTime.localNanos, htutc, huutc]
  omega

end AgentVoice.Store

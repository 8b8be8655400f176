import AgentVoice.Foundations.Rfc3339
import AgentVoice.Foundations.JsonText

/-!
# Instants as the date library writes them

The backup, configuration and credential code keeps instants as RFC 3339 texts and leaves writing
and reading them to the date library, which is a parameter here. A timestamp is canonical when it
ends in `Z` and the library writes the instant it reads back as the same text.
-/

namespace AgentVoice.Domain

open AgentVoice.Foundations

/-- The functions of the date library, over its instants in UTC. -/
structure Chrono (τ : Type) where
  /-- `to_rfc3339_opts(SecondsFormat::AutoSi, true)`. -/
  toRfc3339 : τ → String
  /-- `DateTime::parse_from_rfc3339`, with the instant expressed in UTC. -/
  parseFromRfc3339 : String → Option τ

/-- The functions of the date library for times without a fraction. -/
structure SecondChrono (τ : Type) where
  /-- `to_rfc3339_opts(SecondsFormat::Secs, true)`. -/
  toRfc3339 : τ → String
  /-- `DateTime::parse_from_rfc3339`, with the instant expressed in UTC. -/
  parseFromRfc3339 : String → Option τ
  /-- `NaiveDateTime::parse_from_str` with `%Y-%m-%d %H:%M:%S`, taken to be in UTC. -/
  parseFromStr : String → Option τ

namespace Chrono

variable {τ : Type} (chrono : Chrono τ)

/-- `value.ends_with('Z')`. -/
def endsWithZ (value : String) : Bool := value.toList.getLast? == some 'Z'

/-- `is_canonical_timestamp`. -/
def isCanonicalTimestamp (value : String) : Bool :=
  if endsWithZ value = false then false
  else
    match chrono.parseFromRfc3339 value with
    | none => false
    | some parsed => chrono.toRfc3339 parsed == value

theorem isCanonicalTimestamp_eq_true_iff {value : String} :
    chrono.isCanonicalTimestamp value = true ↔
      endsWithZ value = true ∧ ∃ t, chrono.parseFromRfc3339 value = some t ∧ chrono.toRfc3339 t = value := by
  unfold isCanonicalTimestamp
  cases hz : endsWithZ value with
  | false => simp
  | true => cases hparse : chrono.parseFromRfc3339 value <;> simp

/-- A text that ends in `Z` is not blank. -/
theorem not_isBlank_of_endsWithZ {value : String} (h : endsWithZ value = true) : ¬ IsBlank value := by
  intro hblank
  have hmem : 'Z' ∈ value.toList := List.mem_of_getLast? (by simpa [endsWithZ] using h)
  have := (isBlank_iff value).mp hblank _ hmem
  revert this
  decide

/-- **The library writes short texts without control characters.** -/
def WritesPrintable : Prop := ∀ t, byteLength (chrono.toRfc3339 t) ≤ 256 ∧ hasControl (chrono.toRfc3339 t) = false

/-- The date library on the instants of the years 0 to 9999; it writes every other instant as an empty text. -/
def fourDigitYears : Chrono OffsetDateTime where
  toRfc3339 t := (t.toUtc.format).getD ""
  parseFromRfc3339 value := (parse value).map OffsetDateTime.toUtc

/-- A character of one byte that is no control character. -/
def Printable (c : Char) : Prop := isControl c = false ∧ c.utf8Size = 1

theorem printable_of_isDigit {c : Char} (h : c.isDigit = true) : Printable c := by
  have hrange : 48 ≤ c.toNat ∧ c.toNat ≤ 57 := by simpa [Char.isDigit, UInt32.le_iff_toNat_le] using h
  constructor
  · simp only [isControl, Bool.or_eq_false_iff, Bool.and_eq_false_iff, decide_eq_false_iff_not]
    omega
  · rw [Char.utf8Size, if_pos]
    show c.val.toNat ≤ 127
    exact hrange.2.trans (by decide)

/-- The text of an instant in UTC has thirty characters at most, all printable. -/
theorem printable_format {t : OffsetDateTime} (hyear : t.YearWritable) :
    (wholeText t.fields ++ (fractionText t.fields.nanos ++ offsetText 0)).length ≤ 30 ∧
      ∀ c ∈ wholeText t.fields ++ (fractionText t.fields.nanos ++ offsetText 0), Printable c := by
  obtain ⟨hmonth, hday, hhour, hminute, hsec⟩ := fields_bounds t
  have hsec' : t.fields.sec < 10 ^ 2 := hsec.trans (by decide)
  have hdigits : ∀ {w n : ℕ}, n < 10 ^ w → ∀ c ∈ decimal w n, Printable c :=
    fun h c hc => printable_of_isDigit (isDigit_of_mem_decimal h hc)
  have hpunctuation : ∀ c ∈ ['-', 'T', ':', '.', 'Z'], Printable c := by
    intro c hc
    simp only [List.mem_cons, List.not_mem_nil, or_false] at hc
    rcases hc with rfl | rfl | rfl | rfl | rfl <;> exact ⟨by decide, by decide⟩
  constructor
  · have hfraction : (fractionText t.fields.nanos).length ≤ 10 := by
      unfold fractionText
      split_ifs with h
      · exact Nat.zero_le _
      · have hfirst := List.rdropWhile_prefix (fun c => decide (c = '0')) (decimal 9 t.fields.nanos)
        have hle := hfirst.length_le
        rw [length_decimal] at hle
        exact Nat.succ_le_succ hle
    rw [List.length_append, List.length_append, length_wholeText, show (offsetText 0).length = 1 from rfl]
    omega
  · intro c hc
    rcases List.mem_append.mp hc with hc | hc
    · simp only [wholeText, dateText, timeText, List.mem_append, List.mem_cons] at hc
      rcases hc with (hc | rfl | hc | rfl | hc) | rfl | hc | rfl | hc | rfl | hc
      · exact hdigits (fields_year_lt hyear) c hc
      · exact hpunctuation _ (by decide)
      · exact hdigits hmonth c hc
      · exact hpunctuation _ (by decide)
      · exact hdigits hday c hc
      · exact hpunctuation _ (by decide)
      · exact hdigits hhour c hc
      · exact hpunctuation _ (by decide)
      · exact hdigits hminute c hc
      · exact hpunctuation _ (by decide)
      · exact hdigits hsec' c hc
    · rcases List.mem_append.mp hc with hc | hc
      · unfold fractionText at hc
        split_ifs at hc with h
        · cases hc
        · rcases List.mem_cons.mp hc with rfl | hc
          · exact hpunctuation _ (by decide)
          · exact hdigits (fields_nanos_lt t) c (mem_of_mem_trimZeros hc)
      · obtain rfl : c = 'Z' := by simpa [offsetText] using hc
        exact hpunctuation _ (by decide)

theorem fourDigitYears_writesPrintable : fourDigitYears.WritesPrintable := by
  intro t
  show byteLength (t.toUtc.format.getD "") ≤ 256 ∧ hasControl (t.toUtc.format.getD "") = false
  cases hformat : t.toUtc.format with
  | none => decide
  | some text =>
    unfold OffsetDateTime.format at hformat
    split_ifs at hformat with hwritable
    obtain ⟨hlength, hprintable⟩ := printable_format hwritable.1
    cases hformat
    constructor
    · show byteLength (String.ofList _) ≤ 256
      rw [OffsetDateTime.toUtc_offsetSeconds, byteLength_ofList_of_utf8Size fun c hc => (hprintable c hc).2]
      omega
    · show hasControl (String.ofList _) = false
      rw [OffsetDateTime.toUtc_offsetSeconds, hasControl, String.toList_ofList, List.any_eq_false]
      exact fun c hc => by simp [(hprintable c hc).1]

/-! ### Instants of any year -/

/-- The nanoseconds of 400 years. -/
def cycleNanos : ℤ := 146097 * 86400000000000

/-- The text of a UTC instant whose year does not have four digits: the year is written with its sign. -/
def expandedText (t : OffsetDateTime) : String :=
  -- the calendar repeats every 400 years, and after so many of them every instant is past the year 0
  let cycles := t.localNanos.natAbs
  let f := fieldsOfNanos (t.localNanos + cycles * cycleNanos).toNat
  let year : ℤ := f.date.year - 400 * cycles
  let digits := Nat.toDigits 10 year.natAbs
  String.ofList ((if year < 0 then '-' else '+') :: (List.replicate (4 - digits.length) '0' ++ digits ++
    (wholeText f).drop 4 ++ fractionText f.nanos ++ ['Z']))

/-- The date library on the instants of all years, given as nanoseconds since the epoch. -/
def anyYear : Chrono ℤ where
  toRfc3339 n := (OffsetDateTime.format ⟨n, 0⟩).getD (expandedText ⟨n, 0⟩)
  parseFromRfc3339 value := (parse value).map OffsetDateTime.unixNanos

/-- Whether an instant is in the years 0 to 9999. -/
def InFourDigitYears (n : ℤ) : Prop := OffsetDateTime.YearWritable ⟨n, 0⟩

instance (n : ℤ) : Decidable (InFourDigitYears n) := inferInstanceAs (Decidable (_ ∧ _))

theorem anyYear_reads {n : ℤ} (h : InFourDigitYears n) : anyYear.parseFromRfc3339 (anyYear.toRfc3339 n) = some n := by
  have hformat : OffsetDateTime.format ⟨n, 0⟩ ≠ none := by
    have hoffset : OffsetWritable 0 := by decide
    rw [OffsetDateTime.format, if_pos ⟨h, hoffset⟩]
    simp
  obtain ⟨text, htext⟩ := Option.ne_none_iff_exists'.mp hformat
  show (parse ((OffsetDateTime.format ⟨n, 0⟩).getD _)).map OffsetDateTime.unixNanos = some n
  rw [htext, Option.getD_some, parse_format htext]
  rfl

theorem anyYear_refuses {n : ℤ} (h : ¬ InFourDigitYears n) :
    anyYear.parseFromRfc3339 (anyYear.toRfc3339 n) = none := by
  have hformat : OffsetDateTime.format ⟨n, 0⟩ = none := by
    rw [OffsetDateTime.format, if_neg fun hw => h hw.1]
  show (parse ((OffsetDateTime.format ⟨n, 0⟩).getD _)).map OffsetDateTime.unixNanos = none
  rw [hformat, Option.getD_none]
  have hsign : ∀ (c : Char) (cs : List Char), c.isDigit = false → parse (String.ofList (c :: cs)) = none := by
    intro c cs hc
    simp [parse, readDate, readNumber, readDigit, hc]
  have hexpanded : parse (expandedText ⟨n, 0⟩) = none := hsign _ _ (by split_ifs <;> decide)
  rw [hexpanded, Option.map_none]

end Chrono

/-- Reads a date and a time with a space between them, in UTC. -/
def readSpaced (value : String) : Option OffsetDateTime := do
  let (date, cs) ← readDate value.toList
  let cs ← readChar ' ' cs
  let ((hour, minute, sec), cs) ← readTime cs
  if cs.isEmpty then assemble ⟨date, hour, minute, sec, 0⟩ 0 else none

/-- The date library on the instants of the years 0 to 9999. -/
def SecondChrono.fourDigitYears : SecondChrono OffsetDateTime where
  toRfc3339 t := (t.wholeSecond.format).getD ""
  parseFromRfc3339 value := (parse value).map OffsetDateTime.toUtc
  parseFromStr := readSpaced

end AgentVoice.Domain

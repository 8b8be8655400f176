import AgentVoice.Foundations.FixedWidth
import AgentVoice.Foundations.Gregorian
import Mathlib.Data.Int.Order.Basic

/-!
# Instants and their RFC 3339 text

`OffsetDateTime` is an instant (nanoseconds since the Unix epoch) together with the offset in which
it is written. `format` writes it as RFC 3339 text and `parse` reads such text; both follow the
conventions of the `time` crate: the fraction loses its trailing zeros, any separator between date
and time is accepted, `Z` may be written in either case, a leap second stands for the nanosecond
before it, and years outside 0–9999 and offsets of 24 hours or of broken minutes have no text.

The results used by the stores above this module are the round trip (`parse_format`), that text of
one width is ordered as the instants are (`wholeText_lt_iff`), and the same for the nine-digit
comparison keys (`keyText_lt_iff`).
-/

namespace AgentVoice.Foundations

/-- An instant together with the UTC offset it is expressed in. -/
structure OffsetDateTime where
  /-- Nanoseconds since 1970-01-01T00:00:00Z. -/
  unixNanos : ℤ
  /-- Seconds east of UTC. -/
  offsetSeconds : ℤ
  deriving DecidableEq, Repr

/-- Nanoseconds in a second. -/
def second : ℤ := 1000000000

/-- Nanoseconds in a day. -/
def nanosPerDay : ℕ := 86400000000000

/-- The nanoseconds from 0000-01-01 to the Unix epoch. -/
def epochNanos : ℤ := 719528 * 86400000000000

/-- The nanoseconds from 0000-01-01 to 10000-01-01. -/
def calendarNanos : ℤ := 3652425 * 86400000000000

namespace OffsetDateTime

/-- The same instant, expressed in UTC (`to_offset(UtcOffset::UTC)`). -/
def toUtc (t : OffsetDateTime) : OffsetDateTime := ⟨t.unixNanos, 0⟩

/-- `==`: the same instant, whatever the offsets. -/
def Same (t u : OffsetDateTime) : Prop := t.unixNanos = u.unixNanos

instance (t u : OffsetDateTime) : Decidable (t.Same u) := inferInstanceAs (Decidable (_ = _))

/-- The subsecond part. -/
def nanosecond (t : OffsetDateTime) : ℤ := t.unixNanos % second

/-- `unix_timestamp`: whole seconds, rounded down. -/
def unixTimestamp (t : OffsetDateTime) : ℤ := t.unixNanos / second

/-- Whether the local date lies in the years −9999 to 9999 that the type can hold. -/
def InRange (t : OffsetDateTime) : Prop :=
  -377705116800 * second ≤ t.unixNanos + t.offsetSeconds * second ∧
    t.unixNanos + t.offsetSeconds * second < 253402300800 * second

instance (t : OffsetDateTime) : Decidable t.InRange := inferInstanceAs (Decidable (_ ∧ _))

/-- `checked_add` of a duration in nanoseconds. -/
def checkedAdd (t : OffsetDateTime) (d : ℤ) : Option OffsetDateTime :=
  some ⟨t.unixNanos + d, t.offsetSeconds⟩ |>.filter fun u => decide u.InRange

/-- `from_unix_timestamp`. -/
def fromUnixTimestamp (s : ℤ) : Option OffsetDateTime :=
  some ⟨s * second, 0⟩ |>.filter fun u => decide u.InRange

theorem checkedAdd_eq_some_iff {t u : OffsetDateTime} {d : ℤ} :
    t.checkedAdd d = some u ↔ u = ⟨t.unixNanos + d, t.offsetSeconds⟩ ∧ u.InRange := by
  rw [checkedAdd, Option.filter_eq_some_iff, decide_eq_true_iff, Option.some.injEq]
  exact and_congr_left' eq_comm

theorem fromUnixTimestamp_eq_some_iff {s : ℤ} {u : OffsetDateTime} :
    fromUnixTimestamp s = some u ↔ u = ⟨s * second, 0⟩ ∧ u.InRange := by
  rw [fromUnixTimestamp, Option.filter_eq_some_iff, decide_eq_true_iff, Option.some.injEq]
  exact and_congr_left' eq_comm

@[simp] theorem toUtc_unixNanos (t : OffsetDateTime) : t.toUtc.unixNanos = t.unixNanos := rfl

@[simp] theorem toUtc_offsetSeconds (t : OffsetDateTime) : t.toUtc.offsetSeconds = 0 := rfl

@[simp] theorem toUtc_toUtc (t : OffsetDateTime) : t.toUtc.toUtc = t.toUtc := rfl

@[simp] theorem toUtc_nanosecond (t : OffsetDateTime) : t.toUtc.nanosecond = t.nanosecond := rfl

theorem toUtc_eq_self {t : OffsetDateTime} (h : t.offsetSeconds = 0) : t.toUtc = t := by
  rw [toUtc, ← h]

end OffsetDateTime

/-! ### The fields of a local date and time -/

/-- A local date and time. -/
structure Fields where
  date : Civil
  hour : ℕ
  minute : ℕ
  sec : ℕ
  nanos : ℕ
  deriving DecidableEq, Repr

/-- The local date and time `n` nanoseconds after 0000-01-01. -/
def fieldsOfNanos (n : ℕ) : Fields where
  date := civilOfDay (n / nanosPerDay)
  hour := n % nanosPerDay / 3600000000000
  minute := n / 60000000000 % 60
  sec := n / 1000000000 % 60
  nanos := n % 1000000000

/-- The nanoseconds from 0000-01-01 to a local date and time, if that date and time exist. -/
def nanosOfFields (f : Fields) : Option ℕ :=
  if f.hour ≤ 23 ∧ f.minute ≤ 59 ∧ f.sec ≤ 59 ∧ f.nanos < 1000000000 then
    (dayOfCivil f.date).map fun d =>
      d * nanosPerDay + f.hour * 3600000000000 + f.minute * 60000000000 + f.sec * 1000000000 + f.nanos
  else none

theorem nanosOfFields_fieldsOfNanos (n : ℕ) : nanosOfFields (fieldsOfNanos n) = some n := by
  have hbounds : (fieldsOfNanos n).hour ≤ 23 ∧ (fieldsOfNanos n).minute ≤ 59 ∧ (fieldsOfNanos n).sec ≤ 59 ∧
      (fieldsOfNanos n).nanos < 1000000000 := by
    simp only [fieldsOfNanos, nanosPerDay]
    omega
  rw [nanosOfFields, if_pos hbounds]
  simp only [fieldsOfNanos, dayOfCivil_civilOfDay, Option.map_some, nanosPerDay, Option.some.injEq]
  omega

/-! ### Writing -/

/-- `2025-01-02`. -/
def dateText (c : Civil) : List Char :=
  decimal 4 c.year ++ '-' :: (decimal 2 c.month ++ '-' :: decimal 2 c.day)

/-- `03:04:05`. -/
def timeText (f : Fields) : List Char :=
  decimal 2 f.hour ++ ':' :: (decimal 2 f.minute ++ ':' :: decimal 2 f.sec)

/-- The date and time down to the second, in nineteen characters. -/
def wholeText (f : Fields) : List Char := dateText f.date ++ 'T' :: timeText f

/-- The fraction of a second, without trailing zeros; nothing for a whole second. -/
def fractionText (nanos : ℕ) : List Char :=
  if nanos = 0 then [] else '.' :: trimZeros (decimal 9 nanos)

/-- `Z`, or the sign, hours and minutes of the offset. -/
def offsetText (offset : ℤ) : List Char :=
  if offset = 0 then ['Z']
  else (if offset < 0 then '-' else '+') ::
    (decimal 2 (offset.natAbs / 3600) ++ ':' :: decimal 2 (offset.natAbs / 60 % 60))

/-- Whether RFC 3339 can write an offset: at most 23 hours, and whole minutes. -/
def OffsetWritable (offset : ℤ) : Prop := offset.natAbs / 3600 ≤ 23 ∧ offset.natAbs % 60 = 0

instance (offset : ℤ) : Decidable (OffsetWritable offset) := inferInstanceAs (Decidable (_ ∧ _))

namespace OffsetDateTime

/-- The local nanoseconds since 0000-01-01. -/
def localNanos (t : OffsetDateTime) : ℤ := t.unixNanos + t.offsetSeconds * second + epochNanos

/-- Whether the local year is one RFC 3339 can write, 0 to 9999. -/
def YearWritable (t : OffsetDateTime) : Prop := 0 ≤ t.localNanos ∧ t.localNanos < calendarNanos

instance (t : OffsetDateTime) : Decidable t.YearWritable := inferInstanceAs (Decidable (_ ∧ _))

/-- The local date and time. -/
def fields (t : OffsetDateTime) : Fields := fieldsOfNanos t.localNanos.toNat

/-- `format(&Rfc3339)`. -/
def format (t : OffsetDateTime) : Option String :=
  if t.YearWritable ∧ OffsetWritable t.offsetSeconds then
    some (String.ofList (wholeText t.fields ++ (fractionText t.fields.nanos ++ offsetText t.offsetSeconds)))
  else none

end OffsetDateTime

/-! ### Reading -/

/-- Reads the given character. -/
def readChar (c : Char) : List Char → Option (List Char)
  | x :: xs => if x = c then some xs else none
  | [] => none

/-- Reads the one character between date and time, whatever it is. -/
def readSeparator : List Char → Option (List Char)
  | x :: xs => if x.toNat < 128 then some xs else none
  | [] => none

/-- Reads an optional fraction: at least one digit after the point, and digits after the ninth are
not looked at. -/
def readFraction : List Char → Option (ℕ × List Char)
  | '.' :: cs =>
    let digits := cs.takeWhile Char.isDigit
    if digits.isEmpty then none
    else (readNumber 9 (padZeros 9 digits)).map fun p => (p.1, cs.dropWhile Char.isDigit)
  | cs => some (0, cs)

/-- Reads `Z`, or a signed offset of at most 23:59. -/
def readOffset : List Char → Option (ℤ × List Char)
  | [] => none
  | c :: cs =>
    if c = 'Z' ∨ c = 'z' then some (0, cs)
    else if c = '+' ∨ c = '-' then do
      let (h, cs) ← readNumber 2 cs
      let cs ← readChar ':' cs
      let (m, cs) ← readNumber 2 cs
      if h ≤ 23 ∧ m ≤ 59 then
        return ((if c = '-' then -1 else 1) * (h * 3600 + m * 60), cs)
      else none
    else none

/-- Whether an instant may stand for a leap second: the last nanosecond of a month, in UTC. -/
def IsLeapSecondStandIn (unixNanos : ℤ) : Prop :=
  let n := unixNanos + epochNanos
  n % nanosPerDay = nanosPerDay - 1 ∧ 0 ≤ n ∧ (civilOfDay (n.toNat / nanosPerDay + 1)).day = 1

instance (n : ℤ) : Decidable (IsLeapSecondStandIn n) := inferInstanceAs (Decidable (_ ∧ _))

/-- Turns the fields read into an instant; second 60 is read as the last nanosecond of second 59. -/
def assemble (f : Fields) (offset : ℤ) : Option OffsetDateTime := do
  let leap := f.sec = 60
  let f := if leap then { f with sec := 59, nanos := 999999999 } else f
  let n ← nanosOfFields f
  let t : OffsetDateTime := ⟨n - epochNanos - offset * second, offset⟩
  if leap ∧ ¬ IsLeapSecondStandIn t.unixNanos then none else return t

/-- Reads a date, whether or not it exists. -/
def readDate (cs : List Char) : Option (Civil × List Char) := do
  let (year, cs) ← readNumber 4 cs
  let cs ← readChar '-' cs
  let (month, cs) ← readNumber 2 cs
  let cs ← readChar '-' cs
  let (day, cs) ← readNumber 2 cs
  return (⟨year, month, day⟩, cs)

/-- Reads hours, minutes and seconds, whether or not they exist. -/
def readTime (cs : List Char) : Option ((ℕ × ℕ × ℕ) × List Char) := do
  let (hour, cs) ← readNumber 2 cs
  let cs ← readChar ':' cs
  let (minute, cs) ← readNumber 2 cs
  let cs ← readChar ':' cs
  let (sec, cs) ← readNumber 2 cs
  return ((hour, minute, sec), cs)

/-- `OffsetDateTime::parse(_, &Rfc3339)`. -/
def parse (text : String) : Option OffsetDateTime := do
  let (date, cs) ← readDate text.toList
  let cs ← readSeparator cs
  let ((hour, minute, sec), cs) ← readTime cs
  let (nanos, cs) ← readFraction cs
  let (offset, cs) ← readOffset cs
  if cs.isEmpty then assemble ⟨date, hour, minute, sec, nanos⟩ offset else none

/-! ### The round trip -/

@[simp] theorem readChar_cons (c : Char) (cs : List Char) : readChar c (c :: cs) = some cs := by
  simp [readChar]

theorem fields_year_lt {t : OffsetDateTime} (h : t.YearWritable) : t.fields.date.year < 10 ^ 4 := by
  obtain ⟨h0, h1⟩ := h
  have hday : t.localNanos.toNat / nanosPerDay < daysBeforeYear 10000 := by
    have hcal : daysBeforeYear 10000 = 3652425 := rfl
    rw [hcal, nanosPerDay]
    simp only [calendarNanos] at h1
    omega
  exact daysBeforeYear_strictMono.lt_iff_lt.mp ((yearOfDay_spec _).1.trans_lt hday)

theorem fields_nanos_lt (t : OffsetDateTime) : t.fields.nanos < 10 ^ 9 := Nat.mod_lt _ (by decide)

theorem readSeparator_T (cs : List Char) : readSeparator ('T' :: cs) = some cs := rfl

/-- The character after a fraction is not a digit: it is `Z` or a sign. -/
theorem offsetText_eq_cons (offset : ℤ) :
    ∃ c cs, offsetText offset = c :: cs ∧ c.isDigit = false ∧ c ≠ '.' := by
  unfold offsetText
  split_ifs with h0 hneg
  · exact ⟨'Z', [], rfl, rfl, by decide⟩
  · exact ⟨'-', _, rfl, rfl, by decide⟩
  · exact ⟨'+', _, rfl, rfl, by decide⟩

theorem readFraction_fractionText {nanos : ℕ} (h : nanos < 10 ^ 9) (offset : ℤ) :
    readFraction (fractionText nanos ++ offsetText offset) = some (nanos, offsetText offset) := by
  obtain ⟨c, cs, hoff, hdigit, hpoint⟩ := offsetText_eq_cons offset
  rw [hoff]
  by_cases h0 : nanos = 0
  · simp only [fractionText, h0, if_true, List.nil_append]
    unfold readFraction
    split
    · rename_i heq
      exact absurd (List.cons.inj heq).1 hpoint
    · rfl
  · have hall : ∀ x ∈ trimZeros (decimal 9 nanos), x.isDigit = true := fun x hx =>
      isDigit_of_mem_decimal h (mem_of_mem_trimZeros hx)
    have hpad := padZeros_trimZeros (length_decimal 9 nanos)
    have hne : trimZeros (decimal 9 nanos) ≠ [] := by
      intro hnil
      -- a trimmed-away fraction would be zero
      have hzero : decimal 9 nanos = decimal 9 0 := by
        rw [← hpad, hnil]
        rfl
      exact h0 (decimal_inj h (by decide) hzero)
    simp only [fractionText, h0, if_false, List.cons_append, readFraction]
    rw [List.takeWhile_append_of_pos hall, List.takeWhile_cons, hdigit]
    simp only [Bool.false_eq_true, if_false, List.append_nil]
    rw [List.dropWhile_append_of_pos hall, List.dropWhile_cons, hdigit, hpad]
    have hread := readNumber_decimal h []
    rw [List.append_nil] at hread
    rw [if_neg (by simpa using hne), hread]
    rfl

theorem readOffset_offsetText {offset : ℤ} (h : OffsetWritable offset) :
    readOffset (offsetText offset) = some (offset, []) := by
  obtain ⟨hh, hm⟩ := h
  by_cases h0 : offset = 0
  · simp [offsetText, h0, readOffset]
  · have hh2 : offset.natAbs / 3600 < 10 ^ 2 := by omega
    have hm2 : offset.natAbs / 60 % 60 < 10 ^ 2 := by omega
    have hm3 := readNumber_decimal hm2 []
    rw [List.append_nil] at hm3
    have hm59 : offset.natAbs / 60 % 60 ≤ 59 := by omega
    by_cases hneg : offset < 0
    · simp only [offsetText, h0, hneg, if_true, if_false, readOffset, readNumber_decimal hh2, hm3,
        readChar_cons, Option.bind_eq_bind, Option.bind_some, Option.pure_def, hh, hm59, and_self,
        Char.reduceEq, or_true, or_self, Option.some.injEq, Prod.mk.injEq, and_true]
      omega
    · simp only [offsetText, h0, hneg, if_true, if_false, readOffset, readNumber_decimal hh2, hm3,
        readChar_cons, Option.bind_eq_bind, Option.bind_some, Option.pure_def, hh, hm59, and_self,
        Char.reduceEq, or_false, or_self, Option.some.injEq, Prod.mk.injEq, and_true]
      omega

/-- The fields of a nanosecond count have two digits each. -/
theorem fields_bounds (t : OffsetDateTime) :
    t.fields.date.month < 10 ^ 2 ∧ t.fields.date.day < 10 ^ 2 ∧ t.fields.hour < 10 ^ 2 ∧
      t.fields.minute < 10 ^ 2 ∧ t.fields.sec < 60 := by
  refine ⟨civilOfDay_month _, civilOfDay_day _, ?_, ?_, ?_⟩ <;>
    simp only [OffsetDateTime.fields, fieldsOfNanos, nanosPerDay] <;> omega

theorem readDate_dateText {c : Civil} (hy : c.year < 10 ^ 4) (hm : c.month < 10 ^ 2) (hd : c.day < 10 ^ 2)
    (rest : List Char) : readDate (dateText c ++ rest) = some (c, rest) := by
  simp only [readDate, dateText, List.append_assoc, List.cons_append, readNumber_decimal, hy, hm, hd,
    readChar_cons, Option.bind_eq_bind, Option.bind_some, Option.pure_def]

theorem readTime_timeText {f : Fields} (hh : f.hour < 10 ^ 2) (hm : f.minute < 10 ^ 2) (hs : f.sec < 10 ^ 2)
    (rest : List Char) : readTime (timeText f ++ rest) = some ((f.hour, f.minute, f.sec), rest) := by
  simp only [readTime, timeText, List.append_assoc, List.cons_append, readNumber_decimal, hh, hm, hs,
    readChar_cons, Option.bind_eq_bind, Option.bind_some, Option.pure_def]

theorem assemble_fields {t : OffsetDateTime} (h : t.YearWritable) :
    assemble t.fields t.offsetSeconds = some t := by
  have hsec : t.fields.sec ≠ 60 := by
    have := (fields_bounds t).2.2.2.2
    omega
  have hround : nanosOfFields t.fields = some t.localNanos.toNat := nanosOfFields_fieldsOfNanos _
  simp only [assemble, hsec, if_false, hround, Option.bind_eq_bind, Option.bind_some, false_and,
    Option.pure_def, Option.some.injEq]
  have hcast : ((t.localNanos.toNat : ℕ) : ℤ) = t.localNanos := Int.toNat_of_nonneg h.1
  rw [hcast]
  simp [OffsetDateTime.localNanos]

/-- **Reading takes back what writing wrote**, instant and offset both. -/
theorem parse_format {t : OffsetDateTime} {text : String} (h : t.format = some text) : parse text = some t := by
  unfold OffsetDateTime.format at h
  split at h
  · rename_i hw
    obtain ⟨hyear, hoff⟩ := hw
    obtain rfl := Option.some.inj h
    obtain ⟨hmo, hd, hh, hmi, hs⟩ := fields_bounds t
    have hs2 : t.fields.sec < 10 ^ 2 := by omega
    simp only [parse, String.toList_ofList, wholeText, List.append_assoc, List.cons_append,
      readDate_dateText (fields_year_lt hyear) hmo hd, readSeparator_T, readTime_timeText hh hmi hs2,
      readFraction_fractionText (fields_nanos_lt t), readOffset_offsetText hoff, Option.bind_eq_bind,
      Option.bind_some, List.isEmpty_nil, if_true]
    exact assemble_fields hyear
  · cases h

example : parse "1970-01-01T01:00:00+01:00" = some ⟨0, 3600⟩ := by decide +kernel

theorem format_injective {t u : OffsetDateTime} {text : String} (ht : t.format = some text)
    (hu : u.format = some text) : t = u :=
  Option.some.inj ((parse_format ht).symm.trans (parse_format hu))

/-! ### Text order -/

@[simp] theorem length_wholeText (f : Fields) : (wholeText f).length = 19 := by
  simp [wholeText, dateText, timeText]

/-- Two numbers of one width have the same text only if they are equal. -/
theorem decimal_eq_iff {w n m : ℕ} (hn : n < 10 ^ w) (hm : m < 10 ^ w) : decimal w n = decimal w m ↔ n = m :=
  ⟨decimal_inj hn hm, fun h => h ▸ rfl⟩

/-- One field of a date compared before the fields after it. -/
theorem field_lt_iff {w n m : ℕ} (hn : n < 10 ^ w) (hm : m < 10 ^ w) (c : Char) {l l' : List Char} :
    decimal w n ++ c :: l < decimal w m ++ c :: l' ↔ n < m ∨ n = m ∧ l < l' := by
  rw [append_lt_append_iff (by simp), decimal_lt_iff hn hm, decimal_eq_iff hn hm, List.cons_lt_cons_self]

namespace OffsetDateTime

/-- Whole local seconds since 0000-01-01. -/
def localSeconds (t : OffsetDateTime) : ℕ := t.localNanos.toNat / 1000000000

theorem fields_eq (t : OffsetDateTime) :
    t.fields.date = civilOfDay (t.localSeconds / 86400) ∧ t.fields.hour = t.localSeconds % 86400 / 3600 ∧
      t.fields.minute = t.localSeconds / 60 % 60 ∧ t.fields.sec = t.localSeconds % 60 := by
  refine ⟨?_, ?_, ?_, rfl⟩ <;> simp only [fields, fieldsOfNanos, localSeconds, nanosPerDay]
  · rw [Nat.div_div_eq_div_mul]
  · omega
  · omega

/-- **The text of whole seconds is ordered as the seconds are.** -/
theorem wholeText_lt_iff {t u : OffsetDateTime} (ht : t.YearWritable) (hu : u.YearWritable) :
    wholeText t.fields < wholeText u.fields ↔ t.localSeconds < u.localSeconds := by
  obtain ⟨tmo, td, th, tmi, ts⟩ := fields_bounds t
  obtain ⟨umo, ud, uh, umi, us⟩ := fields_bounds u
  have hdate := civilOfDay_lt_iff (n := t.localSeconds / 86400) (m := u.localSeconds / 86400)
  have heq := civilOfDay_inj (n := t.localSeconds / 86400) (m := u.localSeconds / 86400)
  obtain ⟨td', th', tmi', ts'⟩ := fields_eq t
  obtain ⟨ud', uh', umi', us'⟩ := fields_eq u
  simp only [wholeText, dateText, timeText, List.append_assoc, List.cons_append]
  rw [field_lt_iff (fields_year_lt ht) (fields_year_lt hu), field_lt_iff tmo umo, field_lt_iff td ud,
    field_lt_iff th uh, field_lt_iff tmi umi, decimal_lt_iff (by omega) (by omega)]
  rw [← td', ← ud', Civil.Before] at hdate
  rw [← td', ← ud', Civil.ext_iff] at heq
  omega

theorem wholeText_eq_iff {t u : OffsetDateTime} (ht : t.YearWritable) (hu : u.YearWritable) :
    wholeText t.fields = wholeText u.fields ↔ t.localSeconds = u.localSeconds := by
  constructor
  · intro h
    have hlt := wholeText_lt_iff ht hu
    have hgt := wholeText_lt_iff hu ht
    have hself := List.lt_irrefl (wholeText u.fields)
    rw [h] at hlt hgt
    by_contra hne
    rcases Nat.lt_or_gt_of_ne hne with h1 | h1
    · exact hself (hlt.mpr h1)
    · exact hself (hgt.mpr h1)
  · intro h
    obtain ⟨td', th', tmi', ts'⟩ := fields_eq t
    obtain ⟨ud', uh', umi', us'⟩ := fields_eq u
    simp only [wholeText, timeText, td', th', tmi', ts', ud', uh', umi', us', h]

/-- A nine-digit comparison key: the text of the instant with its fraction written out in full. -/
def keyText (t : OffsetDateTime) : List Char :=
  wholeText t.fields ++ '.' :: (decimal 9 t.fields.nanos ++ ['Z'])

/-- **Comparison keys are ordered as the instants are.** -/
theorem keyText_lt_iff {t u : OffsetDateTime} (ht : t.YearWritable) (hu : u.YearWritable) :
    keyText t < keyText u ↔ t.localNanos < u.localNanos := by
  have htn : t.fields.nanos = t.localNanos.toNat % 1000000000 := rfl
  have hun : u.fields.nanos = u.localNanos.toNat % 1000000000 := rfl
  have hself : ¬ ['Z'] < ['Z'] := List.lt_irrefl _
  rw [keyText, keyText, append_lt_append_iff (by simp), wholeText_lt_iff ht hu, wholeText_eq_iff ht hu,
    List.cons_lt_cons_self, append_lt_append_iff (by simp),
    decimal_lt_iff (fields_nanos_lt t) (fields_nanos_lt u)]
  simp only [hself, and_false, or_false]
  have h1 := ht.1
  have h2 := hu.1
  simp only [localSeconds]
  omega

theorem format_eq_some_iff {t : OffsetDateTime} {text : String} :
    t.format = some text ↔ t.YearWritable ∧ OffsetWritable t.offsetSeconds ∧
      text.toList = wholeText t.fields ++ (fractionText t.fields.nanos ++ offsetText t.offsetSeconds) := by
  unfold format
  by_cases h : t.YearWritable ∧ OffsetWritable t.offsetSeconds
  · rw [if_pos h, Option.some.injEq, ← String.toList_inj, String.toList_ofList]
    simp only [h.1, h.2, true_and]
    exact eq_comm
  · rw [if_neg h]
    simp only [reduceCtorEq, false_iff]
    exact fun h' => h ⟨h'.1, h'.2.1⟩

/-- The text of a whole second in UTC has a fixed width and ends in `Z`. -/
theorem format_wholeSecond {t : OffsetDateTime} {text : String} (hu : t.offsetSeconds = 0)
    (hn : t.nanosecond = 0) (h : t.format = some text) :
    t.YearWritable ∧ text.toList = wholeText t.fields ++ ['Z'] := by
  obtain ⟨hyear, -, htext⟩ := format_eq_some_iff.mp h
  have hnanos : t.fields.nanos = 0 := by
    have h0 := hyear.1
    simp only [nanosecond, second] at hn
    simp only [localNanos, hu, epochNanos] at h0
    simp only [fields, fieldsOfNanos, localNanos, hu, epochNanos]
    omega
  rw [hnanos, hu] at htext
  exact ⟨hyear, htext⟩

/-- The whole second of an instant, in UTC. -/
def wholeSecond (t : OffsetDateTime) : OffsetDateTime := ⟨t.unixTimestamp * second, 0⟩

@[simp] theorem wholeSecond_nanosecond (t : OffsetDateTime) : t.wholeSecond.nanosecond = 0 := Int.mul_emod_left _ _

/-- The whole second of an instant in UTC is written as its date and time. -/
theorem wholeSecond_format {t : OffsetDateTime} (hu : t.offsetSeconds = 0) (ht : t.YearWritable) :
    t.wholeSecond.format = some (String.ofList (wholeText t.fields ++ ['Z'])) := by
  obtain ⟨h0, h1⟩ := ht
  have hlocal : t.wholeSecond.localNanos = t.localNanos / 1000000000 * 1000000000 := by
    simp only [wholeSecond, unixTimestamp, localNanos, hu, second, epochNanos]
    omega
  have hyear : t.wholeSecond.YearWritable := by
    rw [YearWritable, hlocal]
    simp only [calendarNanos] at h1 ⊢
    omega
  have hformat : t.wholeSecond.format = some (String.ofList
      (wholeText t.wholeSecond.fields ++ (fractionText t.wholeSecond.fields.nanos ++ offsetText 0))) :=
    if_pos ⟨hyear, show OffsetWritable 0 by decide⟩
  obtain ⟨-, htext⟩ := format_wholeSecond (show t.wholeSecond.offsetSeconds = 0 from rfl) (wholeSecond_nanosecond t) hformat
  have hsame : wholeText t.wholeSecond.fields = wholeText t.fields := by
    refine (wholeText_eq_iff hyear ⟨h0, h1⟩).mpr ?_
    rw [localSeconds, localSeconds, hlocal]
    omega
  rw [hformat, ← hsame, ← htext, String.ofList_toList]

/-- **Whole seconds in UTC are ordered by their text.** -/
theorem format_lt_iff {t u : OffsetDateTime} {a b : String} (ht : t.offsetSeconds = 0) (hu : u.offsetSeconds = 0)
    (htn : t.nanosecond = 0) (hun : u.nanosecond = 0) (ha : t.format = some a) (hb : u.format = some b) :
    a < b ↔ t.unixNanos < u.unixNanos := by
  obtain ⟨hty, hta⟩ := format_wholeSecond ht htn ha
  obtain ⟨huy, hub⟩ := format_wholeSecond hu hun hb
  have hself : ¬ ['Z'] < ['Z'] := List.lt_irrefl _
  rw [String.lt_iff, hta, hub, append_lt_append_iff (by simp), wholeText_lt_iff hty huy]
  simp only [hself, and_false, or_false]
  have h1 := hty.1
  have h2 := huy.1
  simp only [localNanos, ht, hu, epochNanos] at h1 h2
  simp only [nanosecond, second] at htn hun
  simp only [localSeconds, localNanos, ht, hu, epochNanos]
  omega

end OffsetDateTime

end AgentVoice.Foundations

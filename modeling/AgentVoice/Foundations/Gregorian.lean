import Mathlib.Data.Nat.Basic
import Mathlib.Tactic.Ring

/-!
# The proleptic Gregorian calendar

Days are counted from 1 January of year 0. A day number is split into a year and a day of that year
(`yearOfDay`, by a division that is off by at most one), and the day of the year into a month and a
day of that month by walking the month lengths (`splitAlong`). The two directions are inverse
(`dayOfCivil_civilOfDay`), and later days have lexicographically later dates
(`civilOfDay_lt_iff`), which is why dates may be compared as text.
-/

namespace AgentVoice.Foundations

/-! ### Walking along a list of lengths -/

/-- Which of the consecutive stretches of the given lengths holds position `d`, and where in it. -/
def splitAlong : List ℕ → ℕ → ℕ × ℕ
  | [], d => (0, d)
  | l :: ls, d => if d < l then (0, d) else ((splitAlong ls (d - l)).1 + 1, (splitAlong ls (d - l)).2)

/-- The position `r` into the `m`-th stretch. -/
def joinAlong (ls : List ℕ) (m r : ℕ) : ℕ := (ls.take m).sum + r

theorem joinAlong_splitAlong (ls : List ℕ) (d : ℕ) :
    joinAlong ls (splitAlong ls d).1 (splitAlong ls d).2 = d := by
  induction ls generalizing d with
  | nil => simp [splitAlong, joinAlong]
  | cons l ls ih =>
    by_cases h : d < l
    · simp [splitAlong, joinAlong, h]
    · have := ih (d - l)
      simp only [splitAlong, h, if_false, joinAlong, List.take_succ_cons, List.sum_cons] at this ⊢
      omega

/-- A position inside the whole stretch lies in one of its parts, inside that part. -/
theorem splitAlong_lt {ls : List ℕ} {d : ℕ} (h : d < ls.sum) :
    ∃ hm : (splitAlong ls d).1 < ls.length, (splitAlong ls d).2 < ls.get ⟨(splitAlong ls d).1, hm⟩ := by
  induction ls generalizing d with
  | nil => simp at h
  | cons l ls ih =>
    rw [List.sum_cons] at h
    by_cases hd : d < l
    · simp [splitAlong, hd]
    · obtain ⟨hm, hr⟩ := ih (d := d - l) (by omega)
      simp only [splitAlong, hd, if_false, List.length_cons]
      exact ⟨Nat.succ_lt_succ hm, by simpa using hr⟩

/-- Later positions are in later stretches, or later in the same one. -/
theorem splitAlong_strictMono {ls : List ℕ} {d e : ℕ} (h : d < e) :
    (splitAlong ls d).1 < (splitAlong ls e).1 ∨
      (splitAlong ls d).1 = (splitAlong ls e).1 ∧ (splitAlong ls d).2 < (splitAlong ls e).2 := by
  induction ls generalizing d e with
  | nil => exact Or.inr ⟨rfl, h⟩
  | cons l ls ih =>
    by_cases hd : d < l <;> by_cases he : e < l
    · exact Or.inr (by simpa [splitAlong, hd, he] using h)
    · exact Or.inl (by simp [splitAlong, hd, he])
    · omega
    · simp only [splitAlong, hd, he, if_false]
      rcases ih (d := d - l) (e := e - l) (by omega) with hlt | ⟨heq, hlt⟩
      · exact Or.inl (by omega)
      · exact Or.inr ⟨by omega, hlt⟩

/-! ### Years -/

/-- Whether a year has 366 days. -/
def IsLeapYear (y : ℕ) : Prop := y % 4 = 0 ∧ (y % 100 ≠ 0 ∨ y % 400 = 0)

instance (y : ℕ) : Decidable (IsLeapYear y) := inferInstanceAs (Decidable (_ ∧ _))

def daysInYear (y : ℕ) : ℕ := if IsLeapYear y then 366 else 365

/-- The days before 1 January of year `y`. -/
def daysBeforeYear (y : ℕ) : ℕ := 365 * y + (y + 3) / 4 + (y + 399) / 400 - (y + 99) / 100

theorem daysBeforeYear_succ (y : ℕ) : daysBeforeYear (y + 1) = daysBeforeYear y + daysInYear y := by
  -- the three roundings move exactly at the multiples of 4, 100 and 400
  have h4 : (y + 1 + 3) / 4 = (y + 3) / 4 + if y % 4 = 0 then 1 else 0 := by split <;> omega
  have h100 : (y + 1 + 99) / 100 = (y + 99) / 100 + if y % 100 = 0 then 1 else 0 := by split <;> omega
  have h400 : (y + 1 + 399) / 400 = (y + 399) / 400 + if y % 400 = 0 then 1 else 0 := by split <;> omega
  have hle : (y + 99) / 100 ≤ (y + 3) / 4 + (y + 399) / 400 := by omega
  unfold daysBeforeYear daysInYear IsLeapYear
  rw [h4, h100, h400]
  by_cases d4 : y % 4 = 0 <;> by_cases d100 : y % 100 = 0 <;> by_cases d400 : y % 400 = 0 <;>
    simp only [d4, d100, d400, ne_eq, not_true, not_false_iff, or_true, or_false, and_true,
      and_false, if_true, if_false] <;>
    omega

theorem daysInYear_pos (y : ℕ) : 0 < daysInYear y := by
  unfold daysInYear
  split <;> decide

theorem daysBeforeYear_strictMono : StrictMono daysBeforeYear :=
  strictMono_nat_of_lt_succ fun y => by
    rw [daysBeforeYear_succ]
    exact Nat.lt_add_of_pos_right (daysInYear_pos y)

/-- The year of a day. A 400-year cycle has 146097 days, so the first guess misses by one year at
most. -/
def yearOfDay (n : ℕ) : ℕ :=
  let y := n * 400 / 146097
  if daysBeforeYear (y + 1) ≤ n then y + 1 else if n < daysBeforeYear y then y - 1 else y

theorem daysBeforeYear_le (y : ℕ) : 400 * daysBeforeYear y ≤ 146097 * y + 699 := by
  unfold daysBeforeYear
  omega

theorem le_daysBeforeYear (y : ℕ) : 146097 * y ≤ 400 * daysBeforeYear y + 396 := by
  unfold daysBeforeYear
  omega

theorem yearOfDay_spec (n : ℕ) :
    daysBeforeYear (yearOfDay n) ≤ n ∧ n < daysBeforeYear (yearOfDay n + 1) := by
  have hy := Nat.div_add_mod (n * 400) 146097
  have hr := Nat.mod_lt (n * 400) (y := 146097) (by decide)
  set y := n * 400 / 146097 with hydef
  have h0 := daysBeforeYear_le y
  have h2 := le_daysBeforeYear (y + 1 + 1)
  simp only [yearOfDay, ← hydef]
  by_cases hup : daysBeforeYear (y + 1) ≤ n
  · rw [if_pos hup]
    exact ⟨hup, by omega⟩
  · rw [if_neg hup]
    by_cases hdown : n < daysBeforeYear y
    · rw [if_pos hdown]
      -- year 0 begins at day 0, so the guess was not 0
      have hpos : 0 < y := by
        rcases Nat.eq_zero_or_pos y with h | h
        · rw [h] at hdown
          simp [daysBeforeYear] at hdown
        · exact h
      have h1 := daysBeforeYear_le (y - 1)
      exact ⟨by omega, by rwa [Nat.sub_add_cancel hpos]⟩
    · rw [if_neg hdown]
      exact ⟨by omega, by omega⟩

theorem yearOfDay_mono {n m : ℕ} (h : n ≤ m) : yearOfDay n ≤ yearOfDay m := by
  have := daysBeforeYear_strictMono.lt_iff_lt.mp
    (((yearOfDay_spec n).1.trans h).trans_lt (yearOfDay_spec m).2)
  omega

/-! ### Dates -/

/-- A calendar date: `month` counts from 1 to 12 and `day` from 1. -/
@[ext]
structure Civil where
  year : ℕ
  month : ℕ
  day : ℕ
  deriving DecidableEq, Repr

/-- The month lengths of a year. -/
def monthLengths (y : ℕ) : List ℕ :=
  [31, if IsLeapYear y then 29 else 28, 31, 30, 31, 30, 31, 31, 30, 31, 30, 31]

theorem sum_monthLengths (y : ℕ) : (monthLengths y).sum = daysInYear y := by
  unfold monthLengths daysInYear
  split <;> rfl

/-- The date of a day number. -/
def civilOfDay (n : ℕ) : Civil :=
  let y := yearOfDay n
  let md := splitAlong (monthLengths y) (n - daysBeforeYear y)
  ⟨y, md.1 + 1, md.2 + 1⟩

/-- Whether a date exists. -/
def Civil.IsValid (c : Civil) : Prop :=
  1 ≤ c.month ∧ c.month ≤ 12 ∧ 1 ≤ c.day ∧ c.day ≤ (monthLengths c.year).getD (c.month - 1) 0

instance (c : Civil) : Decidable c.IsValid := inferInstanceAs (Decidable (_ ∧ _))

/-- The day number of a date, if the date exists. -/
def dayOfCivil (c : Civil) : Option ℕ :=
  if c.IsValid then some (daysBeforeYear c.year + joinAlong (monthLengths c.year) (c.month - 1) (c.day - 1))
  else none

theorem dayOfYear_lt (n : ℕ) : n - daysBeforeYear (yearOfDay n) < (monthLengths (yearOfDay n)).sum := by
  obtain ⟨h1, h2⟩ := yearOfDay_spec n
  rw [sum_monthLengths]
  rw [daysBeforeYear_succ] at h2
  omega

theorem isValid_civilOfDay (n : ℕ) : (civilOfDay n).IsValid := by
  obtain ⟨hm, hr⟩ := splitAlong_lt (dayOfYear_lt n)
  have hlen : (monthLengths (yearOfDay n)).length = 12 := rfl
  simp only [Civil.IsValid, civilOfDay, Nat.add_sub_cancel]
  refine ⟨Nat.le_add_left 1 _, Nat.succ_le_of_lt (hlen ▸ hm), Nat.le_add_left 1 _, ?_⟩
  rw [List.getD_eq_getElem?_getD, List.getElem?_eq_getElem hm]
  exact hr

/-- **A day number survives the trip through its date.** -/
theorem dayOfCivil_civilOfDay (n : ℕ) : dayOfCivil (civilOfDay n) = some n := by
  rw [dayOfCivil, if_pos (isValid_civilOfDay n)]
  simp only [civilOfDay, Nat.add_sub_cancel, joinAlong_splitAlong, Option.some.injEq]
  exact Nat.add_sub_cancel' (yearOfDay_spec n).1

example : dayOfCivil ⟨1970, 1, 1⟩ = some 719528 := by decide +kernel

theorem civilOfDay_inj {n m : ℕ} : civilOfDay n = civilOfDay m ↔ n = m := by
  refine ⟨fun h => ?_, fun h => h ▸ rfl⟩
  have := dayOfCivil_civilOfDay n
  rw [h, dayOfCivil_civilOfDay] at this
  exact (Option.some.inj this).symm

/-- The bounds of the fields of a date. -/
theorem civilOfDay_month (n : ℕ) : (civilOfDay n).month < 100 := by
  have := (isValid_civilOfDay n).2.1
  omega

theorem civilOfDay_day (n : ℕ) : (civilOfDay n).day < 100 := by
  obtain ⟨hm, hr⟩ := splitAlong_lt (dayOfYear_lt n)
  have hall : ∀ l ∈ monthLengths (yearOfDay n), l ≤ 31 := by
    unfold monthLengths
    split <;> decide
  have := hall _ (List.get_mem _ ⟨_, hm⟩)
  simp only [civilOfDay]
  omega

/-- The lexicographic order of dates. -/
def Civil.Before (c c' : Civil) : Prop :=
  c.year < c'.year ∨ c.year = c'.year ∧ (c.month < c'.month ∨ c.month = c'.month ∧ c.day < c'.day)

theorem civilOfDay_before {n m : ℕ} (h : n < m) : (civilOfDay n).Before (civilOfDay m) := by
  rcases (yearOfDay_mono h.le).lt_or_eq with hy | hy
  · exact Or.inl hy
  · refine Or.inr ⟨hy, ?_⟩
    have hn := (yearOfDay_spec n).1
    rw [hy] at hn
    simp only [civilOfDay, hy]
    have hdoy : n - daysBeforeYear (yearOfDay m) < m - daysBeforeYear (yearOfDay m) := by omega
    have hmd := @splitAlong_strictMono (monthLengths (yearOfDay m)) _ _ hdoy
    rcases hmd with hlt | ⟨heq, hlt⟩
    · exact Or.inl (by omega)
    · exact Or.inr ⟨by omega, by omega⟩

theorem Civil.Before.asymm {c c' : Civil} (h : c.Before c') : ¬ c'.Before c := by
  unfold Civil.Before at *
  omega

theorem Civil.Before.irrefl (c : Civil) : ¬ c.Before c := fun h => h.asymm h

/-- **Date order is day order.** -/
theorem civilOfDay_lt_iff {n m : ℕ} : (civilOfDay n).Before (civilOfDay m) ↔ n < m := by
  refine ⟨fun h => ?_, civilOfDay_before⟩
  rcases lt_trichotomy n m with hlt | rfl | hgt
  · exact hlt
  · exact absurd h (Civil.Before.irrefl _)
  · exact absurd h (civilOfDay_before hgt).asymm

example : civilOfDay 719528 = ⟨1970, 1, 1⟩ := by decide

end AgentVoice.Foundations

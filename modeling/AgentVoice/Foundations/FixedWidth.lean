import Mathlib.Data.Char
import Mathlib.Data.Nat.Basic
import Mathlib.Data.List.DropRight
import Mathlib.Order.Basic
import Mathlib.Tactic.Ring

/-!
# Fixed-width decimal text

Numbers written with a fixed number of decimal digits, as timestamps write their fields. Two facts
make such text usable as a sort key: equal-length fields are compared one after the other
(`append_lt_append_iff`), and a field of `w` digits is ordered as the number it writes
(`decimal_lt_iff`). The reader `readNumber` takes back exactly what `decimal` wrote.

A fraction is the exception to the fixed width: its trailing zeros are dropped when it is written
(`trimZeros`) and put back when it is read (`padZeros`).
-/

namespace AgentVoice.Foundations

/-! ### Comparing equal-length fields -/

section Lex

variable {α : Type*} [LT α]

/-- Fields of one length are compared first, and what follows them only when they are equal. -/
theorem append_lt_append_iff {a a' b b' : List α} (h : a.length = a'.length) :
    a ++ b < a' ++ b' ↔ a < a' ∨ a = a' ∧ b < b' := by
  induction a generalizing a' with
  | nil =>
    obtain rfl : a' = [] := List.length_eq_zero_iff.mp (by simpa using h.symm)
    simp
  | cons x xs ih =>
    cases a' with
    | nil => simp at h
    | cons y ys =>
      simp only [List.cons_append, List.cons_lt_cons_iff, ih (Nat.succ.inj h), List.cons.injEq]
      constructor
      · rintro (hxy | ⟨rfl, hlt | ⟨rfl, hb⟩⟩)
        · exact Or.inl (Or.inl hxy)
        · exact Or.inl (Or.inr ⟨rfl, hlt⟩)
        · exact Or.inr ⟨⟨rfl, rfl⟩, hb⟩
      · rintro ((hxy | ⟨rfl, hlt⟩) | ⟨⟨rfl, rfl⟩, hb⟩)
        · exact Or.inl hxy
        · exact Or.inr ⟨rfl, Or.inl hlt⟩
        · exact Or.inr ⟨rfl, Or.inr ⟨rfl, hb⟩⟩

end Lex

/-! ### Digits -/

/-- The value of a decimal digit. -/
def readDigit (c : Char) : Option ℕ := if c.isDigit then some (c.toNat - 48) else none

theorem toNat_digitChar {d : ℕ} (h : d < 10) : (Nat.digitChar d).toNat = 48 + d := by
  rw [Nat.toNat_digitChar_of_lt_ten h]

theorem isDigit_digitChar {d : ℕ} (h : d < 10) : (Nat.digitChar d).isDigit = true := by
  rw [Char.isDigit_iff_toNat, toNat_digitChar h]
  simp only [Char.reduceToNat]
  omega

theorem readDigit_digitChar {d : ℕ} (h : d < 10) : readDigit (Nat.digitChar d) = some d := by
  rw [readDigit, if_pos (isDigit_digitChar h), toNat_digitChar h]
  simp

theorem digitChar_lt_iff {d e : ℕ} (hd : d < 10) (he : e < 10) :
    Nat.digitChar d < Nat.digitChar e ↔ d < e := by
  have hd' := toNat_digitChar hd
  have he' := toNat_digitChar he
  rw [Char.lt_def, UInt32.lt_iff_toNat_lt]
  simp only [Char.toNat] at hd' he'
  omega

theorem digitChar_inj {d e : ℕ} (hd : d < 10) (he : e < 10) :
    Nat.digitChar d = Nat.digitChar e ↔ d = e := by
  refine ⟨fun h => ?_, fun h => h ▸ rfl⟩
  have := congrArg Char.toNat h
  rw [toNat_digitChar hd, toNat_digitChar he] at this
  omega

/-! ### Numbers of a fixed width -/

/-- `n` written with exactly `w` decimal digits, the most significant first; only the last `w`
digits of a longer number would fit, so the uses below have `n < 10 ^ w`. -/
def decimal : ℕ → ℕ → List Char
  | 0, _ => []
  | w + 1, n => Nat.digitChar (n / 10 ^ w) :: decimal w (n % 10 ^ w)

/-- Reads exactly `w` decimal digits; the rest of the text is returned unread. -/
def readNumber : ℕ → List Char → Option (ℕ × List Char)
  | 0, cs => some (0, cs)
  | _ + 1, [] => none
  | w + 1, c :: cs => do
    let d ← readDigit c
    let (n, rest) ← readNumber w cs
    return (d * 10 ^ w + n, rest)

@[simp] theorem length_decimal (w n : ℕ) : (decimal w n).length = w := by
  induction w generalizing n with
  | zero => rfl
  | succ w ih => simp [decimal, ih]

/-- The leading digit of a number that fits is a digit. -/
theorem leading_lt {w n : ℕ} (h : n < 10 ^ (w + 1)) : n / 10 ^ w < 10 := by
  rw [Nat.div_lt_iff_lt_mul (Nat.pow_pos (by decide))]
  rwa [pow_succ, mul_comm] at h

theorem isDigit_of_mem_decimal {w n : ℕ} (h : n < 10 ^ w) {c : Char} (hc : c ∈ decimal w n) :
    c.isDigit = true := by
  induction w generalizing n with
  | zero => simp [decimal] at hc
  | succ w ih =>
    rcases List.mem_cons.mp hc with rfl | hc
    · exact isDigit_digitChar (leading_lt h)
    · exact ih (Nat.mod_lt _ (Nat.pow_pos (by decide))) hc

theorem readNumber_decimal {w n : ℕ} (h : n < 10 ^ w) (rest : List Char) :
    readNumber w (decimal w n ++ rest) = some (n, rest) := by
  induction w generalizing n with
  | zero =>
    obtain rfl : n = 0 := by simpa using h
    rfl
  | succ w ih =>
    simp only [decimal, List.cons_append, readNumber, readDigit_digitChar (leading_lt h),
      ih (Nat.mod_lt n (Nat.pow_pos (by decide))), Option.bind_eq_bind, Option.bind_some, Option.pure_def]
    rw [mul_comm, Nat.div_add_mod]

/-- **Text order is number order**, for numbers written with the same width. -/
theorem decimal_lt_iff {w n m : ℕ} (hn : n < 10 ^ w) (hm : m < 10 ^ w) :
    decimal w n < decimal w m ↔ n < m := by
  induction w generalizing n m with
  | zero =>
    have : n = 0 ∧ m = 0 := by simpa using And.intro hn hm
    simp [this, decimal]
  | succ w ih =>
    have hpos : 0 < 10 ^ w := Nat.pow_pos (by decide)
    rw [decimal, decimal, List.cons_lt_cons_iff, digitChar_lt_iff (leading_lt hn) (leading_lt hm),
      digitChar_inj (leading_lt hn) (leading_lt hm), ih (Nat.mod_lt n hpos) (Nat.mod_lt m hpos)]
    have en := Nat.div_add_mod n (10 ^ w)
    have em := Nat.div_add_mod m (10 ^ w)
    constructor
    · rintro (hlt | ⟨heq, hlt⟩)
      · by_contra hge
        exact absurd (Nat.div_le_div_right (not_lt.mp hge)) (not_le.mpr hlt)
      · rw [← en, ← em, heq]
        omega
    · intro hlt
      rcases Nat.lt_or_ge (n / 10 ^ w) (m / 10 ^ w) with h | h
      · exact Or.inl h
      · have heq := le_antisymm (Nat.div_le_div_right hlt.le) h
        refine Or.inr ⟨heq, ?_⟩
        rw [← en, ← em, heq] at hlt
        omega

theorem decimal_inj {w n m : ℕ} (hn : n < 10 ^ w) (hm : m < 10 ^ w) (h : decimal w n = decimal w m) :
    n = m := by
  have := readNumber_decimal hn []
  rw [h, readNumber_decimal hm] at this
  simpa using this.symm

/-! ### Fractions -/

/-- A digit string without its trailing zeros. -/
def trimZeros (cs : List Char) : List Char := cs.rdropWhile (· = '0')

/-- A digit string cut, or filled up with zeros, to `w` digits. -/
def padZeros (w : ℕ) (cs : List Char) : List Char := (cs ++ List.replicate w '0').take w

theorem trimZeros_append_replicate (cs : List Char) :
    ∃ k, cs = trimZeros cs ++ List.replicate k '0' := by
  induction cs using List.reverseRecOn with
  | nil => exact ⟨0, rfl⟩
  | append_singleton cs c ih =>
    by_cases hc : c = '0'
    · obtain ⟨k, hk⟩ := ih
      refine ⟨k + 1, ?_⟩
      rw [trimZeros, List.rdropWhile_concat_pos _ _ _ (by simpa using hc), ← trimZeros, hc,
        List.replicate_succ', ← List.append_assoc, ← hk]
    · exact ⟨0, by rw [trimZeros, List.rdropWhile_concat_neg _ _ _ (by simpa using hc)]; simp⟩

/-- Padding undoes trimming. -/
theorem padZeros_trimZeros {w : ℕ} {cs : List Char} (h : cs.length = w) :
    padZeros w (trimZeros cs) = cs := by
  obtain ⟨k, hk⟩ := trimZeros_append_replicate cs
  have hk' : (trimZeros cs).length + k = w := by
    rw [← h]
    conv_rhs => rw [hk]
    simp
  rw [padZeros]
  conv_rhs => rw [hk]
  rw [List.take_append, List.take_of_length_le (by omega), List.take_replicate]
  congr 2
  omega

theorem mem_of_mem_trimZeros {cs : List Char} {c : Char} (h : c ∈ trimZeros cs) : c ∈ cs := by
  obtain ⟨k, hk⟩ := trimZeros_append_replicate cs
  rw [hk]
  exact List.mem_append_left _ h

/-- No digit string comes before the zeros of its length. -/
theorem not_lt_replicate_zero {l : List Char} (h : ∀ c ∈ l, '0' ≤ c) : ¬ l < List.replicate l.length '0' := by
  induction l with
  | nil => exact List.lt_irrefl _
  | cons c l ih =>
    rw [List.length_cons, List.replicate_succ, List.cons_lt_cons_iff]
    rintro (hlt | ⟨-, hlt⟩)
    · exact absurd (h c List.mem_cons_self) (not_le.mpr hlt)
    · exact ih (fun d hd => h d (List.mem_cons_of_mem _ hd)) hlt

/-- **The text order of fractions.** Of two fractions without their trailing zeros, each before an end mark that is
greater than the digits, the smaller one comes first unless it begins the other. -/
theorem fraction_end_lt {stop : Char} {x y : List Char} (hx : ∀ c ∈ x, '0' ≤ c) (hy : ∀ c ∈ y, c < stop) {k l : ℕ}
    (hlength : x.length + k = y.length + l)
    (hlt : x ++ List.replicate k '0' < y ++ List.replicate l '0') :
    (x <+: y → y ++ [stop] < x ++ [stop]) ∧ (¬ x <+: y → x ++ [stop] < y ++ [stop]) := by
  induction x generalizing y with
  | nil =>
    refine ⟨fun _ => ?_, fun hnot => absurd (List.nil_prefix) hnot⟩
    cases y with
    | nil =>
      have hkl : k = l := by simpa using hlength
      rw [hkl] at hlt
      exact absurd hlt (List.lt_irrefl _)
    | cons d y => exact List.cons_lt_cons_iff.mpr (Or.inl (hy d List.mem_cons_self))
  | cons c x ih =>
    cases y with
    | nil =>
      have hsame : l = (c :: x ++ List.replicate k '0').length := by
        rw [List.length_append, List.length_replicate, hlength, List.length_nil, Nat.zero_add]
      rw [List.nil_append, hsame] at hlt
      refine absurd hlt (not_lt_replicate_zero fun d hd => ?_)
      rcases List.mem_append.mp hd with hd | hd
      · exact hx d hd
      · rw [(List.mem_replicate.mp hd).2]
    | cons d y =>
      rw [List.cons_append, List.cons_append, List.cons_lt_cons_iff] at hlt
      simp only [List.cons_append, List.cons_lt_cons_iff, List.cons_prefix_cons]
      rcases hlt with hlt | ⟨rfl, hlt⟩
      · exact ⟨fun h => absurd h.1 hlt.ne, fun _ => Or.inl hlt⟩
      · have hx' : ∀ d ∈ x, '0' ≤ d := fun d hd => hx d (List.mem_cons_of_mem _ hd)
        have hy' : ∀ d ∈ y, d < stop := fun d hd => hy d (List.mem_cons_of_mem _ hd)
        have hlength' : x.length + k = y.length + l := by
          simp only [List.length_cons] at hlength
          omega
        obtain ⟨hbegins, hnot⟩ := ih hx' hy' hlength' hlt
        refine ⟨fun h => Or.inr ⟨rfl, hbegins h.2⟩, fun h => Or.inr ⟨rfl, hnot fun hprefix => h ⟨rfl, hprefix⟩⟩⟩

end AgentVoice.Foundations

import AgentVoice.Foundations.Bytes
import Mathlib.Tactic.Ring

/-!
# Little-endian numbers

Numbers as bytes, least significant byte first, with the checked index and the checked addition of a reader that walks
over them.
-/

namespace AgentVoice.Foundations

variable {ε α : Type}

/-- `bytes[i]`. -/
def indexAt (bytes : List α) (i : ℕ) : Except (Fault ε) α := okOr bytes[i]? .panic

/-- An addition of lengths that stops the program when it overflows. -/
def checkedPlus (m n : ℕ) : Except (Fault ε) ℕ := okOr (checkedAddUsize m n) .panic

theorem indexAt_of {bytes : List α} {i : ℕ} {a : α} (h : bytes[i]? = some a) : indexAt (ε := ε) bytes i = .ok a := by
  rw [indexAt, h]
  rfl

theorem checkedPlus_of {m n : ℕ} (h : m + n < 2 ^ 64) : checkedPlus (ε := ε) m n = .ok (m + n) := by
  rw [checkedPlus, checkedAddUsize, if_pos h]
  rfl

theorem checkedPlus_eq_ok_iff {m n k : ℕ} : checkedPlus (ε := ε) m n = .ok k ↔ k = m + n ∧ m + n < 2 ^ 64 := by
  rw [checkedPlus, okOr_eq_ok_iff, checkedAddUsize_eq_some_iff]

theorem NoPanic.indexAt {bytes : List α} {i : ℕ} (h : i < bytes.length) : NoPanic (indexAt (ε := ε) bytes i) := by
  rw [indexAt_of (List.getElem?_eq_getElem h)]
  exact NoPanic.ok _

theorem NoPanic.checkedPlus {m n : ℕ} (h : m + n < 2 ^ 64) : NoPanic (checkedPlus (ε := ε) m n) := by
  rw [checkedPlus_of h]
  exact NoPanic.ok _

/-- `from_le_bytes`. -/
def fromLeBytes : List UInt8 → ℕ
  | [] => 0
  | b :: bytes => b.toNat + 256 * fromLeBytes bytes

/-- `to_le_bytes`, of a number of `width` bytes. -/
def toLeBytes : ℕ → ℕ → List UInt8
  | 0, _ => []
  | width + 1, n => .ofNat n :: toLeBytes width (n / 256)

@[simp] theorem length_toLeBytes (width n : ℕ) : (toLeBytes width n).length = width := by
  induction width generalizing n with
  | zero => rfl
  | succ width ih => rw [toLeBytes, List.length_cons, ih]

/-- **A number survives its encoding.** -/
theorem fromLeBytes_toLeBytes {width n : ℕ} (h : n < 256 ^ width) : fromLeBytes (toLeBytes width n) = n := by
  induction width generalizing n with
  | zero =>
    rw [pow_zero] at h
    exact (Nat.lt_one_iff.mp h).symm
  | succ width ih =>
    have hrest : n / 256 < 256 ^ width := Nat.div_lt_of_lt_mul (by rw [pow_succ, mul_comm] at h; exact h)
    rw [toLeBytes, fromLeBytes, ih hrest, UInt8.toNat_ofNat']
    exact Nat.mod_add_div n 256

example : toLeBytes 4 8000 = [0x40, 0x1f, 0, 0] := by decide +kernel

/-- `i16::from_le_bytes`. -/
def i16FromLeBytes (low high : UInt8) : Int16 := .ofNat (fromLeBytes [low, high])

/-- `i16::to_le_bytes`. -/
def i16ToLeBytes (sample : Int16) : List UInt8 := toLeBytes 2 sample.toUInt16.toNat

/-- **A sample survives its encoding.** -/
theorem i16FromLeBytes_i16ToLeBytes (sample : Int16) :
    i16FromLeBytes (.ofNat sample.toUInt16.toNat) (.ofNat (sample.toUInt16.toNat / 256)) = sample := by
  have hround : fromLeBytes (toLeBytes 2 sample.toUInt16.toNat) = sample.toUInt16.toNat :=
    fromLeBytes_toLeBytes sample.toUInt16.toNat_lt
  rw [i16FromLeBytes, show [UInt8.ofNat sample.toUInt16.toNat, .ofNat (sample.toUInt16.toNat / 256)] =
    toLeBytes 2 sample.toUInt16.toNat from rfl, hround]
  show (UInt16.ofNat sample.toUInt16.toNat).toInt16 = sample
  rw [UInt16.ofNat_toNat]
  rfl

end AgentVoice.Foundations

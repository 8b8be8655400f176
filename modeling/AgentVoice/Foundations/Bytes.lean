import AgentVoice.Foundations.JsonText
import AgentVoice.Foundations.Result
import Mathlib.Algebra.Group.Nat.Defs
import Mathlib.Data.List.TakeDrop

/-!
# Bytes

The bytes of a text, bytes as hexadecimal digits, the four bytes of a length, and parts of a byte string as a language with
checked indexing takes them: an index outside the string is no error value but stops the program
(`Fault.panic`), so that a reader which never panics never indexes outside its input.
-/

namespace AgentVoice.Foundations

/-- `str::as_bytes`: the UTF-8 encoding. -/
def utf8 (s : String) : List UInt8 := s.toByteArray.data.toList

/-- `str::from_utf8`. -/
def fromUtf8 (bytes : List UInt8) : Option String := String.fromUTF8? ⟨⟨bytes⟩⟩

@[simp] theorem length_utf8 (s : String) : (utf8 s).length = byteLength s := rfl

/-- **Text survives its encoding.** -/
@[simp] theorem fromUtf8_utf8 (s : String) : fromUtf8 (utf8 s) = some s := by
  have hbytes : (⟨⟨utf8 s⟩⟩ : ByteArray) = s.toByteArray := rfl
  rw [fromUtf8, hbytes, String.fromUTF8?, dif_pos s.isValidUTF8]
  rfl

/-! ### Hexadecimal digits -/

/-- A lowercase hexadecimal digit, `b'0'..=b'9'` or `b'a'..=b'f'`. -/
def isLowerHex (c : Char) : Bool := c.isDigit || (97 ≤ c.toNat && c.toNat ≤ 102)

/-- The digits of a byte string. -/
def hexChars (bytes : List UInt8) : List Char := bytes.flatMap fun b => hexByte b.toNat

/-- The digits of a byte string, as a text. -/
def lowercaseHex (bytes : List UInt8) : String := String.ofList (hexChars bytes)

theorem hexByte_inj {m n : ℕ} (hm : m < 256) (hn : n < 256) (h : hexByte m = hexByte n) : m = n := by
  simp only [hexByte, List.cons.injEq, and_true] at h
  have hhigh := congrArg readHexDigit h.1
  have hlow := congrArg readHexDigit h.2
  rw [readHexDigit_digitChar (by omega), readHexDigit_digitChar (by omega), Option.some.injEq] at hhigh hlow
  omega

/-- **A byte string is determined by its digits.** -/
theorem lowercaseHex_inj {a b : List UInt8} (h : lowercaseHex a = lowercaseHex b) : a = b := by
  have hchars : hexChars a = hexChars b := String.ofList_injective h
  clear h
  induction a generalizing b with
  | nil =>
    cases b with
    | nil => rfl
    | cons y b => cases hchars
  | cons x a ih =>
    cases b with
    | nil => cases hchars
    | cons y b =>
      rw [hexChars, hexChars, List.flatMap_cons, List.flatMap_cons] at hchars
      obtain ⟨hxy, hrest⟩ := List.append_inj hchars rfl
      rw [UInt8.toNat_inj.mp (hexByte_inj x.toNat_lt y.toNat_lt hxy), ih hrest]

/-- A hexadecimal digit is a character of one byte, is no control character and no white space. -/
theorem isLowerHex_of_mem_hexChars {bytes : List UInt8} {c : Char} (h : c ∈ hexChars bytes) :
    isLowerHex c = true ∧ isControl c = false ∧ isWhitespace c = false ∧ c.utf8Size = 1 := by
  have hdigit : ∀ d < 16, isLowerHex (Nat.digitChar d) = true ∧ isControl (Nat.digitChar d) = false ∧
      isWhitespace (Nat.digitChar d) = false ∧ (Nat.digitChar d).utf8Size = 1 := by decide
  obtain ⟨b, -, hb⟩ := List.mem_flatMap.mp h
  have hlt := b.toNat_lt
  rcases List.mem_cons.mp hb with rfl | hb
  · exact hdigit _ (by omega)
  · rw [List.mem_singleton.mp hb]
    exact hdigit _ (by omega)

/-- **Every byte takes two digits.** -/
theorem byteLength_lowercaseHex (bytes : List UInt8) : byteLength (lowercaseHex bytes) = 2 * bytes.length := by
  have hlength : (hexChars bytes).length = 2 * bytes.length := by
    induction bytes with
    | nil => rfl
    | cons b bytes ih =>
      rw [hexChars, List.flatMap_cons, List.length_append, ← hexChars, ih, List.length_cons,
        show (hexByte b.toNat).length = 2 from rfl]
      omega
  rw [lowercaseHex, byteLength_ofList_of_utf8Size fun c hc => (isLowerHex_of_mem_hexChars hc).2.2.2, hlength]

/-! ### Lengths -/

/-- The largest length of a slice, `isize::MAX`. -/
def isizeMax : ℕ := 2 ^ 63 - 1

/-- `usize::checked_add`. -/
def checkedAddUsize (m n : ℕ) : Option ℕ := if m + n < 2 ^ 64 then some (m + n) else none

/-- `u32::try_from` of a length. -/
def u32TryFrom (n : ℕ) : Option ℕ := if n < 2 ^ 32 then some n else none

/-- `u64::try_from` of a length. -/
def u64TryFrom (n : ℕ) : Option UInt64 := if n < 2 ^ 64 then some (.ofNat n) else none

theorem checkedAddUsize_eq_some_iff {m n k : ℕ} : checkedAddUsize m n = some k ↔ k = m + n ∧ m + n < 2 ^ 64 := by
  unfold checkedAddUsize
  split_ifs with h
  · rw [Option.some.injEq, eq_comm, and_iff_left h]
  · exact iff_of_false nofun fun hk => h hk.2

theorem u32TryFrom_eq_some_iff {n k : ℕ} : u32TryFrom n = some k ↔ k = n ∧ n < 2 ^ 32 := by
  unfold u32TryFrom
  split_ifs with h
  · rw [Option.some.injEq, eq_comm, and_iff_left h]
  · exact iff_of_false nofun fun hk => h hk.2

theorem u64TryFrom_eq_some_iff {n : ℕ} {k : UInt64} : u64TryFrom n = some k ↔ k.toNat = n := by
  unfold u64TryFrom
  split_ifs with h
  · rw [Option.some.injEq]
    constructor
    · rintro rfl
      exact UInt64.toNat_ofNat_of_lt' h
    · rintro rfl
      exact UInt64.ofNat_toNat
  · refine iff_of_false nofun fun hk => h ?_
    rw [← hk]
    exact k.toNat_lt

/-! ### The four bytes of a length, most significant first -/

/-- `u32::to_be_bytes`. -/
def toBeBytes (n : ℕ) : List UInt8 :=
  [.ofNat (n / 2 ^ 24), .ofNat (n / 2 ^ 16), .ofNat (n / 2 ^ 8), .ofNat n]

/-- `u32::from_be_bytes`, of a slice that `try_into` takes for four bytes. -/
def fromBeBytes : List UInt8 → Option ℕ
  | [a, b, c, d] => some (((a.toNat * 2 ^ 8 + b.toNat) * 2 ^ 8 + c.toNat) * 2 ^ 8 + d.toNat)
  | _ => none

@[simp] theorem length_toBeBytes (n : ℕ) : (toBeBytes n).length = 4 := rfl

/-- **A length survives its encoding.** -/
theorem fromBeBytes_toBeBytes {n : ℕ} (h : n < 2 ^ 32) : fromBeBytes (toBeBytes n) = some n := by
  simp only [toBeBytes, fromBeBytes, UInt8.toNat_ofNat', Option.some.injEq]
  omega

/-- **A length has one encoding only.** -/
theorem toBeBytes_of_fromBeBytes {bytes : List UInt8} {n : ℕ} (h : fromBeBytes bytes = some n) : toBeBytes n = bytes := by
  unfold fromBeBytes at h
  split at h
  · rename_i a b c d
    have ha := a.toNat_lt
    have hb := b.toNat_lt
    have hc := c.toNat_lt
    have hd := d.toNat_lt
    cases h
    simp only [toBeBytes, List.cons.injEq, and_true, ← UInt8.toNat_inj, UInt8.toNat_ofNat']
    omega
  · cases h

/-! ### Parts of a byte string -/

/-- What ends a computation early: an error that is returned, or a panic. -/
inductive Fault (ε : Type) where
  | error (e : ε)
  | panic
  deriving DecidableEq, Repr

variable {ε α β : Type}

/-- The errors of a step, as errors that are returned. -/
def returned (x : Except ε α) : Except (Fault ε) α := x.mapError .error

@[simp] theorem returned_eq_ok_iff {x : Except ε α} {a : α} : returned x = .ok a ↔ x = .ok a := by
  cases x <;> simp [returned, Except.mapError]

/-- `&bytes[i..j]`. -/
def slice (bytes : List α) (i j : ℕ) : Except (Fault ε) (List α) :=
  if i ≤ j ∧ j ≤ bytes.length then .ok ((bytes.drop i).take (j - i)) else .error .panic

theorem slice_of {bytes : List α} {i j : ℕ} (hij : i ≤ j) (hj : j ≤ bytes.length) :
    slice (ε := ε) bytes i j = .ok ((bytes.drop i).take (j - i)) := if_pos ⟨hij, hj⟩

/-- **A part of a byte string stands between two others.** -/
theorem slice_eq_ok_iff {bytes part : List α} {i j : ℕ} :
    slice (ε := ε) bytes i j = .ok part ↔ ∃ a c, bytes = a ++ (part ++ c) ∧ a.length = i ∧ i + part.length = j := by
  unfold slice
  constructor
  · intro h
    split_ifs at h with hbounds
    obtain ⟨hij, hj⟩ := hbounds
    cases h
    refine ⟨bytes.take i, (bytes.drop i).drop (j - i), ?_, ?_, ?_⟩
    · rw [List.take_append_drop, List.take_append_drop]
    · rw [List.length_take, min_eq_left (hij.trans hj)]
    · rw [List.length_take, List.length_drop]
      omega
  · rintro ⟨a, c, rfl, rfl, rfl⟩
    rw [if_pos ⟨Nat.le_add_right _ _, by simp only [List.length_append]; omega⟩, List.drop_left,
      Nat.add_sub_cancel_left, List.take_left]

/-- The computation ends with a value or with a returned error. -/
def NoPanic (x : Except (Fault ε) α) : Prop := x ≠ .error .panic

namespace NoPanic

theorem ok (a : α) : NoPanic (.ok a : Except (Fault ε) α) := nofun

theorem require (p : Prop) [Decidable p] (e : ε) : NoPanic (require p (.error e)) := by
  unfold NoPanic Foundations.require
  split_ifs <;> simp

theorem okOr (x : Option α) (e : ε) : NoPanic (okOr x (.error e)) := by
  cases x <;> simp [NoPanic, Foundations.okOr]

theorem returned (x : Except ε α) : NoPanic (returned x) := by
  cases x <;> simp [NoPanic, Foundations.returned, Except.mapError]

theorem slice {bytes : List α} {i j : ℕ} (hij : i ≤ j) (hj : j ≤ bytes.length) :
    NoPanic (slice (ε := ε) bytes i j) := by
  rw [slice_of hij hj]
  exact ok _

/-- A sequence of steps does not panic when no step does, from what the steps before it let through. -/
theorem bind {x : Except (Fault ε) α} {f : α → Except (Fault ε) β} (hx : NoPanic x)
    (hf : ∀ a, x = .ok a → NoPanic (f a)) : NoPanic (x >>= f) := by
  intro h
  rcases bind_eq_error_iff.mp h with h | ⟨a, ha, h⟩
  · exact hx h
  · exact hf a ha h

end NoPanic

end AgentVoice.Foundations

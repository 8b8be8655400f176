import AgentVoice.Foundations.Text
import Mathlib.Data.List.Infix

/-!
# ASCII case and parts of a text

The string methods that texts are compared and taken apart with, on the characters: ASCII case, what is trimmed at both
ends, what is contained.
-/

namespace AgentVoice.Foundations

/-- `str::to_ascii_lowercase`. -/
def lowercaseChars (cs : List Char) : List Char := cs.map Char.toLower

/-- `str::to_ascii_lowercase`. -/
def lowercase (s : String) : String := String.ofList (lowercaseChars s.toList)

/-- `str::eq_ignore_ascii_case`. -/
def eqIgnoreCase (s t : String) : Bool := lowercaseChars s.toList == lowercaseChars t.toList

/-- `str::trim_matches`. -/
def trimMatches (p : Char → Bool) (cs : List Char) : List Char := (cs.dropWhile p).rdropWhile p

/-- `str::contains`. -/
def containsChars (cs part : List Char) : Bool := decide (part <:+: cs)

/-- `str::starts_with`. -/
def startsWith (cs start : List Char) : Bool := start.isPrefixOf cs

theorem toNat_toLower (c : Char) :
    c.toLower.toNat = if 65 ≤ c.toNat ∧ c.toNat ≤ 90 then c.toNat + 32 else c.toNat := by
  unfold Char.toLower
  split
  case isTrue h =>
    have h1 : 65 ≤ c.toNat := h.1
    have h2 : c.toNat ≤ 90 := h.2
    rw [if_pos ⟨h1, h2⟩]
    show (c.val + 32).toNat = c.val.toNat + 32
    have : c.val.toNat ≤ 90 := h2
    rw [UInt32.toNat_add]
    show (c.val.toNat + 32) % 2 ^ 32 = _
    omega
  case isFalse h =>
    rw [if_neg]
    rintro ⟨h1, h2⟩
    exact h ⟨h1, h2⟩

@[simp] theorem toLower_toLower (c : Char) : c.toLower.toLower = c.toLower := by
  refine Char.toNat_inj.mp ?_
  simp only [toNat_toLower]
  split_ifs <;> omega

/-- A text in lower case stays as it is. -/
@[simp] theorem lowercaseChars_lowercaseChars (cs : List Char) :
    lowercaseChars (lowercaseChars cs) = lowercaseChars cs := by
  simp only [lowercaseChars, List.map_map, Function.comp_def, toLower_toLower]

theorem isAsciiAlphanumeric_toLower (c : Char) : isAsciiAlphanumeric c.toLower = isAsciiAlphanumeric c := by
  rw [Bool.eq_iff_iff]
  simp only [isAsciiAlphanumeric, toNat_toLower, Bool.or_eq_true, Bool.and_eq_true, decide_eq_true_eq]
  split <;> omega

end AgentVoice.Foundations

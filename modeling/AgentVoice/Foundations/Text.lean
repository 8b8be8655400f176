import Mathlib.Data.List.DropRight
import Mathlib.Data.List.TakeWhile

/-!
# Text predicates of the source language

The string methods of the source language's standard library that validation code uses: Unicode
white space and `trim`, control characters, the length in bytes. A trimmed text is unchanged by
trimming again (`trim_trim`), and trimming leaves nothing exactly when every character is white
space (`isBlank_iff`).
-/

namespace AgentVoice.Foundations

/-- `char::is_whitespace`: the Unicode property White_Space. -/
def isWhitespace (c : Char) : Bool :=
  let n := c.toNat
  (9 ≤ n && n ≤ 13) || n == 0x20 || n == 0x85 || n == 0xA0 || n == 0x1680 || (0x2000 ≤ n && n ≤ 0x200A) ||
    n == 0x2028 || n == 0x2029 || n == 0x202F || n == 0x205F || n == 0x3000

/-- `char::is_control`: the Unicode category Cc. -/
def isControl (c : Char) : Bool := c.toNat < 0x20 || (0x7F ≤ c.toNat && c.toNat < 0xA0)

/-- `u8::is_ascii_alphanumeric`, on a character. -/
def isAsciiAlphanumeric (c : Char) : Bool :=
  let n := c.toNat
  (48 ≤ n && n ≤ 57) || (65 ≤ n && n ≤ 90) || (97 ≤ n && n ≤ 122)

/-- `str::trim`, on the characters. -/
def trimChars (cs : List Char) : List Char := (cs.dropWhile isWhitespace).rdropWhile isWhitespace

/-- `str::trim`. -/
def trim (s : String) : String := String.ofList (trimChars s.toList)

/-- `str::len`: the length in bytes of the UTF-8 encoding. -/
def byteLength (s : String) : ℕ := s.utf8ByteSize

/-- A character takes four bytes at most. -/
theorem byteLength_ofList_le (cs : List Char) : byteLength (String.ofList cs) ≤ 4 * cs.length := by
  induction cs with
  | nil => simp [byteLength]
  | cons c cs ih =>
    have hsize := c.utf8Size_le_four
    have hone : (String.ofList [c]).utf8ByteSize = c.utf8Size := String.utf8ByteSize_singleton
    rw [byteLength] at ih
    rw [show c :: cs = [c] ++ cs from rfl, String.ofList_append, byteLength, String.utf8ByteSize_append, hone,
      List.length_append, List.length_singleton]
    omega

/-- `value.trim().is_empty()`. -/
def IsBlank (s : String) : Prop := (trim s).toList = []

instance (s : String) : Decidable (IsBlank s) := inferInstanceAs (Decidable (_ = _))

/-- `value.chars().any(char::is_control)`. -/
def hasControl (s : String) : Bool := s.toList.any isControl

/-- `value.is_ascii()`. -/
def isAscii (s : String) : Bool := s.toList.all fun c => c.toNat < 128

@[simp] theorem toList_trim (s : String) : (trim s).toList = trimChars s.toList := by
  simp [trim]

theorem trimChars_trimChars (cs : List Char) : trimChars (trimChars cs) = trimChars cs := by
  unfold trimChars
  set a := cs.dropWhile isWhitespace with ha
  set b := a.rdropWhile isWhitespace with hb
  have hprefix : b <+: a := List.rdropWhile_prefix _ _
  -- what is left of a text without leading white space has none either
  have hhead : b.dropWhile isWhitespace = b := by
    rw [List.dropWhile_eq_self_iff]
    intro hpos
    have hapos : 0 < a.length := hpos.trans_le hprefix.length_le
    have := List.dropWhile_get_zero_not (p := isWhitespace) cs (by rw [← ha]; exact hapos)
    rw [List.IsPrefix.getElem hprefix hpos]
    exact this
  rw [hhead, hb, List.rdropWhile_idempotent]

/-- **Trimming twice is trimming once.** -/
@[simp] theorem trim_trim (s : String) : trim (trim s) = trim s := by
  rw [← String.toList_inj]
  simp [trimChars_trimChars]

theorem trimChars_eq_nil_iff (cs : List Char) : trimChars cs = [] ↔ ∀ c ∈ cs, isWhitespace c = true := by
  constructor
  · intro h c hc
    rw [trimChars, List.rdropWhile_eq_nil_iff] at h
    rw [← List.takeWhile_append_dropWhile (p := isWhitespace) (l := cs), List.mem_append] at hc
    rcases hc with hc | hc
    · exact List.mem_takeWhile_imp hc
    · exact h c hc
  · intro h
    rw [trimChars, List.dropWhile_eq_nil_iff.mpr h, List.rdropWhile_nil]

theorem isBlank_iff (s : String) : IsBlank s ↔ ∀ c ∈ s.toList, isWhitespace c = true := by
  rw [IsBlank, toList_trim, trimChars_eq_nil_iff]

/-- A text without white space is trimmed. -/
theorem trim_eq_self {s : String} (h : ∀ c ∈ s.toList, isWhitespace c = false) : trim s = s := by
  have hdrop : s.toList.dropWhile isWhitespace = s.toList := by
    rw [List.dropWhile_eq_self_iff]
    exact fun hlength => by simp [h _ (List.getElem_mem hlength)]
  have hrdrop : s.toList.rdropWhile isWhitespace = s.toList := by
    rw [List.rdropWhile_eq_self_iff]
    exact fun hne => by simp [h _ (List.getLast_mem hne)]
  rw [trim, trimChars, hdrop, hrdrop, String.ofList_toList]

/-- Texts that begin differently differ. -/
theorem append_ne_append {p q : String} (h : ¬ p.toList <+: q.toList) (h' : ¬ q.toList <+: p.toList) (s t : String) :
    p ++ s ≠ q ++ t := by
  intro heq
  have hp : p.toList <+: (p ++ s).toList := by
    rw [String.toList_append]
    exact List.prefix_append _ _
  have hq : q.toList <+: (p ++ s).toList := by
    rw [heq, String.toList_append]
    exact List.prefix_append _ _
  exact (List.prefix_or_prefix_of_prefix hp hq).elim h h'

/-- A text that begins with a text that is not blank is not blank. -/
theorem not_isBlank_append {s : String} (h : ¬ IsBlank s) (t : String) : ¬ IsBlank (s ++ t) := by
  rw [isBlank_iff] at h ⊢
  rw [String.toList_append]
  exact fun hall => h fun c hc => hall c (List.mem_append_left _ hc)

@[simp] theorem isBlank_trim (s : String) : IsBlank (trim s) ↔ IsBlank s := by
  rw [IsBlank, IsBlank, trim_trim]

theorem not_isBlank_trim {s : String} (h : ¬ IsBlank s) : ¬ IsBlank (trim s) := fun hblank => h ((isBlank_trim s).mp hblank)

end AgentVoice.Foundations

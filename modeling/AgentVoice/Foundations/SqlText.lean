import AgentVoice.Foundations.AsciiText
import AgentVoice.Foundations.Bytes

/-!
# Text functions of SQL

The operators and functions on texts that `CHECK` constraints use, as the database documents them: `GLOB`, `trim` with a
set of characters, `instr` on blobs. A `GLOB` pattern is read into its parts first (`readGlob`); of the patterns in use
one says that a text holds no character of a set (`globMatch_around`).
-/

namespace AgentVoice.Foundations

/-! ### `GLOB` -/

/-- A part of a `GLOB` pattern. -/
inductive GlobPart where
  /-- `*`. -/
  | anyText
  /-- `?`. -/
  | anyChar
  /-- `[..]` or `[^..]`, with the ranges between the brackets. -/
  | oneOf (inverted : Bool) (ranges : List (Char × Char))
  | char (c : Char)
  deriving DecidableEq

/-- Whether a character lies in one of some ranges. -/
def inRanges (ranges : List (Char × Char)) (c : Char) : Bool :=
  ranges.any fun range => decide (range.1.toNat ≤ c.toNat ∧ c.toNat ≤ range.2.toNat)

/-- Reads what stands between brackets, behind a character that a dash would begin a range with, up to the closing
bracket. -/
def readRanges : Option Char → List Char → Option (List (Char × Char) × List Char)
  | _, [] => none
  | _, ']' :: rest => some ([], rest)
  | some low, '-' :: high :: rest =>
    -- A dash before the closing bracket stands for itself.
    if high = ']' then some ([('-', '-')], rest)
    else (readRanges none rest).map fun (ranges, rest) => ((low, high) :: ranges, rest)
  | _, c :: rest => (readRanges (some c) rest).map fun (ranges, rest) => ((c, c) :: ranges, rest)

/-- Reads the characters of a set; a closing bracket in the first place stands for itself. -/
def readCharacters : List Char → Option (List (Char × Char) × List Char)
  | ']' :: rest => (readRanges none rest).map fun (ranges, rest) => ((']', ']') :: ranges, rest)
  | rest => readRanges none rest

/-- Reads a set, behind its opening bracket. -/
def readSet : List Char → Option (GlobPart × List Char)
  | '^' :: rest => (readCharacters rest).map fun (ranges, rest) => (.oneOf true ranges, rest)
  | rest => (readCharacters rest).map fun (ranges, rest) => (.oneOf false ranges, rest)

/-- Reads a pattern. The number bounds the parts. -/
def readParts : ℕ → List Char → Option (List GlobPart)
  | _, [] => some []
  | 0, _ :: _ => none
  | n + 1, '*' :: rest => (readParts n rest).map (.anyText :: ·)
  | n + 1, '?' :: rest => (readParts n rest).map (.anyChar :: ·)
  | n + 1, '[' :: rest => (readSet rest).bind fun (part, rest) => (readParts n rest).map (part :: ·)
  | n + 1, c :: rest => (readParts n rest).map (.char c :: ·)

/-- Reads a pattern: it has no more parts than characters. -/
def readGlob (pattern : List Char) : Option (List GlobPart) := readParts pattern.length pattern

/-- Whether a text matches the parts of a pattern. -/
def globMatch : List GlobPart → List Char → Bool
  | [], cs => cs.isEmpty
  | .anyText :: parts, cs => cs.tails.any (globMatch parts)
  | .anyChar :: parts, cs => match cs with
    | [] => false
    | _ :: cs => globMatch parts cs
  | .oneOf inverted ranges :: parts, cs => match cs with
    | [] => false
    | c :: cs => (inRanges ranges c != inverted) && globMatch parts cs
  | .char d :: parts, cs => match cs with
    | [] => false
    | c :: cs => c == d && globMatch parts cs

/-- `text GLOB pattern`. -/
def glob (pattern : List Char) (text : String) : Bool :=
  (readGlob pattern).any fun parts => globMatch parts text.toList

/-- A text that is free of something matches `*` and no pattern that asks for it. -/
theorem globMatch_anyText (cs : List Char) : globMatch [.anyText] cs = true := by
  rw [globMatch, List.any_eq_true]
  exact ⟨[], (List.mem_tails _ _).mpr List.nil_suffix, rfl⟩

/-- **A set between two stars is matched by the texts that hold one of its characters.** -/
theorem globMatch_around {inverted : Bool} {ranges : List (Char × Char)} {cs : List Char} :
    globMatch [.anyText, .oneOf inverted ranges, .anyText] cs = true ↔ ∃ c ∈ cs, inRanges ranges c ≠ inverted := by
  rw [globMatch, List.any_eq_true]
  constructor
  · rintro ⟨tail, htail, hmatch⟩
    obtain - | ⟨c, rest⟩ := tail
    · exact absurd hmatch Bool.false_ne_true
    · obtain ⟨hc, -⟩ := (Bool.and_eq_true _ _).mp hmatch
      exact ⟨c, ((List.mem_tails _ _).mp htail).subset List.mem_cons_self, bne_iff_ne.mp hc⟩
  · rintro ⟨c, hc, hne⟩
    obtain ⟨before, rest, rfl⟩ := List.append_of_mem hc
    refine ⟨c :: rest, (List.mem_tails _ _).mpr (List.suffix_append _ _), ?_⟩
    exact (Bool.and_eq_true _ _).mpr ⟨bne_iff_ne.mpr hne, globMatch_anyText rest⟩

/-! ### `instr` and `trim` -/

/-- `instr` on blobs: the place of the first occurrence, counted from one, or zero. -/
def instr (haystack needle : List UInt8) : ℕ :=
  match haystack.tails.findIdx? fun tail => needle.isPrefixOf tail with
  | some i => i + 1
  | none => 0

/-- A byte does not occur. -/
theorem instr_singleton_eq_zero_iff {haystack : List UInt8} {b : UInt8} : instr haystack [b] = 0 ↔ b ∉ haystack := by
  have hnone : (haystack.tails.findIdx? fun tail => [b].isPrefixOf tail) = none ↔ b ∉ haystack := by
    rw [List.findIdx?_eq_none_iff]
    constructor
    · intro h hb
      obtain ⟨before, rest, rfl⟩ := List.append_of_mem hb
      have hfalse := h (b :: rest) ((List.mem_tails _ _).mpr (List.suffix_append _ _))
      exact absurd hfalse (by simp)
    · intro hb tail htail
      rw [Bool.eq_false_iff, Ne, List.isPrefixOf_iff_prefix]
      intro hfirst
      exact hb (((List.mem_tails _ _).mp htail).subset (hfirst.subset List.mem_cons_self))
  rw [instr]
  split
  next hsome => exact iff_of_false (Nat.succ_ne_zero _) fun hb => absurd (hsome.symm.trans (hnone.mpr hb)) (Option.some_ne_none _)
  next hfind => exact iff_of_true rfl (hnone.mp hfind)

/-- `trim(text, characters)`. -/
def sqlTrim (text : String) (characters : List Char) : String :=
  String.ofList (trimMatches (fun c => characters.contains c) text.toList)

/-- What is left of a trimmed text is nothing when it holds trimmed characters only. -/
theorem trimMatches_eq_nil_iff {p : Char → Bool} {cs : List Char} : trimMatches p cs = [] ↔ ∀ c ∈ cs, p c = true := by
  rw [trimMatches, List.rdropWhile_eq_nil_iff]
  constructor
  · intro h c hc
    by_contra hnot
    rw [← List.takeWhile_append_dropWhile (p := p) (l := cs), List.mem_append] at hc
    rcases hc with hc | hc
    · exact hnot (List.mem_takeWhile_imp hc)
    · exact hnot (h c hc)
  · intro h c hc
    exact h c ((List.dropWhile_suffix p).subset hc)

/-! ### The byte zero -/

/-- A byte of a character's encoding is zero for the character zero only. -/
theorem zero_mem_utf8EncodeChar_iff (c : Char) : (0 : UInt8) ∈ String.utf8EncodeChar c ↔ c.toNat = 0 := by
  have hbyte (n : ℕ) : (0 : UInt8) = UInt8.ofNat n ↔ n % 256 = 0 := by
    rw [← UInt8.toNat_inj, UInt8.toNat_ofNat']
    exact eq_comm
  have hval : c.val.toNat = c.toNat := rfl
  rw [String.utf8EncodeChar, hval]
  split_ifs <;> simp only [List.mem_cons, List.not_mem_nil, or_false, hbyte] <;> omega

/-- **The byte zero is in a text where the character zero is.** -/
theorem zero_mem_utf8_iff (s : String) : (0 : UInt8) ∈ utf8 s ↔ ∃ c ∈ s.toList, c.toNat = 0 := by
  have hbytes : utf8 s = s.toList.flatMap String.utf8EncodeChar := by
    conv_lhs => rw [← String.ofList_toList (s := s)]
    rw [utf8, String.toByteArray_ofList, List.utf8Encode]
    simp
  simp only [hbytes, List.mem_flatMap, zero_mem_utf8EncodeChar_iff]

end AgentVoice.Foundations

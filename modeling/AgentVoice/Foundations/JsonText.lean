import AgentVoice.Foundations.Text
import Mathlib.Algebra.GroupWithZero.Nat
import Mathlib.Data.List.TakeWhile

/-!
# Strings and numbers as JSON text

The compact JSON texts of strings, natural numbers and objects, as a JSON library writes them: two
characters are escaped by a backslash, the control characters below U+0020 by their short escape or
by `\u00` and two lowercase hexadecimal digits, and everything else stands for itself. An object is
written without white space. A reader of these texts gets back what was written
(`readQuoted_quotedChars`, `readNatural_toDigits`, `readMember_memberChars`); a quoted text takes
six times its bytes and two at most (`byteLength_quotedChars_le`).
-/

namespace AgentVoice.Foundations

/-- The two lowercase hexadecimal digits of a byte (`{:02x}`). -/
def hexByte (n : ℕ) : List Char := [Nat.digitChar (n / 16), Nat.digitChar (n % 16)]

/-- A character inside a JSON string. -/
def escapeChar (c : Char) : List Char :=
  if c = '"' then ['\\', '"']
  else if c = '\\' then ['\\', '\\']
  else if c.toNat = 8 then ['\\', 'b']
  else if c.toNat = 9 then ['\\', 't']
  else if c.toNat = 10 then ['\\', 'n']
  else if c.toNat = 12 then ['\\', 'f']
  else if c.toNat = 13 then ['\\', 'r']
  else if c.toNat < 32 then '\\' :: 'u' :: '0' :: '0' :: hexByte c.toNat
  else [c]

/-- The characters of a JSON string, with its quotation marks. -/
def quotedChars (cs : List Char) : List Char := '"' :: (cs.flatMap escapeChar ++ ['"'])

/-- A member of a JSON object. -/
def memberChars (name : String) (value : List Char) : List Char := quotedChars name.toList ++ ':' :: value

/-- The members of a JSON object and its closing brace. -/
def membersChars : List (List Char) → List Char
  | [] => [Char.ofNat 125]
  | [m] => m ++ [Char.ofNat 125]
  | m :: ms => m ++ ',' :: membersChars ms

/-- A compact JSON object. -/
def objectChars (members : List (List Char)) : List Char := Char.ofNat 123 :: membersChars members

/-- The elements of a JSON array and its closing bracket. -/
def elementsChars : List (List Char) → List Char
  | [] => [']']
  | [e] => e ++ [']']
  | e :: es => e ++ ',' :: elementsChars es

/-- A compact JSON array. -/
def arrayChars (elements : List (List Char)) : List Char := '[' :: elementsChars elements

/-! ### Reading -/

/-- A lowercase hexadecimal digit. -/
def readHexDigit (c : Char) : Option ℕ := (List.range 16).find? fun d => Nat.digitChar d = c

/-- The character a short escape stands for. -/
def readShortEscape (c : Char) : Option Char :=
  if c = '"' then some '"'
  else if c = '\\' then some '\\'
  else if c = 'b' then some (Char.ofNat 8)
  else if c = 't' then some (Char.ofNat 9)
  else if c = 'n' then some (Char.ofNat 10)
  else if c = 'f' then some (Char.ofNat 12)
  else if c = 'r' then some (Char.ofNat 13)
  else none

/-- One character inside a JSON string, and what follows it. -/
def readEscaped : List Char → Option (Char × List Char)
  | 'u' :: '0' :: '0' :: h :: l :: rest => do
    let high ← readHexDigit h
    let low ← readHexDigit l
    some (Char.ofNat (high * 16 + low), rest)
  | e :: rest => (readShortEscape e).map (·, rest)
  | [] => none

theorem readEscaped_length {cs rest : List Char} {c : Char} (h : readEscaped cs = some (c, rest)) :
    rest.length < cs.length := by
  unfold readEscaped at h
  split at h
  · simp only [Option.bind_eq_bind, Option.bind_eq_some_iff, Option.some.injEq, Prod.mk.injEq] at h
    obtain ⟨-, -, -, -, -, rfl⟩ := h
    simp only [List.length_cons]
    omega
  · obtain ⟨c', -, heq⟩ := Option.map_eq_some_iff.mp h
    cases heq
    exact Nat.lt_succ_self _
  · cases h

/-- The characters of a JSON string up to its closing quotation mark, and what follows it. -/
def readString : List Char → Option (List Char × List Char)
  | [] => none
  | c :: rest =>
    if c = '"' then some ([], rest)
    else if c = '\\' then
      match _h : readEscaped rest with
      | none => none
      | some (c, tail) => (readString tail).map fun p => (c :: p.1, p.2)
    else (readString rest).map fun p => (c :: p.1, p.2)
termination_by cs => cs.length
decreasing_by
  · exact (readEscaped_length _h).trans (Nat.lt_succ_self _)
  · exact Nat.lt_succ_self _

/-- A JSON string and what follows it. -/
def readQuoted : List Char → Option (List Char × List Char)
  | [] => none
  | c :: rest => if c = '"' then readString rest else none

/-- A natural number and what follows its digits. -/
def readNatural (cs : List Char) : ℕ × List Char :=
  (Nat.ofDigitChars 10 (cs.takeWhile Char.isDigit) 0, cs.dropWhile Char.isDigit)

/-- What follows an expected character. -/
def expect (c : Char) : List Char → Option (List Char)
  | [] => none
  | d :: rest => if d = c then some rest else none

/-- The value of an expected member of a JSON object, and what follows the character after it. -/
def readMember {α : Type} (name : String) (readValue : List Char → Option (α × List Char)) (stop : Char)
    (cs : List Char) : Option (α × List Char) := do
  let (written, cs) ← readQuoted cs
  if written = name.toList then
    let cs ← expect ':' cs
    let (value, cs) ← readValue cs
    let cs ← expect stop cs
    some (value, cs)
  else none

theorem readHexDigit_digitChar {d : ℕ} (h : d < 16) : readHexDigit (Nat.digitChar d) = some d := by
  revert d
  decide

theorem readString_escaped {cs rest : List Char} {c : Char} (h : readEscaped cs = some (c, rest)) :
    readString ('\\' :: cs) = (readString rest).map fun p => (c :: p.1, p.2) := by
  rw [readString, if_neg (by decide), if_pos rfl]
  split
  · rename_i hnone
    cases h.symm.trans hnone
  · rename_i hsome
    cases h.symm.trans hsome
    rfl

theorem readEscaped_control {n : ℕ} (h : n < 32) (rest : List Char) :
    readEscaped ('u' :: '0' :: '0' :: (hexByte n ++ rest)) = some (Char.ofNat n, rest) := by
  have hhigh : n / 16 < 16 := by omega
  have hlow : n % 16 < 16 := Nat.mod_lt _ (by decide)
  have hn : n / 16 * 16 + n % 16 = n := by omega
  simp only [hexByte, List.cons_append, List.nil_append, readEscaped, readHexDigit_digitChar hhigh,
    readHexDigit_digitChar hlow, Option.bind_eq_bind, Option.bind_some, hn]

theorem readString_plain {c : Char} (hq : c ≠ '"') (hb : c ≠ '\\') (rest : List Char) :
    readString (c :: rest) = (readString rest).map fun p => (c :: p.1, p.2) := by
  rw [readString, if_neg hq, if_neg hb]

/-- **An escaped character reads as the character.** -/
theorem readString_escapeChar (c : Char) (rest : List Char) :
    readString (escapeChar c ++ rest) = (readString rest).map fun p => (c :: p.1, p.2) := by
  have hof : Char.ofNat c.toNat = c := Char.ofNat_toNat c
  unfold escapeChar
  split_ifs with h₁ h₂ h₃ h₄ h₅ h₆ h₇ h₈
  · subst h₁
    exact readString_escaped rfl
  · subst h₂
    exact readString_escaped rfl
  · rw [← hof, h₃]
    exact readString_escaped rfl
  · rw [← hof, h₄]
    exact readString_escaped rfl
  · rw [← hof, h₅]
    exact readString_escaped rfl
  · rw [← hof, h₆]
    exact readString_escaped rfl
  · rw [← hof, h₇]
    exact readString_escaped rfl
  · have h := readEscaped_control h₈ rest
    rw [hof] at h
    exact readString_escaped h
  · exact readString_plain h₁ h₂ rest

theorem readString_flatMap_escapeChar (cs rest : List Char) :
    readString (cs.flatMap escapeChar ++ '"' :: rest) = some (cs, rest) := by
  induction cs with
  | nil =>
    rw [List.flatMap_nil, List.nil_append, readString]
    exact if_pos rfl
  | cons c cs ih =>
    rw [List.flatMap_cons, List.append_assoc, readString_escapeChar, ih]
    rfl

/-- **A quoted text reads as the text.** -/
theorem readQuoted_quotedChars (cs rest : List Char) : readQuoted (quotedChars cs ++ rest) = some (cs, rest) := by
  have h := readString_flatMap_escapeChar cs rest
  rw [quotedChars, List.cons_append, List.append_assoc, readQuoted, if_pos rfl]
  exact h

/-- **The digits of a number read as the number**, where no digit follows them. -/
theorem readNatural_toDigits (n : ℕ) {c : Char} (hc : c.isDigit = false) (rest : List Char) :
    readNatural (Nat.toDigits 10 n ++ c :: rest) = (n, c :: rest) := by
  have hdigits : ∀ d ∈ Nat.toDigits 10 n, d.isDigit = true :=
    fun d hd => Nat.isDigit_of_mem_toDigits (by decide) le_rfl hd
  rw [readNatural, List.takeWhile_append_of_pos hdigits, List.dropWhile_append_of_pos hdigits,
    List.takeWhile_cons_of_neg (by simp [hc]), List.dropWhile_cons_of_neg (by simp [hc]), List.append_nil,
    Nat.ofDigitChars_toDigits (by decide) le_rfl]

@[simp] theorem expect_cons (c : Char) (rest : List Char) : expect c (c :: rest) = some rest := if_pos rfl

/-- **A member of an object reads as its value.** -/
theorem readMember_memberChars {α : Type} {readValue : List Char → Option (α × List Char)} {stop : Char} {a : α}
    {value rest : List Char} (name : String) (h : readValue (value ++ stop :: rest) = some (a, stop :: rest)) :
    readMember name readValue stop (memberChars name value ++ stop :: rest) = some (a, rest) := by
  simp only [readMember, memberChars, List.append_assoc, readQuoted_quotedChars, Option.bind_eq_bind, Option.bind_some,
    if_true, List.cons_append, expect_cons, h]

/-! ### Sizes -/

theorem byteLength_append (s t : String) : byteLength (s ++ t) = byteLength s + byteLength t :=
  String.utf8ByteSize_append

theorem byteLength_ofList_cons (c : Char) (cs : List Char) :
    byteLength (String.ofList (c :: cs)) = c.utf8Size + byteLength (String.ofList cs) := by
  rw [show c :: cs = [c] ++ cs from rfl, String.ofList_append, byteLength_append]
  exact congrArg (· + _) String.utf8ByteSize_singleton

theorem byteLength_ofList_append (cs ds : List Char) :
    byteLength (String.ofList (cs ++ ds)) = byteLength (String.ofList cs) + byteLength (String.ofList ds) := by
  rw [String.ofList_append, byteLength_append]

theorem byteLength_ofList_of_utf8Size {cs : List Char} (h : ∀ c ∈ cs, c.utf8Size = 1) :
    byteLength (String.ofList cs) = cs.length := by
  induction cs with
  | nil => rfl
  | cons c cs ih =>
    rw [byteLength_ofList_cons, h c List.mem_cons_self, ih fun c hc => h c (List.mem_cons_of_mem _ hc),
      List.length_cons, Nat.add_comm]

/-- The escape of a character takes six bytes, or one character. -/
theorem byteLength_escapeChar_le (c : Char) : byteLength (String.ofList (escapeChar c)) ≤ 6 * c.utf8Size := by
  have hpos := c.utf8Size_pos
  unfold escapeChar
  split_ifs with h₁ h₂ h₃ h₄ h₅ h₆ h₇ h₈
  iterate 7 exact (show _ ≤ 6 from by decide).trans (by omega)
  · have hsmall : ∀ n < 32, byteLength (String.ofList ('\\' :: 'u' :: '0' :: '0' :: hexByte n)) ≤ 6 := by decide
    exact (hsmall _ h₈).trans (by omega)
  · rw [byteLength_ofList_cons]
    exact (show c.utf8Size + 0 ≤ _ by omega)

/-- **Quoting a text takes six times its bytes and two at most.** -/
theorem byteLength_quotedChars_le (s : String) :
    byteLength (String.ofList (quotedChars s.toList)) ≤ 6 * byteLength s + 2 := by
  have hescaped : ∀ cs : List Char,
      byteLength (String.ofList (cs.flatMap escapeChar)) ≤ 6 * byteLength (String.ofList cs) := by
    intro cs
    induction cs with
    | nil => exact le_rfl
    | cons c cs ih =>
      have hc := byteLength_escapeChar_le c
      rw [List.flatMap_cons, byteLength_ofList_append, byteLength_ofList_cons]
      omega
  have h := hescaped s.toList
  have hq : byteLength (String.ofList ['"']) = 1 := rfl
  rw [String.ofList_toList] at h
  rw [quotedChars, byteLength_ofList_cons, byteLength_ofList_append, hq, show ('"' : Char).utf8Size = 1 from rfl]
  omega

theorem byteLength_memberChars (name : String) (value : List Char) :
    byteLength (String.ofList (memberChars name value))
      = byteLength (String.ofList (quotedChars name.toList)) + 1 + byteLength (String.ofList value) := by
  rw [memberChars, byteLength_ofList_append, byteLength_ofList_cons, Nat.add_assoc]
  rfl

/-- **An object takes the bytes of its members**, and for each member one more. -/
theorem byteLength_objectChars_le (members : List (List Char)) :
    byteLength (String.ofList (objectChars members))
      ≤ (members.map fun m => byteLength (String.ofList m) + 1).sum + 2 := by
  have hmembers : ∀ ms : List (List Char),
      byteLength (String.ofList (membersChars ms)) ≤ (ms.map fun m => byteLength (String.ofList m) + 1).sum + 1 := by
    intro ms
    induction ms with
    | nil => exact (by decide)
    | cons m ms ih =>
      cases ms with
      | nil =>
        rw [membersChars, byteLength_ofList_append, List.map_singleton, List.sum_singleton]
        exact Nat.add_le_add_left (show 1 ≤ _ from Nat.le_add_left _ _) _
      | cons m' ms =>
        rw [membersChars, byteLength_ofList_append, byteLength_ofList_cons, List.map_cons, List.sum_cons,
          show (',' : Char).utf8Size = 1 from rfl]
        · omega
        · exact List.cons_ne_nil _ _
  have h := hmembers members
  rw [objectChars, byteLength_ofList_cons, show (Char.ofNat 123).utf8Size = 1 from rfl]
  omega

end AgentVoice.Foundations

import AgentVoice.Foundations.AsciiText

/-!
# Caller IDs

`normalize_caller_id` of `src/phonebook.rs`, which makes a phone-book key of the caller ID that a SIP peer presents: the
brackets, the scheme, the parameters and the host are taken off, and of the user part only the characters of a key are
kept. A bare word for a withheld number gives no key.
-/

namespace AgentVoice.Callers

open AgentVoice.Foundations

/-- `NO_CALLER_ID_POLICY_KEY`. -/
def noCallerIdPolicyKey : String := "__no_caller_id__"

/-- `WILDCARD_CALLER_ID`. -/
def wildcardCallerId : String := "*"

/-- The words for a caller who withholds the number. -/
def withheldWords : List String := ["anonymous", "unknown", "unavailable", "private", "restricted"]

/-- Whether `trim_matches` takes a character off: an angle bracket or a quotation mark. -/
def isBracket (c : Char) : Bool := c == '<' || c == '>' || c == '"' || c == Char.ofNat 39

/-- Whether a key keeps a character of the user part. -/
def isKeyChar (c : Char) : Bool := isAsciiAlphanumeric c || c == '+' || c == '-' || c == '_' || c == '.'

/-- `trimmed`. -/
def trimmed (raw : String) : List Char := trimMatches isBracket (trimChars raw.toList)

/-- `without_scheme`. -/
def withoutScheme (cs : List Char) : List Char :=
  let lowered := lowercaseChars cs
  if startsWith lowered "sip:".toList then cs.drop 4
  else if startsWith lowered "sips:".toList then cs.drop 5
  else if startsWith lowered "tel:".toList then cs.drop 4
  else cs

/-- `without_params`. -/
def withoutParams (cs : List Char) : List Char := cs.takeWhile fun c => c != ';' && c != '?'

/-- `user_part`. -/
def userPart (cs : List Char) : List Char :=
  trimChars ((withoutParams (withoutScheme cs)).takeWhile fun c => c != '@')

/-- Whether a text is one of the words for a withheld number, in any case. -/
def isWithheld (cs : List Char) : Bool := withheldWords.contains (String.ofList (lowercaseChars cs))

/-- `normalize_caller_id`. -/
def normalizeCallerId (raw : String) : Option String :=
  let trimmed := trimmed raw
  if trimmed = [] then none
  else if isWithheld trimmed then none
  else
    let user := userPart trimmed
    if user = [] then none
    else
      let normalized := user.filter isKeyChar
      if normalized = [] then none else some (String.ofList normalized)

/-- The caller is anonymous or unknown: the user part of the ID, in whatever form of a URI, is a word for a withheld
number. -/
def Anonymous (raw : String) : Prop := isWithheld (userPart (trimmed raw)) = true

/-- The ID is a word for a withheld number and no URI, but for brackets. -/
def Bare (raw : String) : Prop := isWithheld (trimmed raw) = true

instance (raw : String) : Decidable (Anonymous raw) := inferInstanceAs (Decidable (_ = true))

instance (raw : String) : Decidable (Bare raw) := inferInstanceAs (Decidable (_ = true))

theorem normalizeCallerId_eq_some_iff {raw key : String} :
    normalizeCallerId raw = some key ↔
      ¬ Bare raw ∧ key ≠ "" ∧ String.ofList ((userPart (trimmed raw)).filter isKeyChar) = key := by
  have hempty : userPart [] = [] := by decide
  have hnone : ∀ {cs : List Char}, cs = [] → ¬ (¬ Bare raw ∧ key ≠ "" ∧ String.ofList cs = key) := by
    rintro _ rfl ⟨-, hkey, rfl⟩
    exact hkey rfl
  simp only [normalizeCallerId]
  by_cases htrimmed : trimmed raw = []
  · rw [if_pos htrimmed]
    exact iff_of_false nofun (hnone (by rw [htrimmed, hempty, List.filter_nil]))
  rw [if_neg htrimmed]
  by_cases hbare : isWithheld (trimmed raw) = true
  · rw [if_pos hbare]
    exact iff_of_false nofun fun h => h.1 hbare
  rw [if_neg hbare]
  by_cases huser : userPart (trimmed raw) = []
  · rw [if_pos huser]
    exact iff_of_false nofun (hnone (by rw [huser, List.filter_nil]))
  rw [if_neg huser]
  by_cases hkept : (userPart (trimmed raw)).filter isKeyChar = []
  · rw [if_pos hkept]
    exact iff_of_false nofun (hnone hkept)
  rw [if_neg hkept]
  constructor
  · intro h
    obtain rfl := Option.some.inj h
    exact ⟨hbare, fun hkey => hkept (String.ofList_injective hkey), rfl⟩
  · rintro ⟨-, -, rfl⟩
    rfl

/-! ### Words for a withheld number -/

theorem isWithheld_iff {cs : List Char} : isWithheld cs = true ↔ ∃ word ∈ withheldWords, lowercaseChars cs = word.toList := by
  rw [isWithheld, List.contains_iff_mem]
  constructor
  · exact fun h => ⟨_, h, String.toList_ofList.symm⟩
  · rintro ⟨word, hword, h⟩
    rwa [h, String.ofList_toList]

/-- A word for a withheld number is made of letters. -/
theorem isAsciiAlphanumeric_of_isWithheld {cs : List Char} (h : isWithheld cs = true) :
    ∀ c ∈ cs, isAsciiAlphanumeric c = true := by
  obtain ⟨word, hword, hlower⟩ := isWithheld_iff.mp h
  have hall : (withheldWords.all fun w => w.toList.all isAsciiAlphanumeric) = true := by decide
  have hletters : ∀ w ∈ withheldWords, ∀ c ∈ w.toList, isAsciiAlphanumeric c = true :=
    fun w hw => List.all_eq_true.mp (List.all_eq_true.mp hall w hw)
  intro c hc
  rw [← isAsciiAlphanumeric_toLower]
  exact hletters word hword _ (hlower ▸ List.mem_map_of_mem hc)

theorem ne_nil_of_isWithheld {cs : List Char} (h : isWithheld cs = true) : cs ≠ [] := by
  rintro rfl
  revert h
  decide

/-- **An anonymous caller with a URI has a key**: the word, as the URI has it. -/
theorem normalizeCallerId_of_anonymous {raw : String} (h : Anonymous raw) (hbare : ¬ Bare raw) :
    normalizeCallerId raw = some (String.ofList (userPart (trimmed raw))) := by
  have hkept : (userPart (trimmed raw)).filter isKeyChar = userPart (trimmed raw) := by
    refine List.filter_eq_self.mpr fun c hc => ?_
    simp only [isKeyChar, isAsciiAlphanumeric_of_isWithheld h c hc, Bool.true_or]
  refine normalizeCallerId_eq_some_iff.mpr ⟨hbare, fun hkey => ?_, by rw [hkept]⟩
  exact ne_nil_of_isWithheld h (String.ofList_injective hkey)

/-! ### URIs of anonymous callers -/

/-- The schemes that are taken off. -/
def schemes : List String := ["", "sip:", "sips:", "tel:"]

end AgentVoice.Callers

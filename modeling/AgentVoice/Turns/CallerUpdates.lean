import AgentVoice.Callers.PhoneBook

/-!
# Caller updates that a model extracts

What of a model's update of the caller is kept, and what is asked about first: the e-mail address does not go into the
phone book with the rest of the update. A candidate is in the form in which the phone book keeps addresses
(`mergeOption_of_candidate`).
-/

namespace AgentVoice.Turns

open AgentVoice.Foundations
open AgentVoice.Callers (CallerUpdate mergeOption)

/-! ### E-mail addresses -/

/-- The characters of an e-mail address. -/
def isEmailChar (ch : Char) : Bool := isAsciiAlphanumeric ch || ['@', '.', '_', '-', '+'].contains ch

/-- `looks_like_email`. -/
def looksLikeEmail (value : List Char) : Bool :=
  let parts := value.splitOn '@'
  let localPart := parts.headD []
  let domain := parts.tail.headD []
  if parts.length > 2 then false
  else !localPart.isEmpty && containsChars domain ['.'] && !startsWith domain ['.'] && !(['.'].isSuffixOf domain) &&
    value.all isEmailChar

/-- What `normalize_email_candidate` trims at both ends. -/
def isEmailPadding (ch : Char) : Bool := ['"', Char.ofNat 39, '.', ',', ';', ':'].contains ch

/-- `normalize_email_candidate`. -/
def normalizeEmailCandidate (value : String) : Option String :=
  let normalized := lowercaseChars (trimMatches isEmailPadding (trimChars value.toList))
  if looksLikeEmail normalized then some (String.ofList normalized) else none

/-! ### Updates -/

/-- `normalize_name_candidate`. -/
def normalizeNameCandidate (candidate : Option String) : Option String :=
  candidate.bind fun value =>
    let trimmed := trim value
    if trimmed = "" ∨ trimmed.toList.contains '@' ∨ trimmed.toList.any (fun ch => '0' ≤ ch ∧ ch ≤ '9') then none
    else some trimmed

/-- `normalize_company_candidate`. -/
def normalizeCompanyCandidate (candidate : Option String) : Option String :=
  candidate.bind fun value =>
    let trimmed := trim value
    if trimmed = "" ∨ byteLength trimmed > 120 then none else some trimmed

/-- `sanitize_notes`. -/
def sanitizeNotes (notes : List String) : List String :=
  (notes.map trim).filter fun note => note ≠ "" ∧ byteLength note ≤ 120

/-- `caller_explicitly_set_language_preference`. -/
def callerExplicitlySetLanguagePreference (text : String) : Bool :=
  let normalized := lowercaseChars text.toList
  (["prefer", "speak", "language"].any fun word => containsChars normalized word.toList) &&
    ["english", "japanese", "korean", "mandarin", "cantonese", "spanish", "french", "german", "arabic", "italian",
      "portuguese", "hindi", "vietnamese", "thai"].any fun word => containsChars normalized word.toList

/-- `SanitizedCallerUpdate`. -/
structure SanitizedCallerUpdate where
  update : CallerUpdate
  pendingEmailConfirmation : Option String
  deriving DecidableEq, Repr

/-- `sanitize_caller_update`. -/
def sanitizeCallerUpdate (isValidTimezone : String → Bool) (update : CallerUpdate) (latestCallerText : String) :
    SanitizedCallerUpdate where
  update :=
    { firstName := normalizeNameCandidate update.firstName
      lastName := normalizeNameCandidate update.lastName
      email := none
      company := normalizeCompanyCandidate update.company
      timezone := update.timezone.filter isValidTimezone
      preferredLanguage :=
        if callerExplicitlySetLanguagePreference latestCallerText then update.preferredLanguage else none
      notes := sanitizeNotes update.notes }
  pendingEmailConfirmation := update.email.bind normalizeEmailCandidate

/-! ### Candidates -/

/-- A text that is asked about as an e-mail address. -/
def IsCandidate (email : String) : Prop := ∃ value, normalizeEmailCandidate value = some email

theorem isWhitespace_of_isEmailChar {ch : Char} (h : isEmailChar ch = true) : isWhitespace ch = false := by
  rw [isEmailChar, Bool.or_eq_true] at h
  obtain h | h := h
  · simp only [isAsciiAlphanumeric, Bool.or_eq_true, Bool.and_eq_true, decide_eq_true_eq] at h
    simp only [isWhitespace, Bool.or_eq_false_iff, Bool.and_eq_false_imp, decide_eq_true_eq, decide_eq_false_iff_not,
      beq_eq_false_iff_ne]
    omega
  · rw [List.contains_iff_mem] at h
    have hall : (['@', '.', '_', '-', '+'].all fun c => !isWhitespace c) = true := by decide
    simpa using List.all_eq_true.mp hall ch h

theorem isEmailChar_of_looksLikeEmail {value : List Char} (h : looksLikeEmail value = true) :
    ∀ ch ∈ value, isEmailChar ch = true := by
  rw [looksLikeEmail] at h
  split_ifs at h
  rw [Bool.and_eq_true] at h
  exact List.all_eq_true.mp h.2

/-- Merging a candidate puts it into the record as it is. -/
theorem mergeOption_of_candidate {email : String} (h : IsCandidate email) (target : Option String) :
    mergeOption target (some (lowercase email)) = some email := by
  obtain ⟨value, hvalue⟩ := h
  rw [normalizeEmailCandidate] at hvalue
  split_ifs at hvalue with hlooks
  obtain rfl := Option.some.inj hvalue
  set chars := trimMatches isEmailPadding (trimChars value.toList)
  have hlower : lowercase (String.ofList (lowercaseChars chars)) = String.ofList (lowercaseChars chars) := by
    rw [lowercase, String.toList_ofList, lowercaseChars_lowercaseChars]
  have htrim : trim (String.ofList (lowercaseChars chars)) = String.ofList (lowercaseChars chars) := by
    refine trim_eq_self fun ch hch => isWhitespace_of_isEmailChar ?_
    rw [String.toList_ofList] at hch
    exact isEmailChar_of_looksLikeEmail hlooks ch hch
  have hne : String.ofList (lowercaseChars chars) ≠ "" := by
    intro hempty
    have hnil : lowercaseChars chars = [] := String.ofList_injective hempty
    rw [hnil] at hlooks
    cases hlooks
  rw [hlower, mergeOption, Option.map_some, htrim]
  exact if_neg hne

end AgentVoice.Turns

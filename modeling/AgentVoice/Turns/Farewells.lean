import AgentVoice.Foundations.SpacedText
import AgentVoice.Turns.EndCall

/-!
# Farewells

What the last answer of a call is closed with is found again by the phrase matchers: a phrase that stands in a text
stands in its normalised text (`containsPhrase_of_mem`), and a closing that is added brings no other phrase with it. So
every closed answer is a farewell (`looksLikeFinalFarewell_finalizeEndCallResponse`), and closing it again does nothing.
-/

namespace AgentVoice.Turns

open AgentVoice.Foundations

/-! ### Parts of texts -/

/-- A part of two texts is in one of them, or across. -/
theorem infix_append_cases {α : Type*} {p u v : List α} (h : p <:+: u ++ v) :
    p <:+: u ∨ p <:+: v ∨ ∃ front back, p = front ++ back ∧ front ≠ [] ∧ back ≠ [] ∧ front <:+ u ∧ back <+: v := by
  obtain ⟨s, t, h⟩ := h
  obtain ⟨x, hu, -⟩ | ⟨x, hp, hv⟩ := List.append_eq_append_iff.mp h
  · exact .inl ⟨s, x, hu.symm⟩
  · obtain ⟨y, hu, hp⟩ | ⟨y, -, hx⟩ := List.append_eq_append_iff.mp hp
    · by_cases hfront : y = []
      · subst hfront
        exact .inr (.inl ⟨[], t, by rw [hp, hv]; rfl⟩)
      · by_cases hback : x = []
        · subst hback
          exact .inl ⟨s, [], by rw [hp, hu, List.append_nil, List.append_nil]⟩
        · exact .inr (.inr ⟨y, x, hp, hfront, hback, ⟨s, hu.symm⟩, ⟨t, hv.symm⟩⟩)
    · exact .inr (.inl ⟨y, t, by rw [hv, hx]⟩)

/-- A part that begins and ends with other characters than white space is not trimmed. -/
theorem infix_trimChars {p cs : List Char} (h : p <:+: cs) (hne : p ≠ []) (hstarts : ∀ c ∈ p.head?, isWhitespace c = false)
    (hends : ∀ c ∈ p.getLast?, isWhitespace c = false) : p <:+: trimChars cs := by
  have hfront : p <:+: cs.dropWhile isWhitespace := by
    rw [← List.takeWhile_append_dropWhile (p := isWhitespace) (l := cs)] at h
    have hnot : ∀ c ∈ p.head?, c ∉ cs.takeWhile isWhitespace := fun c hc hmem =>
      Bool.noConfusion ((List.mem_takeWhile_imp hmem).symm.trans (hstarts c hc))
    obtain ⟨first, rest, rfl⟩ := List.exists_cons_of_ne_nil hne
    obtain hin | hin | ⟨front, back, hp, hfront, -, hsuffix, -⟩ := infix_append_cases h
    · exact absurd (hin.subset List.mem_cons_self) (hnot first rfl)
    · exact hin
    · obtain ⟨d, front, rfl⟩ := List.exists_cons_of_ne_nil hfront
      obtain rfl := (List.cons.inj hp).1
      exact absurd (hsuffix.subset List.mem_cons_self) (hnot first rfl)
  rw [trimChars]
  rw [← List.rdropWhile_append_rtakeWhile (p := isWhitespace) (l := cs.dropWhile isWhitespace)] at hfront
  have hnot : ∀ c ∈ p.getLast?, c ∉ (cs.dropWhile isWhitespace).rtakeWhile isWhitespace := fun c hc hmem =>
    Bool.noConfusion ((List.mem_rtakeWhile_imp hmem).symm.trans (hends c hc))
  have hlast := List.getLast?_eq_some_getLast hne
  obtain hin | hin | ⟨front, back, hp, -, hback, -, hstart⟩ := infix_append_cases hfront
  · exact hin
  · exact absurd (hin.subset (List.getLast_mem hne)) (hnot _ hlast)
  · have hmem : p.getLast hne ∈ back := by
      subst hp
      rw [List.getLast_append_of_ne_nil _ hback]
      exact List.getLast_mem hback
    exact absurd (hstart.subset hmem) (hnot _ hlast)

/-! ### Phrases of a normalised text -/

/-- A phrase in its normal form, as the matchers have them. -/
structure NormalPhrase (phrase : List Char) : Prop where
  ne_nil : phrase ≠ []
  self : ∀ lastWasSpace, matchChars lastWasSpace phrase = phrase
  starts : ∀ c ∈ phrase.head?, isWhitespace c = false
  ends : ∀ c ∈ phrase.getLast?, isWhitespace c = false

/-- A phrase that stands in a text, in any letter case, is found. -/
theorem containsPhrase_of_infix {phrases : List String} {phrase text : String} (hphrase : phrase ∈ phrases)
    (hnormal : NormalPhrase phrase.toList) (h : phrase.toList <:+: lowercaseChars text.toList) :
    containsPhrase phrases text = true := by
  refine List.any_eq_true.mpr ⟨phrase, hphrase, decide_eq_true ?_⟩
  rw [normalizeMatchText, toList_trim, String.toList_ofList]
  refine infix_trimChars ?_ hnormal.ne_nil hnormal.starts hnormal.ends
  obtain ⟨front, back, htext⟩ := h
  rw [← matchChars_lowercaseChars, ← htext, matchChars_append, matchChars_append, hnormal.self]
  exact List.infix_append _ _ _

theorem isAsciiAlphanumeric_of_isWhitespace {c : Char} (h : isWhitespace c = true) : isAsciiAlphanumeric c = false := by
  rw [Bool.eq_false_iff]
  intro halpha
  simp only [isAsciiAlphanumeric, isWhitespace, Bool.or_eq_true, Bool.and_eq_true, decide_eq_true_eq, beq_iff_eq] at h halpha
  omega

/-- A space at the end is trimmed. -/
theorem trimChars_concat_space (cs : List Char) : trimChars (cs ++ [' ']) = trimChars cs := by
  rw [trimChars, trimChars, List.dropWhile_append]
  split_ifs with hempty
  · rw [List.isEmpty_iff.mp hempty]
    rfl
  · exact List.rdropWhile_concat_pos _ _ _ (by decide)

/-- Of blanks, one space at most is left. -/
theorem matchChars_of_blank (lastWasSpace : Bool) {blanks : List Char} (h : ∀ c ∈ blanks, isWhitespace c = true) :
    matchChars lastWasSpace blanks = [] ∨ matchChars lastWasSpace blanks = [' '] := by
  have hlead : ∀ c ∈ blanks, isAsciiAlphanumeric c = false := fun c hc => isAsciiAlphanumeric_of_isWhitespace (h c hc)
  cases blanks with
  | nil => exact .inl rfl
  | cons c blanks =>
    have hrest := (matchChars_of_lead fun d hd => hlead d (List.mem_cons_of_mem c hd)).1
    rw [matchChars, hlead c List.mem_cons_self, hrest]
    cases lastWasSpace
    · exact .inr rfl
    · exact .inl rfl

/-- A phrase that stands at the end of a text is found. -/
theorem containsPhrase_append {phrases : List String} {phrase tail : String} (hphrase : phrase ∈ phrases)
    (hnormal : NormalPhrase phrase.toList) (h : phrase.toList <:+: lowercaseChars tail.toList) (text : String) :
    containsPhrase phrases (text ++ tail) = true := by
  refine containsPhrase_of_infix hphrase hnormal ?_
  rw [String.toList_append, lowercaseChars, List.map_append]
  exact h.trans (List.suffix_append _ _).isInfix

/-- Blanks around a text do not count. -/
theorem normalizeMatchText_trim (text : String) : normalizeMatchText (trim text) = normalizeMatchText text := by
  rw [← String.toList_inj]
  simp only [normalizeMatchText, toList_trim, String.toList_ofList]
  have hsplit : text.toList = text.toList.takeWhile isWhitespace ++
      (trimChars text.toList ++ (text.toList.dropWhile isWhitespace).rtakeWhile isWhitespace) := by
    rw [trimChars, List.rdropWhile_append_rtakeWhile, List.takeWhile_append_dropWhile]
  have hlead : ∀ c ∈ text.toList.takeWhile isWhitespace, isAsciiAlphanumeric c = false :=
    fun c hc => isAsciiAlphanumeric_of_isWhitespace (List.mem_takeWhile_imp hc)
  obtain ⟨hnil, hspace⟩ := matchChars_of_lead hlead
  conv_rhs => rw [hsplit, matchChars_append, hnil, hspace, List.nil_append, matchChars_append]
  obtain h | h := matchChars_of_blank (spaceAfter true (trimChars text.toList))
    (fun c hc => List.mem_rtakeWhile_imp (l := text.toList.dropWhile isWhitespace) (p := isWhitespace) hc)
  · rw [h, List.append_nil]
  · rw [h, trimChars_concat_space]

theorem containsPhrase_trim (phrases : List String) (text : String) :
    containsPhrase phrases (trim text) = containsPhrase phrases text := by
  simp only [containsPhrase, normalizeMatchText_trim]

/-! ### The closing -/

/-- The closings that are added to an answer. -/
def closings : List String := [" See you later.", ". See you later."]

theorem normalPhrase_seeYou : NormalPhrase "see you".toList where
  ne_nil := by decide
  self lastWasSpace := by cases lastWasSpace <;> decide
  starts c hc := by
    obtain rfl : 's' = c := Option.some.inj hc
    rfl
  ends c hc := by
    obtain rfl : 'u' = c := Option.some.inj hc
    rfl

theorem normalPhrase_bye : NormalPhrase "bye".toList where
  ne_nil := by decide
  self lastWasSpace := by cases lastWasSpace <;> decide
  starts c hc := by
    obtain rfl : 'b' = c := Option.some.inj hc
    rfl
  ends c hc := by
    obtain rfl : 'e' = c := Option.some.inj hc
    rfl

/-- A text that ends with a phrase of a farewell is one. -/
theorem looksLikeFinalFarewell_of_tail {tail : String}
    (h : "see you".toList <:+: lowercaseChars tail.toList ∨ "bye".toList <:+: lowercaseChars tail.toList) (text : String) :
    looksLikeFinalFarewell (text ++ tail) = true := by
  obtain h | h := h
  · exact containsPhrase_append (by decide) normalPhrase_seeYou h text
  · exact containsPhrase_append (by decide) normalPhrase_bye h text

/-- What is closed is a farewell. -/
theorem looksLikeFinalFarewell_append {closing : String} (h : closing ∈ closings) (text : String) :
    looksLikeFinalFarewell (text ++ closing) = true := by
  refine looksLikeFinalFarewell_of_tail (.inl ?_) text
  simp only [closings, List.mem_cons, List.not_mem_nil, or_false] at h
  obtain rfl | rfl := h <;> decide

/-- What the loop has made of a text: nothing, or words with a space behind them where it has just seen one. -/
theorem matchChars_shape (cs : List Char) :
    (matchChars true cs = [] ∧ spaceAfter true cs = true) ∨
      ∃ words, words ≠ [] ∧ (∀ c ∈ words.head?, isWhitespace c = false) ∧ (∀ c ∈ words.getLast?, isWhitespace c = false) ∧
        matchChars true cs = words ++ if spaceAfter true cs then [' '] else [] := by
  have hspace : ∀ (b : Bool) (cs : List Char) (c : Char), spaceAfter b (cs ++ [c]) = !isAsciiAlphanumeric c := by
    intro b cs
    induction cs generalizing b with
    | nil => exact fun _ => rfl
    | cons d cs ih => exact fun c => ih _ c
  induction cs using List.reverseRecOn with
  | nil => exact .inl ⟨rfl, rfl⟩
  | append_singleton cs c ih =>
    rw [matchChars_append, hspace]
    cases halpha : isAsciiAlphanumeric c with
    | true =>
      have hlower : isWhitespace c.toLower = false := by
        rw [Bool.eq_false_iff]
        intro hwhite
        have hnot := isAsciiAlphanumeric_of_isWhitespace hwhite
        rw [isAsciiAlphanumeric_toLower, halpha] at hnot
        exact Bool.noConfusion hnot
      have hone : matchChars (spaceAfter true cs) [c] = [c.toLower] := by
        rw [matchChars, if_pos halpha, matchChars]
      rw [hone]
      right
      obtain ⟨hnil, -⟩ | ⟨words, hne, hstarts, -, hwords⟩ := ih
      · refine ⟨[c.toLower], List.cons_ne_nil _ _, ?_, ?_, by rw [hnil]; rfl⟩
        · rintro d hd
          rwa [← Option.some.inj hd]
        · rintro d hd
          rwa [← Option.some.inj hd]
      · refine ⟨matchChars true cs ++ [c.toLower], by simp, ?_, ?_, by simp⟩
        · rw [hwords, List.append_assoc, List.head?_append_of_ne_nil _ hne]
          exact hstarts
        · intro d hd
          rw [List.getLast?_concat] at hd
          rwa [← Option.some.inj hd]
    | false =>
      have hone : ∀ b, matchChars b [c] = if b then [] else [' '] := by
        intro b
        rw [matchChars, halpha]
        cases b <;> rfl
      rw [hone]
      obtain ⟨hnil, hb⟩ | ⟨words, hne, hstarts, hends, hwords⟩ := ih
      · left
        rw [hnil, hb]
        exact ⟨rfl, rfl⟩
      · right
        refine ⟨words, hne, hstarts, hends, ?_⟩
        rw [hwords]
        cases spaceAfter true cs
        · rw [if_neg Bool.false_ne_true, List.append_nil]
          rfl
        · rw [if_pos rfl, if_pos rfl, List.append_nil]
          rfl

/-- What is normal of a closed answer: the closing comes behind a space, where there is anything before it. -/
theorem normalizeMatchText_append {closing : String} (h : closing ∈ closings) (text : String) :
    ((normalizeMatchText text).toList = [] ∧ (normalizeMatchText (text ++ closing)).toList = "see you later".toList) ∨
      (normalizeMatchText (text ++ closing)).toList = (normalizeMatchText text).toList ++ " see you later".toList := by
  have hclosing : ∀ b, matchChars b closing.toList = (if b then [] else [' ']) ++ "see you later ".toList := by
    simp only [closings, List.mem_cons, List.not_mem_nil, or_false] at h
    obtain rfl | rfl := h <;> decide
  simp only [normalizeMatchText, toList_trim, String.toList_ofList, String.toList_append, matchChars_append, hclosing]
  obtain ⟨hnil, hb⟩ | ⟨words, hne, hstarts, hends, hwords⟩ := matchChars_shape text.toList
  · left
    rw [hnil, hb]
    decide
  · right
    have hself : trimChars words = words := trimChars_eq_self hstarts hends
    have hnormal : trimChars (matchChars true text.toList) = words := by
      rw [hwords]
      cases spaceAfter true text.toList
      · rw [if_neg Bool.false_ne_true, List.append_nil, hself]
      · rw [if_pos rfl, trimChars_concat_space, hself]
    have hall : matchChars true text.toList ++
        ((if spaceAfter true text.toList = true then [] else [' ']) ++ "see you later ".toList) =
        words ++ " see you later".toList ++ [' '] := by
      rw [hwords]
      cases spaceAfter true text.toList
      · rw [if_neg Bool.false_ne_true, if_neg Bool.false_ne_true, List.append_nil, List.append_assoc]
        rfl
      · rw [if_pos rfl, if_pos rfl, List.nil_append, List.append_assoc, List.append_assoc]
        rfl
    rw [hall, trimChars_concat_space, hnormal]
    refine trimChars_eq_self ?_ ?_
    · rw [List.head?_append_of_ne_nil _ hne]
      exact hstarts
    · intro c hc
      have hlast : (words ++ " see you later".toList).getLast? = some 'r' := by
        rw [List.getLast?_append]
        rfl
      rw [hlast] at hc
      rw [← Option.some.inj hc]
      decide

/-- The phrases of a request for clarification. -/
def clarificationPhrases : List String :=
  ["could you say that again", "can you say that again", "could you repeat that", "can you repeat that",
    "i didn t catch that", "i did not catch that", "pardon", "sorry"]

/-- A closing asks for no clarification. -/
theorem looksLikeClarificationRequest_append {closing : String} (h : closing ∈ closings) {text : String}
    (htext : looksLikeClarificationRequest text = false) : looksLikeClarificationRequest (text ++ closing) = false := by
  -- no phrase is in the closing, and none ends as the closing begins
  have hapart : (clarificationPhrases.all fun phrase =>
      !(containsChars "see you later".toList phrase.toList) && !(containsChars " see you later".toList phrase.toList) &&
        phrase.toList.tails.all fun back => back.isEmpty || !(startsWith " see you later".toList back)) = true := by
    decide +kernel
  rw [Bool.eq_false_iff] at htext ⊢
  intro hfound
  obtain ⟨phrase, hphrase, hin⟩ := List.any_eq_true.mp hfound
  have hin := of_decide_eq_true hin
  have hphrases := List.all_eq_true.mp hapart phrase hphrase
  simp only [Bool.and_eq_true, Bool.not_eq_true', List.all_eq_true, Bool.or_eq_true, List.isEmpty_iff,
    List.mem_tails] at hphrases
  obtain ⟨⟨halone, hbehind⟩, htails⟩ := hphrases
  obtain ⟨-, hnormal⟩ | hnormal := normalizeMatchText_append h text
  · rw [hnormal] at hin
    exact Bool.noConfusion ((decide_eq_true hin).symm.trans halone)
  · rw [hnormal] at hin
    obtain hin | hin | ⟨front, back, hsplit, -, hback, -, hstart⟩ := infix_append_cases hin
    · exact htext (List.any_eq_true.mpr ⟨phrase, hphrase, decide_eq_true hin⟩)
    · exact Bool.noConfusion ((decide_eq_true hin).symm.trans hbehind)
    · obtain hnil | hnot := htails back ⟨front, hsplit.symm⟩
      · exact hback hnil
      · rw [startsWith, List.isPrefixOf_iff_prefix.mpr hstart] at hnot
        exact Bool.noConfusion hnot

/-! ### The last answer -/

theorem mem_closings : " See you later." ∈ closings ∧ ". See you later." ∈ closings := by decide

/-- **A closed answer is a farewell.** -/
theorem looksLikeFinalFarewell_finalizeEndCallResponse (text : String) :
    looksLikeFinalFarewell (finalizeEndCallResponse text) = true := by
  simp only [finalizeEndCallResponse]
  split_ifs with hnothing hfarewell hmark
  · decide +kernel
  · exact hfarewell
  · exact looksLikeFinalFarewell_append mem_closings.1 _
  · exact looksLikeFinalFarewell_append mem_closings.2 _

/-- **Closing an answer twice is closing it once.** -/
theorem finalizeEndCallResponse_idempotent (text : String) :
    finalizeEndCallResponse (finalizeEndCallResponse text) = finalizeEndCallResponse text := by
  have hself : ∀ answer : String, trim answer = answer → answer ≠ "" → looksLikeClarificationRequest answer = false →
      looksLikeFinalFarewell answer = true → finalizeEndCallResponse answer = answer := by
    intro answer htrim hne hclear hfarewell
    simp only [finalizeEndCallResponse, htrim]
    rw [if_neg (by rw [not_or, hclear]; exact ⟨hne, Bool.false_ne_true⟩), if_pos hfarewell]
  have hclosed : ∀ closing ∈ closings, trim text ≠ "" → looksLikeClarificationRequest (trim text) = false →
      finalizeEndCallResponse (trim text ++ closing) = trim text ++ closing := by
    intro closing hclosing hne hclear
    have hends : closing.toList.rdropWhile isWhitespace = closing.toList := by
      simp only [closings, List.mem_cons, List.not_mem_nil, or_false] at hclosing
      obtain rfl | rfl := hclosing <;> decide
    have htrimmed : trimChars (trim text).toList = (trim text).toList := by rw [toList_trim, trimChars_trimChars]
    have hchars : (trim text).toList ≠ [] := fun hnil => hne (String.toList_inj.mp hnil)
    refine hself _ ?_ ?_ (looksLikeClarificationRequest_append hclosing hclear)
      (looksLikeFinalFarewell_append hclosing _)
    · rw [← String.toList_inj, toList_trim, String.toList_append, trimChars_append htrimmed hchars, hends]
    · intro hnil
      have hnil := congrArg String.toList hnil
      rw [String.toList_append] at hnil
      exact hchars (List.append_eq_nil_iff.mp hnil).1
  by_cases hnothing : trim text = "" ∨ looksLikeClarificationRequest (trim text) = true
  · have hdefault : finalizeEndCallResponse text = defaultFinalFarewell := by
      simp only [finalizeEndCallResponse]
      exact if_pos hnothing
    rw [hdefault]
    decide +kernel
  · obtain ⟨hne, hclear⟩ := not_or.mp hnothing
    have hclear : looksLikeClarificationRequest (trim text) = false := by simpa using hclear
    have hvalue : finalizeEndCallResponse text = trim text ∧ looksLikeFinalFarewell (trim text) = true ∨
        ∃ closing ∈ closings, finalizeEndCallResponse text = trim text ++ closing := by
      simp only [finalizeEndCallResponse]
      rw [if_neg hnothing]
      split_ifs with hfarewell hmark
      · exact .inl ⟨rfl, hfarewell⟩
      · exact .inr ⟨_, mem_closings.1, rfl⟩
      · exact .inr ⟨_, mem_closings.2, rfl⟩
    obtain ⟨hvalue, hfarewell⟩ | ⟨closing, hclosing, hvalue⟩ := hvalue
    · rw [hvalue]
      exact hself _ (trim_trim text) hne hclear hfarewell
    · rw [hvalue]
      exact hclosed closing hclosing hne hclear

end AgentVoice.Turns

import AgentVoice.Foundations.AsciiText

/-!
# Phrases of a caller

Texts are compared with phrases after `normalize_match_text`: letters and digits in lower case, one space for whatever
stands between them. What a text that spells a phrase becomes is the normal form of the phrase, alone or followed by a
space (`normalizeMatchText_of_spells`).
-/

namespace AgentVoice.Turns

open AgentVoice.Foundations

/-- The loop of `normalize_match_text`. -/
def matchChars : Bool → List Char → List Char
  | _, [] => []
  | lastWasSpace, ch :: chs =>
    if isAsciiAlphanumeric ch then ch.toLower :: matchChars false chs
    else if lastWasSpace then matchChars true chs
    else ' ' :: matchChars true chs

/-- `normalize_match_text`. -/
def normalizeMatchText (text : String) : String := trim (String.ofList (matchChars true text.toList))

/-- The comparison of a normalised text with one phrase of a list. -/
def matchesPhrase (normalized phrase : String) : Bool :=
  normalized == phrase || startsWith normalized.toList (phrase.toList ++ [' '])

/-- Whether the loop has just seen something else than a letter or a digit. -/
def spaceAfter : Bool → List Char → Bool
  | lastWasSpace, [] => lastWasSpace
  | _, ch :: chs => spaceAfter (!isAsciiAlphanumeric ch) chs

/-- The text spells the phrase, in any letter case, alone or followed by further words. -/
def Spells (phrase text : String) : Prop :=
  ∃ lead rest, lowercaseChars text.toList = lead ++ (phrase.toList ++ rest) ∧
    (∀ c ∈ lead, isAsciiAlphanumeric c = false) ∧ (∀ c ∈ rest.head?, isAsciiAlphanumeric c = false)

/-! ### The loop -/

theorem matchChars_append (lastWasSpace : Bool) (cs ds : List Char) :
    matchChars lastWasSpace (cs ++ ds) = matchChars lastWasSpace cs ++ matchChars (spaceAfter lastWasSpace cs) ds := by
  induction cs generalizing lastWasSpace with
  | nil => rfl
  | cons c cs ih =>
    rw [List.cons_append, matchChars, matchChars, spaceAfter]
    by_cases hc : isAsciiAlphanumeric c = true
    · rw [if_pos hc, if_pos hc, ih, hc]
      rfl
    · have hspace : (!isAsciiAlphanumeric c) = true := by simpa using hc
      rw [if_neg hc, if_neg hc, ih, hspace]
      cases lastWasSpace <;> rfl

theorem matchChars_lowercaseChars (lastWasSpace : Bool) (cs : List Char) :
    matchChars lastWasSpace (lowercaseChars cs) = matchChars lastWasSpace cs := by
  induction cs generalizing lastWasSpace with
  | nil => rfl
  | cons c cs ih =>
    show matchChars lastWasSpace (c.toLower :: lowercaseChars cs) = _
    simp only [matchChars, isAsciiAlphanumeric_toLower, toLower_toLower, ih]

theorem matchChars_of_lead {lead : List Char} (h : ∀ c ∈ lead, isAsciiAlphanumeric c = false) :
    matchChars true lead = [] ∧ spaceAfter true lead = true := by
  induction lead with
  | nil => exact ⟨rfl, rfl⟩
  | cons c cs ih =>
    have hc : isAsciiAlphanumeric c = false := h c List.mem_cons_self
    have hcs := ih fun d hd => h d (List.mem_cons_of_mem c hd)
    rw [matchChars, spaceAfter, hc]
    exact hcs

/-! ### Trimming -/

/-- Nothing is trimmed at the ends of a trimmed text within a longer one. -/
theorem trimChars_append {cs ds : List Char} (h : trimChars cs = cs) (hne : cs ≠ []) :
    trimChars (cs ++ ds) = cs ++ ds.rdropWhile isWhitespace := by
  obtain ⟨c, cs', rfl⟩ := List.exists_cons_of_ne_nil hne
  have hhead : isWhitespace c = false := by
    by_contra hc
    rw [trimChars, List.dropWhile_cons_of_pos (by simpa using hc)] at h
    have hfirst := List.rdropWhile_prefix isWhitespace (cs'.dropWhile isWhitespace)
    have hle := hfirst.length_le.trans (List.dropWhile_suffix isWhitespace).length_le
    rw [h, List.length_cons] at hle
    omega
  have hdrop : ∀ ds, (c :: cs' ++ ds).dropWhile isWhitespace = c :: cs' ++ ds := fun ds =>
    List.dropWhile_cons_of_neg (by simp [hhead])
  have hself : (c :: cs').rdropWhile isWhitespace = c :: cs' := by
    rw [trimChars, ← List.append_nil (c :: cs'), hdrop, List.append_nil] at h
    exact h
  rw [trimChars, hdrop]
  induction ds using List.reverseRecOn with
  | nil => rw [List.append_nil, hself, List.rdropWhile_nil, List.append_nil]
  | append_singleton ds d ih =>
    rw [← List.append_assoc, List.rdropWhile_concat, List.rdropWhile_concat]
    split_ifs
    · exact ih
    · rw [List.append_assoc]

/-! ### What a text becomes -/

/-- **A spelled phrase.** The normalised text is the phrase in its normal form, alone or followed by a space. -/
theorem normalizeMatchText_of_spells {phrase text : String} (h : Spells phrase text)
    (htrim : trimChars (matchChars true phrase.toList) = matchChars true phrase.toList)
    (hne : matchChars true phrase.toList ≠ []) (hend : spaceAfter true phrase.toList = false) :
    ∃ more, (normalizeMatchText text).toList = matchChars true phrase.toList ++ more ∧
      (more = [] ∨ ∃ more', more = ' ' :: more') := by
  obtain ⟨lead, rest, htext, hlead, hrest⟩ := h
  obtain ⟨hnil, hspace⟩ := matchChars_of_lead hlead
  have hchars : matchChars true text.toList = matchChars true phrase.toList ++ matchChars false rest := by
    rw [← matchChars_lowercaseChars, htext, matchChars_append, hnil, hspace, List.nil_append, matchChars_append, hend]
  refine ⟨(matchChars false rest).rdropWhile isWhitespace, ?_, ?_⟩
  · rw [normalizeMatchText, toList_trim, String.toList_ofList, hchars, trimChars_append htrim hne]
  · cases rest with
    | nil => exact Or.inl rfl
    | cons c cs =>
      have hc : isAsciiAlphanumeric c = false := hrest c rfl
      have hmore : matchChars false (c :: cs) = ' ' :: matchChars true cs := by
        rw [matchChars, hc]
        rfl
      rw [hmore]
      have hfirst := List.rdropWhile_prefix isWhitespace (' ' :: matchChars true cs)
      cases hdrop : (' ' :: matchChars true cs).rdropWhile isWhitespace with
      | nil => exact Or.inl rfl
      | cons d ds =>
        rw [hdrop, List.cons_prefix_cons] at hfirst
        rw [hfirst.1]
        exact Or.inr ⟨ds, rfl⟩

/-- A phrase that is its own normal form is found in a text that spells it. -/
theorem matchesPhrase_of_spells {phrase text : String} (h : Spells phrase text)
    (hself : matchChars true phrase.toList = phrase.toList) (htrim : trimChars phrase.toList = phrase.toList)
    (hne : phrase.toList ≠ []) (hend : spaceAfter true phrase.toList = false) :
    matchesPhrase (normalizeMatchText text) phrase = true := by
  obtain ⟨more, htext, hmore⟩ := normalizeMatchText_of_spells h (by rw [hself, htrim]) (by rwa [hself]) hend
  rw [hself] at htext
  rw [matchesPhrase, Bool.or_eq_true]
  obtain rfl | ⟨more', rfl⟩ := hmore
  · rw [List.append_nil] at htext
    exact Or.inl (beq_iff_eq.mpr (String.toList_injective htext))
  · refine Or.inr ?_
    rw [startsWith, List.isPrefixOf_iff_prefix, htext]
    exact ⟨more', by simp only [List.append_assoc, List.cons_append, List.nil_append]⟩

/-- A text in which a phrase is found begins with it. -/
theorem prefix_of_matchesPhrase {normalized phrase : String} (h : matchesPhrase normalized phrase = true) :
    phrase.toList <+: normalized.toList := by
  rw [matchesPhrase, Bool.or_eq_true] at h
  obtain h | h := h
  · obtain rfl := beq_iff_eq.mp h
    exact List.prefix_rfl
  · rw [startsWith, List.isPrefixOf_iff_prefix] at h
    exact (List.prefix_append _ _).trans h

/-- Two phrases of which neither begins with the other are not both found in a text. -/
theorem not_matchesPhrase_of_matchesPhrase {normalized phrase phrase' : String}
    (h : matchesPhrase normalized phrase = true) (hne : ¬ phrase.toList <+: phrase'.toList)
    (hne' : ¬ phrase'.toList <+: phrase.toList) : matchesPhrase normalized phrase' = false := by
  by_contra hphrase'
  have hfirst' := prefix_of_matchesPhrase (Bool.of_not_eq_false hphrase')
  exact (List.prefix_or_prefix_of_prefix (prefix_of_matchesPhrase h) hfirst').elim hne hne'

end AgentVoice.Turns

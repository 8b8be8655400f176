import AgentVoice.Turns.MatchText

/-!
# Confirmations and rejections

Which texts of a caller count as confirming, and which as rejecting, the e-mail address that the call has asked about.
No text counts as both. A text that spells a phrase of the lists counts as what the list is for, except for the one
phrase with an apostrophe: no normalised text has one (`confirmed_of_spells_iff`).
-/

namespace AgentVoice.Turns

open AgentVoice.Foundations

/-- The phrases of `caller_confirmed_pending_value`. -/
def confirmationPhrases : List String :=
  ["yes", "yes please", "yeah", "yep", "yup", "sure", "correct", "that s correct", "that is correct", "that is right",
    "that's right", "confirmed"]

/-- The phrases of `caller_rejected_pending_value`. -/
def rejectionPhrases : List String :=
  ["no", "nope", "no thanks", "not", "cancel", "wrong", "never mind", "forget it", "that is not", "that s not"]

/-- `caller_confirmed_pending_value`. -/
def callerConfirmedPendingValue (text : String) : Bool :=
  confirmationPhrases.any (matchesPhrase (normalizeMatchText text))

/-- `caller_rejected_pending_value`. -/
def callerRejectedPendingValue (text : String) : Bool :=
  rejectionPhrases.any (matchesPhrase (normalizeMatchText text))

/-- No confirming phrase begins with a rejecting one, nor the other way. -/
theorem confirmation_rejection_apart : ∀ phrase ∈ confirmationPhrases, ∀ phrase' ∈ rejectionPhrases,
    ¬ phrase.toList <+: phrase'.toList ∧ ¬ phrase'.toList <+: phrase.toList := by decide +kernel

/-- **Never both.** -/
theorem not_rejected_of_confirmed {text : String} (h : callerConfirmedPendingValue text = true) :
    callerRejectedPendingValue text = false := by
  obtain ⟨phrase, hphrase, hmatch⟩ := List.any_eq_true.mp h
  refine List.any_eq_false.mpr fun phrase' hphrase' => ?_
  obtain ⟨hne, hne'⟩ := confirmation_rejection_apart phrase hphrase phrase' hphrase'
  rw [not_matchesPhrase_of_matchesPhrase hmatch hne hne']
  exact Bool.false_ne_true

/-- The phrases without an apostrophe are their own normal forms. -/
theorem phrases_normal : ∀ phrase ∈ confirmationPhrases ++ rejectionPhrases, phrase ≠ "that's right" →
    matchChars true phrase.toList = phrase.toList ∧ trimChars phrase.toList = phrase.toList ∧ phrase.toList ≠ [] ∧
      spaceAfter true phrase.toList = false := by decide +kernel

theorem confirmed_of_spells {phrase text : String} (hphrase : phrase ∈ confirmationPhrases)
    (hne : phrase ≠ "that's right") (h : Spells phrase text) : callerConfirmedPendingValue text = true := by
  obtain ⟨hself, htrim, hnil, hend⟩ := phrases_normal phrase (List.mem_append_left _ hphrase) hne
  exact List.any_eq_true.mpr ⟨phrase, hphrase, matchesPhrase_of_spells h hself htrim hnil hend⟩

example : callerConfirmedPendingValue "Yes, please!" = true := by decide +kernel

theorem rejected_of_spells {phrase text : String} (hphrase : phrase ∈ rejectionPhrases) (h : Spells phrase text) :
    callerRejectedPendingValue text = true := by
  have hne : phrase ≠ "that's right" := by
    rintro rfl
    revert hphrase
    decide +kernel
  obtain ⟨hself, htrim, hnil, hend⟩ := phrases_normal phrase (List.mem_append_right _ hphrase) hne
  exact List.any_eq_true.mpr ⟨phrase, hphrase, matchesPhrase_of_spells h hself htrim hnil hend⟩

/-- The normal form of the phrase with an apostrophe. -/
theorem matchChars_apostrophe : matchChars true "that's right".toList = "that s right".toList ∧
    spaceAfter true "that's right".toList = false := by decide +kernel

/-- This normal form begins with no phrase of the list, and no phrase of the list with it. -/
theorem apostrophe_apart : ∀ phrase ∈ confirmationPhrases,
    ¬ "that s right".toList <+: phrase.toList ∧ ¬ phrase.toList <+: "that s right".toList := by decide +kernel

/-- The phrase with an apostrophe is in the list, but a text that spells it is not taken for a confirmation. -/
theorem not_confirmed_of_spells {text : String} (h : Spells "that's right" text) :
    callerConfirmedPendingValue text = false := by
  obtain ⟨hnormal, hend⟩ := matchChars_apostrophe
  have htrim : trimChars (matchChars true "that's right".toList) = matchChars true "that's right".toList := by
    rw [hnormal]
    decide +kernel
  have hne : matchChars true "that's right".toList ≠ [] := by
    rw [hnormal]
    decide +kernel
  obtain ⟨more, htext, -⟩ := normalizeMatchText_of_spells h htrim hne hend
  have hprefix : "that s right".toList <+: (normalizeMatchText text).toList := by
    rw [htext, hnormal]
    exact List.prefix_append _ _
  refine List.any_eq_false.mpr fun phrase hphrase hmatch => ?_
  obtain ⟨hapart, hapart'⟩ := apostrophe_apart phrase hphrase
  exact (List.prefix_or_prefix_of_prefix hprefix (prefix_of_matchesPhrase hmatch)).elim hapart hapart'

/-- **Spelled phrases.** The texts that spell a confirming phrase are taken for confirmations, exactly where the text
does not spell the phrase with an apostrophe. -/
theorem confirmed_of_spells_iff (text : String) :
    (∀ phrase ∈ confirmationPhrases, Spells phrase text → callerConfirmedPendingValue text = true) ↔
      ¬ Spells "that's right" text := by
  constructor
  · intro h hspells
    have hconfirmed := h "that's right" (by decide +kernel) hspells
    rw [not_confirmed_of_spells hspells] at hconfirmed
    cases hconfirmed
  · intro h phrase hphrase hspells
    refine confirmed_of_spells hphrase ?_ hspells
    rintro rfl
    exact h hspells

end AgentVoice.Turns

import AgentVoice.Callers.PhoneBook
import Mathlib.Data.List.Pairwise

/-!
# Merging updates of a caller

What `merge_update` does to a record. A field is set by a candidate that is not blank and kept otherwise. The notes that
survive the filter stay in their order, new ones come behind them, and no note is there twice. What the filter takes out
may be added and taken out again, but it never stands in the way of another note, so the same update applied twice is
applied once.
-/

namespace AgentVoice.Callers

open AgentVoice.Foundations

/-! ### Fields -/

/-- What merging does to a field: what is present stays present and does not become blank; a candidate that is not blank
is trimmed and set, and without one the field is kept. -/
structure MergesField (before candidate after : Option String) : Prop where
  present : before.isSome = true → after.isSome = true
  blank : ∀ value, after = some value → IsBlank value → before = some value
  set : ∀ value, candidate = some value → ¬ IsBlank value → after = some (trim value)
  kept : (∀ value, candidate = some value → IsBlank value) → after = before

theorem trim_eq_empty_iff {value : String} : trim value = "" ↔ IsBlank value := by
  rw [IsBlank, ← String.toList_inj]
  rfl

theorem mergeOption_of_blank {target candidate : Option String} (h : ∀ value, candidate = some value → IsBlank value) :
    mergeOption target candidate = target := by
  cases candidate with
  | none => rfl
  | some value => exact if_pos (trim_eq_empty_iff.mpr (h value rfl))

theorem mergeOption_of_not_blank {target : Option String} {value : String} (h : ¬ IsBlank value) :
    mergeOption target (some value) = some (trim value) :=
  if_neg fun hempty => h (trim_eq_empty_iff.mp hempty)

/-- A candidate is blank, or it is set. -/
theorem mergeOption_cases (target candidate : Option String) :
    (∀ value, candidate = some value → IsBlank value) ∧ mergeOption target candidate = target ∨
      ∃ value, candidate = some value ∧ ¬ IsBlank value ∧ mergeOption target candidate = some (trim value) := by
  cases candidate with
  | none => exact Or.inl ⟨nofun, rfl⟩
  | some value =>
    by_cases hblank : IsBlank value
    · have hall : ∀ v, some value = some v → IsBlank v := fun v hv => Option.some.inj hv ▸ hblank
      exact Or.inl ⟨hall, mergeOption_of_blank hall⟩
    · exact Or.inr ⟨value, rfl, hblank, mergeOption_of_not_blank hblank⟩

theorem mergeOption_merges (target candidate : Option String) :
    MergesField target candidate (mergeOption target candidate) := by
  refine ⟨fun hpresent => ?_, fun value hvalue hblank => ?_, fun value hvalue hnot => ?_, mergeOption_of_blank⟩
  · rcases mergeOption_cases target candidate with ⟨-, hkept⟩ | ⟨value, -, -, hset⟩
    · rw [hkept]
      exact hpresent
    · rw [hset]
      rfl
  · rcases mergeOption_cases target candidate with ⟨-, hkept⟩ | ⟨v, -, hnot, hset⟩
    · rw [← hkept]
      exact hvalue
    · obtain rfl : trim v = value := Option.some.inj (hset.symm.trans hvalue)
      exact absurd ((isBlank_trim v).mp hblank) hnot
  · rw [hvalue]
    exact mergeOption_of_not_blank hnot

/-- **A candidate that was merged changes nothing when it is merged again.** -/
theorem mergeOption_idem (target candidate : Option String) :
    mergeOption (mergeOption target candidate) candidate = mergeOption target candidate := by
  rcases mergeOption_cases target candidate with ⟨hblank, -⟩ | ⟨value, rfl, hnot, hset⟩
  · exact mergeOption_of_blank hblank
  · rw [hset]
    exact mergeOption_of_not_blank hnot

/-! ### Notes -/

theorem eqIgnoreCase_iff {s t : String} : eqIgnoreCase s t = true ↔ lowercaseChars s.toList = lowercaseChars t.toList :=
  beq_iff_eq

theorem eqIgnoreCase_self (s : String) : eqIgnoreCase s s = true := eqIgnoreCase_iff.mpr rfl

/-- Notes that differ in the case of letters only mention a language both, or neither. -/
theorem noteMentionsLanguage_congr {s t : String} (h : eqIgnoreCase s t = true) :
    noteMentionsLanguage s = noteMentionsLanguage t := by
  rw [noteMentionsLanguage, noteMentionsLanguage, eqIgnoreCase_iff.mp h]

/-- The notes that the filter keeps. -/
def survivors (notes : List String) : List String := notes.filter fun note => !noteMentionsLanguage note

theorem mem_survivors {notes : List String} {note : String} :
    note ∈ survivors notes ↔ note ∈ notes ∧ noteMentionsLanguage note = false := by
  rw [survivors, List.mem_filter, Bool.not_eq_true']

theorem survivors_survivors (notes : List String) : survivors (survivors notes) = survivors notes := by
  rw [survivors, List.filter_eq_self]
  exact fun note hnote => (List.mem_filter.mp hnote).2

/-- No two notes are equal up to the case of ASCII letters. -/
def Distinct (notes : List String) : Prop := notes.Pairwise fun note other => eqIgnoreCase note other = false

/-- A note is there, up to the case of letters. -/
def Held (notes : List String) (note : String) : Bool := notes.any fun existing => eqIgnoreCase existing note

/-- A note is skipped, or it is trimmed and added. -/
theorem mergeNote_cases (target : List String) (note : String) :
    mergeNote target note = target ∧ (IsBlank note ∨ Held target (trim note) = true) ∨
      mergeNote target note = target ++ [trim note] ∧ ¬ IsBlank note ∧ Held target (trim note) = false := by
  unfold mergeNote
  by_cases hblank : IsBlank note
  · exact Or.inl ⟨if_pos (trim_eq_empty_iff.mpr hblank), Or.inl hblank⟩
  · have hsome : trim note ≠ "" := fun hempty => hblank (trim_eq_empty_iff.mp hempty)
    cases hheld : Held target (trim note) with
    | true => exact Or.inl ⟨(if_neg hsome).trans (if_pos hheld), Or.inr rfl⟩
    | false =>
      refine Or.inr ⟨(if_neg hsome).trans (if_neg ?_), hblank, rfl⟩
      rw [Held] at hheld
      rw [hheld]
      exact Bool.false_ne_true

theorem mergeNotes_cons (target : List String) (note : String) (notes : List String) :
    mergeNotes target (note :: notes) = mergeNotes (mergeNote target note) notes := rfl

/-- New notes come behind the ones that are there. -/
theorem mergeNotes_append (target notes : List String) : ∃ added, mergeNotes target notes = target ++ added := by
  induction notes generalizing target with
  | nil => exact ⟨[], (List.append_nil target).symm⟩
  | cons note notes ih =>
    rw [mergeNotes_cons]
    obtain ⟨added, hadded⟩ := ih (mergeNote target note)
    rcases mergeNote_cases target note with ⟨hskipped, -⟩ | ⟨hpushed, -⟩
    · rw [hskipped] at hadded ⊢
      exact ⟨added, hadded⟩
    · rw [hpushed] at hadded ⊢
      exact ⟨trim note :: added, hadded.trans (List.append_assoc target [trim note] added)⟩

theorem distinct_mergeNotes {target : List String} (h : Distinct target) (notes : List String) :
    Distinct (mergeNotes target notes) := by
  induction notes generalizing target with
  | nil => exact h
  | cons note notes ih =>
    rw [mergeNotes_cons]
    refine ih ?_
    rcases mergeNote_cases target note with ⟨hskipped, -⟩ | ⟨hpushed, -, hnew⟩
    · rw [hskipped]
      exact h
    · rw [hpushed]
      refine List.pairwise_append.mpr ⟨h, List.pairwise_singleton _ _, fun existing hexisting other hother => ?_⟩
      rw [List.mem_singleton.mp hother]
      exact Bool.eq_false_iff.mpr (List.any_eq_false.mp hnew existing hexisting)

/-- A note that survives is there just where it is among the survivors. -/
theorem held_survivors {target : List String} {note : String} (h : noteMentionsLanguage note = false) :
    Held (survivors target) note = Held target note := by
  rw [Bool.eq_iff_iff, Held, Held, List.any_eq_true, List.any_eq_true]
  constructor
  · rintro ⟨existing, hexisting, heq⟩
    exact ⟨existing, (mem_survivors.mp hexisting).1, heq⟩
  · rintro ⟨existing, hexisting, heq⟩
    exact ⟨existing, mem_survivors.mpr ⟨hexisting, (noteMentionsLanguage_congr heq).trans h⟩, heq⟩

/-- The notes of an update that the filter does not take out. -/
def kept (notes : List String) : List String := notes.filter fun note => !noteMentionsLanguage (trim note)

/-- **Filtering after a merge is merging what the filter keeps**: a note that is taken out stands in no other's way. -/
theorem survivors_mergeNotes (target notes : List String) :
    survivors (mergeNotes target notes) = mergeNotes (survivors target) (kept notes) := by
  induction notes generalizing target with
  | nil => rfl
  | cons note notes ih =>
    rw [mergeNotes_cons, ih]
    cases hmentions : noteMentionsLanguage (trim note) with
    | true =>
      have hout : kept (note :: notes) = kept notes := List.filter_cons_of_neg (by simp [hmentions])
      have hsame : survivors (mergeNote target note) = survivors target := by
        rcases mergeNote_cases target note with ⟨hskipped, -⟩ | ⟨hpushed, -⟩
        · rw [hskipped]
        · rw [hpushed, survivors, List.filter_append, survivors, List.filter_singleton, hmentions]
          exact List.append_nil _
      rw [hout, hsame]
    | false =>
      have hin : kept (note :: notes) = note :: kept notes := List.filter_cons_of_pos (by simp [hmentions])
      have hheld : Held (survivors target) (trim note) = Held target (trim note) := held_survivors hmentions
      have hsame : survivors (mergeNote target note) = mergeNote (survivors target) note := by
        rcases mergeNote_cases target note with ⟨hskipped, hwhy⟩ | ⟨hpushed, hnot, hnew⟩
        · rw [hskipped]
          rcases mergeNote_cases (survivors target) note with ⟨hskipped', -⟩ | ⟨-, hnot', hnew'⟩
          · exact hskipped'.symm
          · rw [hheld] at hnew'
            rcases hwhy with hblank | hthere
            · exact absurd hblank hnot'
            · cases hthere.symm.trans hnew'
        · rw [hpushed, survivors, List.filter_append, List.filter_singleton, hmentions]
          rcases mergeNote_cases (survivors target) note with ⟨-, hwhy'⟩ | ⟨hpushed', -⟩
          · rw [hheld] at hwhy'
            rcases hwhy' with hblank | hthere
            · exact absurd hblank hnot
            · cases hthere.symm.trans hnew
          · exact hpushed'.symm
      rw [hin, mergeNotes_cons, hsame]

theorem held_append {target added : List String} {note : String} (h : Held target note = true) :
    Held (target ++ added) note = true := by
  rw [Held, List.any_append, Bool.or_eq_true]
  exact Or.inl h

/-- After a merge every note of the update is there, or is blank. -/
theorem held_mergeNotes (target : List String) {notes : List String} {note : String} (h : note ∈ notes) :
    IsBlank note ∨ Held (mergeNotes target notes) (trim note) = true := by
  induction notes generalizing target with
  | nil => cases h
  | cons first notes ih =>
    rw [mergeNotes_cons]
    rcases List.mem_cons.mp h with rfl | h
    · obtain ⟨added, hadded⟩ := mergeNotes_append (mergeNote target note) notes
      rw [hadded]
      rcases mergeNote_cases target note with ⟨hskipped, hblank | hthere⟩ | ⟨hpushed, -⟩
      · exact Or.inl hblank
      · rw [hskipped]
        exact Or.inr (held_append hthere)
      · rw [hpushed]
        refine Or.inr (held_append ?_)
        rw [Held, List.any_append, List.any_cons, eqIgnoreCase_self]
        simp
    · exact ih _ h

theorem mergeNotes_of_held {target notes : List String}
    (h : ∀ note ∈ notes, IsBlank note ∨ Held target (trim note) = true) : mergeNotes target notes = target := by
  induction notes with
  | nil => rfl
  | cons note notes ih =>
    have hskipped : mergeNote target note = target := by
      rcases mergeNote_cases target note with ⟨hskipped, -⟩ | ⟨-, hnot, hnew⟩
      · exact hskipped
      · rcases h note List.mem_cons_self with hblank | hthere
        · exact absurd hblank hnot
        · cases hthere.symm.trans hnew
    rw [mergeNotes_cons, hskipped]
    exact ih fun other hother => h other (List.mem_cons_of_mem _ hother)

/-- **Notes that were merged and filtered change nothing when they are merged and filtered again.** -/
theorem survivors_mergeNotes_idem (target notes : List String) :
    survivors (mergeNotes (survivors (mergeNotes target notes)) notes) = survivors (mergeNotes target notes) := by
  rw [survivors_mergeNotes (survivors (mergeNotes target notes)), survivors_survivors, survivors_mergeNotes]
  exact mergeNotes_of_held fun note hnote => held_mergeNotes _ hnote

/-- What merging does to the notes: notes that were distinct stay distinct, none mentions a language, and the notes that
survive stay in their order before the new ones. -/
structure MergesNotes (before after : List String) : Prop where
  distinct : Distinct before → Distinct after
  silent : ∀ note ∈ after, noteMentionsLanguage note = false
  order : ∃ added, after = survivors before ++ added

theorem mergeNotes_merges (before notes : List String) : MergesNotes before (survivors (mergeNotes before notes)) := by
  refine ⟨fun hdistinct => ?_, fun note hnote => (mem_survivors.mp hnote).2, ?_⟩
  · exact (distinct_mergeNotes hdistinct notes).filter _
  · rw [survivors_mergeNotes]
    exact mergeNotes_append _ _

/-! ### Records -/

/-- What merging an update does to a record. The candidate for the e-mail address is in lower case. -/
structure Merges (update : CallerUpdate) (before after : CallerRecord) : Prop where
  firstName : MergesField before.firstName update.firstName after.firstName
  lastName : MergesField before.lastName update.lastName after.lastName
  email : MergesField before.email (update.email.map lowercase) after.email
  company : MergesField before.company update.company after.company
  timezone : MergesField before.timezone update.timezone after.timezone
  preferredLanguage : MergesField before.preferredLanguage update.preferredLanguage after.preferredLanguage
  notes : MergesNotes before.notes after.notes
  others : after.callerId = before.callerId ∧ after.firstSeenAt = before.firstSeenAt ∧
    after.callCount = before.callCount ∧ after.disabled = before.disabled ∧ after.systemEntry = before.systemEntry

/-- The record a merge leaves. -/
def CallerRecord.merged (update : CallerUpdate) (updated : String) (record : CallerRecord) : CallerRecord :=
  { record with
    firstName := mergeOption record.firstName update.firstName
    lastName := mergeOption record.lastName update.lastName
    email := mergeOption record.email (update.email.map lowercase)
    company := mergeOption record.company update.company
    timezone := mergeOption record.timezone update.timezone
    preferredLanguage := mergeOption record.preferredLanguage update.preferredLanguage
    notes := survivors (mergeNotes record.notes update.notes)
    lastSeenAt := updated }

theorem PhoneBook.put_self (key : String) (record : CallerRecord) (book : PhoneBook) :
    (book.put key record).callers key = some record := by
  simp [PhoneBook.put]

theorem mergeUpdate_eq (inserted updated callerId : String) (update : CallerUpdate) (book : PhoneBook) :
    mergeUpdate inserted updated callerId update book =
      (((book.callers callerId).getD (.new callerId inserted)).merged update updated,
        book.put callerId (((book.callers callerId).getD (.new callerId inserted)).merged update updated)) := rfl

theorem merged_merges (update : CallerUpdate) (updated : String) (record : CallerRecord) :
    Merges update record (record.merged update updated) :=
  ⟨mergeOption_merges _ _, mergeOption_merges _ _, mergeOption_merges _ _, mergeOption_merges _ _,
    mergeOption_merges _ _, mergeOption_merges _ _, mergeNotes_merges _ _, rfl, rfl, rfl, rfl, rfl⟩

theorem merged_merged (update : CallerUpdate) (updated updated' : String) (record : CallerRecord) :
    (record.merged update updated).merged update updated' = record.merged update updated' := by
  simp only [CallerRecord.merged, mergeOption_idem, survivors_mergeNotes_idem]

/-- **Merging an update.** Every field and the notes are merged as they should be, and merging the same update again
gives the same record, but for the time it was last seen, and the same phone book with it. -/
theorem mergeUpdate_merges (inserted updated callerId : String) (update : CallerUpdate) (book : PhoneBook) :
    Merges update ((book.callers callerId).getD (.new callerId inserted))
        (mergeUpdate inserted updated callerId update book).1 ∧
      (∀ other, other ≠ callerId →
        (mergeUpdate inserted updated callerId update book).2.callers other = book.callers other) ∧
      (mergeUpdate inserted updated callerId update book).2.callers callerId =
        some (mergeUpdate inserted updated callerId update book).1 ∧
      ∀ inserted' updated',
        (mergeUpdate inserted' updated' callerId update (mergeUpdate inserted updated callerId update book).2).1 =
          { (mergeUpdate inserted updated callerId update book).1 with lastSeenAt := updated' } := by
  refine ⟨merged_merges _ _ _, fun other hother => Function.update_of_ne hother _ _, PhoneBook.put_self _ _ _,
    fun inserted' updated' => ?_⟩
  rw [mergeUpdate_eq, mergeUpdate_eq]
  simp only [PhoneBook.put_self, Option.getD_some, merged_merged]
  rfl

end AgentVoice.Callers

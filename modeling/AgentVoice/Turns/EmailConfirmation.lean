import AgentVoice.Foundations.Machine
import AgentVoice.Turns.Turn

/-!
# E-mail addresses after confirmation

In every run of a call, the e-mail address of the caller in the phone book changes only in
`reconcile_pending_email_confirmation`, to the candidate that an earlier turn has made pending, on a turn whose text
confirms it; a text that rejects the candidate clears it. What a turn spells is taken as such, except for one phrase
(`emailGuarded_iff`).
-/

namespace AgentVoice.Turns

open AgentVoice.Foundations
open AgentVoice.Callers (CallerRecord CallerUpdate PhoneBook mergeOption mergeUpdate)

/-- The e-mail address in the phone book under a key. -/
def emailOf (book : PhoneBook) (key : String) : Option String := (book.callers key).bind CallerRecord.email

/-- The text that a turn has heard. -/
def heard (bridge : Bridge) (turn : Turn) : Option String := (callerText bridge turn).join

/-- The state of a turn after the reconciliation. -/
def reconciledState (bridge : Bridge) (phoneBookKey : Option String) (turn : Turn) (s : CallState) : CallState :=
  match callerText bridge turn with
  | none => s
  | some text => (reconcile phoneBookKey turn text (heardState text s)).2

/-- The extraction of a turn proposes an e-mail address, in its normal form. -/
def Proposes (turn : Turn) (email : String) : Prop :=
  ∃ update value, turn.extraction = some update ∧ update.email = some value ∧ normalizeEmailCandidate value = some email

variable (bridge : Bridge) (phoneBookKey : Option String) (book : PhoneBook)

/-- The state of a call after a run. -/
def callAfter (as : List Action) : CallState := Machine.run (step bridge phoneBookKey) as (.start book)

/-- A turn of the run has made the candidate pending. -/
def MadePending (as : List Action) (email : String) : Prop :=
  ∃ as₁ turn as₂, as = as₁ ++ .turn turn :: as₂ ∧ Proposes turn email ∧
    (processDetectedUtterance bridge phoneBookKey turn
      (callAfter bridge phoneBookKey book as₁)).state.pendingEmailConfirmation = some email

/-- What is to hold of the turn after a run. -/
structure EmailGuarded (as : List Action) (turn : Turn) : Prop where
  /-- The addresses after the turn are those after its reconciliation. -/
  only_reconciled : ∀ key,
    emailOf (processDetectedUtterance bridge phoneBookKey turn (callAfter bridge phoneBookKey book as)).state.phoneBook
      key = emailOf (reconciledState bridge phoneBookKey turn (callAfter bridge phoneBookKey book as)).phoneBook key
  changed : ∀ key,
    emailOf (processDetectedUtterance bridge phoneBookKey turn (callAfter bridge phoneBookKey book as)).state.phoneBook
      key ≠ emailOf (callAfter bridge phoneBookKey book as).phoneBook key →
    phoneBookKey = some key ∧ ∃ text email, heard bridge turn = some text ∧ callerConfirmedPendingValue text = true ∧
      (callAfter bridge phoneBookKey book as).pendingEmailConfirmation = some email ∧
      MadePending bridge phoneBookKey book as email ∧
      emailOf (processDetectedUtterance bridge phoneBookKey turn (callAfter bridge phoneBookKey book as)).state.phoneBook
        key = some email
  never_both : ∀ text, ¬ (callerConfirmedPendingValue text = true ∧ callerRejectedPendingValue text = true)
  rejected : ∀ text, heard bridge turn = some text → callerRejectedPendingValue text = true →
    (∀ key, emailOf
      (processDetectedUtterance bridge phoneBookKey turn (callAfter bridge phoneBookKey book as)).state.phoneBook key =
        emailOf (callAfter bridge phoneBookKey book as).phoneBook key) ∧
    (reconciledState bridge phoneBookKey turn (callAfter bridge phoneBookKey book as)).pendingEmailConfirmation = none
  confirmation_spelled : ∀ text, heard bridge turn = some text → ∀ phrase ∈ confirmationPhrases, Spells phrase text →
    callerConfirmedPendingValue text = true
  rejection_spelled : ∀ text, heard bridge turn = some text → ∀ phrase ∈ rejectionPhrases, Spells phrase text →
    callerRejectedPendingValue text = true

/-! ### Merging an update -/

theorem emailOf_mergeUpdate (inserted updated key : String) (update : CallerUpdate) (book : PhoneBook) (k : String) :
    emailOf (mergeUpdate inserted updated key update book).2 k =
      if k = key then mergeOption (emailOf book key) (update.email.map lowercase) else emailOf book k := by
  by_cases hk : k = key
  · subst hk
    have hnew : ((book.callers k).getD (.new k inserted)).email = emailOf book k := by
      rw [emailOf]
      cases book.callers k <;> rfl
    rw [if_pos rfl, ← hnew]
    simp only [emailOf, mergeUpdate, PhoneBook.put, Function.update_self, Option.bind_some]
    rfl
  · rw [if_neg hk]
    simp only [emailOf, mergeUpdate, PhoneBook.put, Function.update_of_ne hk]

theorem emailOf_mergeUpdate_of_none (inserted updated key : String) {update : CallerUpdate} (h : update.email = none)
    (book : PhoneBook) (k : String) : emailOf (mergeUpdate inserted updated key update book).2 k = emailOf book k := by
  rw [emailOf_mergeUpdate, h]
  split_ifs with hk
  · subst hk
    rfl
  · rfl

/-! ### What the steps of a turn do -/

variable {bridge phoneBookKey book}

/-- What the reconciliation does with a candidate: nothing, or it clears it, or it has put it into the phone book. -/
theorem reconcilePending_cases (phoneBookKey : Option String) (turn : Turn) (text : String) (s : CallState) :
    (reconcilePendingEmailConfirmation phoneBookKey turn text s).2.phoneBook = s.phoneBook ∨
      ∃ key email, phoneBookKey = some key ∧ s.pendingEmailConfirmation = some email ∧
        callerConfirmedPendingValue text = true ∧
        (reconcilePendingEmailConfirmation phoneBookKey turn text s).2.phoneBook =
          (mergeUpdate turn.confirmed.1 turn.confirmed.2 key { email := some email } s.phoneBook).2 := by
  rw [reconcilePendingEmailConfirmation]
  cases hpending : s.pendingEmailConfirmation with
  | none => exact Or.inl rfl
  | some email =>
    cases phoneBookKey with
    | none => exact Or.inl rfl
    | some key =>
      simp only
      split_ifs with hconfirmed hpersisted hrejected
      · exact Or.inr ⟨key, email, rfl, rfl, hconfirmed, rfl⟩
      · exact Or.inr ⟨key, email, rfl, rfl, hconfirmed, rfl⟩
      · exact Or.inl rfl
      · exact Or.inl rfl

/-- The reconciliation makes nothing pending. -/
theorem pending_reconcilePending (turn : Turn) (text : String) (s : CallState) :
    (reconcilePendingEmailConfirmation phoneBookKey turn text s).2.pendingEmailConfirmation = none ∨
      (reconcilePendingEmailConfirmation phoneBookKey turn text s).2.pendingEmailConfirmation =
        s.pendingEmailConfirmation := by
  rw [reconcilePendingEmailConfirmation]
  cases hpending : s.pendingEmailConfirmation with
  | none => exact Or.inl hpending
  | some email =>
    cases phoneBookKey with
    | none => exact Or.inl rfl
    | some key =>
      simp only
      split_ifs
      · exact Or.inl rfl
      · exact Or.inr rfl
      · exact Or.inl rfl
      · exact Or.inr hpending

/-- A text that rejects the candidate leaves none, and the phone book as it is. -/
theorem reconcilePending_of_rejected (turn : Turn) {text : String} (h : callerRejectedPendingValue text = true)
    (s : CallState) :
    (reconcilePendingEmailConfirmation phoneBookKey turn text s).2.phoneBook = s.phoneBook ∧
      (reconcilePendingEmailConfirmation phoneBookKey turn text s).2.pendingEmailConfirmation = none := by
  have hconfirmed : callerConfirmedPendingValue text ≠ true := by
    intro hconfirmed
    rw [not_rejected_of_confirmed hconfirmed] at h
    cases h
  rw [reconcilePendingEmailConfirmation]
  cases hpending : s.pendingEmailConfirmation with
  | none => exact ⟨rfl, hpending⟩
  | some email =>
    cases phoneBookKey with
    | none => exact ⟨rfl, rfl⟩
    | some key =>
      simp only [if_neg hconfirmed, if_pos h]
      exact ⟨rfl, rfl⟩

/-- Making a candidate pending leaves the phone book as it is. -/
theorem propose_spec (candidate : Option String) (s : CallState) :
    (s.propose candidate).phoneBook = s.phoneBook ∧ ∀ email, (s.propose candidate).pendingEmailConfirmation = some email →
      candidate = some email ∨ s.pendingEmailConfirmation = some email := by
  cases candidate with
  | none => exact ⟨rfl, fun email h => Or.inr h⟩
  | some proposed => exact ⟨rfl, fun email h => Or.inl h⟩

/-- The extraction leaves the addresses as they are, and makes pending only what it proposes. -/
theorem extractCallerUpdate_spec (turn : Turn) (history : List TranscriptEvent) (text : String) (s : CallState) :
    (∀ key, emailOf (extractCallerUpdate bridge phoneBookKey turn history text s).2.phoneBook key =
      emailOf s.phoneBook key) ∧
    ∀ email, (extractCallerUpdate bridge phoneBookKey turn history text s).2.pendingEmailConfirmation = some email →
      Proposes turn email ∨ s.pendingEmailConfirmation = some email := by
  have hkeep : (∀ key, emailOf (true, s).2.phoneBook key = emailOf s.phoneBook key) ∧
      ∀ email, (true, s).2.pendingEmailConfirmation = some email →
        Proposes turn email ∨ s.pendingEmailConfirmation = some email := ⟨fun _ => rfl, fun email h => Or.inr h⟩
  cases hextraction : turn.extraction with
  | none =>
    have hnone : extractCallerUpdate bridge phoneBookKey turn history text s = (true, s) := by
      unfold extractCallerUpdate
      rw [hextraction]
      cases phoneBookKey <;> rfl
    rw [hnone]
    exact hkeep
  | some update =>
    cases phoneBookKey with
    | none => exact hkeep
    | some key =>
      simp only [extractCallerUpdate, hextraction]
      split_ifs
      · rw [mergeExtracted]
        obtain ⟨hbook, hpending⟩ :=
          propose_spec (sanitizeCallerUpdate bridge.isValidTimezone update text).pendingEmailConfirmation s
        have hproposes : ∀ email,
            (s.propose (sanitizeCallerUpdate bridge.isValidTimezone update text).pendingEmailConfirmation
              ).pendingEmailConfirmation = some email → Proposes turn email ∨ s.pendingEmailConfirmation = some email := by
          intro email hemail
          refine (hpending email hemail).imp_left fun hcandidate => ?_
          obtain ⟨value, hvalue, hnormalized⟩ := Option.bind_eq_some_iff.mp hcandidate
          exact ⟨update, value, hextraction, hvalue, hnormalized⟩
        split_ifs
        · refine ⟨fun k => ?_, hproposes⟩
          exact (emailOf_mergeUpdate_of_none _ _ _ rfl _ k).trans (congrArg (emailOf · k) hbook)
        · exact ⟨fun k => congrArg (emailOf · k) hbook, hproposes⟩
      · exact hkeep

theorem extract_spec (turn : Turn) (history : List TranscriptEvent) (text : Option String) (s : CallState) :
    (∀ key, emailOf (extract bridge phoneBookKey turn history text s).2.phoneBook key = emailOf s.phoneBook key) ∧
    ∀ email, (extract bridge phoneBookKey turn history text s).2.pendingEmailConfirmation = some email →
      Proposes turn email ∨ s.pendingEmailConfirmation = some email := by
  cases text with
  | none => exact ⟨fun _ => rfl, fun email h => Or.inr h⟩
  | some text => exact extractCallerUpdate_spec turn history text s

/-- The answer leaves the phone book and the candidate as they are. -/
theorem answer_keeps (turn : Turn) (history : List TranscriptEvent) (text : Option String) (s : CallState) :
    (answer bridge turn history text s).state.phoneBook = s.phoneBook ∧
      (answer bridge turn history text s).state.pendingEmailConfirmation = s.pendingEmailConfirmation := by
  have hqueue : ∀ text (s : CallState), (queueAssistantTts turn text s).phoneBook = s.phoneBook ∧
      (queueAssistantTts turn text s).pendingEmailConfirmation = s.pendingEmailConfirmation := by
    intro text s
    rw [queueAssistantTts]
    split_ifs <;> exact ⟨rfl, rfl⟩
  rw [answer]
  cases bridge.voice with
  | some requires =>
    cases turn.voiceReply with
    | none => exact ⟨rfl, rfl⟩
    | some reply =>
      simp only
      split_ifs
      · exact ⟨rfl, rfl⟩
      · exact hqueue _ s
  | none =>
    simp only
    split
    · exact hqueue _ s
    · split_ifs
      · split
        · exact hqueue _ _
        · exact ⟨rfl, rfl⟩
      · exact ⟨rfl, rfl⟩

/-! ### Whole turns -/

/-- The addresses after a turn are those after its reconciliation. -/
theorem emailOf_process (turn : Turn) (s : CallState) (key : String) :
    emailOf (processDetectedUtterance bridge phoneBookKey turn s).state.phoneBook key =
      emailOf (reconciledState bridge phoneBookKey turn s).phoneBook key := by
  rw [processDetectedUtterance, reconciledState]
  cases callerText bridge turn with
  | none => rfl
  | some text =>
    simp only
    split_ifs
    · rw [(answer_keeps _ _ _ _).1]
      exact (extract_spec _ _ _ _).1 key
    · exact (extract_spec _ _ _ _).1 key
    · rfl

/-- What is pending after a turn, the turn has proposed, or it was pending before. -/
theorem pending_process {turn : Turn} {s : CallState} {email : String}
    (h : (processDetectedUtterance bridge phoneBookKey turn s).state.pendingEmailConfirmation = some email) :
    Proposes turn email ∨ s.pendingEmailConfirmation = some email := by
  rw [processDetectedUtterance] at h
  cases htext : callerText bridge turn with
  | none =>
    rw [htext] at h
    exact Or.inr h
  | some text =>
    rw [htext] at h
    have hreconcile : ∀ email, (reconcile phoneBookKey turn text (heardState text s)).2.pendingEmailConfirmation =
        some email → s.pendingEmailConfirmation = some email := by
      intro email hemail
      cases text with
      | none => exact hemail
      | some text =>
        obtain hnone | hsame := pending_reconcilePending turn text (heardState (some text) s)
        · cases hnone.symm.trans hemail
        · exact hsame.symm.trans hemail
    simp only at h
    split_ifs at h
    · rw [(answer_keeps _ _ _ _).2] at h
      exact ((extract_spec _ _ _ _).2 email h).imp_right (hreconcile email)
    · exact ((extract_spec _ _ _ _).2 email h).imp_right (hreconcile email)
    · exact Or.inr (hreconcile email h)

/-- Candidates are made pending by turns of the run. -/
theorem madePending_of_pending {as : List Action} {email : String}
    (h : (callAfter bridge phoneBookKey book as).pendingEmailConfirmation = some email) :
    MadePending bridge phoneBookKey book as email := by
  induction as using List.reverseRecOn with
  | nil => cases h
  | append_singleton as a ih =>
    have hearlier : (callAfter bridge phoneBookKey book as).pendingEmailConfirmation = some email →
        MadePending bridge phoneBookKey book (as ++ [a]) email := by
      intro hpending
      obtain ⟨as₁, turn, as₂, rfl, hturn⟩ := ih hpending
      exact ⟨as₁, turn, as₂ ++ [a], by rw [List.append_assoc, List.cons_append], hturn⟩
    rw [callAfter, Machine.run_concat, ← callAfter] at h
    cases a with
    | speak text => exact hearlier h
    | turn turn =>
      obtain hproposes | hpending := pending_process h
      · exact ⟨as, turn, [], rfl, hproposes, h⟩
      · exact hearlier hpending

/-- A pending candidate is in its normal form. -/
theorem isCandidate_of_madePending {as : List Action} {email : String} (h : MadePending bridge phoneBookKey book as email) :
    IsCandidate email := by
  obtain ⟨-, -, -, -, ⟨update, value, -, -, hnormalized⟩, -⟩ := h
  exact ⟨value, hnormalized⟩

/-- What the reconciliation does with the addresses: nothing, or it has put the confirmed candidate under the key. -/
theorem emailOf_reconciledState {turn : Turn} {s : CallState}
    (hcandidate : ∀ email, s.pendingEmailConfirmation = some email → IsCandidate email) (key : String) :
    emailOf (reconciledState bridge phoneBookKey turn s).phoneBook key = emailOf s.phoneBook key ∨
      phoneBookKey = some key ∧ ∃ text email, heard bridge turn = some text ∧ callerConfirmedPendingValue text = true ∧
        s.pendingEmailConfirmation = some email ∧
        emailOf (reconciledState bridge phoneBookKey turn s).phoneBook key = some email := by
  rw [reconciledState, heard]
  cases callerText bridge turn with
  | none => exact Or.inl rfl
  | some text =>
    cases text with
    | none => exact Or.inl rfl
    | some text =>
      obtain hsame | ⟨key', email, hkey, hpending, hconfirmed, hbook⟩ :=
        reconcilePending_cases phoneBookKey turn text (heardState (some text) s)
      · exact Or.inl (congrArg (emailOf · key) hsame)
      · have hemail := congrArg (emailOf · key) hbook
        simp only [emailOf_mergeUpdate, Option.map_some] at hemail
        split_ifs at hemail with hkeys
        · subst hkeys
          refine Or.inr ⟨hkey, text, email, rfl, hconfirmed, hpending, hemail.trans ?_⟩
          exact mergeOption_of_candidate (hcandidate email hpending) _
        · exact Or.inl hemail

/-- A text that rejects the candidate leaves none, and the phone book as it is. -/
theorem reconciledState_of_rejected {turn : Turn} {text : String} (hheard : heard bridge turn = some text)
    (h : callerRejectedPendingValue text = true) (s : CallState) :
    (reconciledState bridge phoneBookKey turn s).phoneBook = s.phoneBook ∧
      (reconciledState bridge phoneBookKey turn s).pendingEmailConfirmation = none := by
  rw [reconciledState]
  have htext : callerText bridge turn = some (some text) := Option.join_eq_some_iff.mp hheard
  rw [htext]
  exact reconcilePending_of_rejected turn h (heardState (some text) s)

/-- **Every run.** What is to hold of the turns of a run holds exactly where no turn hears a text that spells the phrase
with an apostrophe. -/
theorem emailGuarded_iff (bridge : Bridge) (phoneBookKey : Option String) (book : PhoneBook) (as : List Action) :
    (∀ as₁ turn as₂, as = as₁ ++ .turn turn :: as₂ → EmailGuarded bridge phoneBookKey book as₁ turn) ↔
      ∀ turn, .turn turn ∈ as → ∀ text, heard bridge turn = some text → ¬ Spells "that's right" text := by
  constructor
  · intro h turn hturn text hheard
    obtain ⟨as₁, as₂, rfl⟩ := List.append_of_mem hturn
    exact (confirmed_of_spells_iff text).mp ((h as₁ turn as₂ rfl).confirmation_spelled text hheard)
  · rintro h as₁ turn as₂ rfl
    have hcandidate : ∀ email, (callAfter bridge phoneBookKey book as₁).pendingEmailConfirmation = some email →
        IsCandidate email := fun email hemail => isCandidate_of_madePending (madePending_of_pending hemail)
    refine ⟨fun key => emailOf_process _ _ key, fun key hne => ?_, ?_, ?_, ?_, ?_⟩
    · rw [emailOf_process] at hne
      obtain hsame | ⟨hkey, text, email, hheard, hconfirmed, hpending, hemail⟩ := emailOf_reconciledState hcandidate key
      · exact absurd hsame hne
      · refine ⟨hkey, text, email, hheard, hconfirmed, hpending, madePending_of_pending hpending, ?_⟩
        rw [emailOf_process]
        exact hemail
    · rintro text ⟨hconfirmed, hrejected⟩
      rw [not_rejected_of_confirmed hconfirmed] at hrejected
      cases hrejected
    · intro text hheard hrejected
      obtain ⟨hbook, hpending⟩ := reconciledState_of_rejected hheard hrejected (callAfter bridge phoneBookKey book as₁)
      refine ⟨fun key => ?_, hpending⟩
      rw [emailOf_process, hbook]
    · intro text hheard
      have hmem : Action.turn turn ∈ as₁ ++ .turn turn :: as₂ := List.mem_append_right _ List.mem_cons_self
      exact (confirmed_of_spells_iff text).mpr (h turn hmem text hheard)
    · intro text hheard phrase hphrase hspells
      exact rejected_of_spells hphrase hspells

/-! ### A confirmation that is not taken -/

/-- The caller confirms the candidate with the phrase that has an apostrophe: it stays pending, and no address is kept. -/
theorem apostrophe_not_taken :
    let asked := workingTurn "My email is ada@example.org." { email := some "Ada@Example.org" }
    let confirming := workingTurn "That's right." {}
    Spells "that's right" "That's right." ∧
    (callAfter standaloneBridge (some "61") .default [.turn asked, .turn confirming]).pendingEmailConfirmation =
      some "ada@example.org" ∧
    emailOf (callAfter standaloneBridge (some "61") .default [.turn asked, .turn confirming]).phoneBook "61" = none ∧
    ¬ EmailGuarded standaloneBridge (some "61") .default [.turn asked] confirming := by
  intro asked confirming
  have hspells : Spells "that's right" "That's right." :=
    ⟨[], ['.'], by decide +kernel, fun c hc => absurd hc List.not_mem_nil, fun c hc => by
      obtain rfl := Option.some.inj hc
      decide⟩
  refine ⟨hspells, by decide +kernel, by decide +kernel, fun h => ?_⟩
  have hconfirmed := h.confirmation_spelled "That's right." (by decide +kernel) "that's right" (by decide +kernel) hspells
  rw [not_confirmed_of_spells hspells] at hconfirmed
  cases hconfirmed

end AgentVoice.Turns

import AgentVoice.Turns.Farewells
import AgentVoice.Turns.Turn

/-!
# The end of a call

How a call comes to its end: the plan that the model has made is sanitised in `src/openai.rs`, and the turn decides in
`src/service.rs` whether the call ends after the answer. The matchers are written in both files and are the same, but for
the count that is asked for before the end. The turn ends no call without a farewell; the sanitised plan itself may, where
the caller has asked about languages (`endsAfterFarewell_iff`).
-/

namespace AgentVoice.Turns

open AgentVoice.Foundations

/-- `TurnPlan`. -/
structure TurnPlan where
  say : String
  endCall : Bool
  deriving DecidableEq, Repr

/-- `latest_caller_text`. -/
def latestCallerText (transcript : List TranscriptEvent) : String :=
  ((transcript.reverse.find? fun event => event.role = "caller" ∧ event.kind = "caller.transcript.completed").map
    TranscriptEvent.text).getD ""

/-- Whether the text, in lower case, contains one of some words. -/
def mentions (words : List String) (text : String) : Bool :=
  words.any fun word => containsChars (lowercaseChars text.toList) word.toList

/-- `looks_like_language_comment`. -/
def looksLikeLanguageComment : String → Bool := mentions
  ["switching languages", "another language", "different language", "what language", "which language",
    "language you prefer"]

/-- `caller_explicitly_discussed_language`. -/
def callerExplicitlyDiscussedLanguage : String → Bool := mentions
  ["language", "english", "korean", "japanese", "mandarin", "cantonese", "spanish", "french", "german", "arabic",
    "italian", "portuguese", "hindi", "vietnamese", "thai", "speak ", "translation"]

/-- `requested_count_before_hangup` of `src/openai.rs`. -/
def requestedCountBeforeEnd (text : String) : Option ℕ :=
  let normalized := normalizeMatchText text
  if containsChars normalized.toList "count to".toList && callerRequestedEndCall normalized then
    countTo (splitWhitespace normalized)
  else none

/-- `response_mentions_requested_count`. -/
def responseMentionsRequestedCount (text : String) (limit : ℕ) : Bool :=
  let normalized := (normalizeMatchText text).toList
  let spoken := String.intercalate " " (countWords limit)
  let numeric := String.intercalate " " ((List.range limit).map fun value => toString (value + 1))
  containsChars normalized spoken.toList || containsChars normalized numeric.toList

/-- `counted_final_farewell`. -/
def countedFinalFarewell (limit : ℕ) : String := String.intercalate ", " (countWords limit) ++ ", see you later."

/-- `sanitize_turn_plan`. -/
def sanitizeTurnPlan (plan : TurnPlan) (transcript : List TranscriptEvent) : TurnPlan :=
  let latestCallerText := latestCallerText transcript
  if looksLikeLanguageComment plan.say then
    if callerExplicitlyDiscussedLanguage latestCallerText then plan
    else ⟨"Sorry, I didn't quite catch that. Could you say that again?", false⟩
  else
    let say := trim plan.say
    if callerRequestedEndCall latestCallerText then
      match requestedCountBeforeEnd latestCallerText with
      | some limit =>
        if responseMentionsRequestedCount say limit then ⟨finalizeEndCallResponse say, true⟩
        else ⟨countedFinalFarewell limit, true⟩
      | none => ⟨finalizeEndCallResponse say, true⟩
    else if plan.endCall && !looksLikeFinalFarewell say then ⟨say, false⟩
    else plan

/-- What a turn says, and whether the call ends after it. -/
structure Decision where
  responseText : String
  shouldEndCall : Bool
  deriving DecidableEq, Repr

/-- The decision of `process_detected_utterance` where there is no voice model. -/
def endCallDecision (bridge : Bridge) (text : Option String) (reply : ResponseResult) (endCall : Bool) : Decision :=
  match if bridge.autoEndCalls then text.bind fastPathEndCallResponse else none with
  | some response => ⟨response, true⟩
  | none =>
    let responseText := spokenText bridge text reply
    let callerRequested := (text.map callerRequestedEndCall).getD false
    let modelRequested := endCall && bridge.autoEndCalls
    ⟨responseText, bridge.autoEndCalls && (callerRequested || (modelRequested && looksLikeFinalFarewell responseText))⟩

/-- The decision of a turn whose model has made a plan. -/
def decisionOfPlan (bridge : Bridge) (text : Option String) (plan : TurnPlan) (transcript : List TranscriptEvent)
    (output : String) (responseId : Option String) : Decision :=
  let plan := sanitizeTurnPlan plan transcript
  endCallDecision bridge text ⟨output, plan.say, responseId⟩ plan.endCall

/-- The call ends after a farewell, and it does end where the caller asks for it. -/
structure EndsAfterFarewell (bridge : Bridge) (text : Option String) (plan : TurnPlan)
    (transcript : List TranscriptEvent) : Prop where
  ended : ∀ output responseId, (decisionOfPlan bridge text plan transcript output responseId).shouldEndCall = true →
    looksLikeFinalFarewell (decisionOfPlan bridge text plan transcript output responseId).responseText = true
  obeyed : ∀ output responseId, (∃ caller ∈ text, callerRequestedEndCall caller = true) →
    (decisionOfPlan bridge text plan transcript output responseId).shouldEndCall = true
  idempotent : ∀ answer, finalizeEndCallResponse (finalizeEndCallResponse answer) = finalizeEndCallResponse answer
  planned : (sanitizeTurnPlan plan transcript).endCall = true →
    looksLikeFinalFarewell (sanitizeTurnPlan plan transcript).say = true

/-! ### The decision -/

/-- What is said at once to a caller who asks to hang up is a farewell. -/
theorem looksLikeFinalFarewell_of_fastPath {text response : String} (h : fastPathEndCallResponse text = some response) :
    looksLikeFinalFarewell response = true := by
  have hcounted : ∀ limit, looksLikeFinalFarewell (String.intercalate ", " (countWords limit) ++ ", bye.") = true :=
    fun limit => looksLikeFinalFarewell_of_tail (.inr (by decide)) _
  have hokay : looksLikeFinalFarewell "Okay, bye." = true := by decide +kernel
  unfold fastPathEndCallResponse at h
  cases hcount : requestedCountBeforeHangup text with
  | some limit =>
    rw [hcount] at h
    have hresponse := Option.some.inj h
    rw [← hresponse]
    exact hcounted limit
  | none =>
    rw [hcount] at h
    simp only at h
    split_ifs at h
    have hresponse := Option.some.inj h
    rw [← hresponse]
    exact hokay

theorem looksLikeFinalFarewell_countedFinalFarewell (limit : ℕ) :
    looksLikeFinalFarewell (countedFinalFarewell limit) = true :=
  looksLikeFinalFarewell_of_tail (.inl (by decide)) _

/-- **The turn ends a call after a farewell only**, whatever the model has planned. -/
theorem looksLikeFinalFarewell_of_shouldEndCall {bridge : Bridge} {text : Option String} {reply : ResponseResult}
    {endCall : Bool} (h : (endCallDecision bridge text reply endCall).shouldEndCall = true) :
    looksLikeFinalFarewell (endCallDecision bridge text reply endCall).responseText = true := by
  simp only [endCallDecision] at h ⊢
  split at h
  · rename_i response hresponse
    split_ifs at hresponse
    obtain ⟨caller, -, hfast⟩ := Option.bind_eq_some_iff.mp hresponse
    exact looksLikeFinalFarewell_of_fastPath hfast
  · simp only [Bool.and_eq_true, Bool.or_eq_true] at h
    dsimp only
    obtain ⟨hauto, hcaller | ⟨-, hfarewell⟩⟩ := h
    · -- what is said to a caller who asks for the end is closed
      have hspoken : spokenText bridge text reply = finalizeEndCallResponse (trim reply.text) := by
        rw [spokenText, hauto, hcaller]
        exact if_pos rfl
      rw [hspoken]
      exact looksLikeFinalFarewell_finalizeEndCallResponse (trim reply.text)
    · exact hfarewell

/-- **The turn ends the call where the caller asks for it.** -/
theorem shouldEndCall_of_callerRequestedEndCall {bridge : Bridge} (hauto : bridge.autoEndCalls = true) {text : Option String}
    (h : ∃ caller ∈ text, callerRequestedEndCall caller = true) (reply : ResponseResult) (endCall : Bool) :
    (endCallDecision bridge text reply endCall).shouldEndCall = true := by
  obtain ⟨caller, rfl, hcaller⟩ := h
  simp only [endCallDecision]
  split
  · rfl
  · simp [hauto, hcaller]

/-! ### The plan -/

/-- The plan is left as it is, although it ends the call without a farewell. -/
def KeepsBarePlan (plan : TurnPlan) (transcript : List TranscriptEvent) : Prop :=
  plan.endCall = true ∧ looksLikeFinalFarewell plan.say = false ∧ looksLikeLanguageComment plan.say = true ∧
    callerExplicitlyDiscussedLanguage (latestCallerText transcript) = true

theorem looksLikeFinalFarewell_trim (text : String) : looksLikeFinalFarewell (trim text) = looksLikeFinalFarewell text :=
  containsPhrase_trim _ text

/-- **A sanitised plan ends the call after a farewell**, unless it is left as it is. -/
theorem sanitizeTurnPlan_iff (plan : TurnPlan) (transcript : List TranscriptEvent) :
    ((sanitizeTurnPlan plan transcript).endCall = true →
        looksLikeFinalFarewell (sanitizeTurnPlan plan transcript).say = true) ↔ ¬ KeepsBarePlan plan transcript := by
  by_cases hcomment : looksLikeLanguageComment plan.say = true
  · by_cases hdiscussed : callerExplicitlyDiscussedLanguage (latestCallerText transcript) = true
    · have hself : sanitizeTurnPlan plan transcript = plan := by
        simp only [sanitizeTurnPlan]
        rw [if_pos hcomment, if_pos hdiscussed]
      rw [hself]
      constructor
      · rintro h ⟨hend, hbare, -, -⟩
        exact Bool.noConfusion ((h hend).symm.trans hbare)
      · intro h hend
        by_contra hbare
        exact h ⟨hend, by simpa using hbare, hcomment, hdiscussed⟩
    · have hasks : (sanitizeTurnPlan plan transcript).endCall = false := by
        simp only [sanitizeTurnPlan]
        rw [if_pos hcomment, if_neg hdiscussed]
      rw [hasks]
      exact iff_of_true (fun h => Bool.noConfusion h) fun h => hdiscussed h.2.2.2
  · refine iff_of_true ?_ fun h => hcomment h.2.2.1
    simp only [sanitizeTurnPlan]
    rw [if_neg hcomment]
    split_ifs with hcaller hbare
    · have hclosed : looksLikeFinalFarewell (finalizeEndCallResponse (trim plan.say)) = true :=
        looksLikeFinalFarewell_finalizeEndCallResponse _
      cases requestedCountBeforeEnd (latestCallerText transcript) with
      | some limit =>
        simp only
        split_ifs
        · intro _
          dsimp only
          exact hclosed
        · intro _
          dsimp only
          exact looksLikeFinalFarewell_countedFinalFarewell limit
      | none =>
        intro _
        dsimp only
        exact hclosed
    · intro hend
      simp only at hend
    · intro hend
      by_contra hnot
      rw [hend, looksLikeFinalFarewell_trim] at hbare
      simp [hnot] at hbare

/-- **A call is ended after a farewell only, unless the plan of the model is left as it is.** -/
theorem endsAfterFarewell_iff (bridge : Bridge) (text : Option String) (plan : TurnPlan)
    (transcript : List TranscriptEvent) :
    EndsAfterFarewell { bridge with voice := none, autoEndCalls := true } text plan transcript ↔
      ¬ (plan.endCall = true ∧ looksLikeFinalFarewell plan.say = false ∧ looksLikeLanguageComment plan.say = true ∧
        callerExplicitlyDiscussedLanguage (latestCallerText transcript) = true) := by
  rw [← KeepsBarePlan, ← sanitizeTurnPlan_iff]
  constructor
  · exact fun h => h.planned
  · intro hplanned
    refine ⟨fun _ _ => looksLikeFinalFarewell_of_shouldEndCall, fun _ _ h => ?_, finalizeEndCallResponse_idempotent, hplanned⟩
    exact shouldEndCall_of_callerRequestedEndCall rfl h _ _

/-- The plan of a model that is asked for a language and hangs up is not closed. -/
theorem not_endsAfterFarewell : ¬ ∀ (bridge : Bridge) (text : Option String) (plan : TurnPlan)
    (transcript : List TranscriptEvent),
    EndsAfterFarewell { bridge with voice := none, autoEndCalls := true } text plan transcript := by
  intro h
  have hplanned := (h standaloneBridge none ⟨"Sure, we can use another language.", true⟩
    [.caller "Do you speak Korean?"]).planned
  exact absurd (hplanned (by decide +kernel)) (by decide +kernel)

end AgentVoice.Turns

import AgentVoice.Turns.MatchText

/-!
# Requests to end a call

Whether a caller asks to end the call, what is said at once to a caller who asks to hang up, and how the last answer of a
call is closed.
-/

namespace AgentVoice.Turns

open AgentVoice.Foundations

/-- Whether the normalised text contains one of some phrases. -/
def containsPhrase (phrases : List String) (text : String) : Bool :=
  phrases.any fun phrase => containsChars (normalizeMatchText text).toList phrase.toList

/-- `caller_requested_end_call`. -/
def callerRequestedEndCall : String → Bool := containsPhrase
  ["goodbye", "good bye", "bye", "bye bye", "see you", "see ya", "catch you later", "talk to you later", "that s all",
    "that is all", "nothing else", "hang up", "hanging up", "hangup", "disconnect", "end the call", "drop the call"]

/-- `caller_requested_immediate_hangup`. -/
def callerRequestedImmediateHangup : String → Bool := containsPhrase
  ["hang up", "hanging up", "hangup", "disconnect", "end the call", "drop the call"]

/-- `looks_like_final_farewell`. -/
def looksLikeFinalFarewell : String → Bool := containsPhrase
  ["goodbye", "good bye", "bye", "see you", "see ya", "take care", "have a good", "have a great", "talk soon",
    "catch you later", "call back", "thanks for calling", "no worries bye"]

/-- `looks_like_clarification_request`. -/
def looksLikeClarificationRequest : String → Bool := containsPhrase
  ["could you say that again", "can you say that again", "could you repeat that", "can you repeat that",
    "i didn t catch that", "i did not catch that", "pardon", "sorry"]

/-! ### Counting before the call ends -/

/-- `parse_count_word`. -/
def parseCountWord : String → Option ℕ
  | "1" | "one" => some 1
  | "2" | "two" => some 2
  | "3" | "three" => some 3
  | "4" | "four" => some 4
  | "5" | "five" => some 5
  | "6" | "six" => some 6
  | "7" | "seven" => some 7
  | "8" | "eight" => some 8
  | "9" | "nine" => some 9
  | "10" | "ten" => some 10
  | _ => none

/-- `count_words`. -/
def countWords (limit : ℕ) : List String :=
  ["one", "two", "three", "four", "five", "six", "seven", "eight", "nine", "ten"].take limit

/-- The loop over three words: `count to` and a number. -/
def countTo : List String → Option ℕ
  | first :: second :: third :: rest =>
    (if first = "count" ∧ second = "to" then parseCountWord third else none).or (countTo (second :: third :: rest))
  | _ => none

/-- The loop over two words: `count` and a number. -/
def countOf : List String → Option ℕ
  | first :: second :: rest =>
    (if first = "count" then parseCountWord second else none).or (countOf (second :: rest))
  | _ => none

/-- `str::split_whitespace`. -/
def splitWhitespace (text : String) : List String :=
  ((text.toList.splitOnP isWhitespace).filter fun part => !part.isEmpty).map String.ofList

/-- `requested_count_before_hangup`. -/
def requestedCountBeforeHangup (text : String) : Option ℕ :=
  let normalized := normalizeMatchText text
  if callerRequestedImmediateHangup normalized then
    let tokens := splitWhitespace normalized
    (countTo tokens).or (countOf tokens)
  else none

/-- `fast_path_end_call_response`. -/
def fastPathEndCallResponse (text : String) : Option String :=
  match requestedCountBeforeHangup text with
  | some limit => some (String.intercalate ", " (countWords limit) ++ ", bye.")
  | none => if callerRequestedImmediateHangup text then some "Okay, bye." else none

/-! ### The last answer -/

/-- `default_final_farewell`. -/
def defaultFinalFarewell : String := "Okay, no worries. See you later."

/-- `finalize_end_call_response`. -/
def finalizeEndCallResponse (text : String) : String :=
  let trimmed := trim text
  if trimmed = "" ∨ looksLikeClarificationRequest trimmed then defaultFinalFarewell
  else if looksLikeFinalFarewell trimmed then trimmed
  else if ['.', '!', '?'].any fun mark => trimmed.toList.getLast? = some mark then trimmed ++ " See you later."
  else trimmed ++ ". See you later."

end AgentVoice.Turns

import AgentVoice.Foundations.Json

/-!
# Token usage

The token counts of a provider's usage object. Providers name the counts differently; `extractUsage` reads the
first name it finds, and derives a text count from a total where only the total is given.
-/

namespace AgentVoice.Accounting

open AgentVoice.Foundations

/-- `TokenUsage`. -/
structure TokenUsage where
  inputTextTokens : ℕ
  cachedInputTextTokens : ℕ
  outputTextTokens : ℕ
  inputAudioTokens : ℕ
  outputAudioTokens : ℕ
  deriving DecidableEq, Repr

/-- `value_u64`: a negative integer is taken modulo `2 ^ 64`. -/
def valueU64 (value : Option Json) : Option ℕ :=
  (value.bind Json.asU64).or ((value.bind Json.asI64).map fun n => (n % 2 ^ 64).toNat)

/-- `extract_usage`. -/
def extractUsage (payload : Json) : TokenUsage :=
  let usage := (payload.get "usage").getD (.obj [])
  let inputDetails :=
    ((usage.get "input_token_details").or (usage.get "input_tokens_details")).or (usage.get "prompt_tokens_details")
  let outputDetails :=
    ((usage.get "output_token_details").or (usage.get "output_tokens_details")).or
      (usage.get "completion_tokens_details")
  let inputAudioTokens :=
    ((valueU64 (inputDetails.bind (Json.get "audio_tokens"))).or
      (valueU64 ((usage.get "input_audio_tokens").or (usage.get "audio_input_tokens")))).getD 0
  let outputAudioTokens :=
    ((valueU64 (outputDetails.bind (Json.get "audio_tokens"))).or
      (valueU64 ((usage.get "output_audio_tokens").or (usage.get "audio_output_tokens")))).getD 0
  let inputTextTokens :=
    ((valueU64 (inputDetails.bind (Json.get "text_tokens"))).or
      ((valueU64 ((usage.get "input_tokens").or (usage.get "prompt_tokens"))).map (· - inputAudioTokens))).getD 0
  let cachedInputTextTokens :=
    ((valueU64 (inputDetails.bind (Json.get "cached_tokens"))).or
      (valueU64 ((usage.get "input_cached_tokens").or (usage.get "cached_input_tokens")))).getD 0
  let outputTextTokens :=
    ((valueU64 (outputDetails.bind (Json.get "text_tokens"))).or
      ((valueU64 ((usage.get "output_tokens").or (usage.get "completion_tokens"))).map (· - outputAudioTokens))).getD 0
  { inputTextTokens, cachedInputTextTokens, outputTextTokens, inputAudioTokens, outputAudioTokens }

end AgentVoice.Accounting

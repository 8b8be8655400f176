import AgentVoice.Accounting.Usage

/-!
# The model catalog

The prices of the models, for a million tokens each, and what a usage costs at them. Prices and costs are of a type
of their own: `computeCost` is over any type with the operations it uses, and nothing here depends on how they round.
-/

namespace AgentVoice.Accounting

variable {F : Type}

/-- `ModelPricing`. -/
structure ModelPricing (F : Type) where
  name : String
  service : String
  inputTextUsdPerMillionTokens : F
  cachedInputTextUsdPerMillionTokens : F
  outputTextUsdPerMillionTokens : F
  inputAudioUsdPerMillionTokens : F
  outputAudioUsdPerMillionTokens : F
  estimatedCharsPerInputToken : Option F
  estimatedInputAudioTokensPerSecond : Option F
  estimatedOutputAudioTokensPerSecond : Option F
  deriving DecidableEq

/-- `ModelCatalogDefaults`. -/
structure ModelCatalogDefaults (F : Type) where
  estimatedCharsPerInputToken : F
  estimatedInputAudioTokensPerSecond : Option F
  estimatedOutputAudioTokensPerSecond : Option F
  deriving DecidableEq

/-- `ModelCatalog`. -/
structure ModelCatalog (F : Type) where
  defaults : ModelCatalogDefaults F
  models : List (ModelPricing F)
  deriving DecidableEq

/-- `AccountingStore::model_pricing`: the first model of the name. -/
def ModelCatalog.modelPricing (catalog : ModelCatalog F) (model : String) : Option (ModelPricing F) :=
  catalog.models.find? fun candidate => candidate.name == model

namespace TokenUsage

/-- `total_tokens`, before it is held to 64 bits. -/
def totalTokens (usage : TokenUsage) : ℕ :=
  usage.inputTextTokens + usage.outputTextTokens + usage.inputAudioTokens + usage.outputAudioTokens

/-- The input text that `compute_cost` takes to be uncached. -/
def uncachedInputText (usage : TokenUsage) : ℕ := usage.inputTextTokens - usage.cachedInputTextTokens

/-- The tokens that `compute_cost` multiplies by the prices of the input. -/
def billedInput (usage : TokenUsage) : ℕ :=
  usage.uncachedInputText + usage.cachedInputTextTokens + usage.inputAudioTokens

/-- The tokens that `compute_cost` multiplies by the prices of the output. -/
def billedOutput (usage : TokenUsage) : ℕ := usage.outputTextTokens + usage.outputAudioTokens

end TokenUsage

/-- `AccountingStore::compute_cost`. -/
def ModelCatalog.computeCost [Zero F] [Add F] [Mul F] [Div F] [NatCast F] (catalog : ModelCatalog F) (model : String)
    (usage : TokenUsage) : F :=
  match catalog.modelPricing model with
  | none => 0
  | some pricing =>
    (usage.uncachedInputText : F) * pricing.inputTextUsdPerMillionTokens / (1000000 : ℕ) +
      (usage.cachedInputTextTokens : F) * pricing.cachedInputTextUsdPerMillionTokens / (1000000 : ℕ) +
      (usage.outputTextTokens : F) * pricing.outputTextUsdPerMillionTokens / (1000000 : ℕ) +
      (usage.inputAudioTokens : F) * pricing.inputAudioUsdPerMillionTokens / (1000000 : ℕ) +
      (usage.outputAudioTokens : F) * pricing.outputAudioUsdPerMillionTokens / (1000000 : ℕ)

end AgentVoice.Accounting

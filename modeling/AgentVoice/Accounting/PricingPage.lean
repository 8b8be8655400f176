import AgentVoice.Accounting.Catalog
import AgentVoice.Foundations.SortedMap
import AgentVoice.Foundations.AsciiText
import AgentVoice.Turns.EndCall
import Mathlib

/-!
# The pricing page

`scrape_model_catalog_from_html` reads the lines of a pricing page. Headings say which section a line is in. In the
transcription section a row of a table takes four lines, the name of a model, two prices and a price per minute; outside
of it a row is one line, a name and prices. `merge_catalogs` writes the prices it has read into the catalog.

The lines are those that the HTML reader yields, in a list. Prices are of a type of their own with a zero and a reader.
-/

namespace AgentVoice.Accounting

open AgentVoice.Foundations
open AgentVoice.Turns (splitWhitespace)

variable {F : Type}

/-- What is used of the numbers that prices are: zero, `str::parse`, and `default_chars_per_token`. -/
structure PriceFormat (F : Type) where
  zero : F
  defaultCharsPerToken : F
  parse : String → Option F

/-- `ModelCatalogDefaults::default`. -/
def PriceFormat.catalogDefaults (format : PriceFormat F) : ModelCatalogDefaults F where
  estimatedCharsPerInputToken := format.defaultCharsPerToken
  estimatedInputAudioTokensPerSecond := none
  estimatedOutputAudioTokensPerSecond := none

/-! ### Lines -/

/-- `looks_like_model_name`. -/
def looksLikeModelName (value : String) : Bool :=
  containsChars value.toList "gpt".toList || startsWith value.toList "o1".toList || startsWith value.toList "o3".toList ||
    startsWith value.toList "o4".toList

/-- `is_price_token`. -/
def isPriceToken (value : String) : Bool := startsWith value.toList ['$'] || value == "*"

/-- `parse_price`. -/
def parsePrice (format : PriceFormat F) (value : String) : Option F :=
  let unprefixed := if startsWith value.toList ['$'] then value.toList.tail else value.toList
  (splitWhitespace (String.ofList unprefixed)).head?.bind fun token =>
    format.parse (String.ofList (token.toList.rdropWhile (· == '/')))

/-- A character of a price in a row of one line. -/
def isPriceChar (c : Char) : Bool := c.isDigit || c == '.'

/-- The prices of a row of one line, from its first dollar sign: a number behind each dollar sign, none for a dash. -/
def concatenatedPrices (format : PriceFormat F) : List Char → List (Option F)
  | [] => []
  | c :: cs =>
    -- What is read behind a dollar sign holds neither mark, so that it is passed over character by character.
    if c = '$' then format.parse (String.ofList (cs.takeWhile isPriceChar)) :: concatenatedPrices format cs
    else if c = '-' then none :: concatenatedPrices format cs
    else concatenatedPrices format cs

/-- `parse_concatenated_pricing_row`. -/
def parseConcatenatedPricingRow (format : PriceFormat F) (line : String) : Option (String × List (Option F)) :=
  let priced := line.toList.dropWhile (· != '$')
  let model := trim (String.ofList (line.toList.takeWhile (· != '$')))
  if priced = [] then none
  else if looksLikeModelName model then some (model, concatenatedPrices format priced)
  else none

/-- `token_section`. -/
inductive TokenSection where
  | neither
  | text
  | audio
  deriving DecidableEq

/-- The section that the headings have led to. -/
structure PageFlags where
  inTranscriptionSection : Bool
  tokenSection : TokenSection
  deriving DecidableEq

namespace PageFlags

/-- The flags before the first line. -/
def initial : PageFlags := ⟨false, .neither⟩

/-- The flags after a line. -/
def heading (flags : PageFlags) (line : String) : PageFlags :=
  if line = "Transcription and speech generation" then ⟨true, .neither⟩
  else if (line = "Image tokens" ∨ line = "Image generation" ∨ line = "Built-in tools" ∨ line = "Web search") ∧
      flags.inTranscriptionSection = true then ⟨false, .neither⟩
  else if line = "Text tokens" then { flags with tokenSection := .text }
  else if line = "Audio tokens" then { flags with tokenSection := .audio }
  else flags

end PageFlags

/-- The two cells behind the name of a model. -/
def tableCells : List String → Option (String × String)
  | input :: output :: _ =>
    if (isPriceToken input || input == "*") && (isPriceToken output || output == "*") then some (input, output) else none
  | _ => none

/-- The cells of a line that is a row of a table: the name of a model in the transcription section, with prices behind. -/
def tableRow (flags : PageFlags) (line : String) (rest : List String) : Option (String × String) :=
  if flags.inTranscriptionSection && looksLikeModelName line then tableCells rest else none

/-- The name and the prices of a line that is a row by itself: in the text section, outside of the transcription
section, with three prices or more. -/
def oneLineRow (format : PriceFormat F) (flags : PageFlags) (line : String) :
    Option (String × Option F × Option F × Option F) :=
  if flags.tokenSection = .text ∧ flags.inTranscriptionSection = false then
    match parseConcatenatedPricingRow format line with
    | some (modelName, input :: cached :: output :: _) => some (modelName, input, cached, output)
    | _ => none
  else none

/-! ### Scraping -/

namespace ModelPricing

/-- The record of a model before its prices are read. -/
def unpriced (format : PriceFormat F) (name service : String) : ModelPricing F where
  name := name
  service := service
  inputTextUsdPerMillionTokens := format.zero
  cachedInputTextUsdPerMillionTokens := format.zero
  outputTextUsdPerMillionTokens := format.zero
  inputAudioUsdPerMillionTokens := format.zero
  outputAudioUsdPerMillionTokens := format.zero
  estimatedCharsPerInputToken := none
  estimatedInputAudioTokensPerSecond := none
  estimatedOutputAudioTokensPerSecond := none

/-- The prices of a row of a table. -/
def withTableRow (section_ : TokenSection) (inputPrice outputPrice : F) (model : ModelPricing F) : ModelPricing F :=
  match section_ with
  | .text =>
    { model with inputTextUsdPerMillionTokens := inputPrice, outputTextUsdPerMillionTokens := outputPrice }
  | .audio =>
    { model with inputAudioUsdPerMillionTokens := inputPrice, outputAudioUsdPerMillionTokens := outputPrice }
  | .neither => model

/-- The prices of a row of one line. -/
def withPrices (input cached output : F) (model : ModelPricing F) : ModelPricing F :=
  { model with
    inputTextUsdPerMillionTokens := input
    cachedInputTextUsdPerMillionTokens := cached
    outputTextUsdPerMillionTokens := output }

end ModelPricing

/-- The models that have been read, by name. -/
abbrev Models (F : Type) := SortedMap String (ModelPricing F)

/-- The loop's body: the models after a line with the lines behind it, and how many of these it takes with it. -/
def scrapeLine (format : PriceFormat F) (flags : PageFlags) (models : Models F) (line : String) (rest : List String) :
    Models F × ℕ :=
  match tableRow flags line rest with
  | some (input, output) =>
    let service := if containsChars line.toList "tts".toList then "tts" else "transcription"
    let inputPrice := (parsePrice format input).getD format.zero
    let outputPrice := (parsePrice format output).getD format.zero
    (models.upsert line fun model =>
      (model.getD (.unpriced format line service)).withTableRow flags.tokenSection inputPrice outputPrice, 3)
  | none =>
    match oneLineRow format flags line with
    | some (modelName, input, cached, output) =>
      (models.upsert modelName fun model =>
        (model.getD (.unpriced format modelName "responses")).withPrices (input.getD format.zero)
          (cached.getD format.zero) (output.getD format.zero), 0)
    | none => (models, 0)

/-- The loop of `scrape_model_catalog_from_html`; the number is of lines still to be passed over. -/
def scrapeLines (format : PriceFormat F) : ℕ → PageFlags → Models F → List String → Models F
  | _, _, models, [] => models
  | skip + 1, flags, models, _ :: rest => scrapeLines format skip flags models rest
  | 0, flags, models, line :: rest =>
    let flags := flags.heading line
    let scraped := scrapeLine format flags models line rest
    scrapeLines format scraped.2 flags scraped.1 rest

/-- `scrape_model_catalog_from_html`, from the lines of the page. -/
def scrapeModelCatalog (format : PriceFormat F) (lines : List String) : Except String (ModelCatalog F) :=
  let models := scrapeLines format 0 .initial .empty lines
  if models.entries.isEmpty then .error "pricing page scrape did not yield any models"
  else .ok { defaults := format.catalogDefaults, models := models.values }

/-! ### Merging -/

/-- What a scraped model changes of a model there is. -/
def ModelPricing.overwrite (scraped existing : ModelPricing F) : ModelPricing F :=
  { existing with
    service := scraped.service
    inputTextUsdPerMillionTokens := scraped.inputTextUsdPerMillionTokens
    cachedInputTextUsdPerMillionTokens := scraped.cachedInputTextUsdPerMillionTokens
    outputTextUsdPerMillionTokens := scraped.outputTextUsdPerMillionTokens
    inputAudioUsdPerMillionTokens := scraped.inputAudioUsdPerMillionTokens
    outputAudioUsdPerMillionTokens := scraped.outputAudioUsdPerMillionTokens }

/-- The models of a catalog, by name. -/
def ModelCatalog.byName (catalog : ModelCatalog F) : Models F :=
  .ofEntries (catalog.models.map fun model => (model.name, model))

/-- The entry of a scraped model. -/
def mergeModel (scraped : ModelPricing F) : Option (ModelPricing F) → ModelPricing F
  | some existing => scraped.overwrite existing
  | none => scraped

/-- `merge_catalogs`. -/
def mergeCatalogs (format : PriceFormat F) (existing : Option (ModelCatalog F)) (scraped : ModelCatalog F) :
    ModelCatalog F :=
  let merged : Models F := (existing.map ModelCatalog.byName).getD .empty
  { defaults := (existing.map ModelCatalog.defaults).getD format.catalogDefaults
    models := (scraped.models.foldl (fun merged model => merged.upsert model.name (mergeModel model)) merged).values }

end AgentVoice.Accounting

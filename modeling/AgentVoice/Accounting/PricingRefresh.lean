import AgentVoice.Accounting.PricingPage

/-!
# A pricing refresh

`InventsNoPrice`: a refresh keeps the models of the catalog, its defaults and its estimation settings, and every price of
a model there was either stays as it was or is a price that a row of the page states for the model, under the section of
the price. What a page states is read off its headings and rows (`OnPage`), without regard to how the scraper proceeds.

A model that the scraper lists at all has all five prices overwritten, those that no row gives with zero, and the scraper
passes over the line behind a row of a table even where it is a heading. `inventsNoPrice_iff` says for which pages and
catalogs the property holds.
-/

namespace AgentVoice.Accounting

open AgentVoice.Foundations

variable {F : Type}

/-! ### What a page states -/

/-- The five prices of a model. -/
inductive PriceKind where
  | inputText
  | cachedInputText
  | outputText
  | inputAudio
  | outputAudio

/-- A price of a model. -/
def ModelPricing.price (model : ModelPricing F) : PriceKind → F
  | .inputText => model.inputTextUsdPerMillionTokens
  | .cachedInputText => model.cachedInputTextUsdPerMillionTokens
  | .outputText => model.outputTextUsdPerMillionTokens
  | .inputAudio => model.inputAudioUsdPerMillionTokens
  | .outputAudio => model.outputAudioUsdPerMillionTokens

/-- A row of a page: its section, and what its cells give, where it has them. -/
structure Row (F : Type) where
  model : String
  tokenSection : TokenSection
  input : Option F
  cached : Option (Option F)
  output : Option F

/-- The cell of a row for a price, where the row is under the section of the price. -/
def Row.cell (row : Row F) : PriceKind → Option (Option F)
  | .inputText => if row.tokenSection = .text then some row.input else none
  | .cachedInputText => if row.tokenSection = .text then row.cached else none
  | .outputText => if row.tokenSection = .text then some row.output else none
  | .inputAudio => if row.tokenSection = .audio then some row.input else none
  | .outputAudio => if row.tokenSection = .audio then some row.output else none

/-- The section of the line behind some lines, by all the headings among them. -/
def flagsAfter (lines : List String) : PageFlags := lines.foldl PageFlags.heading .initial

/-- A line is a row, with the lines behind it: of a table in the transcription section, of one line outside of it. -/
inductive RowAt (format : PriceFormat F) (flags : PageFlags) (line : String) (rest : List String) : Row F → Prop
  | table {input output : String} (hsection : flags.inTranscriptionSection = true)
    (hname : looksLikeModelName line = true) (hcells : tableCells rest = some (input, output)) :
    RowAt format flags line rest
      ⟨line, flags.tokenSection, parsePrice format input, none, parsePrice format output⟩
  | oneLine {model : String} {input cached output : Option F} {others : List (Option F)}
    (hsection : flags.inTranscriptionSection = false)
    (hrow : parseConcatenatedPricingRow format line = some (model, input :: cached :: output :: others)) :
    RowAt format flags line rest ⟨model, flags.tokenSection, input, some cached, output⟩

/-- A page has a row. -/
def OnPage (format : PriceFormat F) (lines : List String) (row : Row F) : Prop :=
  ∃ before line rest, lines = before ++ line :: rest ∧ RowAt format (flagsAfter (before ++ [line])) line rest row

/-- A row of the page states a price for a model, under the section of the price. -/
def StatesPrice (format : PriceFormat F) (lines : List String) (name : String) (kind : PriceKind) (price : F) : Prop :=
  ∃ row, OnPage format lines row ∧ row.model = name ∧ row.cell kind = some (some price)

/-! ### The property -/

/-- Two records of a model have the same settings of the estimation. -/
structure SameEstimation (model model' : ModelPricing F) : Prop where
  charsPerInputToken : model'.estimatedCharsPerInputToken = model.estimatedCharsPerInputToken
  inputAudio : model'.estimatedInputAudioTokensPerSecond = model.estimatedInputAudioTokensPerSecond
  outputAudio : model'.estimatedOutputAudioTokensPerSecond = model.estimatedOutputAudioTokensPerSecond

/-- A refresh invents no price. -/
structure InventsNoPrice (format : PriceFormat F) (lines : List String) (catalog merged : ModelCatalog F) : Prop where
  defaults : merged.defaults = catalog.defaults
  names : (merged.models.map ModelPricing.name).Nodup
  /-- Every model is kept with its settings, and its prices stay or are stated. -/
  models : ∀ model ∈ catalog.models, ∃ model' ∈ merged.models, model'.name = model.name ∧ SameEstimation model model' ∧
    ∀ kind, model'.price kind = model.price kind ∨ StatesPrice format lines model.name kind (model'.price kind)

/-! ### The condition -/

/-- The row that the scraper takes a line for, with the lines behind it, and how many of these it takes with it. -/
def readRow (format : PriceFormat F) (flags : PageFlags) (line : String) (rest : List String) : Option (Row F × ℕ) :=
  match tableRow flags line rest with
  | some (input, output) =>
    some (⟨line, flags.tokenSection, parsePrice format input, none, parsePrice format output⟩, 3)
  | none =>
    match oneLineRow format flags line with
    | some (model, input, cached, output) => some (⟨model, .text, input, some cached, output⟩, 0)
    | none => none

/-- The rows of a page as the scraper reads them, where some lines are to be passed over. -/
def readRows (format : PriceFormat F) : ℕ → PageFlags → List String → List (Row F)
  | _, _, [] => []
  | skip + 1, flags, _ :: rest => readRows format skip flags rest
  | 0, flags, line :: rest =>
    let flags := flags.heading line
    match readRow format flags line rest with
    | some (row, skip) => row :: readRows format skip flags rest
    | none => readRows format 0 flags rest

/-- The rows of a page as the scraper reads them. -/
def rowsOf (format : PriceFormat F) (lines : List String) : List (Row F) := readRows format 0 .initial lines

/-- The cell of the last row that has one for a price of a model. -/
def lastCell (rows : List (Row F)) (name : String) (kind : PriceKind) : Option (Option F) :=
  (rows.filterMap fun row => if row.model = name then row.cell kind else none).getLast?

/-- What the page has for a price of a model that it lists: the last row for it gives a price that the page states under
the section of the price, or the price that the model has; or no price at all, and zero is stated or the price there
is. -/
inductive Settles (format : PriceFormat F) (lines : List String) (model : ModelPricing F) (kind : PriceKind) : Prop
  | stated {price : F} (hlast : lastCell (rowsOf format lines) model.name kind = some (some price))
    (h : StatesPrice format lines model.name kind price)
  | unchanged (hlast : lastCell (rowsOf format lines) model.name kind = some (some (model.price kind)))
  | zero (hlast : (lastCell (rowsOf format lines) model.name kind).join = none)
    (h : model.price kind = format.zero ∨ StatesPrice format lines model.name kind format.zero)

/-- Every price of every model of the catalog that the page lists is settled by the page. -/
def SettlesPrices (format : PriceFormat F) (lines : List String) (catalog : ModelCatalog F) : Prop :=
  ∀ model ∈ catalog.models, model.name ∈ (rowsOf format lines).map Row.model → ∀ kind, Settles format lines model kind

/-! ### Headings -/

section Headings

variable {format : PriceFormat F} {flags : PageFlags} {line : String} {rest lines : List String} {row : Row F}

theorem RowAt.tokenSection_eq (h : RowAt format flags line rest row) : row.tokenSection = flags.tokenSection := by
  cases h with
  | table => rfl
  | oneLine => rfl

theorem flagsAfter_concat (lines : List String) (line : String) :
    flagsAfter (lines ++ [line]) = (flagsAfter lines).heading line := by
  rw [flagsAfter, List.foldl_append]
  rfl

theorem heading_tokenSection (h : (flags.heading line).tokenSection = .audio) :
    line = "Audio tokens" ∨ flags.tokenSection = .audio := by
  rw [PageFlags.heading] at h
  split_ifs at h with _ _ _ haudio
  · exact .inl haudio
  · exact .inr h

/-- The audio section is only behind its heading. -/
theorem heading_mem (h : (flagsAfter lines).tokenSection = .audio) : "Audio tokens" ∈ lines := by
  induction lines using List.reverseRecOn with
  | nil => exact absurd h (by decide)
  | append_singleton lines line ih =>
    rw [flagsAfter_concat] at h
    obtain rfl | hbefore := heading_tokenSection h
    · exact List.mem_append_right lines List.mem_cons_self
    · exact List.mem_append_left [line] (ih hbefore)

/-- A page without an audio section states no audio price. -/
theorem StatesPrice.heading_mem {name : String} {kind : PriceKind} {price : F}
    (h : StatesPrice format lines name kind price) (hkind : kind = .inputAudio ∨ kind = .outputAudio) :
    "Audio tokens" ∈ lines := by
  obtain ⟨row, ⟨before, line, rest, rfl, hrow⟩, -, hcell⟩ := h
  have haudio : row.tokenSection = .audio := by
    obtain rfl | rfl := hkind
    · rw [Row.cell] at hcell
      exact of_not_not fun hne => absurd (hcell.symm.trans (if_neg hne)) (Option.some_ne_none _)
    · rw [Row.cell] at hcell
      exact of_not_not fun hne => absurd (hcell.symm.trans (if_neg hne)) (Option.some_ne_none _)
  rw [hrow.tokenSection_eq] at haudio
  have hmem := Accounting.heading_mem haudio
  rw [List.append_cons]
  exact List.mem_append_left rest hmem

end Headings

/-! ### What is scraped -/

/-- The price that rows leave to a model: of the last row for it, or zero. -/
def leftPrice (format : PriceFormat F) (rows : List (Row F)) (name : String) (kind : PriceKind) : F :=
  (lastCell rows name kind).join.getD format.zero

theorem lastCell_concat (rows : List (Row F)) (row : Row F) (name : String) (kind : PriceKind) :
    lastCell (rows ++ [row]) name kind =
      if row.model = name then (row.cell kind).or (lastCell rows name kind) else lastCell rows name kind := by
  rw [lastCell, List.filterMap_append]
  by_cases hname : row.model = name
  · rw [if_pos hname]
    rcases hcell : row.cell kind with - | cell
    · have hnone : [row].filterMap (fun row => if row.model = name then row.cell kind else none) = [] := by
        simp [hname, hcell]
      rw [hnone, List.append_nil, Option.none_or]
      rfl
    · have hsome : [row].filterMap (fun row => if row.model = name then row.cell kind else none) = [cell] := by
        simp [hname, hcell]
      rw [hsome, List.getLast?_concat, Option.some_or]
  · have hnone : [row].filterMap (fun row => if row.model = name then row.cell kind else none) = [] := by
      simp [hname]
    rw [hnone, List.append_nil, if_neg hname]
    rfl

/-- The models that rows have been read into: those the rows name, each with the prices that the rows leave to it. -/
structure Scraped (format : PriceFormat F) (rows : List (Row F)) (models : Models F) : Prop where
  named : ∀ name model, models.find name = some model → model.name = name
  listed : ∀ name, (∃ model, models.find name = some model) ↔ name ∈ rows.map Row.model
  prices : ∀ name model, models.find name = some model → ∀ kind, model.price kind = leftPrice format rows name kind

/-- What is done with the record of a model writes the cells of a row, and keeps the other prices. -/
structure Writes (format : PriceFormat F) (row : Row F) (f : Option (ModelPricing F) → ModelPricing F) : Prop where
  name : ∀ model?, (∀ model ∈ model?, model.name = row.model) → (f model?).name = row.model
  price : ∀ model? kind, (f model?).price kind =
    match row.cell kind with
    | some cell => cell.getD format.zero
    | none => (model?.map fun model => model.price kind).getD format.zero

theorem Scraped.empty (format : PriceFormat F) : Scraped format [] .empty where
  named _ _ h := absurd h.symm (Option.some_ne_none _)
  listed _ := ⟨fun ⟨_, h⟩ => absurd h.symm (Option.some_ne_none _), fun h => absurd h List.not_mem_nil⟩
  prices _ _ h := absurd h.symm (Option.some_ne_none _)

section Scrape

variable {format : PriceFormat F} {rows : List (Row F)} {models : Models F} {row : Row F}

/-- A row more. -/
theorem Scraped.concat (h : Scraped format rows models) {f : Option (ModelPricing F) → ModelPricing F}
    (hf : Writes format row f) : Scraped format (rows ++ [row]) (models.upsert row.model f) := by
  refine ⟨?_, ?_, ?_⟩
  · intro name model hfind
    rw [SortedMap.find_upsert] at hfind
    split at hfind
    next hname =>
      obtain rfl := Option.some.inj hfind
      rw [hname]
      exact hf.name _ fun model hmodel => h.named _ model hmodel
    next => exact h.named name model hfind
  · intro name
    rw [SortedMap.find_upsert, List.map_append, List.mem_append, List.map_singleton, List.mem_singleton, ← h.listed]
    by_cases hname : name = row.model
    · rw [if_pos hname]
      exact ⟨fun _ => .inr hname, fun _ => ⟨_, rfl⟩⟩
    · rw [if_neg hname]
      exact ⟨.inl, fun hmem => hmem.resolve_right hname⟩
  · intro name model hfind kind
    rw [SortedMap.find_upsert] at hfind
    rw [leftPrice, lastCell_concat]
    split at hfind
    next hname =>
      obtain rfl := Option.some.inj hfind
      rw [hf.price, if_pos hname.symm]
      rcases hcell : row.cell kind with - | cell
      · rw [Option.none_or]
        rcases hmodel : models.find row.model with - | model
        · have hunlisted : row.model ∉ rows.map Row.model := by
            intro hmem
            obtain ⟨model, hfound⟩ := (h.listed row.model).mpr hmem
            exact absurd (hfound.symm.trans hmodel) (Option.some_ne_none _)
          have hlast : lastCell rows name kind = none := by
            rw [lastCell, List.getLast?_eq_none_iff, List.filterMap_eq_nil_iff]
            intro other hother
            refine if_neg fun heq => hunlisted ?_
            rw [← hname, ← heq]
            exact List.mem_map_of_mem hother
          rw [hlast]
          rfl
        · rw [hname]
          exact h.prices _ model hmodel kind
      · rw [Option.some_or]
        rfl
    next hname =>
      rw [if_neg (Ne.symm hname)]
      exact h.prices name model hfind kind

theorem writes_tableRow (format : PriceFormat F) (line service : String) (tokenSection : TokenSection)
    (input output : Option F) :
    Writes format ⟨line, tokenSection, input, none, output⟩ fun model =>
      (model.getD (.unpriced format line service)).withTableRow tokenSection (input.getD format.zero)
        (output.getD format.zero) := by
  refine ⟨?_, ?_⟩
  · intro model? hname
    have hgetD : (model?.getD (.unpriced format line service)).name = line := by
      obtain - | model := model?
      · rfl
      · exact hname model rfl
    cases tokenSection <;> exact hgetD
  · intro model? kind
    cases tokenSection <;> cases kind <;> cases model? <;> rfl

theorem writes_oneLine (format : PriceFormat F) (name service : String) (input cached output : Option F) :
    Writes format ⟨name, .text, input, some cached, output⟩ fun model =>
      (model.getD (.unpriced format name service)).withPrices (input.getD format.zero) (cached.getD format.zero)
        (output.getD format.zero) := by
  refine ⟨?_, ?_⟩
  · intro model? hname
    obtain - | model := model?
    · rfl
    · exact hname model rfl
  · intro model? kind
    cases kind <;> cases model? <;> rfl

/-- A line of the loop writes the row that it is read as. -/
theorem scrapeLine_of_some {flags : PageFlags} {line : String} {rest : List String} {skip : ℕ}
    (h : readRow format flags line rest = some (row, skip)) :
    ∃ f, Writes format row f ∧ scrapeLine format flags models line rest = (models.upsert row.model f, skip) := by
  rw [readRow] at h
  rw [scrapeLine]
  rcases hcells : tableRow flags line rest with - | ⟨input, output⟩
  · rw [hcells] at h
    rcases honeLine : oneLineRow format flags line with - | ⟨model, input, cached, output⟩
    · rw [honeLine] at h
      exact absurd h.symm (Option.some_ne_none _)
    · rw [honeLine] at h
      obtain ⟨rfl, rfl⟩ := Prod.mk.inj (Option.some.inj h)
      exact ⟨_, writes_oneLine format model "responses" input cached output, rfl⟩
  · rw [hcells] at h
    obtain ⟨rfl, rfl⟩ := Prod.mk.inj (Option.some.inj h)
    exact ⟨_, writes_tableRow format line _ flags.tokenSection _ _, rfl⟩

/-- A line that is read as no row is passed over. -/
theorem scrapeLine_of_none {flags : PageFlags} {line : String} {rest : List String}
    (h : readRow format flags line rest = none) : scrapeLine format flags models line rest = (models, 0) := by
  rw [readRow] at h
  rw [scrapeLine]
  rcases hcells : tableRow flags line rest with - | ⟨input, output⟩
  · rw [hcells] at h
    rcases honeLine : oneLineRow format flags line with - | ⟨model, input, cached, output⟩
    · rfl
    · rw [honeLine] at h
      exact absurd h (Option.some_ne_none _)
  · rw [hcells] at h
    exact absurd h (Option.some_ne_none _)

/-- The loop reads the rows of the lines into the models. -/
theorem scraped_scrapeLines (h : Scraped format rows models) (skip : ℕ) (flags : PageFlags) (lines : List String) :
    Scraped format (rows ++ readRows format skip flags lines) (scrapeLines format skip flags models lines) := by
  induction lines generalizing rows models skip flags with
  | nil =>
    rw [readRows, scrapeLines, List.append_nil]
    exact h
  | cons line rest ih =>
    cases skip with
    | succ skip => exact ih h skip flags
    | zero =>
      rw [readRows, scrapeLines]
      split
      next row skip hrow =>
        obtain ⟨f, hf, hline⟩ : ∃ f, Writes format row f ∧
            scrapeLine format (flags.heading line) models line rest = (models.upsert row.model f, skip) :=
          scrapeLine_of_some hrow
        rw [hline, List.append_cons]
        exact ih (h.concat hf) skip (flags.heading line)
      next hrow =>
        rw [scrapeLine_of_none hrow]
        exact ih h 0 (flags.heading line)

end Scrape

/-! ### What is merged -/

/-- Every model stands under its own name. -/
def Named (models : Models F) : Prop := ∀ name model, models.find name = some model → model.name = name

theorem Named.entries {models : Models F} (h : Named models) :
    models.values.map (fun model => (model.name, model)) = models.entries := by
  rw [SortedMap.values, List.map_map]
  refine (List.map_congr_left fun entry hentry => ?_).trans (List.map_id _)
  have hname : entry.2.name = entry.1 := h entry.1 entry.2 (SortedMap.find_eq_some_iff.mpr hentry)
  exact Prod.ext hname rfl

/-- The names of the models are different. -/
theorem Named.nodup {models : Models F} (h : Named models) : (models.values.map ModelPricing.name).Nodup := by
  have hnames : models.values.map ModelPricing.name = models.entries.map Prod.fst := by
    rw [← h.entries, List.map_map]
    rfl
  rw [hnames]
  exact List.pairwise_map.mpr models.keys_ne

theorem Named.mem_values {models : Models F} {name : String} {model : ModelPricing F} (h : models.find name = some model) :
    model ∈ models.values :=
  List.mem_map_of_mem (f := Prod.snd) (SortedMap.find_eq_some_iff.mp h)

theorem Named.find_of_mem {models : Models F} (h : Named models) {model : ModelPricing F} (hmem : model ∈ models.values) :
    models.find model.name = some model := by
  obtain ⟨entry, hentry, rfl⟩ := List.mem_map.mp hmem
  have hfind := SortedMap.find_eq_some_iff.mpr hentry
  rwa [h entry.1 entry.2 hfind]

section Merge

variable {catalog : ModelCatalog F}

theorem keys_byName (hnames : (catalog.models.map ModelPricing.name).Nodup) :
    (catalog.models.map fun model => (model.name, model)).Pairwise fun entry later => entry.1 ≠ later.1 :=
  List.pairwise_map.mpr (List.pairwise_map.mp hnames)

theorem find_byName (hnames : (catalog.models.map ModelPricing.name).Nodup) {model : ModelPricing F}
    (hmodel : model ∈ catalog.models) : catalog.byName.find model.name = some model := by
  rw [ModelCatalog.byName, SortedMap.find_ofEntries (keys_byName hnames)]
  exact SortedMap.findIn_of_mem (keys_byName hnames)
    (List.mem_map_of_mem (f := fun model => (model.name, model)) hmodel)

theorem named_byName (hnames : (catalog.models.map ModelPricing.name).Nodup) : Named catalog.byName := by
  intro name model hfind
  rw [ModelCatalog.byName, SortedMap.find_ofEntries (keys_byName hnames)] at hfind
  obtain ⟨found, -, hfound⟩ := List.mem_map.mp (SortedMap.mem_of_findIn hfind)
  obtain ⟨rfl, rfl⟩ := Prod.mk.inj hfound
  rfl

/-- The models that a merge leaves: those of the catalog, with those scraped merged into them. -/
def mergedModels (base models : Models F) : Models F :=
  models.values.foldl (fun merged model => merged.upsert model.name (mergeModel model)) base

theorem find_mergedModels {base models : Models F} (h : Named models) (name : String) :
    (mergedModels base models).find name =
      match models.find name with
      | some scraped => some (mergeModel scraped (base.find name))
      | none => base.find name := by
  have hfold : mergedModels base models =
      models.entries.foldl (fun merged entry => merged.upsert entry.1 (mergeModel entry.2)) base := by
    rw [← h.entries, List.foldl_map]
    rfl
  have hfind : models.find name = SortedMap.findIn name models.entries := rfl
  rw [hfold, SortedMap.find_foldl_upsert (g := mergeModel) models.keys_ne base, hfind]
  rcases SortedMap.findIn name models.entries with - | scraped
  · rfl
  · rfl

theorem name_mergeModel {scraped : ModelPricing F} {name : String} (hscraped : scraped.name = name)
    {existing : Option (ModelPricing F)} (hexisting : ∀ model ∈ existing, model.name = name) :
    (mergeModel scraped existing).name = name := by
  obtain - | existing := existing
  · exact hscraped
  · exact hexisting existing rfl

theorem named_mergedModels {base models : Models F} (hbase : Named base) (h : Named models) :
    Named (mergedModels base models) := by
  intro name model hfind
  rw [find_mergedModels h] at hfind
  rcases hscraped : models.find name with - | scraped
  · rw [hscraped] at hfind
    exact hbase name model hfind
  · rw [hscraped] at hfind
    obtain rfl := Option.some.inj hfind
    exact name_mergeModel (h name scraped hscraped) fun model hmodel => hbase name model hmodel

/-- A merge overwrites the prices of a model, and keeps its settings. -/
theorem sameEstimation_overwrite (scraped existing : ModelPricing F) :
    SameEstimation existing (scraped.overwrite existing) := ⟨rfl, rfl, rfl⟩

theorem price_overwrite (scraped existing : ModelPricing F) (kind : PriceKind) :
    (scraped.overwrite existing).price kind = scraped.price kind := by
  cases kind <;> rfl

end Merge

/-! ### Which refreshes invent no price -/

section Refresh

variable {format : PriceFormat F} {lines : List String} {catalog : ModelCatalog F}

/-- The price that is left to a model is the price it has or one that the page states, when the page settles it. -/
theorem settles_iff (model : ModelPricing F) (kind : PriceKind) :
    (leftPrice format (rowsOf format lines) model.name kind = model.price kind ∨
        StatesPrice format lines model.name kind (leftPrice format (rowsOf format lines) model.name kind)) ↔
      Settles format lines model kind := by
  rw [leftPrice]
  constructor
  · intro h
    rcases hlast : lastCell (rowsOf format lines) model.name kind with - | - | price
    · rw [hlast] at h
      exact .zero (by rw [hlast]; rfl) (h.imp_left Eq.symm)
    · rw [hlast] at h
      exact .zero (by rw [hlast]; rfl) (h.imp_left Eq.symm)
    · rw [hlast] at h
      obtain hsame | hstated := h
      · have hprice : price = model.price kind := hsame
        exact .unchanged (hprice ▸ hlast)
      · exact .stated hlast hstated
  · intro h
    cases h with
    | stated hlast h =>
      rw [hlast]
      exact .inr h
    | unchanged hlast =>
      rw [hlast]
      exact .inl rfl
    | zero hlast h =>
      rw [hlast]
      exact h.imp_left Eq.symm

/-- **A refresh invents no price** exactly when the page settles every price of the models it lists. -/
theorem inventsNoPrice_iff (hnames : (catalog.models.map ModelPricing.name).Nodup) {scraped : ModelCatalog F}
    (hscrape : scrapeModelCatalog format lines = .ok scraped) :
    InventsNoPrice format lines catalog (mergeCatalogs format (some catalog) scraped) ↔
      SettlesPrices format lines catalog := by
  obtain ⟨models, hmodels⟩ : ∃ models, models = scrapeLines format 0 .initial .empty lines := ⟨_, rfl⟩
  have hread : Scraped format (rowsOf format lines) models :=
    hmodels ▸ scraped_scrapeLines (Scraped.empty format) 0 .initial lines
  have hvalues : scraped.models = models.values := by
    rw [scrapeModelCatalog, ← hmodels] at hscrape
    split at hscrape
    · cases hscrape
    · rw [← Except.ok.inj hscrape]
  have hmerged : (mergeCatalogs format (some catalog) scraped).models = (mergedModels catalog.byName models).values := by
    rw [mergeCatalogs, hvalues]
    rfl
  have hnamed : Named (mergedModels catalog.byName models) := named_mergedModels (named_byName hnames) hread.named
  -- The record of a model of the catalog after the merge.
  have hfind : ∀ model ∈ catalog.models, (mergedModels catalog.byName models).find model.name =
      some ((models.find model.name).elim model fun scraped => scraped.overwrite model) := by
    intro model hmodel
    rw [find_mergedModels hread.named, find_byName hnames hmodel]
    rcases models.find model.name with - | scraped
    · rfl
    · rfl
  constructor
  · intro h model hmodel hlisted kind
    obtain ⟨model', hmem, hname, -, hprices⟩ := h.models model hmodel
    obtain ⟨scrapedModel, hscraped⟩ := (hread.listed model.name).mpr hlisted
    rw [hmerged] at hmem
    have hmodel' : model' = scrapedModel.overwrite model := by
      have hfound := hnamed.find_of_mem hmem
      rw [hname, hfind model hmodel, hscraped] at hfound
      exact (Option.some.inj hfound).symm
    have hleft : model'.price kind = leftPrice format (rowsOf format lines) model.name kind := by
      rw [hmodel', price_overwrite, hread.prices model.name scrapedModel hscraped]
    have hprice := hprices kind
    rw [hleft] at hprice
    exact (settles_iff model kind).mp hprice
  · intro h
    refine ⟨rfl, ?_, ?_⟩
    · rw [hmerged]
      exact hnamed.nodup
    · intro model hmodel
      have hfound := hfind model hmodel
      rw [hmerged]
      refine ⟨_, Named.mem_values hfound, hnamed _ _ hfound, ?_⟩
      rcases hscraped : models.find model.name with - | scrapedModel
      · exact ⟨⟨rfl, rfl, rfl⟩, fun kind => .inl rfl⟩
      · refine ⟨sameEstimation_overwrite scrapedModel model, fun kind => ?_⟩
        have hlisted := (hread.listed model.name).mp ⟨scrapedModel, hscraped⟩
        have hleft : (scrapedModel.overwrite model).price kind = leftPrice format (rowsOf format lines) model.name kind := by
          rw [price_overwrite, hread.prices model.name scrapedModel hscraped]
        show (scrapedModel.overwrite model).price kind = model.price kind ∨ _
        rw [Option.elim_some, hleft]
        exact (settles_iff model kind).mpr (h model hmodel hlisted kind)

end Refresh

/-! ### A page without an audio section -/

/-- Prices in whole dollars. -/
def wholeDollars : PriceFormat ℕ where
  zero := 0
  defaultCharsPerToken := 4
  parse text :=
    if text.toList.isEmpty || !text.toList.all Char.isDigit then none
    else some (text.toList.foldl (fun n c => 10 * n + (c.toNat - 48)) 0)

/-- A page that lists a model under text tokens only. -/
def textOnlyPage : List String :=
  ["Transcription and speech generation", "Text tokens", "gpt-4o-transcribe", "$3", "$9", "$1 / minute"]

/-- What is scraped from `textOnlyPage`. -/
def textOnlyScrape : ModelCatalog ℕ where
  defaults := wholeDollars.catalogDefaults
  models := [⟨"gpt-4o-transcribe", "transcription", 3, 0, 9, 0, 0, none, none, none⟩]

/-- A catalog with the model of `textOnlyPage`, its audio input at 6 dollars. -/
def transcribeCatalog : ModelCatalog ℕ where
  defaults := wholeDollars.catalogDefaults
  models := [⟨"gpt-4o-transcribe", "transcription", 2, 0, 10, 6, 0, none, none, none⟩]

/-- A catalog with the model of `textOnlyPage` and no audio prices. -/
def textCatalog : ModelCatalog ℕ where
  defaults := wholeDollars.catalogDefaults
  models := [⟨"gpt-4o-transcribe", "transcription", 2, 0, 10, 0, 0, none, none, none⟩]

/-- Prices that are zero are left so by a page that does not give them. -/
theorem inventsNoPrice_textOnlyPage :
    InventsNoPrice wholeDollars textOnlyPage textCatalog (mergeCatalogs wholeDollars (some textCatalog) textOnlyScrape) ↔
      SettlesPrices wholeDollars textOnlyPage textCatalog :=
  inventsNoPrice_iff
    (show (textCatalog.models.map ModelPricing.name).Nodup from List.nodup_singleton "gpt-4o-transcribe") rfl

/-- The refresh from `textOnlyPage` leaves the audio input of the model at nothing. -/
theorem not_inventsNoPrice :
    scrapeModelCatalog wholeDollars textOnlyPage = .ok textOnlyScrape ∧
      (transcribeCatalog.models.map ModelPricing.name).Nodup ∧
      ¬ InventsNoPrice wholeDollars textOnlyPage transcribeCatalog
        (mergeCatalogs wholeDollars (some transcribeCatalog) textOnlyScrape) := by
  refine ⟨rfl, List.nodup_singleton "gpt-4o-transcribe", fun h => ?_⟩
  have hmerged : (mergeCatalogs wholeDollars (some transcribeCatalog) textOnlyScrape).models =
      [⟨"gpt-4o-transcribe", "transcription", 3, 0, 9, 0, 0, none, none, none⟩] := rfl
  obtain ⟨model', hmem, -, -, hprices⟩ := h.models _ List.mem_cons_self
  rw [hmerged, List.mem_singleton] at hmem
  subst hmem
  obtain hsame | hstated := hprices .inputAudio
  · exact absurd hsame (by decide)
  · exact absurd (hstated.heading_mem (.inl rfl)) (by decide)

end AgentVoice.Accounting

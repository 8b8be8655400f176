import AgentVoice.Accounting.Usage
import AgentVoice.Foundations.SortedMap

/-!
# The accounting summary of a call

`CallAccountingSummary::record` adds an entry to the totals of a call and to the row of its model. The rows go through an
ordered map on every call, so that they stand in the order of the model names. After any entries the row of a model is
what the entries of that model add up to (`CallAccountingSummary.Groups`), and the totals are the sums of the columns.

Costs are of a type of their own with a zero and an addition: nothing here depends on how they round.
-/

namespace AgentVoice.Accounting

open AgentVoice.Foundations

/-! ### Token usage -/

namespace TokenUsage

/-- `merge_from`. -/
def mergeFrom (usage other : TokenUsage) : TokenUsage where
  inputTextTokens := usage.inputTextTokens + other.inputTextTokens
  cachedInputTextTokens := usage.cachedInputTextTokens + other.cachedInputTextTokens
  outputTextTokens := usage.outputTextTokens + other.outputTextTokens
  inputAudioTokens := usage.inputAudioTokens + other.inputAudioTokens
  outputAudioTokens := usage.outputAudioTokens + other.outputAudioTokens

/-- `TokenUsage::default`. -/
def default : TokenUsage := ⟨0, 0, 0, 0, 0⟩

instance : Add TokenUsage := ⟨mergeFrom⟩

instance : Zero TokenUsage := ⟨default⟩

theorem ext_of {usage other : TokenUsage} (htext : usage.inputTextTokens = other.inputTextTokens)
    (hcached : usage.cachedInputTextTokens = other.cachedInputTextTokens)
    (houtput : usage.outputTextTokens = other.outputTextTokens)
    (haudio : usage.inputAudioTokens = other.inputAudioTokens)
    (houtputAudio : usage.outputAudioTokens = other.outputAudioTokens) : usage = other := by
  cases usage
  cases other
  exact TokenUsage.mk.injEq .. ▸ ⟨htext, hcached, houtput, haudio, houtputAudio⟩

instance : AddCommMonoid TokenUsage where
  add_assoc a b c := ext_of (add_assoc _ _ _) (add_assoc _ _ _) (add_assoc _ _ _) (add_assoc _ _ _) (add_assoc _ _ _)
  zero_add a := ext_of (zero_add _) (zero_add _) (zero_add _) (zero_add _) (zero_add _)
  add_zero a := ext_of (add_zero _) (add_zero _) (add_zero _) (add_zero _) (add_zero _)
  add_comm a b := ext_of (add_comm _ _) (add_comm _ _) (add_comm _ _) (add_comm _ _) (add_comm _ _)
  nsmul := nsmulRec

/-- What usages add up to, field by field. -/
def total (usages : List TokenUsage) : TokenUsage where
  inputTextTokens := (usages.map TokenUsage.inputTextTokens).sum
  cachedInputTextTokens := (usages.map TokenUsage.cachedInputTextTokens).sum
  outputTextTokens := (usages.map TokenUsage.outputTextTokens).sum
  inputAudioTokens := (usages.map TokenUsage.inputAudioTokens).sum
  outputAudioTokens := (usages.map TokenUsage.outputAudioTokens).sum

/-- Merging adds up field by field. -/
theorem total_eq_sum (usages : List TokenUsage) : total usages = usages.sum := by
  induction usages with
  | nil => rfl
  | cons usage usages ih =>
    rw [List.sum_cons, ← ih]
    exact ext_of List.sum_cons List.sum_cons List.sum_cons List.sum_cons List.sum_cons

theorem total_concat (usages : List TokenUsage) (usage : TokenUsage) :
    total (usages ++ [usage]) = (total usages).mergeFrom usage := by
  rw [total_eq_sum, total_eq_sum, List.sum_append, List.sum_singleton]
  rfl

theorem total_of_perm {usages usages' : List TokenUsage} (h : usages.Perm usages') : total usages = total usages' := by
  rw [total_eq_sum, total_eq_sum, h.sum_eq]

end TokenUsage

/-! ### Entries and summaries -/

variable {F : Type}

/-- `ApiCallLogEntry`, as far as a summary reads it. -/
structure ApiCallLogEntry (F : Type) where
  model : String
  estimated : Bool
  costUsd : F
  inputTextTokens : ℕ
  cachedInputTextTokens : ℕ
  outputTextTokens : ℕ
  inputAudioTokens : ℕ
  outputAudioTokens : ℕ

/-- The usage of an entry. -/
def ApiCallLogEntry.usage (entry : ApiCallLogEntry F) : TokenUsage where
  inputTextTokens := entry.inputTextTokens
  cachedInputTextTokens := entry.cachedInputTextTokens
  outputTextTokens := entry.outputTextTokens
  inputAudioTokens := entry.inputAudioTokens
  outputAudioTokens := entry.outputAudioTokens

/-- `ModelUsageSummary`. -/
structure ModelUsageSummary (F : Type) where
  model : String
  apiCallCount : ℕ
  estimatedApiCallCount : ℕ
  costUsd : F
  usage : TokenUsage

/-- `CallAccountingSummary`. -/
structure CallAccountingSummary (F : Type) where
  apiCallCount : ℕ
  totalCostUsd : F
  totals : TokenUsage
  modelUsage : List (ModelUsageSummary F)

/-- `CallAccountingSummary::default`. -/
def CallAccountingSummary.default [Zero F] : CallAccountingSummary F := ⟨0, 0, .default, []⟩

/-- The row of a model after one more entry: `or_insert_with` a row without calls, and add to it. -/
def ModelUsageSummary.record [Zero F] [Add F] (entry : ApiCallLogEntry F) (row : Option (ModelUsageSummary F)) :
    ModelUsageSummary F :=
  let model := row.getD ⟨entry.model, 0, 0, 0, .default⟩
  { model with
    apiCallCount := model.apiCallCount + 1
    estimatedApiCallCount :=
      if entry.estimated then model.estimatedApiCallCount + 1 else model.estimatedApiCallCount
    costUsd := model.costUsd + entry.costUsd
    usage := model.usage.mergeFrom entry.usage }

/-- `CallAccountingSummary::record`. -/
def CallAccountingSummary.record [Zero F] [Add F] (summary : CallAccountingSummary F) (entry : ApiCallLogEntry F) :
    CallAccountingSummary F :=
  let byModel := SortedMap.ofEntries (summary.modelUsage.map fun item => (item.model, item))
  let byModel := byModel.upsert entry.model (ModelUsageSummary.record entry)
  { apiCallCount := summary.apiCallCount + 1
    totalCostUsd := summary.totalCostUsd + entry.costUsd
    totals := summary.totals.mergeFrom entry.usage
    modelUsage := byModel.values }

/-- The summary of entries. -/
def summarize [Zero F] [Add F] (entries : List (ApiCallLogEntry F)) : CallAccountingSummary F :=
  entries.foldl CallAccountingSummary.record .default

/-! ### What entries add up to -/

/-- The integer fields of a row. -/
structure ModelCounts where
  model : String
  apiCallCount : ℕ
  estimatedApiCallCount : ℕ
  usage : TokenUsage
  deriving DecidableEq

/-- The integer fields of a row. -/
def ModelUsageSummary.counts (row : ModelUsageSummary F) : ModelCounts :=
  ⟨row.model, row.apiCallCount, row.estimatedApiCallCount, row.usage⟩

/-- The integer fields of a summary. -/
def CallAccountingSummary.counts (summary : CallAccountingSummary F) : ℕ × TokenUsage × List ModelCounts :=
  (summary.apiCallCount, summary.totals, summary.modelUsage.map ModelUsageSummary.counts)

/-- The entries of a model. -/
def group (model : String) (entries : List (ApiCallLogEntry F)) : List (ApiCallLogEntry F) :=
  entries.filter fun entry => entry.model = model

/-- What the entries of a model add up to. -/
def groupCounts (model : String) (entries : List (ApiCallLogEntry F)) : ModelCounts where
  model := model
  apiCallCount := (group model entries).length
  estimatedApiCallCount := ((group model entries).filter ApiCallLogEntry.estimated).length
  usage := .total ((group model entries).map ApiCallLogEntry.usage)

/-- The rows are the groups of the entries, in the order of the model names, and the totals are the sums of their
columns. -/
structure CallAccountingSummary.Groups (summary : CallAccountingSummary F) (entries : List (ApiCallLogEntry F)) :
    Prop where
  apiCallCount : summary.apiCallCount = entries.length
  totals : summary.totals = .total (entries.map ApiCallLogEntry.usage)
  mem_rows : ∀ row, row ∈ summary.modelUsage.map ModelUsageSummary.counts ↔
    ∃ entry ∈ entries, row = groupCounts entry.model entries
  ascending : (summary.modelUsage.map ModelUsageSummary.model).Pairwise (· < ·)
  columns : summary.totals = .total (summary.modelUsage.map ModelUsageSummary.usage)
  calls : summary.apiCallCount = (summary.modelUsage.map ModelUsageSummary.apiCallCount).sum

/-! ### One entry more -/

section

variable {model : String} {entry : ApiCallLogEntry F} {entries entries' : List (ApiCallLogEntry F)}

theorem group_concat_self : group entry.model (entries ++ [entry]) = group entry.model entries ++ [entry] := by
  rw [group, group, List.filter_append, List.filter_singleton, decide_eq_true rfl]
  rfl

theorem group_concat_of_ne (h : model ≠ entry.model) : group model (entries ++ [entry]) = group model entries := by
  rw [group, group, List.filter_append, List.filter_singleton, decide_eq_false (Ne.symm h)]
  exact List.append_nil _

theorem groupCounts_concat_of_ne (h : model ≠ entry.model) :
    groupCounts model (entries ++ [entry]) = groupCounts model entries := by
  rw [groupCounts, groupCounts, group_concat_of_ne h]

theorem groupCounts_of_perm (h : entries.Perm entries') : groupCounts model entries = groupCounts model entries' := by
  have hgroup : (group model entries).Perm (group model entries') := h.filter _
  rw [groupCounts, groupCounts, hgroup.length_eq, (hgroup.filter _).length_eq, TokenUsage.total_of_perm (hgroup.map _)]

/-- The counts of a model, where it has entries. -/
def countsOf (model : String) (entries : List (ApiCallLogEntry F)) : Option ModelCounts :=
  if group model entries = [] then none else some (groupCounts model entries)

/-- The rows as a map from the names: every row stands under its own name, and counts the entries of its model. -/
structure RowMap (summary : CallAccountingSummary F) (entries : List (ApiCallLogEntry F))
    (rows : SortedMap String (ModelUsageSummary F)) : Prop where
  values : summary.modelUsage = rows.values
  names : ∀ row ∈ rows.entries, row.2.model = row.1
  counts : ∀ model, (rows.find model).map ModelUsageSummary.counts = countsOf model entries

theorem RowMap.ofEntries {summary : CallAccountingSummary F} {rows : SortedMap String (ModelUsageSummary F)}
    (h : RowMap summary entries rows) :
    SortedMap.ofEntries (summary.modelUsage.map fun item => (item.model, item)) = rows := by
  have hentries : (summary.modelUsage.map fun item => (item.model, item)) = rows.entries := by
    rw [h.values, SortedMap.values, List.map_map]
    refine (List.map_congr_left fun row hrow => ?_).trans (List.map_id _)
    rw [Function.comp_apply, h.names row hrow]
    rfl
  rw [hentries, SortedMap.ofEntries_entries]

section

variable [Zero F]

/-- The row of a model without entries counts none. -/
theorem counts_getD {row : Option (ModelUsageSummary F)} (h : row.map ModelUsageSummary.counts = countsOf model entries) :
    (row.getD ⟨model, 0, 0, 0, .default⟩).counts = groupCounts model entries := by
  rw [countsOf] at h
  cases row with
  | none =>
    split_ifs at h with hgroup
    · rw [groupCounts, hgroup]
      rfl
    · cases h
  | some row =>
    split_ifs at h with hgroup
    · cases h
    · exact Option.some.inj h

variable [Add F]

theorem counts_record {row : Option (ModelUsageSummary F)}
    (h : row.map ModelUsageSummary.counts = countsOf entry.model entries) :
    (ModelUsageSummary.record entry row).counts = groupCounts entry.model (entries ++ [entry]) := by
  have hbase := counts_getD h
  rw [ModelUsageSummary.record]
  set base := row.getD ⟨entry.model, 0, 0, 0, .default⟩
  obtain ⟨hmodel, hcalls, hestimated, husage⟩ := ModelCounts.mk.inj hbase
  refine (ModelCounts.mk.injEq ..).mpr ⟨hmodel, ?_, ?_, ?_⟩
  · rw [group_concat_self, List.length_append]
    exact congrArg (· + 1) hcalls
  · rw [group_concat_self, List.filter_append, List.length_append, List.filter_singleton]
    dsimp only
    cases entry.estimated with
    | true => exact congrArg (· + 1) hestimated
    | false => exact hestimated
  · rw [group_concat_self, List.map_append, List.map_singleton, TokenUsage.total_concat, ← husage]

theorem RowMap.record {summary : CallAccountingSummary F} {rows : SortedMap String (ModelUsageSummary F)}
    (h : RowMap summary entries rows) :
    RowMap (summary.record entry) (entries ++ [entry]) (rows.upsert entry.model (ModelUsageSummary.record entry)) := by
  have hcounts := counts_record (h.counts entry.model)
  refine ⟨?_, fun row hrow => ?_, fun model => ?_⟩
  · rw [CallAccountingSummary.record]
    dsimp only
    rw [h.ofEntries]
  · have hfind := SortedMap.find_eq_some_iff.mpr hrow
    rw [SortedMap.find_upsert] at hfind
    split_ifs at hfind with hmodel
    · rw [hmodel, ← Option.some.inj hfind]
      exact congrArg ModelCounts.model hcounts
    · exact h.names row (SortedMap.find_eq_some_iff.mp hfind)
  · rw [SortedMap.find_upsert]
    split_ifs with hmodel
    · rw [hmodel, Option.map_some, hcounts, countsOf, group_concat_self, if_neg (by simp)]
    · rw [h.counts model, countsOf, countsOf, group_concat_of_ne hmodel, groupCounts_concat_of_ne hmodel]

/-- The rows that entries give are in a map. -/
theorem exists_rowMap (entries : List (ApiCallLogEntry F)) : ∃ rows, RowMap (summarize entries) entries rows := by
  induction entries using List.reverseRecOn with
  | nil => exact ⟨.empty, rfl, List.forall_mem_nil _, fun _ => rfl⟩
  | append_singleton entries entry ih =>
    obtain ⟨rows, hrows⟩ := ih
    rw [summarize, List.foldl_concat, ← summarize]
    exact ⟨_, hrows.record⟩

/-! ### The sums -/

theorem apiCallCount_summarize (entries : List (ApiCallLogEntry F)) :
    (summarize entries).apiCallCount = entries.length := by
  induction entries using List.reverseRecOn with
  | nil => rfl
  | append_singleton entries entry ih =>
    rw [summarize, List.foldl_concat, ← summarize, List.length_append, ← ih]
    rfl

theorem totals_summarize (entries : List (ApiCallLogEntry F)) :
    (summarize entries).totals = .total (entries.map ApiCallLogEntry.usage) := by
  induction entries using List.reverseRecOn with
  | nil => rfl
  | append_singleton entries entry ih =>
    rw [summarize, List.foldl_concat, ← summarize, List.map_append, List.map_singleton, TokenUsage.total_concat, ← ih]
    rfl

/-- A column grows with the row of the model, whatever row it has. -/
theorem columns_summarize (entries : List (ApiCallLogEntry F)) :
    TokenUsage.total ((summarize entries).modelUsage.map ModelUsageSummary.usage) =
        .total (entries.map ApiCallLogEntry.usage) ∧
      ((summarize entries).modelUsage.map ModelUsageSummary.apiCallCount).sum = entries.length := by
  induction entries using List.reverseRecOn with
  | nil => exact ⟨rfl, rfl⟩
  | append_singleton entries entry ih =>
    obtain ⟨rows, hrows⟩ := exists_rowMap entries
    rw [hrows.values] at ih
    rw [summarize, List.foldl_concat, ← summarize, hrows.record.values, List.map_append, List.map_singleton,
      TokenUsage.total_concat, ← ih.1, List.length_append, ← ih.2, TokenUsage.total_eq_sum, TokenUsage.total_eq_sum]
    have husage : ((rows.upsert entry.model (ModelUsageSummary.record entry)).values.map ModelUsageSummary.usage).sum =
        (rows.values.map ModelUsageSummary.usage).sum + entry.usage :=
      SortedMap.sum_map_values_upsert ModelUsageSummary.usage (zero_add _) (fun _ => rfl) rows
    have hcalls : ((rows.upsert entry.model (ModelUsageSummary.record entry)).values.map
        ModelUsageSummary.apiCallCount).sum = (rows.values.map ModelUsageSummary.apiCallCount).sum + 1 :=
      SortedMap.sum_map_values_upsert ModelUsageSummary.apiCallCount rfl (fun _ => rfl) rows
    exact ⟨husage, hcalls⟩

/-- **A summary groups its entries.** -/
theorem groups_summarize (entries : List (ApiCallLogEntry F)) : (summarize entries).Groups entries := by
  obtain ⟨rows, hrows⟩ := exists_rowMap entries
  refine ⟨apiCallCount_summarize entries, totals_summarize entries, fun row => ?_, ?_,
    (totals_summarize entries).trans (columns_summarize entries).1.symm,
    (apiCallCount_summarize entries).trans (columns_summarize entries).2.symm⟩
  · rw [hrows.values]
    constructor
    · intro hrow
      obtain ⟨value, hvalue, rfl⟩ := List.mem_map.mp hrow
      obtain ⟨⟨model, _⟩, hentry, rfl⟩ := List.mem_map.mp hvalue
      have hcounts := hrows.counts model
      rw [SortedMap.find_eq_some_iff.mpr hentry, Option.map_some, countsOf] at hcounts
      split_ifs at hcounts with hgroup
      obtain ⟨entry, hmem⟩ := List.exists_mem_of_ne_nil _ hgroup
      obtain ⟨hentry, hmodel⟩ := List.mem_filter.mp hmem
      exact ⟨entry, hentry, by rw [of_decide_eq_true hmodel]; exact Option.some.inj hcounts⟩
    · rintro ⟨entry, hentry, rfl⟩
      have hcounts := hrows.counts entry.model
      have hmem : entry ∈ group entry.model entries := List.mem_filter.mpr ⟨hentry, decide_eq_true rfl⟩
      rw [countsOf, if_neg (List.ne_nil_of_mem hmem)] at hcounts
      obtain ⟨row, hrow, heq⟩ := Option.map_eq_some_iff.mp hcounts
      exact List.mem_map.mpr ⟨row, List.mem_map_of_mem (f := Prod.snd) (SortedMap.find_eq_some_iff.mp hrow), heq⟩
  · rw [hrows.values, SortedMap.values, List.map_map, List.pairwise_map]
    refine rows.ascending.imp_of_mem fun hrow hlater hlt => ?_
    rw [Function.comp_apply, Function.comp_apply, hrows.names _ hrow, hrows.names _ hlater]
    exact hlt

end

end

/-! ### Any order -/

/-- Rows in ascending order are determined by which rows they are. -/
theorem rows_eq {rows rows' : List ModelCounts} (h : (rows.map ModelCounts.model).Pairwise (· < ·))
    (h' : (rows'.map ModelCounts.model).Pairwise (· < ·)) (hmem : ∀ row, row ∈ rows ↔ row ∈ rows') : rows = rows' := by
  rw [List.pairwise_map] at h h'
  have hnodup : ∀ {rows : List ModelCounts}, (rows.Pairwise fun row later => row.model < later.model) → rows.Nodup :=
    fun h => h.imp fun hlt heq => absurd (heq ▸ hlt) (lt_irrefl _)
  refine ((List.perm_ext_iff_of_nodup (hnodup h) (hnodup h')).mpr hmem).eq_of_pairwise ?_ h h'
  exact fun row later _ _ hlt hgt => absurd (hlt.trans hgt) (lt_irrefl _)

/-- **The summary of a call.** After any entries the totals are their sums, the rows are the groups of the entries by
model, each once and in the order of the names, and the totals are the sums of the columns. The integer fields do not
depend on the order of the entries. -/
theorem summarize_groups [Zero F] [Add F] :
    (∀ entries : List (ApiCallLogEntry F), (summarize entries).Groups entries) ∧
      ∀ entries entries' : List (ApiCallLogEntry F), entries.Perm entries' →
        (summarize entries).counts = (summarize entries').counts := by
  refine ⟨groups_summarize, fun entries entries' h => ?_⟩
  have hgroups := groups_summarize entries
  have hgroups' := groups_summarize entries'
  refine Prod.ext ?_ (Prod.ext ?_ ?_)
  · exact hgroups.apiCallCount.trans (h.length_eq.trans hgroups'.apiCallCount.symm)
  · exact hgroups.totals.trans ((TokenUsage.total_of_perm (h.map _)).trans hgroups'.totals.symm)
  · have hnames : ∀ {entries : List (ApiCallLogEntry F)}, (summarize entries).Groups entries →
        (((summarize entries).modelUsage.map ModelUsageSummary.counts).map ModelCounts.model).Pairwise (· < ·) := by
      intro entries hgroups
      rw [List.map_map]
      exact hgroups.ascending
    refine rows_eq (hnames hgroups) (hnames hgroups') fun row => (hgroups.mem_rows row).trans ?_
    refine Iff.trans ?_ (hgroups'.mem_rows row).symm
    refine exists_congr fun entry => and_congr h.mem_iff ?_
    rw [groupCounts_of_perm h]

/-- An entry of one call. -/
def oneCall (model : String) : ApiCallLogEntry ℕ := ⟨model, false, 0, 1, 0, 2, 0, 0⟩

theorem summarize_oneCall :
    (summarize [oneCall "a", oneCall "b"]).counts = (summarize [oneCall "b", oneCall "a"]).counts :=
  summarize_groups.2 _ _ (.swap _ _ _)

end AgentVoice.Accounting

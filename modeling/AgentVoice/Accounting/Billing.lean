import AgentVoice.Accounting.Catalog
import Mathlib

/-!
# Every token is billed once

`BilledOnce`: where a usage object of one of the three layouts states counts that add up, the quantities that
`compute_cost` multiplies by its prices add up to the totals; and no payload whatever makes `extract_usage` return a
count beyond the integers it holds, or counts whose sum leaves 64 bits.

The code bills the cached tokens as text, so that cached audio is counted twice, and a negative integer becomes a count
near `2 ^ 64`. `billedOnce_iff` says for which payloads the property holds.
-/

namespace AgentVoice.Accounting

open AgentVoice.Foundations

/-! ### The integers that are read for the counts -/

/-- The first of some fields that an object has. -/
def firstOf : List String → Json → Option Json
  | [], _ => none
  | name :: names, value => (value.get name).or (firstOf names value)

/-- An integer of 64 bits, signed or unsigned. -/
def asInteger : Json → Option ℤ
  | .int n => if -2 ^ 63 ≤ n ∧ n < 2 ^ 64 then some n else none
  | _ => none

/-- An integer `as u64`. -/
def asUnsigned (n : ℤ) : ℕ := (n % 2 ^ 64).toNat

/-- The two sides of a conversation. -/
inductive Side where
  | input
  | output

namespace Side

/-- The names of the details of a side. -/
def detailsNames : Side → List String
  | input => ["input_token_details", "input_tokens_details", "prompt_tokens_details"]
  | output => ["output_token_details", "output_tokens_details", "completion_tokens_details"]

/-- The names of the total of a side. -/
def totalNames : Side → List String
  | input => ["input_tokens", "prompt_tokens"]
  | output => ["output_tokens", "completion_tokens"]

/-- The names of an audio count outside the details. -/
def audioNames : Side → List String
  | input => ["input_audio_tokens", "audio_input_tokens"]
  | output => ["output_audio_tokens", "audio_output_tokens"]

end Side

/-- The names of a cached count outside the details. -/
def cachedNames : List String := ["input_cached_tokens", "cached_input_tokens"]

/-- The integers that a usage object gives for the counts of a side. -/
structure Reading where
  total : Option ℤ
  text : Option ℤ
  audio : Option ℤ

/-- A count in the details of a side. -/
def Side.detail (side : Side) (name : String) (usage : Json) : Option ℤ :=
  ((firstOf side.detailsNames usage).bind (Json.get name)).bind asInteger

/-- What is read for a side. -/
def Side.read (side : Side) (usage : Json) : Reading where
  total := (firstOf side.totalNames usage).bind asInteger
  text := side.detail "text_tokens" usage
  audio := (side.detail "audio_tokens" usage).or ((firstOf side.audioNames usage).bind asInteger)

/-- What is read for the cached tokens. -/
def readCached (usage : Json) : Option ℤ :=
  (Side.input.detail "cached_tokens" usage).or ((firstOf cachedNames usage).bind asInteger)

/-- The usage object of a payload. -/
def usageOf (payload : Json) : Json := (payload.get "usage").getD (.obj [])

namespace Reading

/-- The audio tokens of a side, from what is read for it. -/
def audioCount (reading : Reading) : ℕ := (reading.audio.map asUnsigned).getD 0

/-- The text tokens of a side, from what is read for it. -/
def textCount (reading : Reading) : ℕ :=
  ((reading.text.map asUnsigned).or (reading.total.map (asUnsigned · - reading.audioCount))).getD 0

end Reading

theorem valueU64_eq (value : Option Json) : valueU64 value = (value.bind asInteger).map asUnsigned := by
  obtain - | value := value
  · rfl
  cases value with
  | int n =>
    simp only [valueU64, Option.bind_some, Json.asU64, Json.asI64, asInteger]
    by_cases hunsigned : 0 ≤ n ∧ n < 2 ^ 64
    · have hmod : asUnsigned n = n.toNat := by rw [asUnsigned, Int.emod_eq_of_lt hunsigned.1 hunsigned.2]
      have hinteger : -2 ^ 63 ≤ n ∧ n < 2 ^ 64 := ⟨by omega, hunsigned.2⟩
      rw [if_pos hunsigned, if_pos hinteger, Option.some_or, Option.map_some, hmod]
    · rw [if_neg hunsigned]
      by_cases hsigned : -2 ^ 63 ≤ n ∧ n < 2 ^ 63
      · rw [if_pos hsigned, if_pos (by omega)]
        rfl
      · rw [if_neg hsigned, if_neg (by omega)]
        rfl
  | _ => rfl

/-- `extract_usage` is a function of what is read for the two sides and for the cached tokens. -/
theorem extractUsage_eq (payload : Json) :
    extractUsage payload =
      { inputTextTokens := (Side.input.read (usageOf payload)).textCount
        cachedInputTextTokens := ((readCached (usageOf payload)).map asUnsigned).getD 0
        outputTextTokens := (Side.output.read (usageOf payload)).textCount
        inputAudioTokens := (Side.input.read (usageOf payload)).audioCount
        outputAudioTokens := (Side.output.read (usageOf payload)).audioCount } := by
  simp only [extractUsage, valueU64_eq, Option.map_map, ← Option.map_or, Reading.textCount, Reading.audioCount, Side.read,
    readCached, Side.detail, firstOf, Side.detailsNames, Side.totalNames, Side.audioNames, cachedNames, usageOf,
    Option.or_none, Option.or_assoc, Function.comp_def]

/-! ### The layouts of a usage object -/

/-- The layouts that providers use. -/
inductive Layout where
  | responses
  | chatCompletions
  | realtime

namespace Layout

/-- The name of the total of a side. -/
def totalName : Layout → Side → String
  | responses, .input => "input_tokens"
  | responses, .output => "output_tokens"
  | chatCompletions, .input => "prompt_tokens"
  | chatCompletions, .output => "completion_tokens"
  | realtime, .input => "input_tokens"
  | realtime, .output => "output_tokens"

/-- The name of the details of a side. -/
def detailsName : Layout → Side → String
  | responses, .input => "input_tokens_details"
  | responses, .output => "output_tokens_details"
  | chatCompletions, .input => "prompt_tokens_details"
  | chatCompletions, .output => "completion_tokens_details"
  | realtime, .input => "input_token_details"
  | realtime, .output => "output_token_details"

end Layout

/-- The counts of a side in a usage object: the details may leave out the text tokens or the audio tokens. -/
structure SideCounts where
  total : ℕ
  text : Option ℕ
  audio : Option ℕ

namespace SideCounts

/-- The audio tokens: none where the details leave them out. -/
def audioTokens (counts : SideCounts) : ℕ := counts.audio.getD 0

/-- The text tokens: what the audio tokens leave of the total where the details do not give them. -/
def textTokens (counts : SideCounts) : ℕ := counts.text.getD (counts.total - counts.audioTokens)

/-- Text and audio add up to the total. -/
def AddUp (counts : SideCounts) : Prop := counts.textTokens + counts.audioTokens = counts.total

end SideCounts

/-- A field states a count, or is missing or null where there is none. -/
def States (field : Option Json) : Option ℕ → Prop
  | some n => field = some (.int n) ∧ n < 2 ^ 64
  | none => field = none ∨ field = some .null

/-- A usage object has a layout, with these counts. -/
structure HasLayout (layout : Layout) (usage : Json) (counts : Side → SideCounts) (cached : Option ℕ) : Prop where
  total : ∀ side : Side, States (usage.get (layout.totalName side)) (some (counts side).total)
  text : ∀ side : Side, States ((usage.get (layout.detailsName side)).bind (Json.get "text_tokens")) (counts side).text
  audio : ∀ side : Side, States ((usage.get (layout.detailsName side)).bind (Json.get "audio_tokens")) (counts side).audio
  cached : States ((usage.get (layout.detailsName .input)).bind (Json.get "cached_tokens")) cached
  /-- The names of the other layouts do not occur. -/
  otherTotal : ∀ side : Side, ∀ name ∈ side.totalNames, name ≠ layout.totalName side → usage.get name = none
  otherDetails : ∀ side : Side, ∀ name ∈ side.detailsNames, name ≠ layout.detailsName side → usage.get name = none
  otherAudio : ∀ side : Side, ∀ name ∈ side.audioNames, usage.get name = none
  otherCached : ∀ name ∈ cachedNames, usage.get name = none

/-! ### The property -/

/-- An integer stands somewhere in a value. -/
inductive Holds (n : ℤ) : Json → Prop
  | int : Holds n (.int n)
  | item {items : List Json} {value : Json} (hmem : value ∈ items) (h : Holds n value) : Holds n (.arr items)
  | field {fields : List (String × Json)} {name : String} {value : Json} (hmem : (name, value) ∈ fields)
    (h : Holds n value) : Holds n (.obj fields)

/-- A number is at most the largest non-negative integer of a value, or at most zero. -/
def AtMostLargest (value : Json) (k : ℤ) : Prop := k ≤ 0 ∨ ∃ n, Holds n value ∧ k ≤ n

/-- Every token is billed once. -/
structure BilledOnce (payload : Json) : Prop where
  /-- Where the counts of a usage object add up, what is billed adds up to the totals. -/
  totals : ∀ usage, payload.get "usage" = some usage → ∀ layout counts (cached : Option ℕ), HasLayout layout usage counts cached →
    (∀ side, (counts side).AddUp) → cached.getD 0 ≤ (counts .input).total →
    (extractUsage payload).billedInput = (counts .input).total ∧
      (extractUsage payload).billedOutput = (counts .output).total
  inputText : AtMostLargest payload (extractUsage payload).inputTextTokens
  cachedInputText : AtMostLargest payload (extractUsage payload).cachedInputTextTokens
  outputText : AtMostLargest payload (extractUsage payload).outputTextTokens
  inputAudio : AtMostLargest payload (extractUsage payload).inputAudioTokens
  outputAudio : AtMostLargest payload (extractUsage payload).outputAudioTokens
  /-- `total_tokens` does not overflow. -/
  fits : (extractUsage payload).totalTokens < 2 ^ 64

/-! ### The condition -/

/-- A count is not read from a negative integer, or the payload holds an integer as large as what this one becomes. -/
def NegativeCovered (payload : Json) (read : Option ℤ) : Prop :=
  ∀ n ∈ read, n < 0 → AtMostLargest payload (2 ^ 64 + n)

namespace Reading

/-- No count of a side is read from a negative integer, or the payload holds one as large as what this one becomes; for
a total that stands in for the text, what the audio leaves of it. -/
structure NegativesCovered (payload : Json) (reading : Reading) : Prop where
  audio : NegativeCovered payload reading.audio
  text : NegativeCovered payload reading.text
  total : reading.text = none → ∀ n ∈ reading.total, n < 0 →
    AtMostLargest payload (2 ^ 64 + n - reading.audio.getD 0 % 2 ^ 64)

/-- The integers read for a side, each modulo `2 ^ 64`: text and audio, or the larger of total and audio where the text
is not given. -/
def tokens (reading : Reading) : ℤ :=
  match reading.text, reading.total with
  | some text, _ => text % 2 ^ 64 + reading.audio.getD 0 % 2 ^ 64
  | none, some total => max (total % 2 ^ 64) (reading.audio.getD 0 % 2 ^ 64)
  | none, none => reading.audio.getD 0 % 2 ^ 64

end Reading

/-- The payloads for which every token is billed once. -/
structure Billable (payload : Json) : Prop where
  /-- Where the counts of a usage object add up, the cached tokens are no more than the text tokens: no cached audio
  that the text does not make up for. -/
  cachedText : ∀ usage, payload.get "usage" = some usage → ∀ layout counts (cached : Option ℕ), HasLayout layout usage counts cached →
    (∀ side, (counts side).AddUp) → cached.getD 0 ≤ (counts .input).total →
    cached.getD 0 ≤ (counts .input).textTokens
  /-- No count comes from a negative integer that nothing in the payload covers. -/
  negatives : ∀ side : Side, (side.read (usageOf payload)).NegativesCovered payload
  cachedNegative : NegativeCovered payload (readCached (usageOf payload))
  /-- The integers read for the two sides are less than `2 ^ 64` together. -/
  fits : (Side.input.read (usageOf payload)).tokens + (Side.output.read (usageOf payload)).tokens < 2 ^ 64

/-! ### What is read stands in the payload -/

theorem holds_of_get {value field : Json} {name : String} {n : ℤ} (hget : value.get name = some field)
    (h : Holds n field) : Holds n value := by
  cases value with
  | obj fields =>
    obtain ⟨before, after, rfl, -⟩ := List.lookup_eq_some_iff.mp hget
    have hmem : (name, field) ∈ before ++ (name, field) :: after :=
      List.mem_append_right before List.mem_cons_self
    exact .field hmem h
  | _ => exact absurd hget (by simp [Json.get])

theorem get_of_firstOf {usage field : Json} {names : List String} (h : firstOf names usage = some field) :
    ∃ name ∈ names, usage.get name = some field := by
  induction names with
  | nil => exact absurd h.symm (Option.some_ne_none _)
  | cons name names ih =>
    obtain hget | ⟨-, hrest⟩ := Option.or_eq_some_iff.mp h
    · exact ⟨name, List.mem_cons_self, hget⟩
    · obtain ⟨other, hmem, hget⟩ := ih hrest
      exact ⟨other, List.mem_cons_of_mem _ hmem, hget⟩

theorem firstOf_eq_none {usage : Json} {names : List String} (h : ∀ name ∈ names, usage.get name = none) :
    firstOf names usage = none := by
  rcases hfirst : firstOf names usage with - | field
  · rfl
  · obtain ⟨name, hmem, hget⟩ := get_of_firstOf hfirst
    exact absurd (hget.symm.trans (h name hmem)) (Option.some_ne_none _)

/-- The one field of a list that an object has. -/
theorem firstOf_eq {usage : Json} {names : List String} {name : String} (hmem : name ∈ names)
    (hothers : ∀ other ∈ names, other ≠ name → usage.get other = none) : firstOf names usage = usage.get name := by
  induction names with
  | nil => exact absurd hmem List.not_mem_nil
  | cons first names ih =>
    have hrest : ∀ other ∈ names, other ≠ name → usage.get other = none := fun other hother =>
      hothers other (List.mem_cons_of_mem _ hother)
    by_cases hfirst : first = name
    · subst hfirst
      rw [firstOf]
      rcases hget : usage.get first with - | field
      · rw [Option.none_or]
        refine firstOf_eq_none fun other hother => ?_
        by_cases heq : other = first
        · rw [heq, hget]
        · exact hrest other hother heq
      · rfl
    · obtain rfl | hmem := List.mem_cons.mp hmem
      · exact absurd rfl hfirst
      · rw [firstOf, hothers first List.mem_cons_self hfirst, Option.none_or]
        exact ih hmem hrest

theorem asInteger_eq_some {value : Json} {n : ℤ} (h : asInteger value = some n) :
    value = .int n ∧ -2 ^ 63 ≤ n ∧ n < 2 ^ 64 := by
  cases value with
  | int m =>
    rw [asInteger] at h
    split at h
    next hfits =>
      obtain rfl := Option.some.inj h
      exact ⟨rfl, hfits⟩
    next => exact absurd h.symm (Option.some_ne_none _)
  | _ => exact absurd h.symm (Option.some_ne_none _)

theorem holds_of_usageOf {payload : Json} {n : ℤ} (h : Holds n (usageOf payload)) : Holds n payload := by
  rw [usageOf] at h
  rcases hget : payload.get "usage" with - | usage
  · rw [hget] at h
    cases h with
    | field hmem => exact absurd hmem List.not_mem_nil
  · rw [hget] at h
    exact holds_of_get hget h

/-- What is read is an integer of the payload that fits 64 bits. -/
def Found (payload : Json) (read : Option ℤ) : Prop :=
  ∀ n ∈ read, Holds n payload ∧ -2 ^ 63 ≤ n ∧ n < 2 ^ 64

section Found

variable {payload : Json}

theorem Found.or {read other : Option ℤ} (h : Found payload read) (hother : Found payload other) :
    Found payload (read.or other) := by
  intro n hn
  obtain hread | ⟨-, hread⟩ := Option.or_eq_some_iff.mp hn
  · exact h n hread
  · exact hother n hread

theorem found_field (names : List String) : Found payload ((firstOf names (usageOf payload)).bind asInteger) := by
  intro n hn
  obtain ⟨field, hfirst, hinteger⟩ := Option.bind_eq_some_iff.mp hn
  obtain ⟨rfl, hfits⟩ := asInteger_eq_some hinteger
  obtain ⟨name, -, hget⟩ := get_of_firstOf hfirst
  exact ⟨holds_of_usageOf (holds_of_get hget .int), hfits⟩

theorem found_detail (side : Side) (name : String) : Found payload (side.detail name (usageOf payload)) := by
  intro n hn
  obtain ⟨field, hfield, hinteger⟩ := Option.bind_eq_some_iff.mp hn
  obtain ⟨details, hfirst, hdetail⟩ := Option.bind_eq_some_iff.mp hfield
  obtain ⟨rfl, hfits⟩ := asInteger_eq_some hinteger
  obtain ⟨names, -, hget⟩ := get_of_firstOf hfirst
  exact ⟨holds_of_usageOf (holds_of_get hget (holds_of_get hdetail .int)), hfits⟩

theorem found_total (side : Side) : Found payload (side.read (usageOf payload)).total :=
  found_field side.totalNames

theorem found_text (side : Side) : Found payload (side.read (usageOf payload)).text :=
  found_detail side "text_tokens"

theorem found_audio (side : Side) : Found payload (side.read (usageOf payload)).audio :=
  (found_detail side "audio_tokens").or (found_field side.audioNames)

theorem found_cached : Found payload (readCached (usageOf payload)) :=
  (found_detail .input "cached_tokens").or (found_field cachedNames)

end Found

/-! ### Counts and the largest integer -/

@[simp] theorem asUnsigned_cast (n : ℤ) : (asUnsigned n : ℤ) = n % 2 ^ 64 :=
  Int.toNat_of_nonneg (Int.emod_nonneg n (by norm_num))

/-- The count of an integer is the integer itself, or `2 ^ 64` more where it is negative. -/
theorem emod_eq_of_fits {n : ℤ} (h : -2 ^ 63 ≤ n ∧ n < 2 ^ 64) : n % 2 ^ 64 = if n < 0 then 2 ^ 64 + n else n := by
  split <;> omega

theorem AtMostLargest.mono {value : Json} {k l : ℤ} (h : AtMostLargest value l) (hle : k ≤ l) :
    AtMostLargest value k := by
  obtain hnonpos | ⟨n, hn, hl⟩ := h
  · exact .inl (hle.trans hnonpos)
  · exact .inr ⟨n, hn, hle.trans hl⟩

section Largest

variable {payload : Json} {read : Option ℤ}

/-- A count that is read is at most the largest integer when it is not read from a negative one, or that is covered. -/
theorem atMostLargest_iff (hfound : Found payload read) :
    AtMostLargest payload ((read.map asUnsigned).getD 0 : ℕ) ↔ NegativeCovered payload read := by
  obtain - | n := read
  · exact ⟨fun _ n hn => absurd hn.symm (Option.some_ne_none _), fun _ => .inl le_rfl⟩
  obtain ⟨hholds, hfits⟩ := hfound n rfl
  rw [Option.map_some, Option.getD_some, asUnsigned_cast, emod_eq_of_fits hfits]
  constructor
  · intro h m hm hneg
    obtain rfl := Option.some.inj hm
    rwa [if_pos hneg] at h
  · intro h
    split
    next hneg => exact h n rfl hneg
    next => exact .inr ⟨n, hholds, le_rfl⟩

end Largest

namespace Reading

variable {payload : Json} {reading : Reading}

theorem audioCount_cast (reading : Reading) : (reading.audioCount : ℤ) = reading.audio.getD 0 % 2 ^ 64 := by
  rw [audioCount]
  rcases reading.audio with - | n
  · rfl
  · exact asUnsigned_cast n

/-- The text of a side is at most the largest integer, where the total stands in for it. -/
theorem atMostLargest_total_iff (hfound : Found payload reading.total) (htext : reading.text = none) :
    AtMostLargest payload reading.textCount ↔
      ∀ n ∈ reading.total, n < 0 → AtMostLargest payload (2 ^ 64 + n - reading.audio.getD 0 % 2 ^ 64) := by
  rw [textCount, htext, Option.map_none, Option.none_or, ← audioCount_cast]
  rcases htotal : reading.total with - | n
  · exact ⟨fun _ n hn => absurd hn.symm (Option.some_ne_none _), fun _ => .inl le_rfl⟩
  obtain ⟨hholds, hfits⟩ := hfound n htotal
  have hcount := asUnsigned_cast n
  rw [emod_eq_of_fits hfits] at hcount
  rw [Option.map_some, Option.getD_some]
  constructor
  · intro h m hm hneg
    obtain rfl := Option.some.inj hm
    rw [if_pos hneg] at hcount
    exact h.mono (by omega)
  · intro h
    split at hcount
    next hneg =>
      obtain hnonpos | ⟨m, hm, hle⟩ := h n rfl hneg
      · exact .inl (by omega)
      · by_cases hzero : asUnsigned n ≤ reading.audioCount
        · exact .inl (by omega)
        · exact .inr ⟨m, hm, by omega⟩
    next => exact .inr ⟨n, hholds, by omega⟩

/-- The counts of a side are at most the largest integer when its negative integers are covered. -/
theorem atMostLargest_iff (htotal : Found payload reading.total) (htext : Found payload reading.text)
    (haudio : Found payload reading.audio) :
    AtMostLargest payload reading.textCount ∧ AtMostLargest payload reading.audioCount ↔
      reading.NegativesCovered payload := by
  have haudioIff : AtMostLargest payload reading.audioCount ↔ NegativeCovered payload reading.audio :=
    Accounting.atMostLargest_iff haudio
  rcases hread : reading.text with - | text
  · have htotalIff := atMostLargest_total_iff htotal hread
    constructor
    · intro ⟨hcount, haudioCount⟩
      exact ⟨haudioIff.mp haudioCount, hread ▸ fun n hn => absurd hn.symm (Option.some_ne_none _), fun _ => htotalIff.mp hcount⟩
    · intro h
      exact ⟨htotalIff.mpr (h.total hread), haudioIff.mpr h.audio⟩
  · have htextIff : AtMostLargest payload reading.textCount ↔ NegativeCovered payload reading.text := by
      rw [← Accounting.atMostLargest_iff htext, textCount, hread, Option.map_some, Option.some_or]
    constructor
    · intro ⟨hcount, haudioCount⟩
      exact ⟨haudioIff.mp haudioCount, htextIff.mp hcount, fun hnone => absurd (hread.symm.trans hnone) (Option.some_ne_none _)⟩
    · intro h
      exact ⟨htextIff.mpr h.text, haudioIff.mpr h.audio⟩

/-- The two counts of a side add up to what is read for it. -/
theorem tokens_eq (reading : Reading) : reading.tokens = reading.textCount + reading.audioCount := by
  rw [tokens, textCount, audioCount_cast]
  rcases reading.text with - | text
  · rcases reading.total with - | total
    · simp
    · have hcount := asUnsigned_cast total
      have haudio := audioCount_cast reading
      simp only [Option.map_none, Option.map_some, Option.none_or, Option.getD_some]
      omega
  · rw [Option.map_some, Option.some_or, Option.getD_some, asUnsigned_cast]

end Reading

/-! ### Reading a layout -/

namespace Layout

theorem totalName_mem (layout : Layout) (side : Side) : layout.totalName side ∈ side.totalNames := by
  cases layout <;> cases side <;> simp [totalName, Side.totalNames]

theorem detailsName_mem (layout : Layout) (side : Side) : layout.detailsName side ∈ side.detailsNames := by
  cases layout <;> cases side <;> simp [detailsName, Side.detailsNames]

end Layout

theorem States.asInteger_eq {field : Option Json} {count : Option ℕ} (h : States field count) :
    field.bind asInteger = count.map Nat.cast := by
  obtain - | n := count
  · obtain rfl | rfl := h
    · rfl
    · rfl
  · obtain ⟨rfl, hlt⟩ := h
    have hfits : -2 ^ 63 ≤ (n : ℤ) ∧ (n : ℤ) < 2 ^ 64 := by omega
    rw [Option.bind_some, asInteger, if_pos hfits, Option.map_some]

/-- A count of a layout is read as it stands. -/
theorem States.asUnsigned_eq {field : Option Json} {count : Option ℕ} (h : States field count) :
    (count.map Nat.cast).map asUnsigned = count := by
  obtain - | n := count
  · rfl
  · have hlt : n < 2 ^ 64 := h.2
    have hmod : asUnsigned n = n := by
      rw [asUnsigned, Int.emod_eq_of_lt (Int.natCast_nonneg n) (by exact_mod_cast hlt), Int.toNat_natCast]
    rw [Option.map_some, Option.map_some, hmod]

namespace HasLayout

variable {layout : Layout} {usage : Json} {counts : Side → SideCounts} {cached : Option ℕ}

theorem firstOf_details (h : HasLayout layout usage counts cached) (side : Side) :
    firstOf side.detailsNames usage = usage.get (layout.detailsName side) :=
  firstOf_eq (layout.detailsName_mem side) (h.otherDetails side)

/-- What is read for a side of a layout: the counts of the side. -/
theorem read_eq (h : HasLayout layout usage counts cached) (side : Side) :
    side.read usage =
      { total := some (counts side).total
        text := (counts side).text.map Nat.cast
        audio := (counts side).audio.map Nat.cast } := by
  have htotal : (firstOf side.totalNames usage).bind asInteger = some ((counts side).total : ℤ) := by
    rw [firstOf_eq (layout.totalName_mem side) (h.otherTotal side)]
    exact (h.total side).asInteger_eq
  have htext : side.detail "text_tokens" usage = (counts side).text.map Nat.cast := by
    rw [Side.detail, h.firstOf_details]
    exact (h.text side).asInteger_eq
  have haudio : side.detail "audio_tokens" usage = (counts side).audio.map Nat.cast := by
    rw [Side.detail, h.firstOf_details]
    exact (h.audio side).asInteger_eq
  have hother : firstOf side.audioNames usage = none := firstOf_eq_none (h.otherAudio side)
  rw [Side.read, htotal, htext, haudio, hother, Option.bind_none, Option.or_none]

theorem readCached_eq (h : HasLayout layout usage counts cached) : readCached usage = cached.map Nat.cast := by
  have hdetail : Side.input.detail "cached_tokens" usage = cached.map Nat.cast := by
    rw [Side.detail, h.firstOf_details]
    exact h.cached.asInteger_eq
  have hother : firstOf cachedNames usage = none := firstOf_eq_none h.otherCached
  rw [readCached, hdetail, hother, Option.bind_none, Option.or_none]

theorem audioCount_eq (h : HasLayout layout usage counts cached) (side : Side) :
    (side.read usage).audioCount = (counts side).audioTokens := by
  rw [h.read_eq, Reading.audioCount, (h.audio side).asUnsigned_eq]
  rfl

theorem textCount_eq (h : HasLayout layout usage counts cached) (side : Side) :
    (side.read usage).textCount = (counts side).textTokens := by
  have haudio := h.audioCount_eq side
  have htotal : asUnsigned (counts side).total = (counts side).total :=
    Option.some.inj (h.total side).asUnsigned_eq
  rw [Reading.textCount, haudio, h.read_eq, (h.text side).asUnsigned_eq, Option.map_some, htotal, SideCounts.textTokens]
  rcases (counts side).text with - | text
  · rfl
  · rfl

/-- What is billed for a payload whose usage object has a layout. -/
theorem extractUsage_eq (h : HasLayout layout usage counts cached) {payload : Json}
    (hpayload : payload.get "usage" = some usage) :
    extractUsage payload =
      { inputTextTokens := (counts .input).textTokens
        cachedInputTextTokens := cached.getD 0
        outputTextTokens := (counts .output).textTokens
        inputAudioTokens := (counts .input).audioTokens
        outputAudioTokens := (counts .output).audioTokens } := by
  have husage : usageOf payload = usage := by rw [usageOf, hpayload, Option.getD_some]
  rw [Accounting.extractUsage_eq, husage, h.textCount_eq, h.textCount_eq, h.audioCount_eq, h.audioCount_eq,
    h.readCached_eq, h.cached.asUnsigned_eq]

/-- What is billed adds up to the totals exactly when the cached tokens are no more than the text tokens. -/
theorem billed_iff (h : HasLayout layout usage counts cached) {payload : Json}
    (hpayload : payload.get "usage" = some usage) (haddUp : ∀ side, (counts side).AddUp) :
    (extractUsage payload).billedInput = (counts .input).total ∧
        (extractUsage payload).billedOutput = (counts .output).total ↔
      cached.getD 0 ≤ (counts .input).textTokens := by
  have hinput : (counts .input).textTokens + (counts .input).audioTokens = (counts .input).total := haddUp .input
  have houtput : (counts .output).textTokens + (counts .output).audioTokens = (counts .output).total := haddUp .output
  rw [h.extractUsage_eq hpayload, TokenUsage.billedInput, TokenUsage.billedOutput, TokenUsage.uncachedInputText]
  dsimp only
  omega

end HasLayout

/-! ### Which payloads are billed once -/

/-- **Every token is billed once** exactly for the payloads whose cached tokens are no more than their text tokens
wherever the counts add up, whose negative integers are covered, and whose integers fit 64 bits together. -/
theorem billedOnce_iff (payload : Json) : BilledOnce payload ↔ Billable payload := by
  have hside : ∀ side : Side,
      AtMostLargest payload (side.read (usageOf payload)).textCount ∧
          AtMostLargest payload (side.read (usageOf payload)).audioCount ↔
        (side.read (usageOf payload)).NegativesCovered payload := fun side =>
    Reading.atMostLargest_iff (found_total side) (found_text side) (found_audio side)
  have hcached : AtMostLargest payload (((readCached (usageOf payload)).map asUnsigned).getD 0 : ℕ) ↔
      NegativeCovered payload (readCached (usageOf payload)) := atMostLargest_iff found_cached
  have hinputTokens := (Side.input.read (usageOf payload)).tokens_eq
  have houtputTokens := (Side.output.read (usageOf payload)).tokens_eq
  have husage := extractUsage_eq payload
  constructor
  · intro h
    have hinputText := h.inputText
    have hcachedText := h.cachedInputText
    have houtputText := h.outputText
    have hinputAudio := h.inputAudio
    have houtputAudio := h.outputAudio
    have hfits := h.fits
    rw [husage] at hinputText hcachedText houtputText hinputAudio houtputAudio hfits
    refine ⟨?_, ?_, hcached.mp hcachedText, ?_⟩
    · intro usage hget layout counts cached hlayout haddUp hle
      exact (hlayout.billed_iff hget haddUp).mp (h.totals usage hget layout counts cached hlayout haddUp hle)
    · intro side
      cases side with
      | input => exact (hside .input).mp ⟨hinputText, hinputAudio⟩
      | output => exact (hside .output).mp ⟨houtputText, houtputAudio⟩
    · rw [TokenUsage.totalTokens] at hfits
      dsimp only at hfits
      omega
  · intro h
    obtain ⟨hinputText, hinputAudio⟩ := (hside .input).mpr (h.negatives .input)
    obtain ⟨houtputText, houtputAudio⟩ := (hside .output).mpr (h.negatives .output)
    have hfits := h.fits
    refine ⟨?_, ?_, ?_, ?_, ?_, ?_, ?_⟩
    · intro usage hget layout counts cached hlayout haddUp hle
      exact (hlayout.billed_iff hget haddUp).mpr (h.cachedText usage hget layout counts cached hlayout haddUp hle)
    · rw [husage]
      exact hinputText
    · rw [husage]
      exact hcached.mpr h.cachedNegative
    · rw [husage]
      exact houtputText
    · rw [husage]
      exact hinputAudio
    · rw [husage]
      exact houtputAudio
    · rw [husage, TokenUsage.totalTokens]
      dsimp only
      omega

/-- A realtime usage object of 100 input tokens, 90 of them audio and 50 of them cached. -/
def cachedAudioUsage : Json :=
  .obj [("input_tokens", .int 100), ("output_tokens", .int 0),
    ("input_token_details", .obj [("text_tokens", .int 10), ("audio_tokens", .int 90), ("cached_tokens", .int 50)])]

/-- The counts of `cachedAudioUsage`. -/
def cachedAudioCounts : Side → SideCounts
  | .input => ⟨100, some 10, some 90⟩
  | .output => ⟨0, none, none⟩

theorem cachedAudioUsage_hasLayout : HasLayout .realtime cachedAudioUsage cachedAudioCounts (some 50) := by
  refine ⟨?_, ?_, ?_, ⟨rfl, by norm_num⟩, ?_, ?_, ?_, ?_⟩
  · intro side
    cases side with
    | input => exact ⟨rfl, by norm_num [cachedAudioCounts]⟩
    | output => exact ⟨rfl, by norm_num [cachedAudioCounts]⟩
  · intro side
    cases side with
    | input => exact ⟨rfl, by norm_num⟩
    | output => exact .inl rfl
  · intro side
    cases side with
    | input => exact ⟨rfl, by norm_num⟩
    | output => exact .inl rfl
  · intro side
    cases side <;> simp [Side.totalNames, Layout.totalName, cachedAudioUsage, Json.get]
  · intro side
    cases side <;> simp [Side.detailsNames, Layout.detailsName, cachedAudioUsage, Json.get]
  · intro side
    cases side <;> simp [Side.audioNames, cachedAudioUsage, Json.get]
  · simp [cachedNames, cachedAudioUsage, Json.get]

/-- Of the 100 input tokens of `cachedAudioUsage` 140 are billed: 50 as cached text and 90 as audio. -/
theorem not_billedOnce : ¬ BilledOnce (.obj [("usage", cachedAudioUsage)]) := by
  intro h
  have haddUp : ∀ side, (cachedAudioCounts side).AddUp := by
    intro side
    cases side <;> rfl
  have hcached : (50 : ℕ) ≤ (cachedAudioCounts .input).total := by decide
  have hbilled := (h.totals cachedAudioUsage rfl .realtime _ _ cachedAudioUsage_hasLayout haddUp hcached).1
  have hcount : (extractUsage (.obj [("usage", cachedAudioUsage)])).billedInput = 140 := by decide
  exact absurd (hcount.symm.trans hbilled) (by decide)

end AgentVoice.Accounting

import AgentVoice.Foundations.Json
import Mathlib.Data.List.Nodup

/-!
# Keys of JSON objects

The text of an object may write a key more than once. A reader either refuses such an object (`uniqueValue`) or keeps
the last value of each key (`lastValues`); where no object repeats a key, they read the same value
(`uniqueValue_eq_some_iff`). `JsonObject` are the entries of an object as a map: `erase` takes a key out, `put` sets one.
-/

namespace AgentVoice.Foundations

/-- The entries of an object. -/
abbrev JsonObject := List (String × Json)

namespace JsonObject

def keys (fields : JsonObject) : List String := fields.map Prod.fst

/-- The entries without a key. -/
def erase (key : String) (fields : JsonObject) : JsonObject := fields.filter fun entry => entry.1 != key

/-- The entries with a key set to a value. -/
def put (key : String) (value : Json) (fields : JsonObject) : JsonObject := erase key fields ++ [(key, value)]

theorem mem_keys_erase {key k : String} {fields : JsonObject} : k ∈ (erase key fields).keys ↔ k ∈ fields.keys ∧ k ≠ key := by
  simp only [keys, erase, List.mem_map, List.mem_filter, bne_iff_ne]
  constructor
  · rintro ⟨entry, ⟨hmem, hne⟩, rfl⟩
    exact ⟨⟨entry, hmem, rfl⟩, hne⟩
  · rintro ⟨⟨entry, hmem, rfl⟩, hne⟩
    exact ⟨entry, ⟨hmem, hne⟩, rfl⟩

theorem mem_keys_put {key k : String} {value : Json} {fields : JsonObject} :
    k ∈ (put key value fields).keys ↔ k ∈ fields.keys ∧ k ≠ key ∨ k = key := by
  rw [put, keys, List.map_append, List.mem_append, ← keys, mem_keys_erase, List.map_singleton, List.mem_singleton]

theorem erase_of_not_mem {key : String} {fields : JsonObject} (h : key ∉ fields.keys) : erase key fields = fields := by
  rw [erase, List.filter_eq_self]
  intro entry hentry
  exact bne_iff_ne.mpr fun heq => h (heq ▸ List.mem_map_of_mem hentry)

theorem lookup_erase_of_ne {key k : String} (h : k ≠ key) (fields : JsonObject) :
    (erase key fields).lookup k = fields.lookup k := by
  induction fields with
  | nil => rfl
  | cons entry fields ih =>
    obtain ⟨name, value⟩ := entry
    by_cases hkey : name = key
    · subst hkey
      rw [erase, List.filter_cons_of_neg (by simp), ← erase, ih, List.lookup_cons, beq_false_of_ne h]
    · rw [erase, List.filter_cons_of_pos (by simpa using hkey), ← erase, List.lookup_cons, List.lookup_cons, ih]

end JsonObject

namespace Json

/-! ### The two readers of a written value -/

mutual

/-- The value in which every key keeps the last value written for it. -/
def lastValues : Json → Json
  | .arr items => .arr (lastItems items)
  | .obj fields => .obj (lastFields fields [])
  | value => value

def lastItems : List Json → List Json
  | [] => []
  | item :: items => lastValues item :: lastItems items

def lastFields : List (String × Json) → JsonObject → JsonObject
  | [], read => read
  | (key, value) :: fields, read => lastFields fields (JsonObject.put key (lastValues value) read)

end

mutual

/-- The value, unless an object in it repeats a key. -/
def uniqueValue : Json → Option Json
  | .arr items => (uniqueItems items).map .arr
  | .obj fields => (uniqueFields fields []).map .obj
  | value => some value

def uniqueItems : List Json → Option (List Json)
  | [] => some []
  | item :: items => do
    let item ← uniqueValue item
    let items ← uniqueItems items
    some (item :: items)

def uniqueFields : List (String × Json) → JsonObject → Option JsonObject
  | [], read => some read
  | (key, value) :: fields, read =>
    if key ∈ read.keys then none
    else do
      let value ← uniqueValue value
      uniqueFields fields (JsonObject.put key value read)

end

/-- An object in the value repeats a key. -/
inductive RepeatsKey : Json → Prop where
  | item {items : List Json} {item : Json} (hitem : item ∈ items) (h : RepeatsKey item) : RepeatsKey (.arr items)
  | value {fields : List (String × Json)} {key : String} {value : Json} (hentry : (key, value) ∈ fields)
      (h : RepeatsKey value) : RepeatsKey (.obj fields)
  | key {fields : List (String × Json)} (h : ¬ (fields.map Prod.fst).Nodup) : RepeatsKey (.obj fields)

theorem repeatsKey_arr_iff {items : List Json} : RepeatsKey (.arr items) ↔ ∃ item ∈ items, RepeatsKey item := by
  constructor
  · rintro (⟨hitem, h⟩ | _ | _)
    exact ⟨_, hitem, h⟩
  · rintro ⟨item, hitem, h⟩
    exact .item hitem h

theorem repeatsKey_obj_iff {fields : List (String × Json)} :
    RepeatsKey (.obj fields) ↔ ¬ (fields.map Prod.fst).Nodup ∨ ∃ entry ∈ fields, RepeatsKey entry.2 := by
  constructor
  · rintro (_ | ⟨hentry, h⟩ | h)
    · exact Or.inr ⟨_, hentry, h⟩
    · exact Or.inl h
  · rintro (h | ⟨entry, hentry, h⟩)
    · exact .key h
    · exact .value hentry h

mutual

/-- **The strict reader** refuses the values that repeat a key, and reads the others as the lenient one does. -/
theorem uniqueValue_eq_some_iff : ∀ (value : Json) {read : Json},
    uniqueValue value = some read ↔ ¬ RepeatsKey value ∧ read = lastValues value
  | .null, read => by simpa [uniqueValue, lastValues, eq_comm] using fun _ => nofun
  | .bool b, read => by simpa [uniqueValue, lastValues, eq_comm] using fun _ => nofun
  | .int n, read => by simpa [uniqueValue, lastValues, eq_comm] using fun _ => nofun
  | .float text, read => by simpa [uniqueValue, lastValues, eq_comm] using fun _ => nofun
  | .str s, read => by simpa [uniqueValue, lastValues, eq_comm] using fun _ => nofun
  | .arr items, read => by
    rw [uniqueValue, lastValues, repeatsKey_arr_iff, Option.map_eq_some_iff]
    simp only [uniqueItems_eq_some_iff items, not_exists, not_and]
    constructor
    · rintro ⟨_, ⟨hitems, rfl⟩, rfl⟩
      exact ⟨hitems, rfl⟩
    · rintro ⟨hitems, rfl⟩
      exact ⟨_, ⟨hitems, rfl⟩, rfl⟩
  | .obj fields, read => by
    rw [uniqueValue, lastValues, repeatsKey_obj_iff, Option.map_eq_some_iff]
    simp only [uniqueFields_eq_some_iff fields, not_or, not_exists, not_and, not_not]
    constructor
    · rintro ⟨_, ⟨hvalues, hkeys, -, rfl⟩, rfl⟩
      exact ⟨⟨hkeys, hvalues⟩, rfl⟩
    · rintro ⟨⟨hkeys, hvalues⟩, rfl⟩
      exact ⟨_, ⟨hvalues, hkeys, fun _ _ => List.not_mem_nil, rfl⟩, rfl⟩

theorem uniqueItems_eq_some_iff : ∀ (items : List Json) {read : List Json},
    uniqueItems items = some read ↔ (∀ item ∈ items, ¬ RepeatsKey item) ∧ read = lastItems items
  | [], read => by simp [uniqueItems, lastItems, eq_comm]
  | item :: items, read => by
    rw [uniqueItems, lastItems]
    simp only [Option.bind_eq_bind, Option.bind_eq_some_iff, uniqueValue_eq_some_iff item,
      uniqueItems_eq_some_iff items, List.forall_mem_cons, Option.some.injEq]
    constructor
    · rintro ⟨_, ⟨hitem, rfl⟩, _, ⟨hitems, rfl⟩, rfl⟩
      exact ⟨⟨hitem, hitems⟩, rfl⟩
    · rintro ⟨⟨hitem, hitems⟩, rfl⟩
      exact ⟨_, ⟨hitem, rfl⟩, _, ⟨hitems, rfl⟩, rfl⟩

theorem uniqueFields_eq_some_iff : ∀ (fields : List (String × Json)) {before read : JsonObject},
    uniqueFields fields before = some read ↔
      (∀ entry ∈ fields, ¬ RepeatsKey entry.2) ∧ (fields.map Prod.fst).Nodup ∧
        (∀ k ∈ fields.map Prod.fst, k ∉ before.keys) ∧ read = lastFields fields before
  | [], before, read => by simp [uniqueFields, lastFields, eq_comm]
  | (key, value) :: fields, before, read => by
    rw [uniqueFields, lastFields]
    by_cases hkey : key ∈ before.keys
    · rw [if_pos hkey]
      refine iff_of_false nofun ?_
      rintro ⟨-, -, hfresh, -⟩
      exact hfresh key (by simp) hkey
    · rw [if_neg hkey]
      simp only [Option.bind_eq_bind, Option.bind_eq_some_iff, uniqueValue_eq_some_iff value,
        uniqueFields_eq_some_iff fields, List.forall_mem_cons, List.map_cons, List.nodup_cons, JsonObject.mem_keys_put]
      constructor
      · rintro ⟨_, ⟨hvalue, rfl⟩, hvalues, hkeys, hfresh, rfl⟩
        refine ⟨⟨hvalue, hvalues⟩, ⟨fun hmem => hfresh key hmem (Or.inr rfl), hkeys⟩, ⟨hkey, ?_⟩, rfl⟩
        exact fun k hk hmem => hfresh k hk (Or.inl ⟨hmem, fun heq => hfresh k hk (Or.inr heq)⟩)
      · rintro ⟨⟨hvalue, hvalues⟩, ⟨hnew, hkeys⟩, ⟨-, hfresh⟩, rfl⟩
        refine ⟨_, ⟨hvalue, rfl⟩, hvalues, hkeys, fun k hk => ?_, rfl⟩
        rintro (⟨hmem, -⟩ | rfl)
        · exact hfresh k hk hmem
        · exact hnew hk

end

mutual

/-- **Every value that was written is the last of its key**, in a value that repeats no key. -/
theorem lastValues_of_not_repeatsKey : ∀ (value : Json), ¬ RepeatsKey value → lastValues value = value
  | .null, _ => rfl
  | .bool _, _ => rfl
  | .int _, _ => rfl
  | .float _, _ => rfl
  | .str _, _ => rfl
  | .arr items, h => by
    rw [repeatsKey_arr_iff] at h
    push Not at h
    rw [lastValues, lastItems_of_not_repeatsKey items h]
  | .obj fields, h => by
    rw [repeatsKey_obj_iff] at h
    push Not at h
    rw [lastValues, lastFields_of_not_repeatsKey fields [] h.2 h.1 fun _ _ => List.not_mem_nil]
    rfl

theorem lastItems_of_not_repeatsKey : ∀ (items : List Json), (∀ item ∈ items, ¬ RepeatsKey item) →
    lastItems items = items
  | [], _ => rfl
  | item :: items, h => by
    rw [lastItems, lastValues_of_not_repeatsKey item (h item List.mem_cons_self),
      lastItems_of_not_repeatsKey items fun item hitem => h item (List.mem_cons_of_mem _ hitem)]

theorem lastFields_of_not_repeatsKey : ∀ (fields : List (String × Json)) (before : JsonObject),
    (∀ entry ∈ fields, ¬ RepeatsKey entry.2) → (fields.map Prod.fst).Nodup →
      (∀ k ∈ fields.map Prod.fst, k ∉ before.keys) → lastFields fields before = before ++ fields
  | [], before, _, _, _ => by rw [lastFields, List.append_nil]
  | (key, value) :: fields, before, hvalues, hkeys, hfresh => by
    obtain ⟨hkey, hrest⟩ := List.nodup_cons.mp hkeys
    have hnew : key ∉ before.keys := hfresh key List.mem_cons_self
    rw [lastFields, lastValues_of_not_repeatsKey value (hvalues (key, value) List.mem_cons_self), JsonObject.put,
      JsonObject.erase_of_not_mem hnew,
      lastFields_of_not_repeatsKey fields _ (fun entry hentry => hvalues entry (List.mem_cons_of_mem _ hentry)) hrest,
      List.append_assoc]
    · rfl
    · intro k hk hmem
      rw [JsonObject.keys, List.map_append, List.mem_append, List.map_singleton, List.mem_singleton] at hmem
      rcases hmem with hmem | rfl
      · exact hfresh k (List.mem_cons_of_mem _ hk) hmem
      · exact hkey hk

end

theorem uniqueValue_of_not_repeatsKey {value : Json} (h : ¬ RepeatsKey value) : uniqueValue value = some value :=
  (uniqueValue_eq_some_iff value).mpr ⟨h, (lastValues_of_not_repeatsKey value h).symm⟩

end Json

end AgentVoice.Foundations

import Mathlib

/-!
# Ordered maps

A map whose keys are ordered is the list of its entries with ascending keys (`BTreeMap`). Two maps that give every key the
same value are one list (`SortedMap.ext_find`), so that what is built in any order comes out in one order. The one
operation is `upsert`, which makes the value of a key of the value it has, if it has one.
-/

namespace AgentVoice.Foundations

universe u v

/-- The entries of an ordered map. -/
structure SortedMap (κ : Type u) (ν : Type v) [LinearOrder κ] where
  entries : List (κ × ν)
  ascending : entries.Pairwise fun entry later => entry.1 < later.1

namespace SortedMap

variable {κ : Type u} {ν : Type v} [LinearOrder κ]

/-- The map without entries. -/
def empty : SortedMap κ ν := ⟨[], .nil⟩

/-- The value of a key among entries. -/
def findIn (key : κ) : List (κ × ν) → Option ν
  | [] => none
  | entry :: entries => if entry.1 = key then some entry.2 else findIn key entries

/-- The value of a key. -/
def find (m : SortedMap κ ν) (key : κ) : Option ν := findIn key m.entries

/-- The values in the order of their keys. -/
def values (m : SortedMap κ ν) : List ν := m.entries.map Prod.snd

/-- `upsert`, on the entries. -/
def upsertIn (key : κ) (f : Option ν → ν) : List (κ × ν) → List (κ × ν)
  | [] => [(key, f none)]
  | entry :: entries =>
    if key < entry.1 then (key, f none) :: entry :: entries
    else if key = entry.1 then (key, f (some entry.2)) :: entries
    else entry :: upsertIn key f entries

section

variable {key key' : κ} {f : Option ν → ν} {entries : List (κ × ν)}

theorem mem_upsertIn {entry : κ × ν} (h : entry ∈ upsertIn key f entries) : entry.1 = key ∨ entry ∈ entries := by
  induction entries with
  | nil =>
    rw [List.mem_singleton.mp h]
    exact .inl rfl
  | cons first entries ih =>
    rw [upsertIn] at h
    split_ifs at h with hlt heq
    · rcases List.mem_cons.mp h with rfl | h
      · exact .inl rfl
      · exact .inr h
    · rcases List.mem_cons.mp h with rfl | h
      · exact .inl rfl
      · exact .inr (List.mem_cons_of_mem _ h)
    · rcases List.mem_cons.mp h with rfl | h
      · exact .inr List.mem_cons_self
      · exact (ih h).imp_right (List.mem_cons_of_mem _)

theorem ascending_upsertIn (h : entries.Pairwise fun entry later => entry.1 < later.1) :
    (upsertIn key f entries).Pairwise fun entry later => entry.1 < later.1 := by
  induction entries with
  | nil => exact List.pairwise_singleton _ _
  | cons first entries ih =>
    obtain ⟨hfirst, hentries⟩ := List.pairwise_cons.mp h
    rw [upsertIn]
    split_ifs with hlt heq
    · refine List.pairwise_cons.mpr ⟨fun entry hentry => ?_, h⟩
      rcases List.mem_cons.mp hentry with rfl | hentry
      · exact hlt
      · exact hlt.trans (hfirst entry hentry)
    · exact List.pairwise_cons.mpr ⟨fun entry hentry => heq ▸ hfirst entry hentry, hentries⟩
    · refine List.pairwise_cons.mpr ⟨fun entry hentry => ?_, ih hentries⟩
      rcases mem_upsertIn hentry with rfl | hentry
      · exact lt_of_le_of_ne (not_lt.mp hlt) (Ne.symm heq)
      · exact hfirst entry hentry

theorem findIn_eq_none (h : ∀ entry ∈ entries, entry.1 ≠ key) : findIn key entries = none := by
  induction entries with
  | nil => rfl
  | cons first entries ih =>
    obtain ⟨hfirst, hentries⟩ := List.forall_mem_cons.mp h
    rw [findIn, if_neg hfirst, ih hentries]

theorem findIn_upsertIn (h : entries.Pairwise fun entry later => entry.1 < later.1) :
    findIn key' (upsertIn key f entries) = if key' = key then some (f (findIn key entries)) else findIn key' entries := by
  induction entries with
  | nil =>
    rw [upsertIn, findIn, findIn]
    exact if_congr eq_comm rfl rfl
  | cons first entries ih =>
    obtain ⟨hfirst, hentries⟩ := List.pairwise_cons.mp h
    rw [upsertIn]
    split_ifs with hlt heq hkey hkey hkey
    · have hnone : findIn key (first :: entries) = none := by
        refine findIn_eq_none fun entry hentry => ?_
        rcases List.mem_cons.mp hentry with rfl | hentry
        · exact ne_of_gt hlt
        · exact ne_of_gt (hlt.trans (hfirst entry hentry))
      rw [findIn, if_pos heq.symm, hnone]
    · rw [findIn, if_neg (Ne.symm heq)]
    · rw [findIn, if_pos hkey.symm, findIn, if_pos (by rw [‹key = first.1›])]
    · rw [findIn, if_neg (Ne.symm hkey), findIn, if_neg (by rw [← ‹key = first.1›]; exact Ne.symm hkey)]
    · rw [findIn, if_neg (by rw [hkey]; exact Ne.symm ‹¬ key = first.1›), ih hentries, if_pos hkey, findIn,
        if_neg (Ne.symm ‹¬ key = first.1›)]
    · rw [findIn, findIn, ih hentries, if_neg hkey]

end

/-- The value of a key made of the value it has: `entry(key).and_modify(..).or_insert_with(..)`. -/
def upsert (m : SortedMap κ ν) (key : κ) (f : Option ν → ν) : SortedMap κ ν :=
  ⟨upsertIn key f m.entries, ascending_upsertIn m.ascending⟩

/-- `collect`: the entries inserted one after the other, the last one of a key kept. -/
def ofEntries (entries : List (κ × ν)) : SortedMap κ ν :=
  entries.foldl (fun m entry => m.upsert entry.1 fun _ => entry.2) empty

/-! ### What a key has -/

section

variable {m m' : SortedMap κ ν} {key key' : κ} {f : Option ν → ν}

@[simp] theorem find_empty : (empty : SortedMap κ ν).find key = none := rfl

theorem find_upsert : (m.upsert key f).find key' = if key' = key then some (f (m.find key)) else m.find key' :=
  findIn_upsertIn m.ascending

theorem findIn_of_mem {entries : List (κ × ν)} (h : entries.Pairwise fun entry later => entry.1 ≠ later.1)
    {entry : κ × ν} (hentry : entry ∈ entries) : findIn entry.1 entries = some entry.2 := by
  induction entries with
  | nil => cases hentry
  | cons first entries ih =>
    obtain ⟨hfirst, hentries⟩ := List.pairwise_cons.mp h
    rcases List.mem_cons.mp hentry with rfl | hentry
    · rw [findIn, if_pos rfl]
    · rw [findIn, if_neg (hfirst entry hentry), ih hentries hentry]

theorem mem_of_findIn {entries : List (κ × ν)} {value : ν} (h : findIn key entries = some value) :
    (key, value) ∈ entries := by
  induction entries with
  | nil => cases h
  | cons first entries ih =>
    rw [findIn] at h
    split_ifs at h with hkey
    · rw [← hkey, ← Option.some.inj h]
      exact List.mem_cons_self
    · exact List.mem_cons_of_mem _ (ih h)

theorem keys_ne (m : SortedMap κ ν) : m.entries.Pairwise fun entry later => entry.1 ≠ later.1 :=
  m.ascending.imp fun h => ne_of_lt h

theorem find_eq_some_iff {value : ν} : m.find key = some value ↔ (key, value) ∈ m.entries :=
  ⟨mem_of_findIn, fun h => findIn_of_mem m.keys_ne h⟩

/-- **Two maps that give every key the same value are the same entries.** -/
theorem ext_find (h : ∀ key, m.find key = m'.find key) : m = m' := by
  have hmem : ∀ entry, entry ∈ m.entries ↔ entry ∈ m'.entries := by
    intro entry
    rw [← find_eq_some_iff, ← find_eq_some_iff, h]
  have hnodup : ∀ m : SortedMap κ ν, m.entries.Nodup := fun m => m.keys_ne.imp fun hne heq => hne (congrArg Prod.fst heq)
  have hperm := (List.perm_ext_iff_of_nodup (hnodup m) (hnodup m')).mpr hmem
  have hentries : m.entries = m'.entries := by
    refine hperm.eq_of_pairwise (fun entry later _ _ hlt hgt => ?_) m.ascending m'.ascending
    exact absurd (hlt.trans hgt) (lt_irrefl _)
  obtain ⟨entries, hascending⟩ := m
  obtain ⟨entries', hascending'⟩ := m'
  obtain rfl : entries = entries' := hentries
  rfl

/-! ### Collecting -/

/-- What a key has after entries have been merged one after the other, their keys different. -/
theorem find_foldl_upsert {μ : Type*} {g : μ → Option ν → ν} {entries : List (κ × μ)}
    (h : entries.Pairwise fun entry later => entry.1 ≠ later.1) (m : SortedMap κ ν) :
    (entries.foldl (fun m entry => m.upsert entry.1 (g entry.2)) m).find key =
      match findIn key entries with
      | some value => some (g value (m.find key))
      | none => m.find key := by
  induction entries generalizing m with
  | nil => rfl
  | cons first entries ih =>
    obtain ⟨hfirst, hentries⟩ := List.pairwise_cons.mp h
    rw [List.foldl_cons, ih hentries, find_upsert, findIn]
    by_cases hkey : key = first.1
    · have hnone : findIn key entries = none :=
        findIn_eq_none fun entry hentry => hkey ▸ Ne.symm (hfirst entry hentry)
      rw [hnone, if_pos hkey.symm, if_pos hkey, hkey]
    · rw [if_neg (Ne.symm hkey), if_neg hkey]

/-- Entries whose keys differ are all there. -/
theorem find_ofEntries {entries : List (κ × ν)} (h : entries.Pairwise fun entry later => entry.1 ≠ later.1) :
    (ofEntries entries).find key = findIn key entries := by
  rw [ofEntries, find_foldl_upsert (g := fun value _ => value) h]
  rcases findIn key entries with - | value
  · rfl
  · rfl

/-- The entries of a map are collected to the map. -/
theorem ofEntries_entries (m : SortedMap κ ν) : ofEntries m.entries = m :=
  ext_find fun _ => find_ofEntries m.keys_ne

/-! ### Column sums -/

/-- A column of the values grows by what the value of one key grows by. -/
theorem sum_map_values_upsert {α : Type*} [AddCommMonoid α] (column : ν → α) {u : α}
    (hnone : column (f none) = u) (hsome : ∀ value, column (f (some value)) = column value + u) (m : SortedMap κ ν) :
    ((m.upsert key f).values.map column).sum = (m.values.map column).sum + u := by
  have hgeneral : ∀ entries : List (κ × ν), ((upsertIn key f entries).map fun entry => column entry.2).sum =
      (entries.map fun entry => column entry.2).sum + u := by
    intro entries
    induction entries with
    | nil => simp [upsertIn, hnone]
    | cons first entries ih =>
      rw [upsertIn]
      split_ifs
      · rw [List.map_cons, List.sum_cons, hnone, add_comm]
      · rw [List.map_cons, List.sum_cons, hsome, List.map_cons, List.sum_cons, add_right_comm]
      · rw [List.map_cons, List.sum_cons, ih, List.map_cons, List.sum_cons, add_assoc]
  have := hgeneral m.entries
  rw [values, values, List.map_map, List.map_map]
  exact this

end

end SortedMap

end AgentVoice.Foundations

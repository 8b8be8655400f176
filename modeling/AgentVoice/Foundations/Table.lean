import Mathlib.Algebra.Order.Group.Unbundled.Int
import Mathlib.Data.List.Pairwise

/-!
# Tables

A table of a relational database is the list of its rows, in the order of insertion. A row type has
an integer primary key, and an insert without one gets the key after the largest. `Unique` says that
a `UNIQUE` column holds no value twice; inserts of a fresh value and updates that keep the column keep
it, and under it a row is determined by its value (`Unique.eq`).
-/

namespace AgentVoice.Foundations

/-- A row type with an integer primary key. -/
class Row (ρ : Type) where
  rowid : ρ → ℤ

namespace Table

variable {ρ κ : Type}

section Rowid

variable [Row ρ]

/-- The primary key the next inserted row gets. -/
def nextRowid (t : List ρ) : ℤ := (t.map Row.rowid).foldr max 0 + 1

theorem rowid_lt_nextRowid {t : List ρ} {r : ρ} (h : r ∈ t) : Row.rowid r < nextRowid t := by
  have hmax : Row.rowid r ≤ (t.map Row.rowid).foldr max 0 := by
    induction t with
    | nil => cases h
    | cons s t ih =>
      simp only [List.map_cons, List.foldr_cons]
      rcases List.mem_cons.mp h with rfl | h
      · exact le_max_left _ _
      · exact (ih h).trans (le_max_right _ _)
  rw [nextRowid]
  omega

theorem nextRowid_pos (t : List ρ) : 0 < nextRowid t := by
  have hmax : 0 ≤ (t.map Row.rowid).foldr max 0 := by
    induction t with
    | nil => exact le_rfl
    | cons s t ih => exact ih.trans (le_max_right _ _)
  rw [nextRowid]
  omega

/-- `SELECT … WHERE id = ?`. -/
def byRowid (id : ℤ) (t : List ρ) : Option ρ := t.find? fun r => Row.rowid r == id

end Rowid

/-- `SELECT … WHERE key = ?`. -/
def byKey [DecidableEq κ] (key : ρ → κ) (k : κ) (t : List ρ) : Option ρ := t.find? fun r => key r == k

/-- `UPDATE … SET … WHERE p`. -/
def updateWhere (p : ρ → Bool) (f : ρ → ρ) (t : List ρ) : List ρ := t.map fun r => if p r then f r else r

/-- `DELETE … WHERE p`. -/
def deleteWhere (p : ρ → Bool) (t : List ρ) : List ρ := t.filter fun r => !p r

/-- No two rows agree on the key. -/
def Unique (key : ρ → κ) (t : List ρ) : Prop := t.Pairwise fun r s => key r ≠ key s

/-! ### Unique columns -/

theorem Unique.eq {key : ρ → κ} {t : List ρ} (h : Unique key t) {r s : ρ} (hr : r ∈ t) (hs : s ∈ t)
    (hkey : key r = key s) : r = s := by
  by_contra hne
  have hsymm : Std.Symm fun r s : ρ => key r ≠ key s := ⟨fun _ _ => Ne.symm⟩
  exact h.forall hr hs hne hkey

theorem Unique.insert {key : ρ → κ} {t : List ρ} (h : Unique key t) {r : ρ} (hr : ∀ s ∈ t, key s ≠ key r) :
    Unique key (t ++ [r]) := by
  refine List.pairwise_append.mpr ⟨h, List.pairwise_singleton _ _, fun s hs r' hr' => ?_⟩
  obtain rfl := List.mem_singleton.mp hr'
  exact hr s hs

theorem Unique.updateWhere {key : ρ → κ} {t : List ρ} (h : Unique key t) {p : ρ → Bool} {f : ρ → ρ}
    (hf : ∀ r, key (f r) = key r) : Unique key (updateWhere p f t) := by
  refine List.pairwise_map.mpr (h.imp fun {r s} hrs => ?_)
  have hkey : ∀ r, key (if p r then f r else r) = key r := fun r => by split_ifs <;> simp [hf]
  rwa [hkey, hkey]

/-- The rows a query selects, when there is one. -/
theorem filter_eq_singleton {key : ρ → κ} {t : List ρ} (h : Unique key t) {p : ρ → Bool} {r : ρ} (hr : r ∈ t)
    (hp : p r = true) (honly : ∀ s ∈ t, p s = true → s = r) : t.filter p = [r] := by
  have hmem : r ∈ t.filter p := List.mem_filter.mpr ⟨hr, hp⟩
  have hall : ∀ s ∈ t.filter p, s = r := fun s hs => honly s (List.mem_filter.mp hs).1 (List.mem_filter.mp hs).2
  have hpairwise : (t.filter p).Pairwise fun r s => key r ≠ key s := h.filter _
  cases hrows : t.filter p with
  | nil =>
    rw [hrows] at hmem
    cases hmem
  | cons s rows =>
    rw [hrows] at hall hpairwise
    obtain rfl := hall s (by simp)
    cases rows with
    | nil => rfl
    | cons s' rows =>
      obtain rfl := hall s' (by simp)
      exact absurd rfl ((List.pairwise_cons.mp hpairwise).1 s' (by simp))

/-- A value of a unique column that a row has is there once. -/
theorem countP_eq_one [DecidableEq κ] {key : ρ → κ} {t : List ρ} (h : Unique key t) {r : ρ} (hr : r ∈ t) {k : κ}
    (hk : key r = k) : t.countP (fun s => key s == k) = 1 := by
  have hone := filter_eq_singleton h hr (p := fun s => key s == k) (by simp [hk]) fun s hs hkey =>
    h.eq hs hr ((beq_iff_eq.mp hkey).trans hk.symm)
  rw [List.countP_eq_length_filter, hone, List.length_singleton]

/-! ### Reading -/

theorem byKey_eq_some [DecidableEq κ] {key : ρ → κ} {k : κ} {t : List ρ} {r : ρ} (h : byKey key k t = some r) :
    r ∈ t ∧ key r = k :=
  ⟨List.mem_of_find?_eq_some h, by simpa using List.find?_some h⟩

theorem byKey_eq_none [DecidableEq κ] {key : ρ → κ} {k : κ} {t : List ρ} :
    byKey key k t = none ↔ ∀ r ∈ t, key r ≠ k := by
  simp [byKey]

/-- A row is found by its value of a unique column. -/
theorem byKey_of_mem [DecidableEq κ] {key : ρ → κ} {t : List ρ} (h : Unique key t) {r : ρ} (hr : r ∈ t) :
    byKey key (key r) t = some r := by
  cases hfind : byKey key (key r) t with
  | none => exact absurd rfl (byKey_eq_none.mp hfind r hr)
  | some s =>
    obtain ⟨hs, hkey⟩ := byKey_eq_some hfind
    rw [h.eq hs hr hkey]

theorem byRowid_eq_some [Row ρ] {id : ℤ} {t : List ρ} {r : ρ} (h : byRowid id t = some r) :
    r ∈ t ∧ Row.rowid r = id := byKey_eq_some h

theorem byRowid_eq_none [Row ρ] {id : ℤ} {t : List ρ} : byRowid id t = none ↔ ∀ r ∈ t, Row.rowid r ≠ id :=
  byKey_eq_none

theorem byRowid_of_mem [Row ρ] {t : List ρ} (h : Unique Row.rowid t) {r : ρ} (hr : r ∈ t) :
    byRowid (Row.rowid r) t = some r := byKey_of_mem h hr

/-- The row just inserted is the one with the next primary key. -/
theorem byRowid_insert [Row ρ] {t : List ρ} {r : ρ} (hr : Row.rowid r = nextRowid t) :
    byRowid (nextRowid t) (t ++ [r]) = some r := by
  have hnone : byRowid (nextRowid t) t = none :=
    byRowid_eq_none.mpr fun s hs => (rowid_lt_nextRowid hs).ne
  unfold byRowid at hnone ⊢
  rw [List.find?_append, hnone, Option.none_or]
  simp [hr]

/-! ### Updating -/

theorem mem_updateWhere {p : ρ → Bool} {f : ρ → ρ} {t : List ρ} {r : ρ} :
    r ∈ updateWhere p f t ↔ (∃ s ∈ t, p s = true ∧ r = f s) ∨ (r ∈ t ∧ p r = false) := by
  simp only [updateWhere, List.mem_map]
  constructor
  · rintro ⟨s, hs, rfl⟩
    cases hp : p s with
    | true => exact Or.inl ⟨s, hs, hp, by simp⟩
    | false => exact Or.inr ⟨by simpa using hs, by simpa using hp⟩
  · rintro (⟨s, hs, hp, rfl⟩ | ⟨hr, hp⟩)
    · exact ⟨s, hs, by simp [hp]⟩
    · exact ⟨r, hr, by simp [hp]⟩

/-- Selecting by a column that an update keeps. -/
theorem byKey_updateWhere [DecidableEq κ] {key : ρ → κ} {k : κ} {p : ρ → Bool} {f : ρ → ρ} {t : List ρ}
    (hf : ∀ r, key (f r) = key r) :
    byKey key k (updateWhere p f t) = (byKey key k t).map fun r => if p r then f r else r := by
  have hkey : ∀ r, key (if p r then f r else r) = key r := fun r => by split_ifs <;> simp [hf]
  rw [byKey, byKey, updateWhere, List.find?_map]
  congr 1
  exact congrArg (fun q => t.find? q) (funext fun r => by simp [hkey])

/-- Selecting rows that an update does not meet. -/
theorem filter_updateWhere {p q : ρ → Bool} {f : ρ → ρ} {t : List ρ} (hf : ∀ r, q (f r) = q r)
    (hp : ∀ r, p r = true → q r = false) : (updateWhere p f t).filter q = t.filter q := by
  induction t with
  | nil => rfl
  | cons r t ih =>
    simp only [updateWhere, List.map_cons, List.filter_cons] at ih ⊢
    cases hr : p r with
    | true => simp [hf, hp r hr, ih]
    | false => simp [ih]

/-- Selecting a row that an update changed. -/
theorem byKey_updated [DecidableEq κ] {key : ρ → κ} {k : κ} {t : List ρ} {p : ρ → Bool} {f : ρ → ρ} {r : ρ}
    (hf : ∀ r, key (f r) = key r) (h : byKey key k t = some r) (hp : p r = true) :
    byKey key k (updateWhere p f t) = some (f r) := by
  rw [byKey_updateWhere hf, h, Option.map_some, if_pos hp]

theorem byRowid_updateWhere [Row ρ] {t : List ρ} {p : ρ → Bool} {f : ρ → ρ} {id : ℤ} {r : ρ}
    (hf : ∀ r, Row.rowid (f r) = Row.rowid r) (h : byRowid id t = some r) (hp : p r = true) :
    byRowid id (updateWhere p f t) = some (f r) := byKey_updated hf h hp

/-- An update that can only meet one row is an update by that row's value of a unique column. -/
theorem updateWhere_eq_of_unique [DecidableEq κ] {key : ρ → κ} {t : List ρ} (h : Unique key t) {p : ρ → Bool} {r : ρ}
    (hr : r ∈ t) (hp : p r = true) (hkey : ∀ s, p s = true → key s = key r) (f : ρ → ρ) :
    updateWhere p f t = updateWhere (fun s => key s == key r) f t := by
  refine List.map_congr_left fun s hs => ?_
  cases hps : p s with
  | true => simp [hkey s hps]
  | false =>
    have hne : key s ≠ key r := fun heq => by
      rw [h.eq hs hr heq, hp] at hps
      cases hps
    simp [hne]

/-- Rows added at the end do not hide a row. -/
theorem byKey_append [DecidableEq κ] {key : ρ → κ} {k : κ} {t : List ρ} {r : ρ} (h : byKey key k t = some r)
    (rows : List ρ) : byKey key k (t ++ rows) = some r := by
  unfold byKey at h ⊢
  rw [List.find?_append, h, Option.some_or]

theorem byRowid_append [Row ρ] {id : ℤ} {t : List ρ} {r : ρ} (h : byRowid id t = some r) (rows : List ρ) :
    byRowid id (t ++ rows) = some r := byKey_append h rows

/-- Deleting other rows leaves what is selected. -/
theorem byKey_deleteWhere [DecidableEq κ] {key : ρ → κ} {k : κ} {p : ρ → Bool} {t : List ρ}
    (hp : ∀ r ∈ t, key r = k → p r = false) : byKey key k (deleteWhere p t) = byKey key k t := by
  induction t with
  | nil => rfl
  | cons s t ih =>
    have ih := ih fun r hr => hp r (List.mem_cons_of_mem _ hr)
    simp only [byKey, deleteWhere, List.find?_cons] at ih ⊢
    cases hkey : key s == k with
    | true =>
      have hkeep : p s = false := hp s (by simp) (beq_iff_eq.mp hkey)
      simp [hkeep, hkey]
    | false =>
      cases hs : p s with
      | true => simpa [hs] using ih
      | false => simpa [hs, hkey] using ih

theorem byRowid_deleteWhere [Row ρ] {id : ℤ} {p : ρ → Bool} {t : List ρ}
    (hp : ∀ r ∈ t, Row.rowid r = id → p r = false) : byRowid id (deleteWhere p t) = byRowid id t :=
  byKey_deleteWhere hp

theorem mem_deleteWhere {p : ρ → Bool} {t : List ρ} {r : ρ} : r ∈ deleteWhere p t ↔ r ∈ t ∧ p r = false := by
  simp [deleteWhere]

/-! ### Upserts -/

/-- `INSERT … ON CONFLICT (key) DO UPDATE`. -/
def upsert [DecidableEq κ] (key : ρ → κ) (r : ρ) (update : ρ → ρ) (t : List ρ) : List ρ :=
  if (byKey key (key r) t).isSome then updateWhere (fun s => key s == key r) update t else t ++ [r]

/-- **An upsert updates the row with its key, or inserts its own.** -/
theorem byKey_upsert [DecidableEq κ] {key : ρ → κ} {r : ρ} {update : ρ → ρ} {t : List ρ}
    (hupdate : ∀ s, key (update s) = key s) :
    byKey key (key r) (upsert key r update t) = some ((byKey key (key r) t).elim r update) := by
  unfold upsert
  cases hfound : byKey key (key r) t with
  | none =>
    rw [if_neg (by simp), byKey, List.find?_append, show t.find? (fun s => key s == key r) = none from hfound,
      Option.none_or]
    simp
  | some s =>
    have hkey : (key s == key r) = true := beq_iff_eq.mpr (byKey_eq_some hfound).2
    rw [if_pos (show (some s).isSome = true from rfl),
      byKey_updated (p := fun s => key s == key r) hupdate hfound hkey]
    rfl

theorem byKey_upsert_of_ne [DecidableEq κ] {key : ρ → κ} {r : ρ} {update : ρ → ρ} {t : List ρ} {k : κ}
    (hupdate : ∀ s, key (update s) = key s) (hk : k ≠ key r) :
    byKey key k (upsert key r update t) = byKey key k t := by
  unfold upsert
  split_ifs with hfound
  · rw [byKey_updateWhere hupdate]
    cases hother : byKey key k t with
    | none => rfl
    | some s =>
      have hne : key s ≠ key r := (byKey_eq_some hother).2 ▸ hk
      rw [Option.map_some, if_neg (by simpa using hne)]
  · cases hother : byKey key k t with
    | none =>
      rw [byKey, List.find?_append, show t.find? (fun s => key s == k) = none from hother, Option.none_or]
      simpa using hk.symm
    | some s => exact byKey_append hother _

/-! ### Constraints -/

/-- A table that keeps its constraints: no two rows clash on a unique column, and every row can be read. -/
structure Lawful (clash : ρ → ρ → Prop) (readable : ρ → Prop) (t : List ρ) : Prop where
  apart : t.Pairwise fun r s => ¬ clash r s
  readable : ∀ r ∈ t, readable r

namespace Lawful

variable {clash : ρ → ρ → Prop} {readable : ρ → Prop} {t : List ρ}

theorem nil (clash : ρ → ρ → Prop) (readable : ρ → Prop) : Lawful clash readable [] :=
  ⟨List.Pairwise.nil, nofun⟩

/-- A column on which rows may not agree is unique. -/
theorem unique (h : Lawful clash readable t) {key : ρ → κ} (hkey : ∀ r s, key r = key s → clash r s) :
    Unique key t := h.apart.imp fun {r s} hrs heq => hrs (hkey r s heq)

/-- Rows that clash are the same row. -/
theorem eq (h : Lawful clash readable t) (hsymm : ∀ r s, clash r s → clash s r) {r s : ρ} (hr : r ∈ t) (hs : s ∈ t)
    (hrs : clash r s) : r = s := by
  by_contra hne
  have hinst : Std.Symm fun r s : ρ => ¬ clash r s := ⟨fun r s hn hc => hn (hsymm s r hc)⟩
  exact h.apart.forall hr hs hne hrs

theorem insert (h : Lawful clash readable t) {r : ρ} (hfresh : ∀ s ∈ t, ¬ clash s r) (hr : readable r) :
    Lawful clash readable (t ++ [r]) := by
  refine ⟨List.pairwise_append.mpr ⟨h.apart, List.pairwise_singleton _ _, fun s hs r' hr' => ?_⟩, fun s hs => ?_⟩
  · obtain rfl := List.mem_singleton.mp hr'
    exact hfresh s hs
  · rcases List.mem_append.mp hs with hold | hnew
    · exact h.readable s hold
    · obtain rfl := List.mem_singleton.mp hnew
      exact hr

theorem deleteWhere (h : Lawful clash readable t) (p : ρ → Bool) : Lawful clash readable (Table.deleteWhere p t) :=
  ⟨List.Pairwise.filter _ h.apart, fun r hr => h.readable r (mem_deleteWhere.mp hr).1⟩

/-- An update that lets no rows clash that did not, and leaves readable rows. -/
theorem updateWhere (h : Lawful clash readable t) {p : ρ → Bool} {f : ρ → ρ}
    (hclash : ∀ r ∈ t, ∀ s ∈ t, ¬ clash r s → ¬ clash (if p r then f r else r) (if p s then f s else s))
    (hread : ∀ r ∈ t, p r = true → readable (f r)) : Lawful clash readable (Table.updateWhere p f t) := by
  refine ⟨List.pairwise_map.mpr (h.apart.imp_of_mem fun {r s} hr hs hrs => hclash r hr s hs hrs), fun r hr => ?_⟩
  rcases mem_updateWhere.mp hr with ⟨s, hs, hp, rfl⟩ | ⟨hr, -⟩
  · exact hread s hs hp
  · exact h.readable r hr

/-- An update that keeps the unique columns, and leaves readable rows. -/
theorem updateWhere_keep (h : Lawful clash readable t) {p : ρ → Bool} {f : ρ → ρ}
    (hl : ∀ r s, clash (f r) s ↔ clash r s) (hr : ∀ r s, clash r (f s) ↔ clash r s)
    (hread : ∀ r ∈ t, p r = true → readable (f r)) : Lawful clash readable (Table.updateWhere p f t) := by
  refine h.updateWhere (fun r _ s _ hrs => ?_) hread
  split_ifs <;> simpa [hl, hr] using hrs

/-- Rows stay readable when reading changes for the better. -/
theorem mono {readable' : ρ → Prop} (h : Lawful clash readable t) (hread : ∀ r ∈ t, readable r → readable' r) :
    Lawful clash readable' t := ⟨h.apart, fun r hr => hread r hr (h.readable r hr)⟩

end Lawful

end Table

end AgentVoice.Foundations

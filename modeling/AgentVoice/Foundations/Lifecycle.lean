import AgentVoice.Foundations.Machine
import AgentVoice.Foundations.Table
import Mathlib.Data.List.Chain

/-!
# Lives of rows

How the rows of a table live through the run of a machine. From one state to the next a row stays as it is or
moves, and a row that was not there before is as rows are born (`Advances`); over a run the versions of one row
then form a path of moves (`lifePath_history`).
-/

namespace AgentVoice.Foundations.Lifecycle

variable {σ α ρ : Type} [Row ρ] {move : ρ → ρ → Prop} {born : ρ → Prop}

/-- What happens to a table: rows stay or move, and new rows are as rows are born. -/
structure Advances (move : ρ → ρ → Prop) (born : ρ → Prop) (t t' : List ρ) : Prop where
  kept : ∀ id r, Table.byRowid id t = some r → ∃ r', Table.byRowid id t' = some r' ∧ (r' = r ∨ move r r')
  fresh : ∀ id r', Table.byRowid id t = none → Table.byRowid id t' = some r' → born r'

theorem Advances.refl (t : List ρ) : Advances move born t t := by
  refine ⟨fun id r h => ⟨r, h, Or.inl rfl⟩, fun id r' hnone hsome => ?_⟩
  rw [hnone] at hsome
  cases hsome

theorem Advances.insert {t : List ρ} {r : ρ} (hborn : born r) : Advances move born t (t ++ [r]) := by
  refine ⟨fun id s h => ⟨s, Table.byRowid_append h _, Or.inl rfl⟩, fun id s hnone hsome => ?_⟩
  rcases List.mem_append.mp (Table.byRowid_eq_some hsome).1 with hold | hnew
  · exact absurd (Table.byRowid_eq_some hsome).2 (Table.byRowid_eq_none.mp hnone s hold)
  · obtain rfl := List.mem_singleton.mp hnew
    exact hborn

theorem Advances.updateWhere {t : List ρ} {p : ρ → Bool} {f : ρ → ρ} (hf : ∀ r, Row.rowid (f r) = Row.rowid r)
    (hmove : ∀ r ∈ t, p r = true → move r (f r)) : Advances move born t (Table.updateWhere p f t) := by
  have hfind : ∀ id, Table.byRowid id (Table.updateWhere p f t) =
      (Table.byRowid id t).map fun r => if p r then f r else r := fun id => Table.byKey_updateWhere hf
  refine ⟨fun id r h => ?_, fun id r' hnone hsome => ?_⟩
  · refine ⟨_, by rw [hfind, h, Option.map_some], ?_⟩
    cases hp : p r with
    | true => exact Or.inr (hmove r (Table.byRowid_eq_some h).1 hp)
    | false => exact Or.inl rfl
  · rw [hfind, hnone] at hsome
    cases hsome

/-- The versions of a row that a run goes through, the state before the run included. -/
def history (step : α → σ → σ) (table : σ → List ρ) (id : ℤ) : List α → σ → List ρ
  | [], s => (Table.byRowid id (table s)).toList
  | a :: as, s => (Table.byRowid id (table s)).toList ++ history step table id as (step a s)

/-- The versions of a row form a path: each one is the one before it or a move from it, and the first one is the
row as it was before the run, or as rows are born. -/
structure LifePath (move : ρ → ρ → Prop) (born : ρ → Prop) (before : Option ρ) (rows : List ρ) : Prop where
  first : ∀ r, rows.head? = some r → before = some r ∨ before = none ∧ born r
  path : rows.IsChain fun r r' => r' = r ∨ move r r'

/-- **A row lives along a path.** -/
theorem lifePath_history {step : α → σ → σ} {table : σ → List ρ} {I : σ → Prop} {R : α → Prop}
    (hinv : ∀ a s, I s → I (step a s))
    (hstep : ∀ a s, I s → R a → Advances move born (table s) (table (step a s))) (id : ℤ) {as : List α} {s : σ}
    (hI : I s) (hR : ∀ a ∈ as, R a) :
    LifePath move born (Table.byRowid id (table s)) (history step table id as s) := by
  induction as generalizing s with
  | nil =>
    cases hrow : Table.byRowid id (table s) with
    | none =>
      rw [history, hrow]
      exact ⟨nofun, .nil⟩
    | some r =>
      rw [history, hrow]
      refine ⟨fun r' hr' => Or.inl ?_, .singleton r⟩
      exact hr'
  | cons a as ih =>
    have hlater := ih (hinv a s hI) fun b hb => hR b (List.mem_cons_of_mem _ hb)
    have hadvance := hstep a s hI (hR a (by simp))
    cases hrow : Table.byRowid id (table s) with
    | none =>
      rw [history, hrow, Option.toList_none, List.nil_append]
      refine ⟨fun r hr => Or.inr ⟨rfl, ?_⟩, hlater.path⟩
      rcases hlater.first r hr with hnext | ⟨-, hborn⟩
      · exact hadvance.fresh id r hrow hnext
      · exact hborn
    | some r =>
      obtain ⟨r', hr', hmove⟩ := hadvance.kept id r hrow
      rw [history, hrow, Option.toList_some, List.singleton_append]
      refine ⟨fun r'' hr'' => Or.inl hr'', ?_⟩
      refine List.IsChain.cons hlater.path fun next hnext => ?_
      rcases hlater.first next hnext with heq | ⟨hnone, -⟩
      · obtain rfl := Option.some.inj (hr'.symm.trans heq)
        exact hmove
      · rw [hr'] at hnone
        cases hnone

end AgentVoice.Foundations.Lifecycle

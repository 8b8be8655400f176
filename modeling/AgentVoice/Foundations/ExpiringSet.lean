import Mathlib.Data.Set.Insert

/-!
# Sets with expiring elements

The abstract state of a guard against repetition: the keys it accepted, each with the time it was accepted at. A call
drops what has expired by its time and accepts its key when it is not among the rest. `live now t` says that what was
accepted at `t` is still kept at `now`; nothing is assumed of it, and the times of the calls need not be ordered.
-/

namespace AgentVoice.Foundations.ExpiringSet

variable {κ τ : Type} (live : τ → τ → Prop)

/-- What is still kept. -/
def unexpired (now : τ) (s : Set (κ × τ)) : Set (κ × τ) := {e | e ∈ s ∧ live now e.2}

/-- The key is not kept. -/
def Fresh (k : κ) (s : Set (κ × τ)) : Prop := ∀ t, (k, t) ∉ s

open Classical in
/-- The answer of a call. -/
noncomputable def check (k : κ) (now : τ) (s : Set (κ × τ)) : Bool := decide (Fresh k (unexpired live now s))

/-- The state after a call. -/
def record (k : κ) (now : τ) (s : Set (κ × τ)) : Set (κ × τ) :=
  {e | e ∈ unexpired live now s ∨ Fresh k (unexpired live now s) ∧ e = (k, now)}

variable {live} {k : κ} {now : τ} {s : Set (κ × τ)}

theorem mem_unexpired_iff {e : κ × τ} : e ∈ unexpired live now s ↔ e ∈ s ∧ live now e.2 := Iff.rfl

theorem check_of_fresh (h : Fresh k (unexpired live now s)) : check live k now s = true := by
  classical
  exact decide_eq_true h

theorem check_of_not_fresh (h : ¬ Fresh k (unexpired live now s)) : check live k now s = false := by
  classical
  exact decide_eq_false h

theorem record_of_fresh (h : Fresh k (unexpired live now s)) :
    record live k now s = insert (k, now) (unexpired live now s) := by
  ext e
  simp [record, h, or_comm]

theorem record_of_not_fresh (h : ¬ Fresh k (unexpired live now s)) : record live k now s = unexpired live now s := by
  ext e
  simp [record, h]

end AgentVoice.Foundations.ExpiringSet

import AgentVoice.Foundations.Machine
import Mathlib.Data.List.Iterate

/-!
# Compare-and-set registers

A register that callers change by compare and set: a call gives the value it expects and the value to put in its
place, and has an effect only where the register holds what it expects. `exchanges` is the list of the calls of a
run that changed the register, and `Linked` says that they form a chain from the first value to the last. Every
machine whose calls change a value in this way leaves a chain (`linked_exchanges`), in which a call expects
exactly what the call before it left, so that no call is lost and none takes effect twice from one value.
-/

namespace AgentVoice.Foundations.CompareAndSet

variable {σ α β : Type}

/-- A call that changed the register. -/
structure Exchange (β : Type) where
  expected : β
  next : β
  deriving DecidableEq, Repr

/-- The exchanges lead from one value to another, each from the value that the one before it left. -/
def Linked : β → List (Exchange β) → β → Prop
  | v, [], w => v = w
  | v, e :: es, w => e.expected = v ∧ e.next ≠ v ∧ Linked e.next es w

/-- Where every exchange puts in the value after the one it expects, the values expected are the first one and
those after it, in order, and the register holds the one after the last. -/
theorem Linked.expected_eq_iterate {v w : β} {es : List (Exchange β)} (h : Linked v es w) {f : β → β}
    (hf : ∀ e ∈ es, e.next = f e.expected) :
    es.map Exchange.expected = List.iterate f v es.length ∧ w = f^[es.length] v := by
  induction es generalizing v with
  | nil => exact ⟨rfl, (show v = w from h).symm⟩
  | cons e es ih =>
    obtain ⟨rfl, -, hrest⟩ := h
    have hnext : e.next = f e.expected := hf e (by simp)
    rw [hnext] at hrest
    obtain ⟨hmap, hlast⟩ := ih hrest fun e' he' => hf e' (List.mem_cons_of_mem _ he')
    exact ⟨congrArg (e.expected :: ·) hmap, hlast⟩

/-- The calls of a run that changed the register. -/
def exchanges (step : α → σ → σ) (exchange : α → σ → Option (Exchange β)) : List α → σ → List (Exchange β)
  | [], _ => []
  | a :: as, s => (exchange a s).toList ++ exchanges step exchange as (step a s)

/-- What holds of the exchange of every call holds of the exchanges of a run. -/
theorem forall_mem_exchanges {step : α → σ → σ} {exchange : α → σ → Option (Exchange β)} {P : Exchange β → Prop}
    (h : ∀ a s e, exchange a s = some e → P e) (as : List α) (s : σ) : ∀ e ∈ exchanges step exchange as s, P e := by
  induction as generalizing s with
  | nil => simp [exchanges]
  | cons a as ih =>
    intro e he
    rcases List.mem_append.mp he with he | he
    · exact h a s e (Option.mem_toList.mp he)
    · exact ih (step a s) e he

/-- **Compare and set leaves a chain.** Where every call either changes the register from the value it expects, or
leaves it alone, the exchanges of a run lead from the value before to the value after. -/
theorem linked_exchanges {step : α → σ → σ} {exchange : α → σ → Option (Exchange β)} (value : σ → β)
    (hsome : ∀ a s e, exchange a s = some e →
      e.expected = value s ∧ e.next = value (step a s) ∧ value (step a s) ≠ value s)
    (hnone : ∀ a s, exchange a s = none → value (step a s) = value s) (as : List α) (s : σ) :
    Linked (value s) (exchanges step exchange as s) (value (Machine.run step as s)) := by
  induction as generalizing s with
  | nil => exact rfl
  | cons a as ih =>
    have hrest := ih (step a s)
    show Linked (value s) _ (value (Machine.run step as (step a s)))
    cases he : exchange a s with
    | none =>
      rw [hnone a s he] at hrest
      simpa [exchanges, he] using hrest
    | some e =>
      obtain ⟨hexpected, hnext, hne⟩ := hsome a s e he
      simp only [exchanges, he, Option.toList_some, List.singleton_append]
      refine ⟨hexpected, hnext ▸ hne, ?_⟩
      rw [hnext]
      exact hrest

end AgentVoice.Foundations.CompareAndSet

import Mathlib.Data.List.Basic

/-!
# Runs of a state machine

A machine changes its state by commands. `run` is the state after a list of commands; `Throughout`
says that a property holds in every state a run goes through. What one command preserves, a run
preserves (`run_invariant`, `run_keeps`). `Along` says that a property holds of every command in the state it is
taken in. `outputs` puts together what the commands of a run produce; where
every command takes in and gives out what its stock changes by, so does the run (`outputs_conserved`).
-/

namespace AgentVoice.Foundations.Machine

variable {σ α : Type} (step : α → σ → σ)

/-- The state after a run. -/
def run : List α → σ → σ
  | [], s => s
  | a :: as, s => run as (step a s)

/-- `P` holds before, between and after the commands of a run. -/
def Throughout (P : σ → Prop) : List α → σ → Prop
  | [], s => P s
  | a :: as, s => P s ∧ Throughout P as (step a s)

variable {step}

theorem run_append (as bs : List α) (s : σ) : run step (as ++ bs) s = run step bs (run step as s) := by
  induction as generalizing s with
  | nil => rfl
  | cons a as ih => exact ih _

theorem run_concat (as : List α) (a : α) (s : σ) : run step (as ++ [a]) s = step a (run step as s) :=
  run_append as [a] s

theorem Throughout.first {P : σ → Prop} {as : List α} {s : σ} (h : Throughout step P as s) : P s := by
  cases as with
  | nil => exact h
  | cons a as => exact h.1

theorem Throughout.last {P : σ → Prop} {as : List α} {s : σ} (h : Throughout step P as s) :
    P (run step as s) := by
  induction as generalizing s with
  | nil => exact h
  | cons a as ih => exact ih h.2

/-- **Invariants.** What every command preserves holds after every run. -/
theorem run_invariant {I : σ → Prop} (hstep : ∀ a s, I s → I (step a s)) {s : σ} (hs : I s) (as : List α) :
    I (run step as s) := by
  induction as generalizing s with
  | nil => exact hs
  | cons a as ih => exact ih (hstep a s hs)

/-- What the commands of a run preserve as long as `P` holds, on states with the invariant `I`, holds after
the run. -/
theorem run_keeps {I P Q : σ → Prop} {R : α → Prop} (hinv : ∀ a s, I s → I (step a s))
    (hkeep : ∀ a s, I s → R a → P s → P (step a s) → Q s → Q (step a s)) {as : List α} {s : σ} (hI : I s)
    (hR : ∀ a ∈ as, R a) (hP : Throughout step P as s) (hQ : Q s) : Q (run step as s) := by
  induction as generalizing s with
  | nil => exact hQ
  | cons a as ih =>
    refine ih (hinv a s hI) (fun b hb => hR b (List.mem_cons_of_mem _ hb)) hP.2 ?_
    exact hkeep a s hI (hR a (by simp)) hP.1 hP.2.first hQ

/-! ### What every command of a run meets -/

variable (step) in
/-- Every command of a run is taken in a state of which `P` holds. -/
def Along (P : α → σ → Prop) : List α → σ → Prop
  | [], _ => True
  | a :: as, s => P a s ∧ Along P as (step a s)

theorem Along.append_right {P : α → σ → Prop} {as bs : List α} {s : σ} (h : Along step P (as ++ bs) s) :
    Along step P bs (run step as s) := by
  induction as generalizing s with
  | nil => exact h
  | cons a as ih => exact ih h.2

/-- What holds of a command in every state with an invariant holds along every run. -/
theorem Along.of_invariant {I : σ → Prop} {P Q : α → σ → Prop} (hstep : ∀ a s, I s → P a s → I (step a s))
    (hkeep : ∀ a s, I s → P a s → Q a s) {as : List α} {s : σ} (hI : I s) (h : Along step P as s) :
    Along step Q as s := by
  induction as generalizing s with
  | nil => trivial
  | cons a as ih => exact ⟨hkeep a s hI h.1, ih (hstep a s hI h.1) h.2⟩

/-- **Exactly the runs whose commands meet a condition are good throughout**, where the condition keeps an invariant of
good states and a command that does not meet it leads to a bad state. -/
theorem throughout_iff_along {I Q : σ → Prop} {P : α → σ → Prop} (hgood : ∀ s, I s → Q s)
    (hkeep : ∀ a s, I s → P a s → I (step a s)) (hbreaks : ∀ a s, I s → ¬ P a s → ¬ Q (step a s)) {s : σ} (hs : I s)
    (as : List α) : Throughout step Q as s ↔ Along step P as s := by
  induction as generalizing s with
  | nil => exact iff_of_true (hgood s hs) trivial
  | cons a as ih =>
    constructor
    · rintro ⟨-, hrest⟩
      have hmeets : P a s := by
        by_contra hnot
        exact hbreaks a s hs hnot hrest.first
      exact ⟨hmeets, (ih (hkeep a s hs hmeets)).mp hrest⟩
    · rintro ⟨hmeets, hrest⟩
      exact ⟨hgood s hs, (ih (hkeep a s hs hmeets)).mpr hrest⟩

/-! ### What a run produces -/

variable {β : Type} (step)

/-- What the commands of a run produce, in order. -/
def outputs (out : α → σ → List β) : List α → σ → List β
  | [], _ => []
  | a :: as, s => out a s ++ outputs out as (step a s)

variable {step} {out : α → σ → List β}

theorem outputs_append (as bs : List α) (s : σ) :
    outputs step out (as ++ bs) s = outputs step out as s ++ outputs step out bs (run step as s) := by
  induction as generalizing s with
  | nil => rfl
  | cons a as ih => simp [outputs, run, ih]

/-- What is produced is produced by one of the commands. -/
theorem mem_outputs_iff {as : List α} {s : σ} {b : β} :
    b ∈ outputs step out as s ↔ ∃ before a after, as = before ++ a :: after ∧ b ∈ out a (run step before s) := by
  induction as generalizing s with
  | nil => simp [outputs]
  | cons a as ih =>
    rw [outputs, List.mem_append, ih]
    constructor
    · rintro (hb | ⟨before, a', after, rfl, hb⟩)
      · exact ⟨[], a, as, rfl, hb⟩
      · exact ⟨a :: before, a', after, rfl, hb⟩
    · rintro ⟨before, a', after, heq, hb⟩
      cases before with
      | nil =>
        obtain ⟨rfl, rfl⟩ := List.cons.inj heq
        exact Or.inl hb
      | cons _ before =>
        obtain ⟨rfl, rfl⟩ := List.cons.inj heq
        exact Or.inr ⟨before, a', after, rfl, hb⟩

/-- **Conservation.** Where every command takes what it gives out from the front of a stock and puts what it takes
in behind it, what a run takes in is what it gives out and what is left. -/
theorem outputs_conserved {inflow outflow : α → σ → List β} {stock : σ → List β}
    (hstep : ∀ a s, stock s ++ inflow a s = outflow a s ++ stock (step a s)) (as : List α) (s : σ) :
    stock s ++ outputs step inflow as s = outputs step outflow as s ++ stock (run step as s) := by
  induction as generalizing s with
  | nil => simp [outputs, run]
  | cons a as ih =>
    calc stock s ++ (inflow a s ++ outputs step inflow as (step a s))
        = outflow a s ++ (stock (step a s) ++ outputs step inflow as (step a s)) := by
          rw [← List.append_assoc, hstep, List.append_assoc]
      _ = outflow a s ++ outputs step outflow as (step a s) ++ stock (run step as (step a s)) := by
          rw [ih, List.append_assoc]

/-- **Simulation.** Machines whose commands produce the same from related states, and go to related states, produce
the same over every run whose commands meet `P`. -/
theorem outputs_eq_of_simulation {σ' : Type} {step' : α → σ' → σ'} {out' : α → σ' → List β} {R : σ → σ' → Prop}
    {P : α → σ → Prop}
    (hsim : ∀ a s s', P a s → R s s' → out a s = out' a s' ∧ R (step a s) (step' a s')) {as : List α} {s : σ} {s' : σ'}
    (hP : Along step P as s) (hR : R s s') : outputs step out as s = outputs step' out' as s' := by
  induction as generalizing s s' with
  | nil => rfl
  | cons a as ih =>
    obtain ⟨hout, hnext⟩ := hsim a s s' hP.1 hR
    rw [outputs, outputs, hout, ih hP.2 hnext]

theorem map_outputs {γ : Type} (f : β → γ) (as : List α) (s : σ) :
    (outputs step out as s).map f = outputs step (fun a s => (out a s).map f) as s := by
  induction as generalizing s with
  | nil => rfl
  | cons a as ih => rw [outputs, outputs, List.map_append, ih]

theorem Along.and {P Q : α → σ → Prop} {as : List α} {s : σ} (hP : Along step P as s) (hQ : Along step Q as s) :
    Along step (fun a s => P a s ∧ Q a s) as s := by
  induction as generalizing s with
  | nil => trivial
  | cons a as ih => exact ⟨⟨hP.1, hQ.1⟩, ih hP.2 hQ.2⟩

theorem Along.of_forall {P : α → σ → Prop} {as : List α} (h : ∀ a ∈ as, ∀ s, P a s) (s : σ) : Along step P as s := by
  induction as generalizing s with
  | nil => trivial
  | cons a as ih => exact ⟨h a List.mem_cons_self s, ih (fun b hb => h b (List.mem_cons_of_mem _ hb)) _⟩

end AgentVoice.Foundations.Machine

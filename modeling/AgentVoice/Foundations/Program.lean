import AgentVoice.Foundations.Result

/-!
# Programs over calls

A program makes calls of a signature `κ`, whose answers its next steps may depend on, and ends with a value or an
error. A semantics says what a call does to a state, given an outcome that the program does not choose, and what else
changes the state. A run follows turns, each of them the outcome of the next call or a change by someone else.

`Triple` is the contract of a program: from a state with the precondition, in every run whose calls meet a condition,
the invariant holds wherever the run stops and the postcondition where the program ends. A condition is about a call,
its outcome and the state before it. Its rules follow the program; what holds before a call must be stable, that is,
kept by the changes of others.
-/

namespace AgentVoice.Foundations

/-- A program that makes calls and ends with a value or an error. -/
inductive Program (κ : Type → Type) (δ α : Type) : Type 1 where
  | done (result : Except δ α)
  | call {β : Type} (c : κ β) (next : β → Program κ δ α)

namespace Program

variable {κ : Type → Type} {δ ε α β σ ο ι : Type}

/-- Goes on from how a program ended. -/
def resume : Program κ δ α → (Except δ α → Program κ δ β) → Program κ δ β
  | done result, k => k result
  | call c next, k => call c fun b => (next b).resume k

/-- What follows a value; an error ends the program. -/
def continued (f : α → Program κ δ β) : Except δ α → Program κ δ β
  | .ok a => f a
  | .error e => done (.error e)

instance : Monad (Program κ δ) where
  pure a := done (.ok a)
  bind p f := p.resume (continued f)

/-- Ends with an error. -/
def fail (e : δ) : Program κ δ α := done (.error e)

/-- A check that must hold before the program goes on. -/
def ensure (p : Prop) [Decidable p] (e : δ) : Program κ δ Unit := done (require p e)

/-- A call. -/
def invoke (c : κ β) : Program κ δ β := call c fun b => done (.ok b)

/-- A call whose failure ends the program with an error. -/
def attempt (c : κ (Except ε β)) (e : δ) : Program κ δ β := call c fun b => done (replaceError b e)

/-- What follows an ended program that is cleaned up after an error: the error is kept. -/
def cleaned (cleanup : Program κ δ Unit) : Except δ α → Program κ δ α
  | .ok a => done (.ok a)
  | .error e => cleanup.resume fun _ => done (.error e)

/-- Cleans up after an error. -/
def onError (p : Program κ δ α) (cleanup : Program κ δ Unit) : Program κ δ α := p.resume (cleaned cleanup)

/-- Cleans up however the program ends. -/
def cleanedUp (p : Program κ δ α) (cleanup : Program κ δ Unit) : Program κ δ α :=
  p.resume fun result => cleanup.resume fun _ => done result

/-- What calls do, and what else changes the state. -/
structure Semantics (κ : Type → Type) (σ ο ι : Type) where
  perform {β : Type} : κ β → ο → σ → β × σ
  interfere : ι → σ → σ

/-- What happens next. -/
inductive Turn (ο ι : Type) where
  /-- The program makes its call, with this outcome. -/
  | proceed (outcome : ο)
  /-- Someone else changes the state. -/
  | interfere (change : ι)

variable (x : Semantics κ σ ο ι)

/-- How the program ended, unless it did not, and the state then. -/
def run : List (Turn ο ι) → Program κ δ α → σ → Option (Except δ α) × σ
  | _, done result, s => (some result, s)
  | [], call _ _, s => (none, s)
  | .interfere i :: turns, call c next, s => run turns (call c next) (x.interfere i s)
  | .proceed o :: turns, call c next, s => run turns (next (x.perform c o s).1) (x.perform c o s).2

/-- Every call of a run meets a condition, in the state in which it is made. -/
def Along (C : {β : Type} → κ β → ο → σ → Prop) : List (Turn ο ι) → Program κ δ α → σ → Prop
  | _, done _, _ => True
  | [], call _ _, _ => True
  | .interfere i :: turns, call c next, s => Along C turns (call c next) (x.interfere i s)
  | .proceed o :: turns, call c next, s => C c o s ∧ Along C turns (next (x.perform c o s).1) (x.perform c o s).2

variable {x} in
/-- Two conditions along a run, the second one where something holds. -/
theorem Along.and_imp {C C' : {β : Type} → κ β → ο → σ → Prop} {q : Prop} {turns : List (Turn ο ι)} {p : Program κ δ α} {s : σ}
    (h : Along x C turns p s) (h' : q → Along x C' turns p s) :
    Along x (fun c o s => C c o s ∧ (q → C' c o s)) turns p s := by
  induction turns generalizing p s with
  | nil => cases p <;> trivial
  | cons turn turns ih =>
    cases p with
    | done result => cases turn <;> trivial
    | call c next =>
      cases turn with
      | interfere i => exact ih h h'
      | proceed o => exact ⟨⟨h.1, fun hq => (h' hq).1⟩, ih h.2 fun hq => (h' hq).2⟩

instance decidableAlong (C : {β : Type} → κ β → ο → σ → Prop) [∀ {β : Type} (c : κ β) (o : ο) (s : σ), Decidable (C c o s)] :
    ∀ (turns : List (Turn ο ι)) (p : Program κ δ α) (s : σ), Decidable (Along x C turns p s)
  | [], done _, _ => isTrue trivial
  | [], call _ _, _ => isTrue trivial
  | .interfere _ :: _, done _, _ => isTrue trivial
  | .proceed _ :: _, done _, _ => isTrue trivial
  | .interfere i :: turns, call c next, s => decidableAlong C turns (call c next) (x.interfere i s)
  | .proceed o :: turns, call c next, s =>
    have := decidableAlong C turns (next (x.perform c o s).1) (x.perform c o s).2
    inferInstanceAs (Decidable (C c o s ∧ Along x C turns (next (x.perform c o s).1) (x.perform c o s).2))

/-! ### Contracts -/

/-- Where a run ends as promised. -/
def Meets (I : σ → Prop) (Q : Except δ α → σ → Prop) (ran : Option (Except δ α) × σ) : Prop :=
  match ran.1 with
  | none => I ran.2
  | some r => Q r ran.2

/-- What surrounds a program: the semantics, the condition on calls and the invariant. -/
structure Setting (κ : Type → Type) (σ ο ι : Type) where
  semantics : Semantics κ σ ο ι
  condition : {β : Type} → κ β → ο → σ → Prop
  invariant : σ → Prop

/-- A program ends with a value of which the one holds, or with an error of which the other does. -/
def Ends (R : α → σ → Prop) (E : δ → σ → Prop) : Except δ α → σ → Prop
  | .ok a, s => R a s
  | .error e, s => E e s

variable (y : Setting κ σ ο ι)

/-- The contract of a program. -/
def Triple (P : σ → Prop) (p : Program κ δ α) (Q : Except δ α → σ → Prop) : Prop :=
  ∀ turns s, P s → Along y.semantics y.condition turns p s → Meets y.invariant Q (run y.semantics turns p s)

/-- What the changes of others keep, and the invariant follows from. -/
structure Stable (P : σ → Prop) : Prop where
  interfere : ∀ i s, P s → P (y.semantics.interfere i s)
  invariant : ∀ s, P s → y.invariant s

variable {y} {P : σ → Prop} {Q : Except δ α → σ → Prop}

theorem Triple.done {r : Except δ α} (h : ∀ s, P s → Q r s) : Triple y P (Program.done r) Q := by
  intro turns s hP _
  have hrun : run y.semantics turns (Program.done r : Program κ δ α) s = (some r, s) := by
    cases turns with
    | nil => rfl
    | cons turn turns => cases turn <;> rfl
  rw [hrun]
  exact h s hP

/-- **A call.** The program goes on from each answer the call may give. -/
theorem Triple.call {c : κ β} {next : β → Program κ δ α} {R : β → σ → Prop} (hstable : Stable y P)
    (hcall : ∀ o s b s', P s → y.condition c o s → y.semantics.perform c o s = (b, s') → R b s')
    (hnext : ∀ b, Triple y (R b) (next b) Q) : Triple y P (Program.call c next) Q := by
  intro turns
  induction turns with
  | nil => exact fun s hP _ => hstable.invariant s hP
  | cons turn turns ih =>
    intro s hP halong
    cases turn with
    | interfere i => exact ih _ (hstable.interfere i s hP) halong
    | proceed o => exact hnext _ turns _ (hcall o s _ _ hP halong.1 rfl) halong.2

/-- **One program after another**, whether the first ended with a value or with an error. -/
theorem Triple.resume {p : Program κ δ α} {k : Except δ α → Program κ δ β} {R : Except δ α → σ → Prop}
    {Q : Except δ β → σ → Prop} (hp : Triple y P p R) (hk : ∀ r, Triple y (R r) (k r) Q) :
    Triple y P (p.resume k) Q := by
  -- what is known of the runs of `p` from one state carries over to the rest of `p` after a turn
  have h : ∀ turns (p : Program κ δ α) s,
      (∀ turns', Along y.semantics y.condition turns' p s → Meets y.invariant R (run y.semantics turns' p s)) →
      Along y.semantics y.condition turns (p.resume k) s →
      Meets y.invariant Q (run y.semantics turns (p.resume k) s) := by
    intro turns
    induction turns with
    | nil =>
      intro p s hmeets halong
      cases p with
      | done r => exact hk r [] s (hmeets [] trivial) halong
      | call c next => exact hmeets [] trivial
    | cons turn turns ih =>
      intro p s hmeets halong
      cases p with
      | done r => exact hk r _ s (hmeets [] trivial) halong
      | call c next =>
        cases turn with
        | interfere i => exact ih (.call c next) _ (fun turns' => hmeets (.interfere i :: turns')) halong
        | proceed o =>
          exact ih _ _ (fun turns' hturns' => hmeets (.proceed o :: turns') ⟨halong.1, hturns'⟩) halong.2
  exact fun turns s hP => h turns p s fun turns' => hp turns' s hP

theorem Triple.weaken {P' : σ → Prop} {Q' : Except δ α → σ → Prop} {p : Program κ δ α} (h : Triple y P p Q)
    (hP : ∀ s, P' s → P s) (hQ : ∀ r s, Q r s → Q' r s) : Triple y P' p Q' := by
  intro turns s hs halong
  have hmeets := h turns s (hP s hs) halong
  unfold Meets at hmeets ⊢
  split at hmeets
  · exact hmeets
  · exact hQ _ _ hmeets

/-- **A value and what follows it.** -/
theorem Triple.bind {p : Program κ δ α} {f : α → Program κ δ β} {R : Except δ α → σ → Prop}
    {Q : Except δ β → σ → Prop} (hp : Triple y P p R) (hok : ∀ a, Triple y (R (.ok a)) (f a) Q)
    (herror : ∀ e s, R (.error e) s → Q (.error e) s) : Triple y P (p >>= f) Q := by
  refine Triple.resume hp fun r => ?_
  cases r with
  | ok a => exact hok a
  | error e => exact Triple.done (herror e)

/-- **Cleaning up.** -/
theorem Triple.onError {p : Program κ δ α} {cleanup : Program κ δ Unit} {R : Except δ α → σ → Prop}
    (hp : Triple y P p R) (hok : ∀ a s, R (.ok a) s → Q (.ok a) s)
    (herror : ∀ e, Triple y (R (.error e)) cleanup fun _ s => Q (.error e) s) : Triple y P (p.onError cleanup) Q := by
  refine Triple.resume hp fun r => ?_
  cases r with
  | ok a => exact Triple.done (hok a)
  | error e => exact Triple.resume (herror e) fun _ => Triple.done fun _ h => h

/-- **A computation that makes no call.** -/
theorem Triple.done_bind {r : Except δ α} {f : α → Program κ δ β} {Q : Except δ β → σ → Prop}
    (hok : ∀ a, r = .ok a → Triple y P (f a) Q) (herror : ∀ e, r = .error e → ∀ s, P s → Q (.error e) s) :
    Triple y P (Program.done r >>= f) Q := by
  cases r with
  | ok a => exact hok a rfl
  | error e => exact Triple.done (herror e rfl)

/-- **Cleaning up however the program ends.** -/
theorem Triple.cleanedUp {p : Program κ δ α} {cleanup : Program κ δ Unit} {R : Except δ α → σ → Prop}
    (hp : Triple y P p R) (h : ∀ r, Triple y (R r) cleanup fun _ s => Q r s) : Triple y P (p.cleanedUp cleanup) Q :=
  Triple.resume hp fun r => Triple.resume (h r) fun _ => Triple.done fun _ hQ => hQ

/-- **A check.** -/
theorem Triple.ensure {p : Prop} [Decidable p] {e : δ} {Q : Except δ Unit → σ → Prop}
    (hok : p → ∀ s, P s → Q (.ok ()) s) (herror : ¬ p → ∀ s, P s → Q (.error e) s) :
    Triple y P (Program.ensure p e) Q := by
  by_cases h : p
  · exact Triple.done fun s hs => by rw [require_of h]; exact hok h s hs
  · exact Triple.done fun s hs => by rw [require_of_not h]; exact herror h s hs

/-- **A call whose answer is taken as it is.** -/
theorem Triple.invoke {c : κ β} {Q : Except δ β → σ → Prop} (hstable : Stable y P)
    (h : ∀ o s b s', P s → y.condition c o s → y.semantics.perform c o s = (b, s') → Q (.ok b) s') :
    Triple y P (Program.invoke c) Q :=
  Triple.call (R := fun b => Q (.ok b)) hstable h fun _ => Triple.done fun _ hQ => hQ

/-- **A call whose failure ends the program.** -/
theorem Triple.attempt {c : κ (Except ε β)} {e : δ} {Q : Except δ β → σ → Prop} (hstable : Stable y P)
    (hok : ∀ o s b s', P s → y.condition c o s → y.semantics.perform c o s = (.ok b, s') → Q (.ok b) s')
    (herror : ∀ o s e' s', P s → y.condition c o s → y.semantics.perform c o s = (.error e', s') → Q (.error e) s') :
    Triple y P (Program.attempt c e) Q := by
  refine Triple.call (R := fun b => Q (replaceError b e)) hstable (fun o s b s' hP hC hperform => ?_) fun _ =>
    Triple.done fun _ hQ => hQ
  cases b with
  | ok b => exact hok o s b s' hP hC hperform
  | error e' => exact herror o s e' s' hP hC hperform

end Program

end AgentVoice.Foundations

import AgentVoice.Foundations.Machine
import AgentVoice.Foundations.Transaction

/-!
# Sagas

A saga is a program that makes calls on a store, each of them a transaction, and asks the world outside. Between two
of its steps something else may change the store; a call may fail without an effect; and the saga may stop for good.
`run` follows a list of turns that says which of these happen. `Triple` is the contract of a saga over all lists of
turns that may be taken: from every state with the precondition, what it asks, where it stops and what it returns.
Its rules follow the saga step by step: what holds before a step must be stable, that is, kept by what else changes
the store. The attempts of a saga, one after another and each following turns of its own, are the episodes of a
machine.
-/

namespace AgentVoice.Foundations

/-- A program that makes calls with the time of a clock, asks questions, and ends. -/
inductive Saga (κ ε σ θ ρ δ α : Type) : Type 1 where
  | done (result : Except δ α)
  | call {β : Type} (t : κ → Tx ε σ β) (next : Except ε β → Saga κ ε σ θ ρ δ α)
  | ask (question : θ) (next : ρ → Saga κ ε σ θ ρ δ α)

namespace Saga

variable {κ ε σ θ ρ δ α β γ ι ο ω : Type}

/-- One saga after another; an error ends both. -/
def bind : Saga κ ε σ θ ρ δ α → (α → Saga κ ε σ θ ρ δ β) → Saga κ ε σ θ ρ δ β
  | done (.ok a), f => f a
  | done (.error e), _ => done (.error e)
  | call t next, f => call t fun r => (next r).bind f
  | ask question next, f => ask question fun answer => (next answer).bind f

instance : Monad (Saga κ ε σ θ ρ δ) where
  pure a := done (.ok a)
  bind := bind

/-- A computation that makes no call. -/
def ofResult (r : Except δ α) : Saga κ ε σ θ ρ δ α := done r

/-- Fails with an error. -/
def fail (e : δ) : Saga κ ε σ θ ρ δ α := done (.error e)

/-- A check that must hold before the saga goes on. -/
def ensure (p : Prop) [Decidable p] (e : δ) : Saga κ ε σ θ ρ δ Unit := done (require p e)

/-- A call whose result is looked at. -/
def attempt (t : κ → Tx ε σ β) : Saga κ ε σ θ ρ δ (Except ε β) := call t fun r => done (.ok r)

/-- A call whose error ends the saga. -/
def store (wrap : ε → δ) (t : κ → Tx ε σ β) : Saga κ ε σ θ ρ δ β := call t fun r => done (r.mapError wrap)

/-- A question. -/
def query (question : θ) : Saga κ ε σ θ ρ δ ρ := ask question fun answer => done (.ok answer)

/-- What happens next. -/
inductive Turn (κ ε ι ο : Type) where
  /-- The saga makes its call. -/
  | call (clock : κ)
  /-- The saga's call fails and has no effect. -/
  | fail (error : ε)
  /-- The saga's question is answered. -/
  | answer (oracle : ο)
  /-- Something else changes the store. -/
  | interfere (cause : ι)

/-- What surrounds a saga: what else changes the store, and how the world answers. -/
structure Surroundings (ι ο σ ω θ ρ : Type) where
  interfere : ι → σ → σ
  answer : ο → θ → ω → ρ × ω

/-- Where a run ends: what the saga returned, unless it stopped; the store and the world; and what it asked, with the
state in which it asked. -/
structure Ran (σ ω θ δ α : Type) where
  result : Option (Except δ α)
  store : σ
  world : ω
  asked : List (θ × σ × ω)

/-- Follows the turns. -/
def run (x : Surroundings ι ο σ ω θ ρ) :
    List (Turn κ ε ι ο) → Saga κ ε σ θ ρ δ α → σ → ω → Ran σ ω θ δ α
  | _, done result, s, w => ⟨some result, s, w, []⟩
  | [], _, s, w => ⟨none, s, w, []⟩
  | .interfere i :: turns, p, s, w => run x turns p (x.interfere i s) w
  | .call clock :: turns, call t next, s, w =>
    let (result, s) := (t clock).commit s
    run x turns (next result) s w
  | .fail e :: turns, call _ next, s, w => run x turns (next (.error e)) s w
  | .answer o :: turns, ask question next, s, w =>
    let (answer, w') := x.answer o question w
    let ran := run x turns (next answer) s w'
    { ran with asked := (question, s, w) :: ran.asked }
  | _ :: turns, p, s, w => run x turns p s w

/-- Where a saga is to make a call, what interferes first changes the store only. -/
theorem run_interfere_call (x : Surroundings ι ο σ ω θ ρ) (between : List ι) (turns : List (Turn κ ε ι ο))
    (t : κ → Tx ε σ β) (next : Except ε β → Saga κ ε σ θ ρ δ α) (s : σ) (w : ω) :
    run x (between.map .interfere ++ turns) (call t next) s w =
      run x turns (call t next) (Machine.run x.interfere between s) w := by
  induction between generalizing s with
  | nil => rfl
  | cons i between ih => exact ih (x.interfere i s)

/-- A call that succeeds, and the rest of the saga. -/
theorem run_call_store_of_ok {x : Surroundings ι ο σ ω θ ρ} (clock : κ) {t : κ → Tx ε σ β} {s s₁ : σ} {b : β}
    (h : (t clock).run s = .ok (b, s₁)) (turns : List (Turn κ ε ι ο)) (wrap : ε → δ) (f : β → Saga κ ε σ θ ρ δ α)
    (w : ω) : run x (.call clock :: turns) (Saga.bind (store wrap t) f) s w = run x turns (f b) s₁ w := by
  rw [store, bind, run, Tx.commit_of_ok h]
  rfl

/-- A saga that returned a value after a call: the call succeeded, and what follows returned the value. -/
theorem run_call_store_eq_ok {x : Surroundings ι ο σ ω θ ρ} {turns : List (Turn κ ε ι ο)} {clock : κ} {wrap : ε → δ}
    {t : κ → Tx ε σ β} {f : β → Saga κ ε σ θ ρ δ α} {s s' : σ} {w w' : ω} {a : α} {asked : List (θ × σ × ω)}
    (h : run x (.call clock :: turns) (Saga.bind (store wrap t) f) s w = ⟨some (.ok a), s', w', asked⟩) :
    ∃ b s₁, (t clock).run s = .ok (b, s₁) ∧ run x turns (f b) s₁ w = ⟨some (.ok a), s', w', asked⟩ := by
  cases hcall : (t clock).run s with
  | ok r =>
    obtain ⟨b, s₁⟩ := r
    exact ⟨b, s₁, rfl, (run_call_store_of_ok clock hcall turns wrap f w).symm.trans h⟩
  | error e =>
    rw [store, bind, run, Tx.commit_of_error hcall] at h
    have hdone : run x turns (done (.error (wrap e)) : Saga κ ε σ θ ρ δ α) s w = ⟨some (.error (wrap e)), s, w, []⟩ := by
      cases turns <;> rfl
    have hresult := congrArg Ran.result (hdone.symm.trans h)
    cases hresult

/-! ### Contracts -/

/-- What may happen around a saga: which turns are taken, what must hold when it asks, and where it may stop. -/
structure Setting (κ ε σ θ ρ ι ο ω : Type) where
  surroundings : Surroundings ι ο σ ω θ ρ
  allowed : Turn κ ε ι ο → Prop
  asks : θ → σ → ω → Prop
  stops : σ → ω → Prop

variable (x : Setting κ ε σ θ ρ ι ο ω)

/-- Where a run ends as promised. -/
structure Meets (Q : Except δ α → σ → ω → Prop) (ran : Ran σ ω θ δ α) : Prop where
  asks : ∀ a ∈ ran.asked, x.asks a.1 a.2.1 a.2.2
  stops : ran.result = none → x.stops ran.store ran.world
  returns : ∀ r, ran.result = some r → Q r ran.store ran.world

/-- The contract of a saga. -/
def Triple (P : σ → ω → Prop) (p : Saga κ ε σ θ ρ δ α) (Q : Except δ α → σ → ω → Prop) : Prop :=
  ∀ turns : List (Turn κ ε ι ο), (∀ t ∈ turns, x.allowed t) → ∀ s w, P s w →
    Meets x Q (run x.surroundings turns p s w)

/-- What is kept by everything else that changes the store, and may be left when the saga stops. -/
structure Stable (P : σ → ω → Prop) : Prop where
  interfere : ∀ i s w, x.allowed (.interfere i) → P s w → P (x.surroundings.interfere i s) w
  stops : ∀ s w, P s w → x.stops s w

variable {x} {P : σ → ω → Prop} {Q : Except δ α → σ → ω → Prop}

theorem Triple.done {r : Except δ α} (h : ∀ s w, P s w → Q r s w) : Triple x P (Saga.done r) Q := by
  intro turns _ s w hP
  have hrun : run x.surroundings turns (Saga.done r : Saga κ ε σ θ ρ δ α) s w = ⟨some r, s, w, []⟩ := by
    cases turns <;> rfl
  rw [hrun]
  exact ⟨nofun, nofun, fun r' hr' => Option.some.inj hr' ▸ h s w hP⟩

/-- **A call.** The saga goes on from what the transaction returned, or from a failure. -/
theorem Triple.call {t : κ → Tx ε σ β} {next : Except ε β → Saga κ ε σ θ ρ δ α} (hstable : Stable x P)
    (hcall : ∀ clock r, x.allowed (.call clock) → Triple x (fun s' w => ∃ s, P s w ∧ (t clock).commit s = (r, s')) (next r) Q)
    (hfail : ∀ e, x.allowed (.fail e) → Triple x P (next (.error e)) Q) : Triple x P (Saga.call t next) Q := by
  intro turns
  induction turns with
  | nil => exact fun _ s w hP => ⟨nofun, fun _ => hstable.stops s w hP, nofun⟩
  | cons turn turns ih =>
    intro hallowed s w hP
    have hturn := hallowed turn (by simp)
    have hturns : ∀ t ∈ turns, x.allowed t := fun t ht => hallowed t (by simp [ht])
    cases turn with
    | call clock => exact hcall clock _ hturn turns hturns _ w ⟨s, hP, rfl⟩
    | fail e => exact hfail e hturn turns hturns s w hP
    | answer o => exact ih hturns s w hP
    | interfere i => exact ih hturns _ w (hstable.interfere i s w hturn hP)

/-- **A question.** The saga goes on from the answer. -/
theorem Triple.ask {question : θ} {next : ρ → Saga κ ε σ θ ρ δ α} (hstable : Stable x P)
    (hasks : ∀ s w, P s w → x.asks question s w)
    (hanswer : ∀ o a, x.allowed (.answer o) →
      Triple x (fun s w' => ∃ w, P s w ∧ x.surroundings.answer o question w = (a, w')) (next a) Q) :
    Triple x P (Saga.ask question next) Q := by
  intro turns
  induction turns with
  | nil => exact fun _ s w hP => ⟨nofun, fun _ => hstable.stops s w hP, nofun⟩
  | cons turn turns ih =>
    intro hallowed s w hP
    have hturn := hallowed turn (by simp)
    have hturns : ∀ t ∈ turns, x.allowed t := fun t ht => hallowed t (by simp [ht])
    cases turn with
    | call clock => exact ih hturns s w hP
    | fail e => exact ih hturns s w hP
    | answer o =>
      obtain ⟨hasked, hstops, hreturns⟩ := hanswer o _ hturn turns hturns s _ ⟨w, hP, rfl⟩
      refine ⟨fun a ha => ?_, hstops, hreturns⟩
      rcases List.mem_cons.mp ha with rfl | ha
      · exact hasks s w hP
      · exact hasked a ha
    | interfere i => exact ih hturns _ w (hstable.interfere i s w hturn hP)

/-- How a run of one saga after another relates to the run of the first one. -/
inductive Composed (x : Surroundings ι ο σ ω θ ρ) (f : α → Saga κ ε σ θ ρ δ β) (turns : List (Turn κ ε ι ο))
    (ran : Ran σ ω θ δ α) (ran' : Ran σ ω θ δ β) : Prop
  | stopped (result : ran.result = none) (eq : ran' = ⟨none, ran.store, ran.world, ran.asked⟩)
  | failed (e : δ) (result : ran.result = some (.error e))
      (eq : ran' = ⟨some (.error e), ran.store, ran.world, ran.asked⟩)
  | continued (a : α) (after : List (Turn κ ε ι ο)) (result : ran.result = some (.ok a)) (turns : ∀ t ∈ after, t ∈ turns)
      (eq : ran' = { run x after (f a) ran.store ran.world with
        asked := ran.asked ++ (run x after (f a) ran.store ran.world).asked })

theorem Composed.cons {x : Surroundings ι ο σ ω θ ρ} {f : α → Saga κ ε σ θ ρ δ β} {turns : List (Turn κ ε ι ο)}
    {ran : Ran σ ω θ δ α} {ran' : Ran σ ω θ δ β} (h : Composed x f turns ran ran') (turn : Turn κ ε ι ο) :
    Composed x f (turn :: turns) ran ran' := by
  cases h with
  | stopped hresult heq => exact .stopped hresult heq
  | failed e hresult heq => exact .failed e hresult heq
  | continued a after hresult hafter heq =>
    exact .continued a after hresult (fun t ht => List.mem_cons_of_mem _ (hafter t ht)) heq

theorem run_bind (x : Surroundings ι ο σ ω θ ρ) (f : α → Saga κ ε σ θ ρ δ β) (turns : List (Turn κ ε ι ο))
    (p : Saga κ ε σ θ ρ δ α) (s : σ) (w : ω) :
    Composed x f turns (run x turns p s w) (run x turns (p.bind f) s w) := by
  induction turns generalizing p s w with
  | nil =>
    cases p with
    | done result =>
      cases result with
      | ok a => exact .continued a [] rfl nofun rfl
      | error e => exact .failed e rfl rfl
    | call t next => exact .stopped rfl rfl
    | ask question next => exact .stopped rfl rfl
  | cons turn turns ih =>
    cases p with
    | done result =>
      cases result with
      | ok a => exact .continued a (turn :: turns) rfl (fun _ h => h) rfl
      | error e => exact .failed e rfl rfl
    | call t next =>
      cases turn with
      | call clock => exact (ih _ _ _).cons _
      | fail e => exact (ih _ _ _).cons _
      | answer o => exact (ih (.call t next) s w).cons _
      | interfere i => exact (ih (.call t next) _ w).cons _
    | ask question next =>
      cases turn with
      | call clock => exact (ih (.ask question next) s w).cons _
      | fail e => exact (ih (.ask question next) s w).cons _
      | interfere i => exact (ih (.ask question next) _ w).cons _
      | answer o =>
        have hrest := (ih (next (x.answer o question w).1) s (x.answer o question w).2).cons (.answer o)
        simp only [Saga.bind, run]
        cases hrest with
        | stopped hresult heq => exact .stopped hresult (by rw [heq])
        | failed e hresult heq => exact .failed e hresult (by rw [heq])
        | continued a after hresult hafter heq => exact .continued a after hresult hafter (by rw [heq]; rfl)

/-- **One saga after another.** -/
theorem Triple.bind {p : Saga κ ε σ θ ρ δ α} {f : α → Saga κ ε σ θ ρ δ β} {R : α → σ → ω → Prop}
    {Q : Except δ β → σ → ω → Prop}
    (hp : Triple x P p fun r s w => match r with | .ok a => R a s w | .error e => Q (.error e) s w)
    (hf : ∀ a, Triple x (R a) (f a) Q) : Triple x P (p >>= f) Q := by
  intro turns hallowed s w hP
  obtain ⟨hasks, hstops, hreturns⟩ := hp turns hallowed s w hP
  show Meets x Q (run x.surroundings turns (p.bind f) s w)
  cases run_bind x.surroundings f turns p s w with
  | stopped hresult heq =>
    rw [heq]
    exact ⟨hasks, fun _ => hstops hresult, nofun⟩
  | failed e hresult heq =>
    rw [heq]
    exact ⟨hasks, nofun, fun r hr => Option.some.inj hr ▸ hreturns _ hresult⟩
  | continued a after hresult hafter heq =>
    obtain ⟨hasks', hstops', hreturns'⟩ :=
      hf a after (fun t ht => hallowed t (hafter t ht)) _ _ (hreturns _ hresult)
    rw [heq]
    exact ⟨fun b hb => (List.mem_append.mp hb).elim (hasks b) (hasks' b), hstops', hreturns'⟩

theorem Triple.weaken {P' : σ → ω → Prop} {Q' : Except δ α → σ → ω → Prop} {p : Saga κ ε σ θ ρ δ α}
    (h : Triple x P p Q) (hP : ∀ s w, P' s w → P s w) (hQ : ∀ r s w, Q r s w → Q' r s w) : Triple x P' p Q' := by
  intro turns hallowed s w hs
  obtain ⟨hasks, hstops, hreturns⟩ := h turns hallowed s w (hP s w hs)
  exact ⟨hasks, hstops, fun r hr => hQ r _ _ (hreturns r hr)⟩

/-! ### The rules for the steps of a program -/

theorem Triple.pure {a : α} (h : ∀ s w, P s w → Q (.ok a) s w) :
    Triple x P (Pure.pure a : Saga κ ε σ θ ρ δ α) Q := Triple.done h

/-- **A computation.** -/
theorem Triple.ofResult_bind {r : Except δ β} {f : β → Saga κ ε σ θ ρ δ α}
    (hok : ∀ b, r = .ok b → Triple x P (f b) Q) (herror : ∀ e, r = .error e → ∀ s w, P s w → Q (.error e) s w) :
    Triple x P (ofResult r >>= f) Q := by
  cases r with
  | ok b => exact hok b rfl
  | error e => exact Triple.done (herror e rfl)

/-- **A check.** -/
theorem Triple.ensure_bind {p : Prop} [Decidable p] {e : δ} {f : Unit → Saga κ ε σ θ ρ δ α}
    (hok : p → Triple x P (f ()) Q) (herror : ¬ p → ∀ s w, P s w → Q (.error e) s w) :
    Triple x P (ensure p e >>= f) Q := by
  by_cases h : p
  · have hrun : (ensure p e >>= f : Saga κ ε σ θ ρ δ α) = f () := by
      rw [ensure, require_of h]
      rfl
    rw [hrun]
    exact hok h
  · have hrun : (ensure p e >>= f : Saga κ ε σ θ ρ δ α) = Saga.done (.error e) := by
      rw [ensure, require_of_not h]
      rfl
    rw [hrun]
    exact Triple.done (herror h)

/-- **A call whose result is looked at.** -/
theorem Triple.attempt_bind {t : κ → Tx ε σ β} {f : Except ε β → Saga κ ε σ θ ρ δ α} (hstable : Stable x P)
    (hcall : ∀ clock r, x.allowed (.call clock) → Triple x (fun s' w => ∃ s, P s w ∧ (t clock).commit s = (r, s')) (f r) Q)
    (hfail : ∀ e, x.allowed (.fail e) → Triple x P (f (.error e)) Q) : Triple x P (attempt t >>= f) Q :=
  Triple.call hstable hcall hfail

/-- **A call whose error ends the saga**: a failure, like an error of the transaction, leaves the store as it was. -/
theorem Triple.store_bind {wrap : ε → δ} {t : κ → Tx ε σ β} {f : β → Saga κ ε σ θ ρ δ α} {R : β → σ → ω → Prop}
    (hstable : Stable x P)
    (hcall : ∀ clock b s s' w, x.allowed (.call clock) → P s w → (t clock).run s = .ok (b, s') → R b s' w)
    (herror : ∀ clock e s w, x.allowed (.call clock) → P s w → (t clock).run s = .error e → Q (.error (wrap e)) s w)
    (hfail : ∀ e s w, x.allowed (.fail e) → P s w → Q (.error (wrap e)) s w)
    (hf : ∀ b, Triple x (R b) (f b) Q) : Triple x P (store wrap t >>= f) Q := by
  refine Triple.call hstable (fun clock r hclock => ?_) fun e he => Triple.done fun s w hP => hfail e s w he hP
  cases r with
  | ok b =>
    refine (hf b).weaken (fun s' w ⟨s, hP, hcommit⟩ => ?_) fun _ _ _ h => h
    exact hcall clock b s s' w hclock hP (Tx.commit_eq_ok_iff.mp hcommit)
  | error e =>
    refine Triple.done fun s' w ⟨s, hP, hcommit⟩ => ?_
    obtain ⟨hrun, rfl⟩ := Tx.commit_eq_error hcommit
    exact herror clock e _ w hclock hP hrun

/-- **A question.** -/
theorem Triple.query_bind {question : θ} {f : ρ → Saga κ ε σ θ ρ δ α} (hstable : Stable x P)
    (hasks : ∀ s w, P s w → x.asks question s w)
    (hanswer : ∀ o a, x.allowed (.answer o) →
      Triple x (fun s w' => ∃ w, P s w ∧ x.surroundings.answer o question w = (a, w')) (f a) Q) :
    Triple x P (query question >>= f) Q := Triple.ask hstable hasks hanswer

/-! ### Attempts -/

variable {π : Type}

/-- What happens to a store and a world over time. -/
inductive Episode (π κ ε ι ο : Type) where
  /-- An attempt of the saga with arguments of its own. -/
  | attempt (arguments : π) (turns : List (Turn κ ε ι ο))
  /-- Something else changes the store. -/
  | interfere (cause : ι)

namespace Episode

/-- The store and the world after an episode. -/
def step (surroundings : Surroundings ι ο σ ω θ ρ) (p : π → Saga κ ε σ θ ρ δ α) :
    Episode π κ ε ι ο → σ × ω → σ × ω
  | attempt arguments turns, (s, w) =>
    let ran := run surroundings turns (p arguments) s w
    (ran.store, ran.world)
  | interfere i, (s, w) => (surroundings.interfere i s, w)

/-- The turns of an episode are allowed. -/
def Allowed (x : Setting κ ε σ θ ρ ι ο ω) : Episode π κ ε ι ο → Prop
  | attempt _ turns => ∀ t ∈ turns, x.allowed t
  | interfere i => x.allowed (.interfere i)

/-- **What every attempt keeps, and everything else that changes the store, a run of episodes keeps.** -/
theorem run_invariant {x : Setting κ ε σ θ ρ ι ο ω} {p : π → Saga κ ε σ θ ρ δ α} {I : σ → ω → Prop}
    (hattempt : ∀ arguments, ∀ turns : List (Turn κ ε ι ο), (∀ t ∈ turns, x.allowed t) → ∀ s w, I s w →
      I (run x.surroundings turns (p arguments) s w).store (run x.surroundings turns (p arguments) s w).world)
    (hinterfere : ∀ i s w, x.allowed (.interfere i) → I s w → I (x.surroundings.interfere i s) w)
    {episodes : List (Episode π κ ε ι ο)} (hepisodes : ∀ e ∈ episodes, e.Allowed x) {s : σ × ω} (hs : I s.1 s.2) :
    I (Machine.run (step x.surroundings p) episodes s).1 (Machine.run (step x.surroundings p) episodes s).2 := by
  induction episodes generalizing s with
  | nil => exact hs
  | cons e episodes ih =>
    refine ih (fun e' he' => hepisodes e' (by simp [he'])) ?_
    have he := hepisodes e (by simp)
    cases e with
    | attempt arguments turns => exact hattempt arguments turns he s.1 s.2 hs
    | interfere i => exact hinterfere i s.1 s.2 he hs

end Episode

end Saga

end AgentVoice.Foundations

import AgentVoice.Foundations.Saga

/-!
# The questions of a saga

`AsksOnly A p` says that everything `p` may ask, in any run, meets `A`. It is checked along the steps of the saga, and
gives the frame rule: what such questions keep of the world, the saga keeps, whatever its calls return and whatever
else changes the store (`Triple.frame`).
-/

namespace AgentVoice.Foundations.Saga

variable {κ ε σ θ ρ δ α β ι ο ω : Type} {A : θ → Prop}

/-- Everything that a saga may ask meets a condition. -/
inductive AsksOnly (A : θ → Prop) : Saga κ ε σ θ ρ δ α → Prop
  | done (result : Except δ α) : AsksOnly A (.done result)
  | call {β : Type} (t : κ → Tx ε σ β) (next : Except ε β → Saga κ ε σ θ ρ δ α) (h : ∀ r, AsksOnly A (next r)) :
      AsksOnly A (.call t next)
  | ask (question : θ) (next : ρ → Saga κ ε σ θ ρ δ α) (hquestion : A question) (h : ∀ a, AsksOnly A (next a)) :
      AsksOnly A (.ask question next)

namespace AsksOnly

/-- **One saga after another.** -/
theorem bind {p : Saga κ ε σ θ ρ δ α} {f : α → Saga κ ε σ θ ρ δ β} (hp : AsksOnly A p) (hf : ∀ a, AsksOnly A (f a)) :
    AsksOnly A (p >>= f) := by
  show AsksOnly A (p.bind f)
  induction hp with
  | done result =>
    cases result with
    | ok a => exact hf a
    | error e => exact .done _
  | call t next _ ih => exact .call t _ ih
  | ask question next hquestion _ ih => exact .ask question _ hquestion ih

theorem pure (a : α) : AsksOnly A (Pure.pure a : Saga κ ε σ θ ρ δ α) := .done _

theorem ofResult (r : Except δ α) : AsksOnly A (Saga.ofResult r : Saga κ ε σ θ ρ δ α) := .done _

theorem ensure (p : Prop) [Decidable p] (e : δ) : AsksOnly A (Saga.ensure p e : Saga κ ε σ θ ρ δ Unit) := .done _

theorem fail (e : δ) : AsksOnly A (Saga.fail e : Saga κ ε σ θ ρ δ α) := .done _

theorem attempt (t : κ → Tx ε σ β) : AsksOnly A (Saga.attempt t : Saga κ ε σ θ ρ δ (Except ε β)) :=
  .call t _ fun _ => .done _

theorem store (wrap : ε → δ) (t : κ → Tx ε σ β) : AsksOnly A (Saga.store wrap t : Saga κ ε σ θ ρ δ β) :=
  .call t _ fun _ => .done _

theorem query {question : θ} (h : A question) : AsksOnly A (Saga.query question : Saga κ ε σ θ ρ δ ρ) :=
  .ask question _ h fun _ => .done _

end AsksOnly

/-! ### The frame rule -/

variable {x : Setting κ ε σ θ ρ ι ο ω} {K : ω → Prop}

/-- What is said of the world alone is stable. -/
theorem stable_world (hstops : ∀ s w, K w → x.stops s w) : Stable x fun _ w => K w := ⟨fun _ _ _ _ h => h, hstops⟩

/-- **The frame rule.** What the questions of a saga keep of the world, the saga keeps. -/
theorem Triple.frame {p : Saga κ ε σ θ ρ δ α} (hp : AsksOnly A p) (hstops : ∀ s w, K w → x.stops s w)
    (hasks : ∀ q s w, A q → K w → x.asks q s w)
    (hanswer : ∀ o q w, x.allowed (.answer o) → A q → K w → K (x.surroundings.answer o q w).2) :
    Triple x (fun _ w => K w) p fun _ _ w => K w := by
  induction hp with
  | done result => exact Triple.done fun _ _ h => h
  | call t next _ ih =>
    refine Triple.call (stable_world hstops) (fun clock r _ => ?_) fun e _ => ih _
    refine (ih r).weaken ?_ fun _ _ _ h => h
    rintro s' w ⟨s, h, -⟩
    exact h
  | ask question next hquestion _ ih =>
    refine Triple.ask (stable_world hstops) (fun s w h => hasks question s w hquestion h) fun o a ho => ?_
    refine (ih a).weaken ?_ fun _ _ _ h => h
    rintro s w' ⟨w, h, hanswered⟩
    have hkept := hanswer o question w ho hquestion h
    rwa [hanswered] at hkept

/-- A step that makes no call and asks nothing, and what follows it. -/
theorem Triple.frame_bind {p : Saga κ ε σ θ ρ δ β} {f : β → Saga κ ε σ θ ρ δ α} {Q : Except δ α → σ → ω → Prop}
    (hp : AsksOnly A p) (hstops : ∀ s w, K w → x.stops s w) (hasks : ∀ q s w, A q → K w → x.asks q s w)
    (hanswer : ∀ o q w, x.allowed (.answer o) → A q → K w → K (x.surroundings.answer o q w).2)
    (herror : ∀ e s w, K w → Q (.error e) s w) (hf : ∀ b, Triple x (fun _ w => K w) (f b) Q) :
    Triple x (fun _ w => K w) (p >>= f) Q := by
  refine Triple.bind (R := fun _ _ w => K w) ((Triple.frame hp hstops hasks hanswer).weaken (fun _ _ h => h) ?_) hf
  intro r s w h
  cases r with
  | ok b => exact h
  | error e => exact herror e s w h

end AgentVoice.Foundations.Saga

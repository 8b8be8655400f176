import AgentVoice.Foundations.Result

/-!
# Transactions

A transaction reads and writes a database state and may fail. `commit` runs it against the database:
success installs the state it left, failure rolls back to the state before. The rules of this module
take a transaction apart into its steps (`run_bind_eq_ok_iff`).
-/

namespace AgentVoice.Foundations

/-- A transaction with state `σ`, result `α` and errors `ε`. -/
structure Tx (ε σ α : Type) where
  run : σ → Except ε (α × σ)

namespace Tx

variable {ε σ α β : Type}

instance : Monad (Tx ε σ) where
  pure a := ⟨fun s => .ok (a, s)⟩
  bind x f := ⟨fun s => x.run s >>= fun r => (f r.1).run r.2⟩

/-- Fails with an error. -/
def fail (e : ε) : Tx ε σ α := ⟨fun _ => .error e⟩

/-- Reads from the database. -/
def read (f : σ → α) : Tx ε σ α := ⟨fun s => .ok (f s, s)⟩

/-- Changes the database. -/
def write (f : σ → σ) : Tx ε σ Unit := ⟨fun s => .ok ((), f s)⟩

/-- A computation that does not touch the database. -/
def ofResult (x : Except ε α) : Tx ε σ α := ⟨fun s => x.map fun a => (a, s)⟩

/-- A check that must hold before the transaction goes on. -/
def ensure (p : Prop) [Decidable p] (e : ε) : Tx ε σ Unit := ofResult (require p e)

@[simp] theorem run_pure (a : α) (s : σ) : (pure a : Tx ε σ α).run s = .ok (a, s) := rfl

@[simp] theorem run_fail (e : ε) (s : σ) : (fail e : Tx ε σ α).run s = .error e := rfl

@[simp] theorem run_read (f : σ → α) (s : σ) : (read f : Tx ε σ α).run s = .ok (f s, s) := rfl

@[simp] theorem run_write (f : σ → σ) (s : σ) : (write f : Tx ε σ Unit).run s = .ok ((), f s) := rfl

@[simp] theorem run_ofResult_ok (a : α) (s : σ) : (ofResult (.ok a) : Tx ε σ α).run s = .ok (a, s) := rfl

@[simp] theorem run_ofResult_error (e : ε) (s : σ) : (ofResult (.error e) : Tx ε σ α).run s = .error e := rfl

theorem run_bind (x : Tx ε σ α) (f : α → Tx ε σ β) (s : σ) :
    (x >>= f).run s = x.run s >>= fun r => (f r.1).run r.2 := rfl

/-- A step that succeeded, and the rest of the transaction. -/
theorem run_bind_of_ok {x : Tx ε σ α} {s s' : σ} {a : α} (h : x.run s = .ok (a, s')) (f : α → Tx ε σ β) :
    (x >>= f).run s = (f a).run s' := by
  rw [run_bind, h, ok_bind]

theorem run_bind_of_error {x : Tx ε σ α} {s : σ} {e : ε} (h : x.run s = .error e) (f : α → Tx ε σ β) :
    (x >>= f).run s = .error e := by
  rw [run_bind, h, error_bind]

/-- **A transaction that succeeds succeeds step by step.** -/
theorem run_bind_eq_ok_iff {x : Tx ε σ α} {f : α → Tx ε σ β} {s s'' : σ} {b : β} :
    (x >>= f).run s = .ok (b, s'') ↔ ∃ a s', x.run s = .ok (a, s') ∧ (f a).run s' = .ok (b, s'') := by
  rw [run_bind, bind_eq_ok_iff]
  exact ⟨fun ⟨r, h1, h2⟩ => ⟨r.1, r.2, h1, h2⟩, fun ⟨a, s', h1, h2⟩ => ⟨(a, s'), h1, h2⟩⟩

@[simp] theorem run_ofResult_eq_ok_iff {x : Except ε α} {s s' : σ} {a : α} :
    (ofResult x : Tx ε σ α).run s = .ok (a, s') ↔ x = .ok a ∧ s' = s := by
  cases x with
  | error e => simp
  | ok b => simp [eq_comm]

@[simp] theorem run_ensure_eq_ok_iff {p : Prop} [Decidable p] {e : ε} {s s' : σ} {u : Unit} :
    (ensure p e : Tx ε σ Unit).run s = .ok (u, s') ↔ p ∧ s' = s := by
  rw [ensure, run_ofResult_eq_ok_iff, require_eq_ok_iff]

theorem run_ensure_of_not {p : Prop} [Decidable p] (h : ¬ p) (e : ε) (s : σ) :
    (ensure p e : Tx ε σ Unit).run s = .error e := by
  rw [ensure, require_of_not h, run_ofResult_error]

/-! The rules for taking a transaction apart statement by statement; as rewrite rules they turn a
successful run into the conjunction of what its statements did. -/

theorem read_bind (g : σ → α) (f : α → Tx ε σ β) (s : σ) : (read g >>= f).run s = (f (g s)).run s := rfl

theorem write_bind (g : σ → σ) (f : Unit → Tx ε σ β) (s : σ) : (write g >>= f).run s = (f ()).run (g s) := rfl

theorem ofResult_bind_eq_ok_iff {x : Except ε α} {f : α → Tx ε σ β} {s : σ} {r : β × σ} :
    (ofResult x >>= f).run s = .ok r ↔ ∃ a, x = .ok a ∧ (f a).run s = .ok r := by
  cases x with
  | error e => simp [run_bind]
  | ok a => simp [run_bind]

theorem ofResult_bind_of_ok {x : Except ε α} {a : α} (h : x = .ok a) (f : α → Tx ε σ β) (s : σ) :
    (ofResult x >>= f).run s = (f a).run s := by
  subst h
  rfl

/-- A step that does not touch the database, before steps that return the same from two states. -/
theorem map_fst_ofResult_bind {x : Except ε α} {f : α → Tx ε σ β} {s s' : σ}
    (h : ∀ a, x = .ok a → ((f a).run s').map Prod.fst = ((f a).run s).map Prod.fst) :
    ((ofResult x >>= f).run s').map Prod.fst = ((ofResult x >>= f).run s).map Prod.fst := by
  cases x with
  | error e => rfl
  | ok a => exact h a rfl

theorem ensure_bind_eq_ok_iff {p : Prop} [Decidable p] {e : ε} {f : Unit → Tx ε σ β} {s : σ} {r : β × σ} :
    (ensure p e >>= f).run s = .ok r ↔ p ∧ (f ()).run s = .ok r := by
  rw [ensure, ofResult_bind_eq_ok_iff]
  exact ⟨fun ⟨a, h1, h2⟩ => ⟨require_eq_ok_iff.mp h1, h2⟩, fun ⟨h1, h2⟩ => ⟨(), require_eq_ok_iff.mpr h1, h2⟩⟩

theorem ensure_bind_of {p : Prop} [Decidable p] (h : p) (e : ε) (f : Unit → Tx ε σ β) (s : σ) :
    (ensure p e >>= f).run s = (f ()).run s := ofResult_bind_of_ok (require_of h e) f s

theorem ensure_bind_of_not {p : Prop} [Decidable p] (h : ¬ p) (e : ε) (f : Unit → Tx ε σ β) (s : σ) :
    (ensure p e >>= f).run s = .error e := run_bind_of_error (run_ensure_of_not h e s) f

/-! ### Part of a database -/

/-- Runs a transaction on a part of the database. -/
def zoom {τ : Type} (get : σ → τ) (set : τ → σ → σ) (t : Tx ε τ α) : Tx ε σ α :=
  ⟨fun s => (t.run (get s)).map fun r => (r.1, set r.2 s)⟩

theorem run_zoom_eq_ok_iff {τ : Type} {get : σ → τ} {set : τ → σ → σ} {t : Tx ε τ α} {s s' : σ} {a : α} :
    (zoom get set t).run s = .ok (a, s') ↔ ∃ u, t.run (get s) = .ok (a, u) ∧ s' = set u s := by
  cases h : t.run (get s) with
  | error e => simp [zoom, h, Except.map]
  | ok r =>
    obtain ⟨b, u⟩ := r
    simp only [zoom, h, Except.map, Except.ok.injEq, Prod.mk.injEq]
    constructor
    · rintro ⟨rfl, rfl⟩
      exact ⟨u, ⟨rfl, rfl⟩, rfl⟩
    · rintro ⟨u', ⟨rfl, rfl⟩, rfl⟩
      exact ⟨rfl, rfl⟩

theorem run_zoom_of_error {τ : Type} {get : σ → τ} {set : τ → σ → σ} {t : Tx ε τ α} {s : σ} {e : ε}
    (h : t.run (get s) = .error e) : (zoom get set t).run s = .error e := by
  simp [zoom, h, Except.map]

/-! ### Results that are not looked at -/

/-- Runs a transaction for its effect. -/
def discard (t : Tx ε σ α) : Tx ε σ Unit := ⟨fun s => (t.run s).map fun r => ((), r.2)⟩

theorem run_discard_eq_ok_iff {t : Tx ε σ α} {s s' : σ} {u : Unit} :
    t.discard.run s = .ok (u, s') ↔ ∃ a, t.run s = .ok (a, s') := by
  cases h : t.run s with
  | error e => simp [discard, h, Except.map]
  | ok r =>
    obtain ⟨a, s₁⟩ := r
    simp [discard, h, Except.map]

/-! ### Committing -/

/-- Runs a transaction against the database: a failure leaves the database as it was. -/
def commit (t : Tx ε σ α) (s : σ) : Except ε α × σ :=
  match t.run s with
  | .ok (a, s') => (.ok a, s')
  | .error e => (.error e, s)

theorem commit_of_ok {t : Tx ε σ α} {s s' : σ} {a : α} (h : t.run s = .ok (a, s')) : t.commit s = (.ok a, s') := by
  rw [commit, h]

theorem commit_of_error {t : Tx ε σ α} {s : σ} {e : ε} (h : t.run s = .error e) : t.commit s = (.error e, s) := by
  rw [commit, h]

theorem commit_eq_ok_iff {t : Tx ε σ α} {s s' : σ} {a : α} : t.commit s = (.ok a, s') ↔ t.run s = .ok (a, s') := by
  unfold commit
  cases h : t.run s with
  | error e => simp
  | ok r => simp [Prod.ext_iff]

/-- **Rollback.** A call that returns an error leaves the database unchanged. -/
theorem commit_eq_error {t : Tx ε σ α} {s s' : σ} {e : ε} (h : t.commit s = (.error e, s')) :
    t.run s = .error e ∧ s' = s := by
  unfold commit at h
  cases hr : t.run s with
  | error e' =>
    rw [hr] at h
    obtain ⟨he, hs⟩ := Prod.mk.inj h
    exact ⟨congrArg _ (Except.error.inj he), hs.symm⟩
  | ok r =>
    rw [hr] at h
    cases (Prod.mk.inj h).1

end Tx

end AgentVoice.Foundations

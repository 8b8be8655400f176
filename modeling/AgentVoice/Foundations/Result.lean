import Mathlib.Data.List.Forall2

/-!
# Fallible steps

Rules for `Except` computations: how a successful or failed sequence of steps comes apart into its
steps. The proofs above this module take computations apart with these rules only.
-/

namespace AgentVoice.Foundations

variable {ε α β : Type _}

@[simp] theorem ok_bind (a : α) (f : α → Except ε β) : (Except.ok a >>= f) = f a := rfl

@[simp] theorem error_bind (e : ε) (f : α → Except ε β) : (Except.error e >>= f) = .error e := rfl

@[simp] theorem pure_eq_ok (a : α) : (pure a : Except ε α) = .ok a := rfl

@[simp] theorem throw_eq_error (e : ε) : (throw e : Except ε α) = .error e := rfl

/-- A sequence of steps succeeds when the first does and the rest does from its result. -/
theorem bind_eq_ok_iff {x : Except ε α} {f : α → Except ε β} {b : β} :
    (x >>= f) = .ok b ↔ ∃ a, x = .ok a ∧ f a = .ok b := by
  cases x with
  | error e => simp
  | ok a => simp

/-- A sequence of steps fails when its first step does, or the rest does from its result. -/
theorem bind_eq_error_iff {x : Except ε α} {f : α → Except ε β} {e : ε} :
    (x >>= f) = .error e ↔ x = .error e ∨ ∃ a, x = .ok a ∧ f a = .error e := by
  cases x with
  | error e' => simp
  | ok a => simp

/-- A check that must hold before the computation goes on. -/
def require (p : Prop) [Decidable p] (e : ε) : Except ε Unit := if p then .ok () else .error e

@[simp] theorem require_eq_ok_iff {p : Prop} [Decidable p] {e : ε} {u : Unit} : require p e = .ok u ↔ p := by
  unfold require
  by_cases h : p <;> simp [h]

theorem require_of {p : Prop} [Decidable p] (h : p) (e : ε) : require p e = .ok () := if_pos h

theorem require_of_not {p : Prop} [Decidable p] (h : ¬ p) (e : ε) : require p e = .error e := if_neg h

/-- The value of an option, or the given error. -/
def okOr (x : Option α) (e : ε) : Except ε α :=
  match x with
  | some a => .ok a
  | none => .error e

@[simp] theorem okOr_some (a : α) (e : ε) : okOr (some a) e = .ok a := rfl

@[simp] theorem okOr_none (e : ε) : okOr (none : Option α) e = .error e := rfl

@[simp] theorem okOr_eq_ok_iff {x : Option α} {e : ε} {a : α} : okOr x e = .ok a ↔ x = some a := by
  cases x <;> simp [okOr]

/-- `map_err(|_| e)`: every failure becomes the given error. -/
def replaceError {ε' : Type _} (x : Except ε' α) (e : ε) : Except ε α :=
  match x with
  | .ok a => .ok a
  | .error _ => .error e

@[simp] theorem replaceError_ok {ε' : Type _} (a : α) (e : ε) : replaceError (.ok a : Except ε' α) e = .ok a := rfl

@[simp] theorem replaceError_error {ε' : Type _} (e' : ε') (e : ε) :
    replaceError (.error e' : Except ε' α) e = .error e := rfl

@[simp] theorem replaceError_eq_ok_iff {ε' : Type _} {x : Except ε' α} {e : ε} {a : α} :
    replaceError x e = .ok a ↔ x = .ok a := by
  cases x <;> simp [replaceError]

/-- `Option::map(f).transpose()`: a step on a value that may be absent. -/
def transpose (f : α → Except ε β) : Option α → Except ε (Option β)
  | none => .ok none
  | some a => (f a).map some

@[simp] theorem transpose_none (f : α → Except ε β) : transpose f none = .ok none := rfl

theorem transpose_eq_ok_none_iff {f : α → Except ε β} {x : Option α} : transpose f x = .ok none ↔ x = none := by
  cases x with
  | none => simp
  | some a => cases h : f a <;> simp [transpose, h, Except.map]

theorem transpose_eq_ok_some_iff {f : α → Except ε β} {x : Option α} {b : β} :
    transpose f x = .ok (some b) ↔ ∃ a, x = some a ∧ f a = .ok b := by
  cases x with
  | none => simp
  | some a => cases h : f a <;> simp [transpose, h, Except.map]

/-- A step that returns what it is given. -/
theorem eq_of_transpose_eq_ok {f : α → Except ε α} (hf : ∀ a b, f a = .ok b → a = b) {x y : Option α}
    (h : transpose f x = .ok y) : x = y := by
  cases y with
  | none => exact transpose_eq_ok_none_iff.mp h
  | some b =>
    obtain ⟨a, rfl, hab⟩ := transpose_eq_ok_some_iff.mp h
    rw [hf a b hab]

/-- A check of every element succeeds when each element passes it. -/
theorem forM_eq_ok_iff {f : α → Except ε PUnit} {xs : List α} {u : PUnit} :
    xs.forM f = .ok u ↔ ∀ x ∈ xs, f x = .ok u := by
  induction xs with
  | nil => exact iff_of_true rfl (List.forall_mem_nil _)
  | cons x xs ih =>
    rw [List.forM_eq_forM, List.forM_cons, bind_eq_ok_iff, List.forall_mem_cons]
    constructor
    · rintro ⟨_, hx, hxs⟩
      exact ⟨hx, ih.mp hxs⟩
    · rintro ⟨hx, hxs⟩
      exact ⟨u, hx, ih.mpr hxs⟩

/-- The results of a step that succeeds on every element of a list. -/
theorem forall₂_toOption {f : α → Except ε β} {xs : List α} (h : ∀ x ∈ xs, ∃ y, f x = .ok y) :
    List.Forall₂ (fun x y => f x = .ok y) xs (xs.filterMap fun x => (f x).toOption) := by
  induction xs with
  | nil => exact List.Forall₂.nil
  | cons x xs ih =>
    obtain ⟨y, hy⟩ := h x List.mem_cons_self
    rw [List.filterMap_cons_some (b := y) (by rw [hy]; rfl)]
    exact List.Forall₂.cons hy (ih fun z hz => h z (List.mem_cons_of_mem _ hz))

/-- What a step on every element of a list returns comes from its elements. -/
theorem exists_of_mem_mapM {f : α → Except ε β} {xs : List α} {ys : List β} (h : xs.mapM f = .ok ys) {y : β}
    (hy : y ∈ ys) : ∃ x ∈ xs, f x = .ok y := by
  induction xs generalizing ys with
  | nil =>
    obtain rfl := Except.ok.inj h
    cases hy
  | cons x xs ih =>
    rw [List.mapM_cons] at h
    obtain ⟨z, hz, hrest⟩ := bind_eq_ok_iff.mp h
    obtain ⟨zs, hzs, hpure⟩ := bind_eq_ok_iff.mp hrest
    obtain rfl := Except.ok.inj hpure
    rcases List.mem_cons.mp hy with rfl | hy
    · exact ⟨x, by simp, hz⟩
    · obtain ⟨x', hx', hfx'⟩ := ih hzs hy
      exact ⟨x', by simp [hx'], hfx'⟩

/-- What a step on every element of a list returns for each of them is in the result. -/
theorem exists_mem_of_mapM {f : α → Except ε β} {xs : List α} {ys : List β} (h : xs.mapM f = .ok ys) {x : α}
    (hx : x ∈ xs) : ∃ y ∈ ys, f x = .ok y := by
  induction xs generalizing ys with
  | nil => cases hx
  | cons x' xs ih =>
    rw [List.mapM_cons] at h
    obtain ⟨z, hz, hrest⟩ := bind_eq_ok_iff.mp h
    obtain ⟨zs, hzs, hpure⟩ := bind_eq_ok_iff.mp hrest
    obtain rfl := Except.ok.inj hpure
    rcases List.mem_cons.mp hx with rfl | hx
    · exact ⟨z, by simp, hz⟩
    · obtain ⟨y, hy, hfy⟩ := ih hzs hx
      exact ⟨y, by simp [hy], hfy⟩

/-- A step that succeeds on every element of a list succeeds on the list. -/
theorem exists_mapM_eq_ok {f : α → Except ε β} {R : α → β → Prop} {xs : List α}
    (h : ∀ x ∈ xs, ∃ y, f x = .ok y ∧ R x y) : ∃ ys, xs.mapM f = .ok ys ∧ List.Forall₂ R xs ys := by
  induction xs with
  | nil => exact ⟨[], rfl, .nil⟩
  | cons x xs ih =>
    obtain ⟨y, hy, hxy⟩ := h x (by simp)
    obtain ⟨ys, hys, hrest⟩ := ih fun x' hx' => h x' (List.mem_cons_of_mem _ hx')
    exact ⟨y :: ys, by rw [List.mapM_cons, hy, ok_bind, hys]; rfl, .cons hxy hrest⟩

/-- The results of a step on every element of a list, one by one. -/
theorem mapM_eq_ok_iff_forall₂ {f : α → Except ε β} {xs : List α} {ys : List β} :
    xs.mapM f = .ok ys ↔ List.Forall₂ (fun x y => f x = .ok y) xs ys := by
  constructor
  · intro h
    induction xs generalizing ys with
    | nil =>
      obtain rfl := Except.ok.inj h
      exact .nil
    | cons x xs ih =>
      rw [List.mapM_cons] at h
      obtain ⟨z, hz, hrest⟩ := bind_eq_ok_iff.mp h
      obtain ⟨zs, hzs, hpure⟩ := bind_eq_ok_iff.mp hrest
      obtain rfl := Except.ok.inj hpure
      exact .cons hz (ih hzs)
  · intro h
    induction h with
    | nil => rfl
    | cons hxy _ ih =>
      rw [List.mapM_cons, hxy, ok_bind, ih]
      rfl

/-- What is related to the elements of a list one by one is there for each of them. -/
theorem exists_of_mem_forall₂ {R : α → β → Prop} {xs : List α} {ys : List β} (h : List.Forall₂ R xs ys) {x : α}
    (hx : x ∈ xs) : ∃ y ∈ ys, R x y := by
  induction h with
  | nil => cases hx
  | cons hxy _ ih =>
    rcases List.mem_cons.mp hx with rfl | hx
    · exact ⟨_, by simp, hxy⟩
    · obtain ⟨y, hy, hrel⟩ := ih hx
      exact ⟨y, by simp [hy], hrel⟩

/-- What holds of pairs of elements carries over to what is related to them. -/
theorem pairwise_of_forall₂ {R : α → β → Prop} {S : α → α → Prop} {S' : β → β → Prop} {xs : List α} {ys : List β}
    (h : List.Forall₂ R xs ys) (hS : xs.Pairwise S)
    (hpair : ∀ x ∈ xs, ∀ x' ∈ xs, ∀ y y', R x y → R x' y' → S x x' → S' y y') : ys.Pairwise S' := by
  induction h with
  | nil => exact List.Pairwise.nil
  | @cons x y xs ys hxy hrest ih =>
    obtain ⟨hfirst, hS⟩ := List.pairwise_cons.mp hS
    refine List.pairwise_cons.mpr ⟨fun y' hy' => ?_, ih hS fun z hz z' hz' =>
      hpair z (List.mem_cons_of_mem _ hz) z' (List.mem_cons_of_mem _ hz')⟩
    obtain ⟨x', hx', hxy'⟩ := exists_of_mem_forall₂ hrest.flip hy'
    exact hpair x List.mem_cons_self x' (List.mem_cons_of_mem _ hx') y y' hxy hxy' (hfirst x' hx')

/-- Two lists of results for one list agree where the results for each element do. -/
theorem map_eq_map_of_forall₂ {γ δ : Type _} {R : α → β → Prop} {Q : α → γ → Prop} {f : β → δ} {g : γ → δ} {xs : List α}
    {ys : List β} {zs : List γ} (h : List.Forall₂ R xs ys) (h' : List.Forall₂ Q xs zs)
    (heq : ∀ x ∈ xs, ∀ y z, R x y → Q x z → f y = g z) : ys.map f = zs.map g := by
  induction h generalizing zs with
  | nil =>
    cases h'
    rfl
  | @cons x y xs ys hxy hrest ih =>
    cases h' with
    | cons hxz hrest' =>
      rw [List.map_cons, List.map_cons, heq x List.mem_cons_self y _ hxy hxz,
        ih hrest' fun x' hx' => heq x' (List.mem_cons_of_mem _ hx')]

end AgentVoice.Foundations

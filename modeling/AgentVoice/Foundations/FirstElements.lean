import Mathlib.Data.Finset.Sort
import Mathlib.Data.Set.Finite.Basic

/-!
# The first elements of a set

`IsFirst n E r` says that `r` lists the first `n` elements of `E` in ascending order (all of them,
when there are fewer). A set has at most one such list (`IsFirst.unique`).

The main result compares two orders. A list of some elements of `E`, ordered by a key, is cut after
`n` elements; `isFirst_take_iff` says exactly when the cut list is the first `n` elements of `E` in
the order of `E` itself.
-/

namespace AgentVoice.Foundations

variable {α κ : Type*} [LinearOrder α] [LinearOrder κ]

/-- `r` is the list of the first `n` elements of `E`, in ascending order. -/
structure IsFirst (n : ℕ) (E : Set α) (r : List α) : Prop where
  ascending : r.Pairwise (· < ·)
  mem : ∀ x ∈ r, x ∈ E
  length_le : r.length ≤ n
  /-- What is left out comes later, and only when the list is full. -/
  rest : ∀ x ∈ E, x ∉ r → r.length = n ∧ ∀ y ∈ r, y < x

/-- `x` is one of the first `n` elements of `E`. -/
def AmongFirst (n : ℕ) (E : Set α) (x : α) : Prop := ∃ r, IsFirst n E r ∧ x ∈ r

/-- An ascending list of all elements, cut after `n`. -/
theorem isFirst_take {n : ℕ} {E : Set α} {S : List α} (hS : S.Pairwise (· < ·)) (hE : ∀ x, x ∈ S ↔ x ∈ E) :
    IsFirst n E (S.take n) where
  ascending := hS.sublist (List.take_sublist n S)
  mem x hx := (hE x).mp (List.mem_of_mem_take hx)
  length_le := List.length_take_le n S
  rest x hx hout := by
    rw [← hE x, ← List.take_append_drop n S, List.mem_append] at hx
    have hdrop := hx.resolve_left hout
    rw [← List.take_append_drop n S, List.pairwise_append] at hS
    refine ⟨?_, fun y hy => hS.2.2 y hy x hdrop⟩
    by_contra hshort
    rw [List.length_take] at hshort
    rw [List.drop_eq_nil_of_le (by omega)] at hdrop
    cases hdrop

/-- **The first elements are determined.** -/
theorem IsFirst.unique {n : ℕ} {E : Set α} {r r' : List α} (h : IsFirst n E r) (h' : IsFirst n E r') :
    r = r' := by
  have hsub : ∀ {r r' : List α}, IsFirst n E r → IsFirst n E r' → r ⊆ r' := by
    intro r r' h h' x hx
    by_contra hout
    -- `r'` is full of smaller elements, which are then all in `r`, next to `x`
    obtain ⟨hfull, hlt⟩ := h'.rest x (h.mem x hx) hout
    have hin : ∀ y ∈ r', y ∈ r := by
      intro y hy
      by_contra hy'
      exact absurd ((h.rest y (h'.mem y hy) hy').2 x hx) (not_lt.mpr (hlt y hy).le)
    have hnodup : (x :: r').Nodup :=
      List.nodup_cons.mpr ⟨hout, h'.ascending.imp fun hxy => ne_of_lt hxy⟩
    have hle := (hnodup.subperm (List.cons_subset.mpr ⟨hx, hin⟩)).length_le
    have := h.length_le
    simp only [List.length_cons] at hle
    omega
  have hnodup : ∀ {r : List α}, IsFirst n E r → r.Nodup := fun h => h.ascending.imp fun hxy => ne_of_lt hxy
  exact ((List.perm_ext_iff_of_nodup (hnodup h) (hnodup h')).mpr fun x =>
    ⟨fun hx => hsub h h' hx, fun hx => hsub h' h hx⟩).eq_of_pairwise
      (fun a b _ _ hab hba => absurd hab (not_lt.mpr hba.le)) h.ascending h'.ascending

/-- A finite set has an ascending list of its elements. -/
theorem exists_ascending {E : Set α} (hE : E.Finite) :
    ∃ S : List α, S.Pairwise (· < ·) ∧ ∀ x, x ∈ S ↔ x ∈ E :=
  ⟨hE.toFinset.sort (· ≤ ·), Finset.sortedLT_sort _ |>.pairwise, by simp⟩

/-! ### Cutting a list ordered by another key -/

/-- The comparison for lists: `S` is ascending, `L` holds some of its elements ordered by `k`. -/
theorem take_eq_take_iff (k : α → κ) {S L : List α} (hS : S.Pairwise (· < ·))
    (hL : L.Pairwise fun x y => k x < k y) (hsub : ∀ x ∈ L, x ∈ S) (n : ℕ) :
    L.take n = S.take n ↔ ∀ x ∈ S.take n, x ∈ L ∧ ∀ y ∈ L, x < y → k x < k y := by
  induction n generalizing S L with
  | zero => simp
  | succ n ih =>
    cases S with
    | nil =>
      obtain rfl : L = [] := List.eq_nil_iff_forall_not_mem.mpr fun x hx => by simpa using hsub x hx
      simp
    | cons s S =>
      obtain ⟨hs, hS'⟩ := List.pairwise_cons.mp hS
      -- both sides say that `L` starts with the least element `s`
      have hhead : ∀ l L', L = l :: L' → (s ∈ L ∧ (∀ y ∈ L, s < y → k s < k y) ↔ l = s) := by
        rintro l L' rfl
        obtain ⟨hl, -⟩ := List.pairwise_cons.mp hL
        constructor
        · rintro ⟨hmem, hmin⟩
          rcases List.mem_cons.mp hmem with rfl | hmem
          · rfl
          · rcases List.mem_cons.mp (hsub l (by simp)) with rfl | hlS
            · rfl
            · exact absurd (hmin l (by simp) (hs l hlS)) (not_lt.mpr (hl s hmem).le)
        · rintro rfl
          refine ⟨by simp, fun y hy hlt => ?_⟩
          rcases List.mem_cons.mp hy with rfl | hy
          · exact absurd hlt (lt_irrefl _)
          · exact hl y hy
      cases L with
      | nil => exact ⟨fun h => by simp at h, fun h => absurd (h s (by simp)).1 (by simp)⟩
      | cons l L' =>
        obtain ⟨hl, hL'⟩ := List.pairwise_cons.mp hL
        have hhead' := hhead l L' rfl
        rw [List.take_succ_cons, List.take_succ_cons, List.cons.injEq, List.forall_mem_cons, hhead']
        refine and_congr_right fun hls => ?_
        subst hls
        have hsub' : ∀ x ∈ L', x ∈ S := fun x hx => by
          rcases List.mem_cons.mp (hsub x (by simp [hx])) with rfl | hx'
          · exact absurd (hl x hx) (lt_irrefl _)
          · exact hx'
        rw [ih hS' hL' hsub']
        refine forall₂_congr fun x hx => ?_
        have hlx : l < x := hs x (List.mem_of_mem_take hx)
        simp only [List.mem_cons, hlx.ne', false_or]
        refine and_congr_right fun _ => ⟨fun h y hy hlt => ?_, fun h y hy hlt => h y (Or.inr hy) hlt⟩
        rcases hy with rfl | hy
        · exact absurd hlt (not_lt.mpr hlx.le)
        · exact h y hy hlt

/-- **When a cut list is the first part of a set.** `L` holds some elements of the finite set `E`,
in the order of a key `k`. Its first `n` elements are the first `n` elements of `E` exactly when
each of those is in `L`, and no greater element of `L` has a key that is not greater. -/
theorem isFirst_take_iff (k : α → κ) {E : Set α} (hE : E.Finite) {L : List α}
    (hL : L.Pairwise fun x y => k x < k y) (hsub : ∀ x ∈ L, x ∈ E) (n : ℕ) :
    IsFirst n E (L.take n) ↔ ∀ x, AmongFirst n E x → x ∈ L ∧ ∀ y ∈ L, x < y → k x < k y := by
  obtain ⟨S, hS, hmem⟩ := exists_ascending hE
  have hfirst : IsFirst n E (S.take n) := isFirst_take hS hmem
  have hamong : ∀ x, AmongFirst n E x ↔ x ∈ S.take n :=
    fun x => ⟨fun ⟨r, hr, hx⟩ => hfirst.unique hr ▸ hx, fun hx => ⟨_, hfirst, hx⟩⟩
  have heq : IsFirst n E (L.take n) ↔ L.take n = S.take n :=
    ⟨fun h => h.unique hfirst, fun h => h ▸ hfirst⟩
  rw [heq, take_eq_take_iff k hS hL (fun x hx => (hmem x).mpr (hsub x hx))]
  simp only [hamong]

end AgentVoice.Foundations

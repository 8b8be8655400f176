import AgentVoice.Foundations.Text
import Mathlib.Data.List.Chain

/-!
# Texts with single spaces

Words that are joined by single spaces: the text has no other white space, none at its ends, and no two spaces side by
side. So whatever stands behind a space in it is no space, and a part of it is trimmed of one space at most.
-/

namespace AgentVoice.Foundations

/-- `join(" ")`, on the characters. -/
def joined (words : List (List Char)) : List Char := [' '].intercalate words

/-- A text of words with single spaces between them. -/
structure SingleSpaced (cs : List Char) : Prop where
  spaces : ∀ c ∈ cs, isWhitespace c = true → c = ' '
  starts : ∀ c ∈ cs.head?, isWhitespace c = false
  ends : ∀ c ∈ cs.getLast?, isWhitespace c = false
  apart : ∀ front back, cs ≠ front ++ ' ' :: ' ' :: back

/-! ### Joining -/

@[simp] theorem joined_singleton (w : List Char) : joined [w] = w := List.intercalate_singleton

theorem joined_cons (w : List Char) {ws : List (List Char)} (hws : ws ≠ []) : joined (w :: ws) = w ++ ' ' :: joined ws := by
  rw [joined, List.intercalate_cons_of_ne_nil hws, List.append_assoc, List.singleton_append, joined]

theorem joined_append {ws vs : List (List Char)} (hws : ws ≠ []) (hvs : vs ≠ []) :
    joined (ws ++ vs) = joined ws ++ ' ' :: joined vs := by
  induction ws with
  | nil => exact absurd rfl hws
  | cons w ws ih =>
    by_cases hnil : ws = []
    · subst hnil
      rw [List.singleton_append, joined_cons w hvs, joined_singleton]
    · rw [List.cons_append, joined_cons w (by simp [hnil]), ih hnil, joined_cons w hnil, List.append_assoc,
        List.cons_append]

theorem joined_concat {ws : List (List Char)} (hws : ws ≠ []) (w : List Char) :
    joined (ws ++ [w]) = joined ws ++ ' ' :: w := by
  rw [joined_append hws (List.cons_ne_nil w []), joined_singleton]

/-! ### Single spaces -/

theorem isWhitespace_space : isWhitespace ' ' = true := by decide

theorem ne_space_of_isWhitespace {c : Char} (h : isWhitespace c = false) : c ≠ ' ' := by
  rintro rfl
  exact Bool.noConfusion (isWhitespace_space.symm.trans h)

/-- A word is a text with single spaces. -/
theorem SingleSpaced.of_word {w : List Char} (hw : ∀ c ∈ w, isWhitespace c = false) : SingleSpaced w where
  spaces c hc hwhite := Bool.noConfusion (hwhite.symm.trans (hw c hc))
  starts c hc := hw c (List.mem_of_mem_head? hc)
  ends c hc := hw c (List.mem_of_getLast? hc)
  apart front back h := ne_space_of_isWhitespace (hw ' ' (h ▸ by simp)) rfl

/-- A word before a text with single spaces. -/
theorem SingleSpaced.cons_word {w cs : List Char} (hw : ∀ c ∈ w, isWhitespace c = false) (hne : w ≠ []) (hcs : cs ≠ [])
    (h : SingleSpaced cs) : SingleSpaced (w ++ ' ' :: cs) where
  spaces c hc hwhite := by
    obtain hc | hc := List.mem_append.mp hc
    · exact Bool.noConfusion (hwhite.symm.trans (hw c hc))
    · obtain rfl | hc := List.mem_cons.mp hc
      · rfl
      · exact h.spaces c hc hwhite
  starts c hc := by
    obtain ⟨d, w, rfl⟩ := List.exists_cons_of_ne_nil hne
    exact hw c (List.mem_of_mem_head? hc)
  ends c hc := by
    obtain ⟨d, cs, rfl⟩ := List.exists_cons_of_ne_nil hcs
    refine h.ends c ?_
    rwa [List.getLast?_append_cons, List.getLast?_cons_cons] at hc
  apart front back heq := by
    have hstart : ∀ rest, cs ≠ ' ' :: rest := by
      rintro rest rfl
      exact ne_space_of_isWhitespace (h.starts ' ' rfl) rfl
    obtain ⟨x, rfl, hx⟩ | ⟨x, rfl, hx⟩ := List.append_eq_append_iff.mp heq
    · cases x with
      | nil => exact hstart _ (List.cons.inj hx).2
      | cons d x => exact h.apart x back (List.cons.inj hx).2
    · cases x with
      | nil => exact hstart _ (List.cons.inj hx).2.symm
      | cons d x =>
        obtain rfl := (List.cons.inj hx).1
        exact ne_space_of_isWhitespace (hw ' ' (by simp)) rfl

/-- **Words make a text with single spaces.** -/
theorem singleSpaced_joined {ws : List (List Char)} (hws : ∀ w ∈ ws, w ≠ [] ∧ ∀ c ∈ w, isWhitespace c = false) :
    SingleSpaced (joined ws) ∧ (ws ≠ [] → joined ws ≠ []) := by
  induction ws with
  | nil => exact ⟨SingleSpaced.of_word fun c hc => absurd hc List.not_mem_nil, fun h => absurd rfl h⟩
  | cons w ws ih =>
    obtain ⟨hne, hw⟩ := hws w List.mem_cons_self
    obtain ⟨hspaced, hnonempty⟩ := ih fun v hv => hws v (List.mem_cons_of_mem w hv)
    by_cases hnil : ws = []
    · subst hnil
      rw [joined_singleton]
      exact ⟨SingleSpaced.of_word hw, fun _ => hne⟩
    · rw [joined_cons w hnil]
      exact ⟨hspaced.cons_word hw hne (hnonempty hnil), fun _ h => hne (List.append_eq_nil_iff.mp h).1⟩

/-- Behind a space stands a word. -/
theorem SingleSpaced.of_space {front back : List Char} (h : SingleSpaced (front ++ ' ' :: back)) :
    ∀ c ∈ back.head?, isWhitespace c = false := by
  intro c hc
  obtain ⟨rest, rfl⟩ : ∃ rest, back = c :: rest := by
    cases back with
    | nil => exact absurd hc (by simp)
    | cons d rest => exact ⟨rest, by rw [Option.some.inj hc]⟩
  rw [Bool.eq_false_iff]
  intro hwhite
  obtain rfl := h.spaces c (by simp) hwhite
  exact h.apart front rest rfl

/-! ### Words of a text -/

/-- The parts between separators have the other items, and there is one that is not empty if there are other items. -/
theorem splitOnP_parts {α : Type*} (p : α → Bool) (xs : List α) :
    (∀ part ∈ xs.splitOnP p, ∀ c ∈ part, c ∈ xs ∧ p c = false) ∧
      ((∃ c ∈ xs, p c = false) → ∃ part ∈ xs.splitOnP p, part ≠ []) := by
  induction xs with
  | nil =>
    refine ⟨fun part hpart c hc => ?_, fun ⟨c, hc, _⟩ => absurd hc List.not_mem_nil⟩
    rw [List.splitOnP_nil, List.mem_singleton] at hpart
    rw [hpart] at hc
    exact absurd hc List.not_mem_nil
  | cons x xs ih =>
    obtain ⟨hparts, hsome⟩ := ih
    rw [List.splitOnP_cons_eq_if_modifyHead]
    cases hx : p x with
    | true =>
      rw [if_pos rfl]
      refine ⟨fun part hpart c hc => ?_, fun ⟨c, hc, hpc⟩ => ?_⟩
      · obtain rfl | hpart := List.mem_cons.mp hpart
        · exact absurd hc List.not_mem_nil
        · exact ⟨List.mem_cons_of_mem x (hparts part hpart c hc).1, (hparts part hpart c hc).2⟩
      · obtain rfl | hc := List.mem_cons.mp hc
        · exact Bool.noConfusion (hx.symm.trans hpc)
        · obtain ⟨part, hpart, hne⟩ := hsome ⟨c, hc, hpc⟩
          exact ⟨part, List.mem_cons_of_mem _ hpart, hne⟩
    | false =>
      rw [if_neg Bool.false_ne_true]
      obtain ⟨first, rest, hsplit⟩ := List.exists_cons_of_ne_nil (List.splitOnP_ne_nil p xs)
      rw [hsplit] at hparts ⊢
      refine ⟨fun part hpart c hc => ?_, fun _ => ⟨x :: first, List.mem_cons_self, List.cons_ne_nil x first⟩⟩
      obtain rfl | hpart := List.mem_cons.mp hpart
      · obtain rfl | hc := List.mem_cons.mp hc
        · exact ⟨List.mem_cons_self, hx⟩
        · have hfirst := hparts first List.mem_cons_self c hc
          exact ⟨List.mem_cons_of_mem x hfirst.1, hfirst.2⟩
      · have hrest := hparts part (List.mem_cons_of_mem _ hpart) c hc
        exact ⟨List.mem_cons_of_mem x hrest.1, hrest.2⟩

/-! ### Trimming -/

/-- A text that neither begins nor ends with white space is trimmed. -/
theorem trimChars_eq_self {cs : List Char} (hstarts : ∀ c ∈ cs.head?, isWhitespace c = false)
    (hends : ∀ c ∈ cs.getLast?, isWhitespace c = false) : trimChars cs = cs := by
  have hdrop : cs.dropWhile isWhitespace = cs := by
    cases cs with
    | nil => rfl
    | cons c cs => exact List.dropWhile_cons_of_neg (by rw [hstarts c rfl]; exact Bool.false_ne_true)
  rw [trimChars, hdrop, List.rdropWhile_eq_self_iff]
  intro hne
  rw [hends _ (List.getLast?_eq_some_getLast hne)]
  exact Bool.false_ne_true

/-- A space at the front is trimmed. -/
theorem trimChars_space_cons (cs : List Char) : trimChars (' ' :: cs) = trimChars cs := by
  rw [trimChars, List.dropWhile_cons_of_pos isWhitespace_space, trimChars]

/-- What is no white space is not dropped as such. -/
theorem mem_dropWhile_isWhitespace {c : Char} {cs : List Char} (hc : c ∈ cs) (h : isWhitespace c = false) :
    c ∈ cs.dropWhile isWhitespace := by
  rw [← List.takeWhile_append_dropWhile (p := isWhitespace) (l := cs), List.mem_append] at hc
  obtain hc | hc := hc
  · exact Bool.noConfusion ((List.mem_takeWhile_imp hc).symm.trans h)
  · exact hc

end AgentVoice.Foundations

import AgentVoice.Foundations.AsciiText

/-!
# Separated fields

Fields that are joined by a separator can be told apart when all but one of them are free of it: the fields before the
last free one are found from the front (`split_first`), those behind it from the back (`split_last`). The characters of
an HTTP token are free of every separator that a line format uses.
-/

namespace AgentVoice.Foundations

section

variable {α : Type*} {sep : α} {a a' b b' : List α}

/-- The first separator is where the first field, free of it, ends. -/
theorem split_first (ha : sep ∉ a) (ha' : sep ∉ a') (h : a ++ sep :: b = a' ++ sep :: b') : a = a' ∧ b = b' := by
  induction a generalizing a' with
  | nil =>
    cases a' with
    | nil => exact ⟨rfl, (List.cons.inj h).2⟩
    | cons x a' =>
      obtain ⟨rfl, -⟩ := List.cons.inj h
      exact absurd List.mem_cons_self ha'
  | cons x a ih =>
    cases a' with
    | nil =>
      obtain ⟨rfl, -⟩ := List.cons.inj h
      exact absurd List.mem_cons_self ha
    | cons y a' =>
      obtain ⟨rfl, hrest⟩ := List.cons.inj h
      obtain ⟨rfl, rfl⟩ := ih (fun hx => ha (List.mem_cons_of_mem _ hx)) (fun hx => ha' (List.mem_cons_of_mem _ hx)) hrest
      exact ⟨rfl, rfl⟩

/-- The last separator is where the last field, free of it, starts. -/
theorem split_last (hb : sep ∉ b) (hb' : sep ∉ b') (h : a ++ sep :: b = a' ++ sep :: b') : a = a' ∧ b = b' := by
  have hreverse : b.reverse ++ sep :: a.reverse = b'.reverse ++ sep :: a'.reverse := by
    have := congrArg List.reverse h
    simpa using this
  obtain ⟨hb, ha⟩ := split_first (mt List.mem_reverse.mp hb) (mt List.mem_reverse.mp hb') hreverse
  exact ⟨List.reverse_injective ha, List.reverse_injective hb⟩

end

/-! ### Tokens -/

/-- A character of an HTTP token; the two that are written by number are the apostrophe and the grave accent. -/
def isTokenChar (c : Char) : Bool :=
  isAsciiAlphanumeric c ||
    ['!', '#', '$', '%', '&', Char.ofNat 39, '*', '+', '-', '.', '^', '_', Char.ofNat 96, '|', '~'].contains c

/-- An HTTP token. -/
def IsToken (s : String) : Prop := s.toList.all isTokenChar = true

instance (s : String) : Decidable (IsToken s) := inferInstanceAs (Decidable (_ = _))

theorem not_mem_of_isToken {s : String} (h : IsToken s) {c : Char} (hc : isTokenChar c = false) : c ∉ s.toList := by
  intro hmem
  have := List.all_eq_true.mp h c hmem
  rw [hc] at this
  exact Bool.false_ne_true this

theorem toNat_toUpper (c : Char) :
    c.toUpper.toNat = if 97 ≤ c.toNat ∧ c.toNat ≤ 122 then c.toNat - 32 else c.toNat := by
  unfold Char.toUpper
  split
  case isTrue h =>
    have h1 : 97 ≤ c.toNat := h.1
    have h2 : c.toNat ≤ 122 := h.2
    rw [if_pos ⟨h1, h2⟩]
    show (c.val + ('A'.val - 'a'.val)).toNat = c.val.toNat - 32
    have : 97 ≤ c.val.toNat := h1
    have : c.val.toNat ≤ 122 := h2
    rw [UInt32.toNat_add]
    show (c.val.toNat + 4294967264) % 2 ^ 32 = _
    omega
  case isFalse h =>
    rw [if_neg]
    rintro ⟨h1, h2⟩
    exact h ⟨h1, h2⟩

/-- Case folding makes no line break. -/
theorem newline_not_mem_map_toUpper {cs : List Char} (h : '\n' ∉ cs) : '\n' ∉ cs.map Char.toUpper := by
  intro hmem
  obtain ⟨c, hc, heq⟩ := List.mem_map.mp hmem
  have hnat := congrArg Char.toNat heq
  rw [toNat_toUpper, show ('\n' : Char).toNat = 10 from rfl] at hnat
  have hnewline : c = '\n' := by
    refine Char.toNat_inj.mp ?_
    rw [show ('\n' : Char).toNat = 10 from rfl]
    split_ifs at hnat <;> omega
  exact h (hnewline ▸ hc)

end AgentVoice.Foundations

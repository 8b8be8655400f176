import Mathlib.Data.List.DropRight

/-!
# Stretches of a stream

A stream of items, some of them loud, with cuts between them, is a sequence of stretches. A stretch is quiet before its
first loud item; from there it goes on until a run of quiet items as long as the patience with it, a cut, or the end of
the stream. Every stream has a partition into stretches (`exists_partition`).
-/

namespace AgentVoice.Foundations

/-- What a stream is made of. -/
inductive Input (α : Type*) where
  | item (a : α)
  | cut

/-- What a stretch ends with. -/
inductive Ending where
  | silence
  | cut
  | finish
  deriving DecidableEq

/-- The items before the first loud item, and those from there on. -/
structure Stretch (α : Type*) where
  quiet : List α
  body : List α
  ending : Ending

section

variable {α : Type*} (loud : α → Bool) (patience : ℕ)

/-- How many items at the end are quiet. -/
def trailing (items : List α) : ℕ := (items.rtakeWhile fun a => !loud a).length

/-- What makes items a stretch of a stream. -/
structure Stretch.Valid (s : Stretch α) : Prop where
  quiet : ∀ a ∈ s.quiet, loud a = false
  starts : ∀ a ∈ s.body.head?, loud a = true
  /-- The stretch does not end before it does. -/
  lasts : ∀ front, front <+: s.body → front ≠ s.body → trailing loud front < patience
  ends : s.ending = .silence ↔ patience ≤ trailing loud s.body

/-- The stretch in the stream. -/
def Stretch.inputs (s : Stretch α) : List (Input α) :=
  (s.quiet ++ s.body).map .item ++ if s.ending = .cut then [.cut] else []

/-- The stretches of a stream. -/
inductive Partition : List (Input α) → List (Stretch α) → Prop where
  | last {s : Stretch α} : s.Valid loud patience → s.ending = .finish → Partition s.inputs [s]
  | cons {s : Stretch α} {is : List (Input α)} {ss : List (Stretch α)} :
    s.Valid loud patience → s.ending ≠ .finish → Partition is ss → Partition (s.inputs ++ is) (s :: ss)

variable {loud patience}

@[simp] theorem trailing_nil : trailing loud [] = 0 := rfl

theorem trailing_concat_of_loud {items : List α} {a : α} (h : loud a = true) : trailing loud (items ++ [a]) = 0 := by
  rw [trailing, List.rtakeWhile_concat_neg _ _ _ (by simp [h]), List.length_nil]

theorem trailing_concat_of_quiet {items : List α} {a : α} (h : loud a = false) :
    trailing loud (items ++ [a]) = trailing loud items + 1 := by
  rw [trailing, List.rtakeWhile_concat_pos _ _ _ (by simp [h]), List.length_append, List.length_singleton, trailing]

/-- The stretches of a stream are all of it, in order. -/
theorem Partition.inputs {is : List (Input α)} {ss : List (Stretch α)} (h : Partition loud patience is ss) :
    is = ss.flatMap Stretch.inputs := by
  induction h with
  | last _ _ => rw [List.flatMap_cons, List.flatMap_nil, List.append_nil]
  | cons _ _ _ ih => rw [List.flatMap_cons, ← ih]

/-- Items that a stretch can begin with and go on behind. -/
structure OpenStretch (loud : α → Bool) (patience : ℕ) (quiet body : List α) : Prop where
  quiet : ∀ a ∈ quiet, loud a = false
  starts : ∀ a ∈ body.head?, loud a = true
  lasts : ∀ front, front <+: body → trailing loud front < patience

theorem OpenStretch.nil (hpatience : 0 < patience) : OpenStretch loud patience [] [] where
  quiet a ha := absurd ha List.not_mem_nil
  starts a ha := absurd ha (by simp)
  lasts front hfront := by
    rw [List.prefix_nil.mp hfront]
    exact hpatience

/-- What is open may be ended by a cut or by the end of the stream. -/
theorem OpenStretch.valid {quiet body : List α} (h : OpenStretch loud patience quiet body) {ending : Ending}
    (hending : ending ≠ .silence) : Stretch.Valid loud patience ⟨quiet, body, ending⟩ where
  quiet := h.quiet
  starts := h.starts
  lasts front hfront _ := h.lasts front hfront
  ends := iff_of_false hending (Nat.not_le.mpr (h.lasts body (List.prefix_refl body)))

theorem OpenStretch.concat_quiet {quiet : List α} {a : α} (h : OpenStretch loud patience quiet []) (ha : loud a = false) :
    OpenStretch loud patience (quiet ++ [a]) [] where
  quiet b hb := by
    obtain hb | hb := List.mem_append.mp hb
    · exact h.quiet b hb
    · rw [List.mem_singleton.mp hb, ha]
  starts := h.starts
  lasts := h.lasts

/-- An item that is not the quiet one before a body belongs to the body, and the stretch ends with it or goes on. -/
theorem OpenStretch.concat_body {quiet body : List α} {a : α} (h : OpenStretch loud patience quiet body)
    (ha : body = [] → loud a = true) :
    (patience ≤ trailing loud (body ++ [a]) → Stretch.Valid loud patience ⟨quiet, body ++ [a], .silence⟩) ∧
      (trailing loud (body ++ [a]) < patience → OpenStretch loud patience quiet (body ++ [a])) := by
  have hstarts : ∀ b ∈ (body ++ [a]).head?, loud b = true := by
    cases body with
    | nil =>
      intro b hb
      obtain rfl : a = b := Option.some.inj hb
      exact ha rfl
    | cons b body => exact h.starts
  have hbefore : ∀ front, front <+: body ++ [a] → front ≠ body ++ [a] → trailing loud front < patience := by
    intro front hfront hne
    obtain hfront | hfront := List.prefix_concat_iff.mp hfront
    · exact absurd hfront hne
    · exact h.lasts front hfront
  refine ⟨fun hclosed => ⟨h.quiet, hstarts, hbefore, iff_of_true rfl hclosed⟩, fun hopen => ⟨h.quiet, hstarts, ?_⟩⟩
  intro front hfront
  by_cases hall : front = body ++ [a]
  · rw [hall]
    exact hopen
  · exact hbefore front hfront hall

/-- The stream goes on in an open stretch. -/
theorem OpenStretch.exists_partition (hpatience : 0 < patience) (is : List (Input α)) :
    ∀ {quiet body : List α}, OpenStretch loud patience quiet body →
      ∃ ss, Partition loud patience ((quiet ++ body).map .item ++ is) ss := by
  induction is with
  | nil =>
    intro quiet body h
    have hpartition := Partition.last (h.valid Ending.noConfusion) (rfl : Ending.finish = .finish)
    exact ⟨_, hpartition⟩
  | cons i is ih =>
    intro quiet body h
    cases i with
    | cut =>
      obtain ⟨ss, hss⟩ := ih (OpenStretch.nil hpatience)
      have hvalid : Stretch.Valid loud patience ⟨quiet, body, .cut⟩ := h.valid Ending.noConfusion
      have hpartition := Partition.cons hvalid Ending.noConfusion hss
      rw [Stretch.inputs, if_pos rfl, List.append_assoc] at hpartition
      exact ⟨_, hpartition⟩
    | item a =>
      by_cases hidle : body = [] ∧ loud a = false
      · obtain ⟨rfl, ha⟩ := hidle
        obtain ⟨ss, hss⟩ := ih (h.concat_quiet ha)
        exact ⟨ss, by simpa using hss⟩
      · obtain ⟨hclosed, hopen⟩ := h.concat_body (a := a) fun hbody =>
          (Bool.eq_false_or_eq_true _).resolve_right fun ha => hidle ⟨hbody, ha⟩
        obtain hends | hgoes := Nat.lt_or_ge (trailing loud (body ++ [a])) patience
        · obtain ⟨ss, hss⟩ := ih (hopen hends)
          exact ⟨ss, by simpa using hss⟩
        · obtain ⟨ss, hss⟩ := ih (OpenStretch.nil hpatience)
          have hpartition := Partition.cons (hclosed hgoes) Ending.noConfusion hss
          exact ⟨⟨quiet, body ++ [a], .silence⟩ :: ss, by simpa [Stretch.inputs] using hpartition⟩

/-- **Every stream has a partition into stretches.** -/
theorem exists_partition (hpatience : 0 < patience) (is : List (Input α)) : ∃ ss, Partition loud patience is ss :=
  (OpenStretch.nil hpatience).exists_partition hpatience is

end

end AgentVoice.Foundations

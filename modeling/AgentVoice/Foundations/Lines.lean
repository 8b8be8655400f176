import Mathlib.Data.List.Basic

/-!
# Lines in a stream

A stream is a list of units of which one ends a line. `takeLine` takes the first line off a stream that holds its
end; a line and its end are taken off whatever comes behind them (`takeLine_append`).
-/

namespace AgentVoice.Foundations.Lines

variable {β : Type} [DecidableEq β] (eol : β)

/-- The first line of a stream, without its end, and what is behind it. -/
def takeLine : List β → Option (List β × List β)
  | [] => none
  | b :: bs => if b = eol then some ([], bs) else (takeLine bs).map fun (line, rest) => (b :: line, rest)

variable {eol}

theorem takeLine_append {line : List β} (h : eol ∉ line) (rest : List β) :
    takeLine eol (line ++ eol :: rest) = some (line, rest) := by
  induction line with
  | nil => simp [takeLine]
  | cons b line ih =>
    obtain ⟨hb, hline⟩ := not_or.mp (List.mem_cons.not.mp h)
    rw [List.cons_append, takeLine, if_neg (Ne.symm hb), ih hline]
    rfl

theorem takeLine_eq_some {stream line rest : List β} (h : takeLine eol stream = some (line, rest)) :
    stream = line ++ eol :: rest ∧ eol ∉ line := by
  induction stream generalizing line with
  | nil => cases h
  | cons b bs ih =>
    rw [takeLine] at h
    by_cases hb : b = eol
    · rw [if_pos hb] at h
      cases h
      exact ⟨by rw [hb]; rfl, List.not_mem_nil⟩
    · rw [if_neg hb] at h
      obtain ⟨⟨line', rest'⟩, htake, heq⟩ := Option.map_eq_some_iff.mp h
      cases heq
      obtain ⟨rfl, hline⟩ := ih htake
      refine ⟨rfl, fun hmem => ?_⟩
      rcases List.mem_cons.mp hmem with rfl | hmem
      · exact hb rfl
      · exact hline hmem

/-- A stream that is one line and its end holds nothing behind its first line. -/
theorem eq_of_append {chunk rest tail line : List β} (hchunk : eol ∉ chunk) (hline : eol ∉ line)
    (h : chunk ++ eol :: rest ++ tail = line ++ [eol]) : chunk = line ∧ rest = [] ∧ tail = [] := by
  have hleft := takeLine_append hchunk (rest ++ tail)
  have hright := takeLine_append hline []
  have heq : chunk ++ eol :: (rest ++ tail) = line ++ [eol] := by simpa using h
  rw [heq, hright] at hleft
  obtain ⟨hline', hnil⟩ := Prod.mk.inj (Option.some.inj hleft)
  exact ⟨hline'.symm, List.append_eq_nil_iff.mp hnil.symm⟩

end AgentVoice.Foundations.Lines

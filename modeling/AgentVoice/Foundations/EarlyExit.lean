import Mathlib.Data.Nat.Basic

/-!
# Loops that stop early

`scan` runs a loop body over a list, threading a state; the body may go on, break out of this loop,
return from all loops around it, or fail. Nested loops that collect results until a limit is reached
are described by `Collects`: the outer loop collects what its passes collect, one after the other
(`Collects.scan`), and the whole nest returns the first `limit` of all results (`collected_snd`).
-/

namespace AgentVoice.Foundations

/-- What the loop does after one pass through its body. -/
inductive Flow where
  /-- Go on with the next element. -/
  | next
  /-- Leave this loop. -/
  | break
  /-- Leave this loop and every loop around it. -/
  | return
  deriving DecidableEq, Repr

variable {ε α β σ : Type*}

/-- The loop `for a in as { body }` with state `σ`; how it ended is reported to the loop around it. -/
def scan (body : α → σ → Except ε (Flow × σ)) : List α → σ → Except ε (Flow × σ)
  | [], s => .ok (.next, s)
  | a :: as, s => do
    let (flow, s) ← body a s
    match flow with
    | .next => scan body as s
    | .break => return (.next, s)
    | .return => return (.return, s)

/-- **The invariant rule.** What every successful pass preserves, the loop preserves. -/
theorem scan_preserves {P : σ → Prop} {body : α → σ → Except ε (Flow × σ)} {as : List α}
    (hbody : ∀ a ∈ as, ∀ s flow s', P s → body a s = .ok (flow, s') → P s') {s : σ} {flow : Flow} {s' : σ}
    (hs : P s) (h : scan body as s = .ok (flow, s')) : P s' := by
  induction as generalizing s with
  | nil =>
    simp only [scan, Except.ok.injEq, Prod.mk.injEq] at h
    exact h.2 ▸ hs
  | cons a as ih =>
    rw [scan] at h
    cases hstep : body a s with
    | error e =>
      rw [hstep] at h
      cases h
    | ok r =>
      obtain ⟨flow₁, s₁⟩ := r
      have hs₁ := hbody a (by simp) s flow₁ s₁ hs hstep
      rw [hstep] at h
      cases flow₁ with
      | next => exact ih (fun b hb => hbody b (by simp [hb])) hs₁ h
      | «break» =>
        cases h
        exact hs₁
      | «return» =>
        cases h
        exact hs₁

/-- What a body that collects up to `limit` results answers when the results of this pass bring the
collection to `acc`. -/
def collected (limit : ℕ) (acc : List β) : Flow × List β :=
  if limit ≤ acc.length then (.return, acc.take limit) else (.next, acc)

/-- On the elements of `as`, `body` adds the results `items a` and returns as soon as there are
`limit` of them. -/
def Collects (limit : ℕ) (items : α → List β) (body : α → List β → Except ε (Flow × List β))
    (as : List α) : Prop :=
  ∀ a ∈ as, ∀ acc, acc.length < limit → body a acc = .ok (collected limit (acc ++ items a))

/-- A pass that finds nothing. -/
theorem collected_nil {limit : ℕ} {acc : List β} (h : acc.length < limit) :
    collected limit (acc ++ []) = (.next, acc) := by
  rw [List.append_nil, collected, if_neg (by omega)]

/-- A pass that finds one result. -/
theorem collected_singleton {limit : ℕ} {acc : List β} (h : acc.length < limit) (b : β) :
    collected limit (acc ++ [b]) = (if acc.length + 1 = limit then .return else .next, acc ++ [b]) := by
  rw [collected, List.length_append, List.length_singleton]
  by_cases hlim : acc.length + 1 = limit
  · rw [if_pos hlim, if_pos (by omega), List.take_of_length_le (by simp; omega)]
  · rw [if_neg hlim, if_neg (by omega)]

/-- **A loop around a collecting body collects what its passes collect.** -/
theorem Collects.scan {limit : ℕ} {items : α → List β} {body : α → List β → Except ε (Flow × List β)}
    {as : List α} (h : Collects limit items body as) {acc : List β} (hacc : acc.length < limit) :
    scan body as acc = .ok (collected limit (acc ++ as.flatMap items)) := by
  induction as generalizing acc with
  | nil => simp [Foundations.scan, collected, Nat.not_le.mpr hacc]
  | cons a as ih =>
    rw [Foundations.scan, h a (by simp) acc hacc]
    by_cases hfull : limit ≤ (acc ++ items a).length
    · have hall : limit ≤ (acc ++ (a :: as).flatMap items).length := by
        rw [List.flatMap_cons, ← List.append_assoc, List.length_append]
        omega
      have htake : (acc ++ (a :: as).flatMap items).take limit = (acc ++ items a).take limit := by
        rw [List.flatMap_cons, ← List.append_assoc, List.take_append_of_le_length hfull]
      simp only [collected, if_pos hfull, if_pos hall, htake]
      rfl
    · have hroom : (acc ++ items a).length < limit := not_le.mp hfull
      have hnext := ih (fun b hb => h b (by simp [hb])) hroom
      rw [List.append_assoc, ← List.flatMap_cons] at hnext
      simp only [collected, if_neg hfull] at hnext ⊢
      exact hnext

/-- The state left by a collecting nest of loops: the first `limit` results. -/
theorem collected_snd (limit : ℕ) (acc : List β) : (collected limit acc).2 = acc.take limit := by
  unfold collected
  split
  · rfl
  · rename_i h
    rw [List.take_of_length_le (by omega)]

end AgentVoice.Foundations

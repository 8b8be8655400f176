import AgentVoice.Foundations.Machine
import Mathlib.Logic.Function.Basic

/-!
# The end of a managed call

`request_end`, `send_end` and `end_call` of `ManagedCall` in `src/service.rs`, and the tasks that use them: a scheduled
end after a farewell, a hangup or a failed realtime session, and the end of a closed realtime session. A step is an atomic
operation on one of the two flags, or a call of `call.end()` with its result; the tasks take their steps in any order.
The BYE is sent once at most (`Locked.once`). A task that finds a flag set makes no attempt, although the attempt that
the flag stands for may fail: exactly the runs in which no task finds one set in vain are sound (`endsSoundly_iff`).
-/

namespace AgentVoice.Service.CallEnd

open AgentVoice.Foundations

/-- What a task of the three kinds reports. -/
inductive Report where
  /-- `schedule_end_call` has returned without an attempt. -/
  | notScheduled
  /-- The task of a closed session has found nothing to be ended. -/
  | skipped
  | ok
  | error
  deriving DecidableEq

/-- What a task does next. -/
inductive Phase where
  /-- The swap of `end_requested` in `request_end`. -/
  | requestEnd
  /-- The load of `end_requested` by the task of a closed session. -/
  | checkRequested
  /-- The store of `end_requested` in `end_call`. -/
  | endCall
  /-- The `compare_exchange` of `send_end`. -/
  | sendEnd
  /-- `call.end()`. -/
  | callEnd
  /-- The store of `end_sent` after a failure. -/
  | storeUnsent
  | returned (report : Report)
  deriving DecidableEq

/-- A task, and whether it has called `call.end()`. -/
structure Task where
  phase : Phase
  attempted : Bool
  deriving DecidableEq

/-- What starts a task. -/
inductive Kind where
  | scheduleEndCall
  | endCall
  | sessionClosed
  deriving DecidableEq

/-- The first step of a task. -/
def Kind.phase : Kind → Phase
  | .scheduleEndCall => .requestEnd
  | .endCall => .endCall
  | .sessionClosed => .checkRequested

/-- `ManagedCall`, as far as its end goes: the flags, the results of `call.end()` so far, and the tasks. -/
structure State where
  endRequested : Bool
  endSent : Bool
  results : List Bool
  tasks : ℕ → Option Task

/-- A call that nothing has tried to end. -/
def State.start : State := ⟨false, false, [], fun _ => none⟩

/-- What happens: a task starts, or it takes its next step, with what `call.end()` and `call.state()` answer there. -/
inductive Action where
  | start (task : ℕ) (kind : Kind)
  | step (task : ℕ) (ends callEnded : Bool)

/-- A task goes on. -/
def State.goOn (i : ℕ) (phase : Phase) (attempted : Bool) (s : State) : State :=
  { s with tasks := Function.update s.tasks i (some ⟨phase, attempted⟩) }

/-- The next step of a task. -/
def stepTask (i : ℕ) (ends callEnded : Bool) (t : Task) (s : State) : State :=
  match t.phase with
  | .requestEnd =>
    if s.endRequested then s.goOn i (.returned .notScheduled) t.attempted
    else { s with endRequested := true }.goOn i .sendEnd t.attempted
  | .checkRequested =>
    if !s.endRequested && !callEnded then s.goOn i .endCall t.attempted
    else s.goOn i (.returned .skipped) t.attempted
  | .endCall => { s with endRequested := true }.goOn i .sendEnd t.attempted
  | .sendEnd =>
    if s.endSent then s.goOn i (.returned .ok) t.attempted
    else { s with endSent := true }.goOn i .callEnd t.attempted
  | .callEnd =>
    { s with results := s.results ++ [ends] }.goOn i (if ends then .returned .ok else .storeUnsent) true
  | .storeUnsent => { s with endSent := false }.goOn i (.returned .error) t.attempted
  | .returned _ => s

/-- The state after an action. -/
def step : Action → State → State
  | .start i kind, s => if s.tasks i = none then s.goOn i kind.phase false else s
  | .step i ends callEnded, s =>
    match s.tasks i with
    | some t => stepTask i ends callEnded t s
    | none => s

/-- `call.end()` has succeeded. -/
def State.Ended (s : State) : Prop := true ∈ s.results

instance (s : State) : Decidable s.Ended := inferInstanceAs (Decidable (_ ∈ _))

/-- What the end of a call is to keep to. -/
structure Sound (s : State) : Prop where
  /-- `call.end()` is not called again after it has succeeded. -/
  once : ∀ before after, s.results = before ++ true :: after → after = []
  /-- When all attempts have returned, one of them has reported `Ok` only if `call.end()` has succeeded. -/
  honest : (∀ i t, s.tasks i = some t → ∃ report, t.phase = .returned report) →
    (∃ i t, s.tasks i = some t ∧ t.phase = .returned .ok) → s.Ended
  /-- As long as `call.end()` has not succeeded, none of `schedule_end_call` and `end_call` returns without an attempt. -/
  eager : ∀ i t report, s.tasks i = some t → t.phase = .returned report → report ≠ .skipped → t.attempted = false →
    s.Ended

/-- No task finds a flag set in vain: a flag that a task finds set is set by an end that has succeeded. -/
def FindsNoneInVain : Action → State → Prop
  | .start _ _, _ => True
  | .step i _ _, s => ∀ t, s.tasks i = some t →
      (t.phase = .requestEnd → s.endRequested = true → s.Ended) ∧ (t.phase = .sendEnd → s.endSent = true → s.Ended)

/-! ### The flag as a lock -/

/-- The task has set `end_sent` and has not yet answered for it. -/
def Phase.Owns (p : Phase) : Prop := p = .callEnd ∨ p = .storeUnsent

/-- What a task has done on its way. -/
structure Task.Consistent (t : Task) : Prop where
  tried : t.phase = .storeUnsent ∨ t.phase = .returned .error → t.attempted = true
  fresh : t.phase ≠ .storeUnsent → t.attempted = true → ∃ report, t.phase = .returned report

/-- `end_sent` is a lock: as long as an end is tried, one task has it, and once an end has succeeded, none gets it. -/
structure Locked (s : State) : Prop where
  consistent : ∀ i t, s.tasks i = some t → t.Consistent
  free : s.endSent = false → ¬ s.Ended
  held : ∀ i t, s.tasks i = some t → t.phase.Owns →
    s.endSent = true ∧ ¬ s.Ended ∧ ∀ j u, s.tasks j = some u → u.phase.Owns → j = i
  once : ∀ before after, s.results = before ++ true :: after → after = []

theorem locked_start : Locked .start where
  consistent i t h := absurd h.symm (Option.some_ne_none t)
  free _ := List.not_mem_nil
  held i t h := absurd h.symm (Option.some_ne_none t)
  once before after h := absurd (congrArg List.length h) (by simp [State.start])

/-- The tasks after one of them went on. -/
theorem tasks_goOn {i : ℕ} {phase : Phase} {attempted : Bool} {s : State} {j : ℕ} {t : Task}
    (h : (s.goOn i phase attempted).tasks j = some t) : (j = i ∧ t = ⟨phase, attempted⟩) ∨ (j ≠ i ∧ s.tasks j = some t) := by
  simp only [State.goOn] at h
  by_cases hj : j = i
  · subst hj
    rw [Function.update_self] at h
    exact .inl ⟨rfl, (Option.some.inj h).symm⟩
  · rw [Function.update_of_ne hj] at h
    exact .inr ⟨hj, h⟩

/-- A task that has not the lock goes on without it. -/
theorem Locked.goOn {s : State} (h : Locked s) {i : ℕ} {phase : Phase} {attempted : Bool} (hphase : ¬ phase.Owns)
    (hconsistent : Task.Consistent ⟨phase, attempted⟩) : Locked (s.goOn i phase attempted) where
  consistent j t ht := by
    obtain ⟨rfl, rfl⟩ | ⟨-, ht⟩ := tasks_goOn ht
    · exact hconsistent
    · exact h.consistent j t ht
  free := h.free
  held j t ht howns := by
    obtain ⟨rfl, rfl⟩ | ⟨-, ht⟩ := tasks_goOn ht
    · exact absurd howns hphase
    · obtain ⟨hsent, hended, hunique⟩ := h.held j t ht howns
      refine ⟨hsent, hended, fun k u hu hu' => ?_⟩
      obtain ⟨rfl, rfl⟩ | ⟨-, hu⟩ := tasks_goOn hu
      · exact absurd hu' hphase
      · exact hunique k u hu hu'
  once := h.once

/-- The flag of a request is no part of the lock. -/
theorem Locked.endRequested {s : State} (h : Locked s) (b : Bool) : Locked { s with endRequested := b } :=
  ⟨h.consistent, h.free, h.held, h.once⟩

theorem consistent_of_fresh {phase : Phase} (hunsent : phase ≠ .storeUnsent) (herror : phase ≠ .returned .error) :
    Task.Consistent ⟨phase, false⟩ where
  tried h := absurd h (not_or.mpr ⟨hunsent, herror⟩)
  fresh _ h := Bool.noConfusion h

/-- The task that finds the flag clear has the lock. -/
theorem Locked.lock {s : State} (h : Locked s) (hfree : s.endSent = false) (i : ℕ) :
    Locked ({ s with endSent := true }.goOn i .callEnd false) where
  consistent j t ht := by
    obtain ⟨rfl, rfl⟩ | ⟨-, ht⟩ := tasks_goOn ht
    · exact consistent_of_fresh Phase.noConfusion Phase.noConfusion
    · exact h.consistent j t ht
  free hsent := Bool.noConfusion hsent
  held j t ht howns := by
    have hnone : ∀ k u, s.tasks k = some u → ¬ u.phase.Owns := fun k u hu hu' =>
      Bool.noConfusion (hfree.symm.trans (h.held k u hu hu').1)
    obtain ⟨rfl, -⟩ | ⟨-, ht⟩ := tasks_goOn ht
    · refine ⟨rfl, h.free hfree, fun k u hu hu' => ?_⟩
      obtain ⟨rfl, -⟩ | ⟨-, hu⟩ := tasks_goOn hu
      · rfl
      · exact absurd hu' (hnone k u hu)
    · exact absurd howns (hnone j t ht)
  once := h.once

/-- What comes behind the results of ends that have not succeeded. -/
theorem once_concat {results : List Bool} (h : true ∉ results) (ends : Bool) (before after : List Bool)
    (hsplit : results ++ [ends] = before ++ true :: after) : after = [] := by
  obtain rfl | ⟨after, last, rfl⟩ := List.eq_nil_or_concat' after
  · rfl
  · rw [← List.cons_append, ← List.append_assoc] at hsplit
    obtain ⟨hresults, -⟩ := List.append_inj' hsplit rfl
    exact absurd (by rw [hresults]; simp) h

/-- The task that has the lock calls `call.end()`, and keeps the lock where it fails. -/
theorem Locked.callEnd {s : State} (h : Locked s) {i : ℕ} {t : Task} (ht : s.tasks i = some t) (howns : t.phase.Owns)
    (ends : Bool) :
    Locked ({ s with results := s.results ++ [ends] }.goOn i (if ends then .returned .ok else .storeUnsent) true) := by
  obtain ⟨hsent, hended, hunique⟩ := h.held i t ht howns
  have hothers : ∀ {phase attempted j u},
      ({ s with results := s.results ++ [ends] }.goOn i phase attempted).tasks j = some u → j ≠ i → ¬ u.phase.Owns := by
    intro phase attempted j u hu hj hu'
    obtain ⟨hji, -⟩ | ⟨-, hu⟩ := tasks_goOn hu
    · exact hj hji
    · exact hj (hunique j u hu hu')
  refine ⟨fun j u hu => ?_, fun hfree => Bool.noConfusion (hsent.symm.trans hfree), fun j u hu hu' => ?_, fun before after =>
    once_concat hended ends before after⟩
  · obtain ⟨rfl, rfl⟩ | ⟨-, hu⟩ := tasks_goOn hu
    · refine ⟨fun _ => rfl, fun hphase _ => ?_⟩
      cases ends
      · exact absurd rfl hphase
      · exact ⟨.ok, rfl⟩
    · exact h.consistent j u hu
  · have hji : j = i := by
      by_contra hj
      exact hothers hu hj hu'
    subst hji
    obtain ⟨-, rfl⟩ | ⟨hj, -⟩ := tasks_goOn hu
    · cases ends
      · refine ⟨hsent, ?_, fun k v hv hv' => ?_⟩
        · intro hmem
          obtain hmem | hmem := List.mem_append.mp hmem
          · exact hended hmem
          · exact Bool.noConfusion (List.mem_singleton.mp hmem)
        · by_contra hk
          exact hothers hv hk hv'
      · obtain hphase | hphase := hu' <;> exact Phase.noConfusion hphase
    · exact absurd rfl hj

/-- The task whose end has failed gives the lock back. -/
theorem Locked.unlock {s : State} (h : Locked s) {i : ℕ} {t : Task} (ht : s.tasks i = some t)
    (hphase : t.phase = .storeUnsent) : Locked ({ s with endSent := false }.goOn i (.returned .error) t.attempted) := by
  obtain ⟨-, hended, hunique⟩ := h.held i t ht (.inr hphase)
  refine ⟨fun j u hu => ?_, fun _ => hended, fun j u hu hu' => ?_, h.once⟩
  · obtain ⟨rfl, rfl⟩ | ⟨-, hu⟩ := tasks_goOn hu
    · exact ⟨fun _ => (h.consistent j t ht).tried (.inl hphase), fun _ _ => ⟨.error, rfl⟩⟩
    · exact h.consistent j u hu
  · obtain ⟨-, rfl⟩ | ⟨hj, hu⟩ := tasks_goOn hu
    · obtain hphase | hphase := hu' <;> exact Phase.noConfusion hphase
    · exact absurd (hunique j u hu hu') hj

/-- A task on its way to `call.end()` has not called it. -/
theorem Locked.fresh {s : State} (h : Locked s) {i : ℕ} {t : Task} (ht : s.tasks i = some t)
    (hunsent : t.phase ≠ .storeUnsent) (hgoes : ∀ report, t.phase ≠ .returned report) : t.attempted = false := by
  by_contra hattempted
  obtain ⟨report, hreport⟩ := (h.consistent i t ht).fresh hunsent (by simpa using hattempted)
  exact hgoes report hreport

theorem not_owns {phase : Phase} (hcall : phase ≠ .callEnd) (hunsent : phase ≠ .storeUnsent) : ¬ phase.Owns :=
  not_or.mpr ⟨hcall, hunsent⟩

/-- **Every step keeps the lock.** -/
theorem Locked.stepTask {s : State} (h : Locked s) {i : ℕ} {t : Task} (ht : s.tasks i = some t) (ends callEnded : Bool) :
    Locked (stepTask i ends callEnded t s) := by
  have hfresh := h.fresh ht
  obtain ⟨phase, attempted⟩ := t
  cases phase with
  | requestEnd =>
    obtain rfl := hfresh Phase.noConfusion fun _ => Phase.noConfusion
    simp only [CallEnd.stepTask]
    split_ifs
    · exact h.goOn (not_owns Phase.noConfusion Phase.noConfusion)
        (consistent_of_fresh Phase.noConfusion (by decide))
    · exact (h.endRequested true).goOn (not_owns Phase.noConfusion Phase.noConfusion)
        (consistent_of_fresh Phase.noConfusion Phase.noConfusion)
  | checkRequested =>
    obtain rfl := hfresh Phase.noConfusion fun _ => Phase.noConfusion
    simp only [CallEnd.stepTask]
    split_ifs
    · exact h.goOn (not_owns Phase.noConfusion Phase.noConfusion)
        (consistent_of_fresh Phase.noConfusion Phase.noConfusion)
    · exact h.goOn (not_owns Phase.noConfusion Phase.noConfusion)
        (consistent_of_fresh Phase.noConfusion (by decide))
  | endCall =>
    obtain rfl := hfresh Phase.noConfusion fun _ => Phase.noConfusion
    exact (h.endRequested true).goOn (not_owns Phase.noConfusion Phase.noConfusion)
      (consistent_of_fresh Phase.noConfusion Phase.noConfusion)
  | sendEnd =>
    obtain rfl := hfresh Phase.noConfusion fun _ => Phase.noConfusion
    simp only [CallEnd.stepTask]
    split_ifs with hsent
    · exact h.goOn (not_owns Phase.noConfusion Phase.noConfusion)
        (consistent_of_fresh Phase.noConfusion (by decide))
    · exact h.lock (by simpa using hsent) i
  | callEnd => exact h.callEnd ht (.inl rfl) ends
  | storeUnsent => exact h.unlock ht rfl
  | returned report => exact h

/-- Every action keeps the lock. -/
theorem Locked.step (a : Action) {s : State} (h : Locked s) : Locked (step a s) := by
  cases a with
  | start i kind =>
    simp only [CallEnd.step]
    split_ifs
    · have hphase : kind.phase ≠ .callEnd ∧ kind.phase ≠ .storeUnsent ∧ kind.phase ≠ .returned .error := by
        cases kind <;> decide
      exact h.goOn (not_owns hphase.1 hphase.2.1) (consistent_of_fresh hphase.2.1 hphase.2.2)
    · exact h
  | step i ends callEnded =>
    simp only [CallEnd.step]
    cases ht : s.tasks i with
    | none => exact h
    | some t => exact h.stepTask ht ends callEnded

/-! ### Reports -/

/-- What is reported without an attempt, and what is reported as `Ok`, is so for an end that has succeeded. -/
def Answered (s : State) : Prop :=
  ∀ i t, s.tasks i = some t → t.phase = .returned .ok ∨ t.phase = .returned .notScheduled → s.Ended

/-- A task goes on, and reports an end only if there is one. -/
theorem Answered.goOn {s next : State} (h : Answered s) (htasks : next.tasks = s.tasks) (hended : s.Ended → next.Ended)
    {i : ℕ} {phase : Phase} {attempted : Bool}
    (hnew : phase = .returned .ok ∨ phase = .returned .notScheduled → next.Ended) :
    Answered (next.goOn i phase attempted) := by
  intro j t ht hphase
  obtain ⟨rfl, rfl⟩ | ⟨-, ht⟩ := tasks_goOn ht
  · exact hnew hphase
  · rw [htasks] at ht
    exact hended (h j t ht hphase)

theorem not_answer {phase : Phase} (h : ∀ report, phase ≠ .returned report) {P : Prop} :
    phase = .returned .ok ∨ phase = .returned .notScheduled → P :=
  fun hphase => absurd hphase (not_or.mpr ⟨h _, h _⟩)

/-- **A step that finds no flag set in vain keeps the reports true.** -/
theorem Answered.step {a : Action} {s : State} (h : Answered s) (hmeets : FindsNoneInVain a s) : Answered (step a s) := by
  cases a with
  | start i kind =>
    simp only [CallEnd.step]
    split_ifs
    · exact h.goOn rfl id (not_answer fun _ => by cases kind <;> exact Phase.noConfusion)
    · exact h
  | step i ends callEnded =>
    simp only [CallEnd.step]
    cases ht : s.tasks i with
    | none => exact h
    | some t =>
      obtain ⟨hrequest, hsend⟩ := hmeets t ht
      obtain ⟨phase, attempted⟩ := t
      cases phase with
      | requestEnd =>
        simp only [stepTask]
        split_ifs with hrequested
        · exact h.goOn rfl id fun _ => hrequest rfl hrequested
        · exact h.goOn rfl id (not_answer fun _ => Phase.noConfusion)
      | checkRequested =>
        simp only [stepTask]
        split_ifs
        · exact h.goOn rfl id (not_answer fun _ => Phase.noConfusion)
        · exact h.goOn rfl id fun hphase => absurd hphase (by decide)
      | endCall => exact h.goOn rfl id (not_answer fun _ => Phase.noConfusion)
      | sendEnd =>
        simp only [stepTask]
        split_ifs with hsent
        · exact h.goOn rfl id fun _ => hsend rfl hsent
        · exact h.goOn rfl id (not_answer fun _ => Phase.noConfusion)
      | callEnd =>
        simp only [stepTask]
        refine h.goOn ?_ (fun hended => List.mem_append_left _ hended) ?_
        · rfl
        cases ends
        · exact not_answer fun _ => Phase.noConfusion
        · exact fun _ => List.mem_append_right _ List.mem_cons_self
      | storeUnsent => exact h.goOn rfl id fun hphase => absurd hphase (by decide)
      | returned report => exact h

theorem Sound.of_answered {s : State} (hlocked : Locked s) (h : Answered s) : Sound s where
  once := hlocked.once
  honest _ := by
    rintro ⟨i, t, ht, hphase⟩
    exact h i t ht (.inl hphase)
  eager i t report ht hphase hreport hattempted := by
    cases report with
    | notScheduled => exact h i t ht (.inr hphase)
    | skipped => exact absurd rfl hreport
    | ok => exact h i t ht (.inl hphase)
    | error => exact Bool.noConfusion (hattempted.symm.trans ((hlocked.consistent i t ht).tried (.inr hphase)))

/-- **A step that finds a flag set in vain** returns without an attempt before an end has succeeded. -/
theorem not_sound_step {a : Action} {s : State} (hlocked : Locked s) (hmeets : ¬ FindsNoneInVain a s) :
    ¬ Sound (step a s) := by
  cases a with
  | start i kind => exact absurd trivial hmeets
  | step i ends callEnded =>
    intro hsound
    refine hmeets fun t ht => ⟨fun hphase hrequested => ?_, fun hphase hsent => ?_⟩
    · have hattempted : t.attempted = false := hlocked.fresh ht (by rw [hphase]; exact Phase.noConfusion)
        fun _ => by rw [hphase]; exact Phase.noConfusion
      have hstep : step (.step i ends callEnded) s = s.goOn i (.returned .notScheduled) false := by
        simp only [step, ht, stepTask, hphase, hrequested, hattempted, if_true]
      rw [hstep] at hsound
      exact hsound.eager i _ .notScheduled (Function.update_self i _ _) rfl (by decide) rfl
    · have hattempted : t.attempted = false := hlocked.fresh ht (by rw [hphase]; exact Phase.noConfusion)
        fun _ => by rw [hphase]; exact Phase.noConfusion
      have hstep : step (.step i ends callEnded) s = s.goOn i (.returned .ok) false := by
        simp only [step, ht, stepTask, hphase, hsent, hattempted, if_true]
      rw [hstep] at hsound
      exact hsound.eager i _ .ok (Function.update_self i _ _) rfl (by decide) rfl

/-- **Exactly the runs in which no task finds a flag set in vain are sound in every state.** -/
theorem endsSoundly_iff (as : List Action) :
    Machine.Throughout step Sound as .start ↔ Machine.Along step FindsNoneInVain as .start := by
  refine Machine.throughout_iff_along (I := fun s => Locked s ∧ Answered s) (fun s h => Sound.of_answered h.1 h.2)
    (fun a s h hmeets => ⟨h.1.step a, h.2.step hmeets⟩) (fun a s h hmeets => not_sound_step h.1 hmeets) ?_ as
  exact ⟨locked_start, fun i t ht => absurd ht.symm (Option.some_ne_none t)⟩

/-- A scheduled end that fails, and a second one that is scheduled after it. -/
def failedSchedule : List Action :=
  [.start 0 .scheduleEndCall, .step 0 false false, .step 0 false false, .step 0 false false, .step 0 false false,
    .start 1 .scheduleEndCall, .step 1 false false]

/-- After an end that has failed, none is scheduled any more. -/
theorem failedSchedule_not_sound : ¬ ∀ as, Machine.Throughout step Sound as .start := by
  intro h
  have hsound := (h failedSchedule).last
  have htask : (Machine.run step failedSchedule .start).tasks 1 = some ⟨.returned .notScheduled, false⟩ := by decide
  exact absurd (hsound.eager 1 _ .notScheduled htask rfl (by decide) rfl) (by decide)

end AgentVoice.Service.CallEnd

import AgentVoice.Foundations.Lifecycle
import AgentVoice.Store.Effects

/-!
# Lifecycles

Messages, tasks and proposals over runs of the calls that record and move them. Each row lives along a path of its
graph (`Lifecycle.LifePath`), a transition that was applied can be repeated, and every stored task can be loaded:
what its message may become is what a task's message may be (`Consistent.tasks`).
-/

namespace AgentVoice.Store

open AgentVoice.Foundations AgentVoice.Foundations.Lifecycle AgentVoice.Domain

variable {env : Environment} {db db' : Database}

/-- The calls that record and move messages, tasks and proposals. -/
def Command.isLifecycle : Command → Bool
  | .recordMessage .. | .transitionMessage .. | .recordTask .. | .transitionTask .. | .createProposal ..
  | .transitionProposal .. => true
  | _ => false

/-! ### How rows are born and move -/

/-- A message as it is recorded. -/
def MessageStoredRow.IsNew (r : MessageStoredRow) : Prop :=
  ∃ p : MessageProvider, r.provider = p.asStr ∧ r.triageState = (initialMessageState p).asStr

/-- A message moves along the triage graph, and nothing else but the time of its last change differs; a voice message does
not move. -/
def MessageStoredRow.Moves (r r' : MessageStoredRow) : Prop :=
  ∃ state next, r.triageState = state.asStr ∧ validMessageTransition state next = true ∧
    (r.provider = "outlook" ∨ r.provider = "gmail") ∧ r'.triageState = next.asStr ∧
    { r' with triageState := r.triageState, updatedAt := r.updatedAt } = r

/-- A task as it is recorded. -/
def TaskStoredRow.IsNew (r : TaskStoredRow) : Prop := r.state = StoredTaskState.pending.asStr

/-- A task moves along its graph, and nothing else but the time of its last change differs. -/
def TaskStoredRow.Moves (r r' : TaskStoredRow) : Prop :=
  ∃ state next, r.state = state.asStr ∧ validTaskTransition state next = true ∧ r'.state = next.asStr ∧
    { r' with state := r.state, updatedAt := r.updatedAt } = r

/-- A proposal as it is created. -/
def ProposalStoredRow.IsNew (r : ProposalStoredRow) : Prop := r.state = proposalStateStorageName .pending

/-- A proposal moves along its graph, and nothing else but the time of its last change differs. -/
def ProposalStoredRow.Moves (r r' : ProposalStoredRow) : Prop :=
  ∃ state next, r.state = proposalStateStorageName state ∧ state.canTransitionTo next = true ∧
    r'.state = proposalStateStorageName next ∧ { r' with state := r.state, updatedAt := r.updatedAt } = r

/-- What a call of the lifecycles does to the rows. -/
structure Advance (db db' : Database) : Prop where
  messages : Advances MessageStoredRow.Moves MessageStoredRow.IsNew db.messages db'.messages
  tasks : Advances TaskStoredRow.Moves TaskStoredRow.IsNew db.tasks db'.tasks
  proposals : Advances ProposalStoredRow.Moves ProposalStoredRow.IsNew db.proposals db'.proposals

theorem Advance.refl (db : Database) : Advance db db := ⟨.refl _, .refl _, .refl _⟩

theorem advance_recordMessage {r : MessageRequest} {clock : SystemTime} {m : StoredMessage}
    (h : (recordMessage r clock).run db = .ok (m, db')) : Advance db db' := by
  rcases recordMessage_run_eq_ok h with ⟨row, -, -, -, -, hprovider, -, hstate, rfl, -⟩ | rfl
  · exact { Advance.refl db with messages := .insert ⟨r.provider, hprovider, hstate⟩ }
  · exact .refl _

theorem advance_transitionMessage {sourceId : String} {expected next : MessageTriageState} {updatedAt : OffsetDateTime}
    {m : StoredMessage} (h : (transitionMessage sourceId expected next updatedAt).run db = .ok (m, db')) :
    Advance db db' := by
  rcases transitionMessage_run_eq_ok h with rfl | ⟨hvalid, text, -, rfl⟩
  · exact .refl _
  · refine { Advance.refl db with messages := .updateWhere (fun _ => rfl) fun r _ hown => ?_ }
    obtain ⟨hboth, hstate⟩ := Bool.and_eq_true_iff.mp hown
    have hprovider := (Bool.and_eq_true_iff.mp hboth).2
    rw [Bool.or_eq_true_iff, beq_iff_eq, beq_iff_eq] at hprovider
    exact ⟨expected, next, beq_iff_eq.mp hstate, hvalid, hprovider, rfl, rfl⟩

theorem advance_recordTask {r : TaskRequest} {clock : SystemTime} {t : StoredTask}
    (h : (recordTask r clock).run db = .ok (t, db')) : Advance db db' := by
  obtain ⟨duration, due, -, -, ⟨row, rfl, rfl, -, -⟩ | ⟨rfl, -⟩⟩ := recordTask_run_eq_ok h
  · exact { Advance.refl db with tasks := .insert rfl }
  · exact .refl _

theorem advance_transitionTask {sourceId : String} {expected next : StoredTaskState} {updatedAt : OffsetDateTime}
    {t : StoredTask} (h : (transitionTask sourceId expected next updatedAt).run db = .ok (t, db')) :
    Advance db db' := by
  rcases transitionTask_run_eq_ok h with rfl | ⟨hvalid, text, -, rfl⟩
  · exact .refl _
  · refine { Advance.refl db with tasks := .updateWhere (fun _ => rfl) fun r _ hown => ?_ }
    exact ⟨expected, next, beq_iff_eq.mp (Bool.and_eq_true_iff.mp hown).2, hvalid, rfl, rfl⟩

theorem advance_createProposal {key sourceId : String} {source : ProposalSource} {clock : SystemTime}
    {p : StoredProposal} (h : (createProposal key sourceId source clock).run db = .ok (p, db')) : Advance db db' := by
  simp only [createProposal, Tx.ofResult_bind_eq_ok_iff] at h
  obtain ⟨key', -, sourceId', -, _, -, hcreate⟩ := h
  obtain ⟨-, ⟨-, rfl, -⟩ | ⟨rfl, -⟩⟩ := createProposalInTransaction_run_eq_ok hcreate
  · exact { Advance.refl db with proposals := .insert rfl }
  · exact .refl _

theorem advance_transitionProposal {id : ℤ} {next : ProposalState} {clock : SystemTime} {p : StoredProposal}
    (h : (transitionProposal id next clock).run db = .ok (p, db')) : Advance db db' := by
  rcases transitionProposal_run_eq_ok h with rfl | ⟨hterminal, -, rfl⟩
  · exact .refl _
  · refine { Advance.refl db with proposals := .updateWhere (fun _ => rfl) fun r _ hown => ?_ }
    exact ⟨.pending, next, beq_iff_eq.mp (Bool.and_eq_true_iff.mp hown).2,
      ProposalState.canTransitionTo_iff.mpr ⟨rfl, hterminal⟩, rfl, rfl⟩

/-- A call of the lifecycles, successful or not, lets rows stay or move. -/
theorem step_advance {c : Command} (hc : c.isLifecycle = true) : Advance db (step env c db) := by
  cases h : (c.transaction env).run db with
  | error e =>
    rw [step_of_error h]
    exact .refl _
  | ok r =>
    rw [step_of_ok (u := ()) h]
    cases c with
    | recordMessage =>
      obtain ⟨a, ha⟩ := Tx.run_discard_eq_ok_iff.mp h
      exact advance_recordMessage ha
    | transitionMessage =>
      obtain ⟨a, ha⟩ := Tx.run_discard_eq_ok_iff.mp h
      exact advance_transitionMessage ha
    | recordTask =>
      obtain ⟨a, ha⟩ := Tx.run_discard_eq_ok_iff.mp h
      exact advance_recordTask ha
    | transitionTask =>
      obtain ⟨a, ha⟩ := Tx.run_discard_eq_ok_iff.mp h
      exact advance_transitionTask ha
    | createProposal =>
      obtain ⟨a, ha⟩ := Tx.run_discard_eq_ok_iff.mp h
      exact advance_createProposal ha
    | transitionProposal =>
      obtain ⟨a, ha⟩ := Tx.run_discard_eq_ok_iff.mp h
      exact advance_transitionProposal ha
    | _ => cases hc

/-! ### Repeating a transition -/

/-- **A transition of a message that was applied can be repeated**, as long as the row is as it left it. -/
theorem transitionMessage_retry {sourceId : String} {expected next : MessageTriageState} {updatedAt : OffsetDateTime}
    {m : StoredMessage} (h : (transitionMessage sourceId expected next updatedAt).run db = .ok (m, db'))
    {later : Database} (hsame : Table.byKey MessageStoredRow.sourceId sourceId later.messages =
      Table.byKey MessageStoredRow.sourceId sourceId db'.messages) :
    (transitionMessage sourceId expected next updatedAt).run later = .ok (m, later) := by
  simp only [transitionMessage, Tx.ofResult_bind_eq_ok_iff, Tx.ensure_bind_eq_ok_iff, Tx.read_bind,
    okOr_eq_ok_iff] at h
  obtain ⟨sourceId', hsource, ⟨value, text⟩, htext, hvalid, row, hrow, current, hcurrent, hemail, hmove⟩ := h
  obtain ⟨-, rfl⟩ := validateMachineIdentifier_eq_ok_iff.mp hsource
  suffices hleft : ∃ row', Table.byKey MessageStoredRow.sourceId sourceId later.messages = some row' ∧
      decodeMessageRow row' = .ok m ∧ m.provider ≠ .voice ∧ m.triageState = next ∧ m.updatedAt = text by
    obtain ⟨row', hrow', hdecode, hprovider, hdone⟩ := hleft
    rw [transitionMessage, Tx.ofResult_bind_of_ok hsource, Tx.ofResult_bind_of_ok htext, Tx.ensure_bind_of hvalid,
      Tx.read_bind, Tx.ofResult_bind_of_ok (okOr_eq_ok_iff.mpr hrow'), Tx.ofResult_bind_of_ok hdecode,
      Tx.ensure_bind_of hprovider, if_pos hdone, Tx.run_pure]
  by_cases hdone : current.triageState = next ∧ current.updatedAt = text
  · rw [if_pos hdone] at hmove
    cases hmove
    exact ⟨row, hsame.trans hrow, hcurrent, hemail, hdone⟩
  · rw [if_neg hdone] at hmove
    simp only [Tx.ensure_bind_eq_ok_iff, Tx.read_bind, Tx.write_bind, Tx.ofResult_bind_eq_ok_iff,
      okOr_eq_ok_iff, Tx.run_ofResult_eq_ok_iff] at hmove
    obtain ⟨hstate, -, row', hrow', hdecode, rfl⟩ := hmove
    have hholds := decodeMessageRow_eq_ok hcurrent
    have hown : ownMessage sourceId expected row = true := by
      have hprovider : row.provider = "outlook" ∨ row.provider = "gmail" := by
        rw [hholds.provider]
        cases hp : current.provider with
        | voice => exact absurd hp hemail
        | outlook => exact Or.inl rfl
        | gmail => exact Or.inr rfl
      simp [ownMessage, (Table.byKey_eq_some hrow).2, hholds.triageState, hstate, hprovider]
    have hfound := Table.byKey_updated (f := MessageStoredRow.transition next text) (fun _ => rfl) hrow hown
    obtain rfl := Option.some.inj (hrow'.symm.trans hfound)
    have hleft := decodeMessageRow_eq_ok hdecode
    have hprovider : m.provider = current.provider :=
      MessageProvider.asStr_inj (hleft.provider.symm.trans hholds.provider)
    exact ⟨_, hsame.trans hrow', hdecode, hprovider ▸ hemail,
      MessageTriageState.asStr_inj hleft.triageState.symm, hleft.updatedAt⟩

/-- **A transition of a task that was applied can be repeated**, as long as the row is as it left it. -/
theorem transitionTask_retry {sourceId : String} {expected next : StoredTaskState} {updatedAt : OffsetDateTime}
    {t : StoredTask} (h : (transitionTask sourceId expected next updatedAt).run db = .ok (t, db'))
    {later : Database} (hlater : Consistent env later)
    (hsame : Table.byKey TaskStoredRow.sourceId sourceId later.tasks =
      Table.byKey TaskStoredRow.sourceId sourceId db'.tasks) :
    (transitionTask sourceId expected next updatedAt).run later = .ok (t, later) := by
  simp only [transitionTask, Tx.ofResult_bind_eq_ok_iff, Tx.ensure_bind_eq_ok_iff, Tx.read_bind,
    okOr_eq_ok_iff] at h
  obtain ⟨sourceId', hsource, ⟨value, text⟩, htext, hvalid, row, hrow, current, hcurrent, hrest⟩ := h
  obtain ⟨-, rfl⟩ := validateMachineIdentifier_eq_ok_iff.mp hsource
  obtain ⟨u, db₁, hcheck, hmove⟩ := Tx.run_bind_eq_ok_iff.mp hrest
  obtain ⟨rfl, -⟩ := validateLifecycle_run_eq_ok_iff.mp hcheck
  suffices hleft : ∃ row', Table.byKey TaskStoredRow.sourceId sourceId later.tasks = some row' ∧
      decodeTaskRow row' = .ok t ∧ t.state = next ∧ t.updatedAt = text by
    obtain ⟨row', hrow', hdecode, hdone⟩ := hleft
    have hmessage := (hlater.tasks.readable row' (Table.byKey_eq_some hrow').1).2
    rw [← (decodeTaskRow_eq_ok hdecode).messageId] at hmessage
    have hcheck' : (validateTaskMessageInLifecycleTransaction t.messageId).run later = .ok ((), later) :=
      validateLifecycle_run_eq_ok_iff.mpr ⟨rfl, hmessage⟩
    rw [transitionTask, Tx.ofResult_bind_of_ok hsource, Tx.ofResult_bind_of_ok htext, Tx.ensure_bind_of hvalid,
      Tx.read_bind, Tx.ofResult_bind_of_ok (okOr_eq_ok_iff.mpr hrow'), Tx.ofResult_bind_of_ok hdecode,
      Tx.run_bind_of_ok hcheck', if_pos hdone, Tx.run_pure]
  by_cases hdone : current.state = next ∧ current.updatedAt = text
  · rw [if_pos hdone] at hmove
    cases hmove
    exact ⟨row, hsame.trans hrow, hcurrent, hdone⟩
  · rw [if_neg hdone] at hmove
    simp only [Tx.ensure_bind_eq_ok_iff, Tx.read_bind, Tx.write_bind, Tx.ofResult_bind_eq_ok_iff,
      okOr_eq_ok_iff] at hmove
    obtain ⟨hstate, -, row', hrow', stored, hdecode, hlast⟩ := hmove
    obtain ⟨v, db₂, hcheck', hpure⟩ := Tx.run_bind_eq_ok_iff.mp hlast
    obtain ⟨rfl, -⟩ := validateLifecycle_run_eq_ok_iff.mp hcheck'
    cases hpure
    have hown : ownTask sourceId expected row = true := by
      rw [ownTask, (Table.byKey_eq_some hrow).2, (decodeTaskRow_eq_ok hcurrent).state, hstate, beq_self_eq_true,
        beq_self_eq_true, Bool.and_self]
    have hfound := Table.byKey_updated (f := TaskStoredRow.transition next text) (fun _ => rfl) hrow hown
    obtain rfl := Option.some.inj (hrow'.symm.trans hfound)
    have hleft := decodeTaskRow_eq_ok hdecode
    exact ⟨_, hsame.trans hrow', hdecode, StoredTaskState.asStr_inj hleft.state.symm, hleft.updatedAt⟩

/-- **A transition of a proposal that was applied can be repeated**, as long as the row is as it left it. -/
theorem transitionProposal_retry {id : ℤ} {next : ProposalState} {clock clock' : SystemTime} {p : StoredProposal}
    (h : (transitionProposal id next clock).run db = .ok (p, db')) {later : Database}
    (hsame : Table.byRowid id later.proposals = Table.byRowid id db'.proposals) :
    (transitionProposal id next clock').run later = .ok (p, later) := by
  suffices hleft : (∃ row, Table.byRowid id db'.proposals = some row ∧ decodeProposalRow row = .ok p) ∧
      p.state = next ∧ p.state.isTerminal = true by
    obtain ⟨⟨row, hrow, hdecode⟩, hdone⟩ := hleft
    have hload : (loadProposalById id).run later = .ok (p, later) :=
      loadProposalById_run_eq_ok_iff.mpr ⟨rfl, row, hsame.trans hrow, hdecode⟩
    rw [transitionProposal, Tx.run_bind_of_ok hload, if_pos hdone, Tx.run_pure]
  obtain ⟨current, db₁, hload, hmove⟩ := Tx.run_bind_eq_ok_iff.mp h
  obtain ⟨rfl, row, hrow, hcurrent⟩ := loadProposalById_run_eq_ok_iff.mp hload
  by_cases hdone : current.state = next ∧ current.state.isTerminal = true
  · rw [if_pos hdone] at hmove
    cases hmove
    exact ⟨⟨row, hrow, hcurrent⟩, hdone⟩
  · rw [if_neg hdone] at hmove
    simp only [Tx.ensure_bind_eq_ok_iff, Tx.read_bind, Tx.write_bind, Tx.ofResult_bind_eq_ok_iff,
      Tx.run_ofResult_eq_ok_iff, okOr_eq_ok_iff] at hmove
    obtain ⟨hcan, -, row', hrow', hdecode, rfl⟩ := hmove
    obtain ⟨hpending, hterminal⟩ := ProposalState.canTransitionTo_iff.mp hcan
    obtain ⟨-, -, -, -, -, -, hstate⟩ := decodeProposalRow_eq_ok hcurrent
    have hhere : (row.id == id && row.state == "pending") = true := by
      rw [hstate, hpending, show row.id = id from (Table.byRowid_eq_some hrow).2]
      simp [proposalStateStorageName]
    have hfound := Table.byRowid_updateWhere (p := fun r => r.id == id && r.state == "pending")
      (f := ProposalStoredRow.transition next clock) (fun _ => rfl) hrow hhere
    obtain rfl := Option.some.inj (hrow'.symm.trans hfound)
    obtain ⟨-, -, -, -, -, -, hstate'⟩ := decodeProposalRow_eq_ok hdecode
    have hnext : p.state = next := proposalStateStorageName_inj hstate'.symm
    exact ⟨⟨_, hrow', hdecode⟩, hnext, hnext ▸ hterminal⟩

/-! ### Loading tasks -/

/-- **A stored task can be loaded by its id.** -/
theorem loadTaskById_stored (hc : Consistent env db) {r : TaskStoredRow} (hr : r ∈ db.tasks) :
    ∃ t, loadTaskById r.id db = .ok t ∧ decodeTaskRow r = .ok t := by
  obtain ⟨⟨t, ht⟩, hmessage⟩ := hc.tasks.readable r hr
  have hholds := decodeTaskRow_eq_ok ht
  refine ⟨t, ?_, ht⟩
  rw [loadTaskById]
  refine bind_eq_ok_iff.mpr ⟨(), require_of hholds.id_pos _, ?_⟩
  refine bind_eq_ok_iff.mpr ⟨r, okOr_eq_ok_iff.mpr (Table.byRowid_of_mem hc.task_id hr), ?_⟩
  refine bind_eq_ok_iff.mpr ⟨t, ht, ?_⟩
  rw [← hholds.messageId] at hmessage
  exact bind_eq_ok_iff.mpr ⟨(), validateTaskMessageOnConnection_eq_ok_iff.mpr hmessage, rfl⟩

/-- The page of a list of tasks. -/
def taskPage (state : StoredTaskState) (afterId : Option ℤ) (limit : ℕ) (tasks : List StoredTask) : List StoredTask :=
  (tasks.filter fun task => decide (task.state = state ∧ ∀ cursor ∈ afterId, cursor < task.id)).take limit

/-- **Listing returns the pages of one list**, the stored tasks in the order of their ids. -/
theorem listTasksByState_stored (hc : Consistent env db) :
    ∃ tasks : List StoredTask, tasks.Pairwise (fun t u => t.id < u.id) ∧
      (∀ t, t ∈ tasks ↔ ∃ r ∈ db.tasks, decodeTaskRow r = .ok t) ∧
      ∀ state afterId limit, (∀ id ∈ afterId, 0 < id) → limit ≠ 0 → limit ≤ maxTaskListLimit →
        listTasksByState state afterId limit db = .ok (taskPage state afterId limit tasks) := by
  set rows := db.tasks.mergeSort fun r s => decide (r.id ≤ s.id) with hrows
  have hperm : rows.Perm db.tasks := List.mergeSort_perm _ _
  have hload : ∀ r ∈ rows, ∃ t, (do
      let task ← decodeTaskRow r
      replaceError (validateTaskMessageOnConnection task.messageId db) (storedRecordInvalid "task")
      return task) = .ok t ∧ decodeTaskRow r = .ok t := by
    intro r hr
    obtain ⟨⟨t, ht⟩, hmessage⟩ := hc.tasks.readable r (hperm.mem_iff.mp hr)
    refine ⟨t, bind_eq_ok_iff.mpr ⟨t, ht, bind_eq_ok_iff.mpr ⟨(), ?_, rfl⟩⟩, ht⟩
    rw [← (decodeTaskRow_eq_ok ht).messageId] at hmessage
    exact replaceError_eq_ok_iff.mpr (validateTaskMessageOnConnection_eq_ok_iff.mpr hmessage)
  obtain ⟨tasks, htasks, hdecode⟩ := exists_mapM_eq_ok hload
  refine ⟨tasks, ?_, fun t => ⟨fun ht => ?_, fun ⟨r, hr, ht⟩ => ?_⟩, fun state afterId limit hcursor hne hle => ?_⟩
  · have hids : rows.map TaskStoredRow.id = tasks.map StoredTask.id :=
      List.forall₂_eq_eq_eq ▸ (List.forall₂_map_left_iff.mpr (List.forall₂_map_right_iff.mpr
        (hdecode.imp fun r t ht => (decodeTaskRow_eq_ok ht).id.symm)))
    have hsorted : rows.Pairwise fun r s => r.id ≤ s.id := by
      refine (List.pairwise_mergeSort (fun r s t hrs hst => ?_) (fun r s => ?_) db.tasks).imp fun h => of_decide_eq_true h
      · rw [decide_eq_true_eq] at hrs hst ⊢
        exact hrs.trans hst
      · rw [Bool.or_eq_true_iff, decide_eq_true_eq, decide_eq_true_eq]
        exact le_total _ _
    have hapart : rows.Pairwise fun r s => r.id ≠ s.id :=
      (hperm.pairwise_iff fun h => h.symm).mpr hc.task_id
    have hstrict : (rows.map TaskStoredRow.id).Pairwise (· < ·) :=
      List.pairwise_map.mpr (hsorted.imp₂ (fun _ _ hle hne => lt_of_le_of_ne hle hne) hapart)
    rw [hids] at hstrict
    exact List.pairwise_map.mp hstrict
  · obtain ⟨r, hr, hrt⟩ := exists_of_mem_mapM htasks ht
    obtain ⟨t', ht', hrt'⟩ := hload r hr
    obtain rfl := Except.ok.inj (hrt.symm.trans ht')
    exact ⟨r, hperm.mem_iff.mp hr, hrt'⟩
  · obtain ⟨t', hmem, ht'⟩ := exists_mem_of_mapM htasks (hperm.mem_iff.mpr hr)
    obtain ⟨t'', ht'', hrt''⟩ := hload r (hperm.mem_iff.mpr hr)
    obtain rfl := Except.ok.inj (ht'.symm.trans ht'')
    obtain rfl := Except.ok.inj (ht.symm.trans hrt'')
    exact hmem
  · refine bind_eq_ok_iff.mpr ⟨(), require_of hcursor _, bind_eq_ok_iff.mpr ⟨(), require_of ⟨hne, hle⟩ _, ?_⟩⟩
    exact bind_eq_ok_iff.mpr ⟨tasks, htasks, rfl⟩

/-- **A stored task can be loaded by listing its state.** It is the first task after the cursor before its id. -/
theorem listTasksByState_first (hc : Consistent env db) {r : TaskStoredRow} {t : StoredTask} (hr : r ∈ db.tasks)
    (ht : decodeTaskRow r = .ok t) :
    ∃ afterId, listTasksByState t.state afterId 1 db = .ok [t] := by
  obtain ⟨tasks, hsorted, hmem, hpage⟩ := listTasksByState_stored hc
  have hpos : ∀ u ∈ tasks, 0 < u.id := by
    intro u hu
    obtain ⟨s, -, hs⟩ := (hmem u).mp hu
    have hholds := decodeTaskRow_eq_ok hs
    rw [hholds.id]
    exact hholds.id_pos
  obtain ⟨before, after, rfl⟩ := List.append_of_mem ((hmem t).mpr ⟨r, hr, ht⟩)
  have hbefore : ∀ u ∈ before, u.id < t.id := fun u hu =>
    (List.pairwise_append.mp hsorted).2.2 u hu t (by simp)
  have hone : (0 : ℤ) < t.id := hpos t (by simp)
  let afterId : Option ℤ := if t.id = 1 then none else some (t.id - 1)
  have hcursor : ∀ id ∈ afterId, 0 < id ∧ id = t.id - 1 := by
    intro id hid
    simp only [afterId] at hid
    split_ifs at hid with hfirst
    · cases hid
    · obtain rfl := Option.some.inj hid
      omega
  refine ⟨afterId, ?_⟩
  rw [hpage t.state afterId 1 (fun id hid => (hcursor id hid).1) (by decide) (by decide), taskPage]
  have hnone : before.filter (fun task => decide (task.state = t.state ∧ ∀ cursor ∈ afterId, cursor < task.id)) = [] := by
    rw [List.filter_eq_nil_iff]
    intro u hu
    rw [decide_eq_true_eq]
    rintro ⟨-, hlater⟩
    have hsmaller := hbefore u hu
    have hupos := hpos u (by simp [hu])
    by_cases hfirst : t.id = 1
    · omega
    · have hlate := hlater (t.id - 1) (by simp [afterId, hfirst])
      omega
  have htaken : (decide (t.state = t.state ∧ ∀ cursor ∈ afterId, cursor < t.id)) = true := by
    rw [decide_eq_true_eq]
    refine ⟨rfl, fun id hid => ?_⟩
    have hid' := (hcursor id hid).2
    omega
  rw [List.filter_append, hnone, List.nil_append, List.filter_cons, if_pos htaken]
  rfl

/-! ### Lifecycles -/

/-- **The lifecycles of messages, tasks and proposals.** From every state of the store and over every run of the calls
that record and move them:
every message, task and proposal lives along a path of its graph, on which only its state and the time of its last
change are written; voice messages stay recorded; a call that fails changes nothing; a transition that was applied
can be repeated while the row is as it left it, and returns that row; and every stored task can be loaded by its id
and by listing its state. -/
theorem lifecycles (h : Reachable env db) {cs : List Command} (hcs : ∀ c ∈ cs, c.isLifecycle = true) :
    (∀ id, LifePath MessageStoredRow.Moves MessageStoredRow.IsNew (Table.byRowid id db.messages)
        (history (step env) Database.messages id cs db)) ∧
      (∀ id, LifePath TaskStoredRow.Moves TaskStoredRow.IsNew (Table.byRowid id db.tasks)
        (history (step env) Database.tasks id cs db)) ∧
      (∀ id, LifePath ProposalStoredRow.Moves ProposalStoredRow.IsNew (Table.byRowid id db.proposals)
        (history (step env) Database.proposals id cs db)) ∧
      (∀ r ∈ (run env cs db).messages, r.provider = MessageProvider.voice.asStr →
        r.triageState = MessageTriageState.recorded.asStr) ∧
      (∀ c e, (c.transaction env).run (run env cs db) = .error e → step env c (run env cs db) = run env cs db) ∧
      (∀ sourceId expected next updatedAt m applied later, Reachable env later →
        (transitionMessage sourceId expected next updatedAt).run (run env cs db) = .ok (m, applied) →
        Table.byKey MessageStoredRow.sourceId sourceId later.messages =
          Table.byKey MessageStoredRow.sourceId sourceId applied.messages →
        (transitionMessage sourceId expected next updatedAt).run later = .ok (m, later)) ∧
      (∀ sourceId expected next updatedAt t applied later, Reachable env later →
        (transitionTask sourceId expected next updatedAt).run (run env cs db) = .ok (t, applied) →
        Table.byKey TaskStoredRow.sourceId sourceId later.tasks =
          Table.byKey TaskStoredRow.sourceId sourceId applied.tasks →
        (transitionTask sourceId expected next updatedAt).run later = .ok (t, later)) ∧
      (∀ id next clock clock' p applied later, Reachable env later →
        (transitionProposal id next clock).run (run env cs db) = .ok (p, applied) →
        Table.byRowid id later.proposals = Table.byRowid id applied.proposals →
        (transitionProposal id next clock').run later = .ok (p, later)) ∧
      ∀ r ∈ (run env cs db).tasks, ∃ t, decodeTaskRow r = .ok t ∧ loadTaskById r.id (run env cs db) = .ok t ∧
        ∃ afterId, listTasksByState t.state afterId 1 (run env cs db) = .ok [t] := by
  have hstep : ∀ c db, Consistent env db → Consistent env (step env c db) :=
    fun c _ hc => (step_changes hc c).consistent hc
  have hreached := (h.run cs).consistent
  refine ⟨fun id => ?_, fun id => ?_, fun id => ?_, fun r hr hvoice => ?_, fun c e => step_of_error,
    fun _ _ _ _ _ _ _ _ happlied => transitionMessage_retry happlied, fun _ _ _ _ _ _ _ hlater happlied =>
      transitionTask_retry happlied hlater.consistent,
    fun _ _ _ _ _ _ _ _ happlied => transitionProposal_retry happlied,
    fun r hr => ?_⟩
  · exact lifePath_history hstep (fun _ _ _ hlifecycle => (step_advance hlifecycle).messages) id h.consistent hcs
  · exact lifePath_history hstep (fun _ _ _ hlifecycle => (step_advance hlifecycle).tasks) id h.consistent hcs
  · exact lifePath_history hstep (fun _ _ _ hlifecycle => (step_advance hlifecycle).proposals) id h.consistent hcs
  · obtain ⟨m, hm⟩ := hreached.messages.readable r hr
    have hholds := decodeMessageRow_eq_ok hm
    have hvalid := hholds.valid
    rw [MessageProvider.asStr_inj (hholds.provider.symm.trans hvoice)] at hvalid
    rw [hholds.triageState, beq_iff_eq.mp hvalid]
  · obtain ⟨t, hload, ht⟩ := loadTaskById_stored hreached hr
    exact ⟨t, ht, hload, listTasksByState_first hreached hr ht⟩

/-- Records an e-mail, finds it actionable, records a task for it, places the task and schedules the e-mail. -/
def emailRun : List Command :=
  [.recordMessage ⟨"key-1", "mail-1", .gmail, "gmail-1", ⟨"Pay the bill", by decide⟩, none, none, newYear.instant⟩
      newYear,
    .transitionMessage "mail-1" .unprocessed .actionable newYear.instant,
    .recordTask ⟨"key-2", "task-1", 1, ⟨"Pay the bill", by decide⟩, .bill, none, none⟩ newYear,
    .transitionTask "task-1" .pending .proposed newYear.instant,
    .transitionMessage "mail-1" .actionable .scheduled newYear.instant]

theorem lifecycles_emailRun :
    LifePath MessageStoredRow.Moves MessageStoredRow.IsNew none
      (history (step ⟨fun _ => none, ⟨fun _ => "", fun _ => none⟩⟩) Database.messages 1 emailRun Database.empty) :=
  (lifecycles ⟨[], rfl⟩ (by decide)).1 1

end AgentVoice.Store

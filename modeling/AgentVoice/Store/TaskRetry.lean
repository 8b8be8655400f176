import AgentVoice.Store.Effects

/-!
# Recording a task again

A task keeps what it was recorded with over every run. Recording it again finds it exactly when its message is
actionable, which the message need not be any more: the retry checks the message as the first call does, while the
loads accept every message that may have tasks.
-/

namespace AgentVoice.Store

open AgentVoice.Foundations AgentVoice.Domain

variable {env : Environment} {db db' : Database}

/-- Versions of a task with the same content: what no call writes again once the row is there. -/
structure TaskStoredRow.SameContent (r r' : TaskStoredRow) : Prop where
  id : r'.id = r.id
  idempotencyKey : r'.idempotencyKey = r.idempotencyKey
  sourceId : r'.sourceId = r.sourceId
  messageId : r'.messageId = r.messageId
  title : r'.title = r.title
  kind : r'.kind = r.kind
  durationMinutes : r'.durationMinutes = r.durationMinutes
  dueAt : r'.dueAt = r.dueAt

theorem TaskStoredRow.SameContent.refl (r : TaskStoredRow) : r.SameContent r := ⟨rfl, rfl, rfl, rfl, rfl, rfl, rfl, rfl⟩

theorem TaskStoredRow.SameContent.trans {r s t : TaskStoredRow} (h : r.SameContent s) (h' : s.SameContent t) :
    r.SameContent t :=
  ⟨h'.id.trans h.id, h'.idempotencyKey.trans h.idempotencyKey, h'.sourceId.trans h.sourceId,
    h'.messageId.trans h.messageId, h'.title.trans h.title, h'.kind.trans h.kind,
    h'.durationMinutes.trans h.durationMinutes, h'.dueAt.trans h.dueAt⟩

/-- A version of a task that has the content of a request still has it. -/
theorem TaskStoredRow.SameContent.isContentOf {row row' : TaskStoredRow} (h : row.SameContent row') {t t' : StoredTask}
    (ht : decodeTaskRow row = .ok t) (ht' : decodeTaskRow row' = .ok t') {r : TaskRequest} {duration : DurationMinutes}
    {dueAt : Option OffsetDateTime} (hcontent : r.IsContentOf duration dueAt t) : r.IsContentOf duration dueAt t' := by
  have hholds := decodeTaskRow_eq_ok ht
  have hholds' := decodeTaskRow_eq_ok ht'
  obtain ⟨hkey, hsource, hmessage, htitle, hkind, hduration, hdue⟩ := hcontent
  refine ⟨?_, ?_, ?_, ?_, ?_, ?_, ?_⟩
  · rw [hholds'.idempotencyKey, h.idempotencyKey, ← hholds.idempotencyKey, hkey]
  · rw [hholds'.sourceId, h.sourceId, ← hholds.sourceId, hsource]
  · rw [hholds'.messageId, h.messageId, ← hholds.messageId, hmessage]
  · rw [← htitle]
    exact TaskTitle.ext (by rw [hholds'.title, h.title, ← hholds.title])
  · rw [← hkind]
    have hread := parseTaskKind_eq_ok_iff.mpr hholds'.kind
    rw [h.kind, parseTaskKind_eq_ok_iff.mpr hholds.kind] at hread
    exact (Except.ok.inj hread).symm
  · rw [← hduration]
    exact DurationMinutes.ext (Int.ofNat_inj.mp (by rw [hholds'.duration, h.durationMinutes, ← hholds.duration]))
  · have hread := hholds'.dueAt
    rw [h.dueAt, hholds.dueAt] at hread
    exact (Except.ok.inj hread).symm.trans hdue

/-- No change touches the content of a task. -/
theorem Change.task_sameContent (h : Change env db db') {row : TaskStoredRow} (hrow : row ∈ db.tasks) :
    ∃ row' ∈ db'.tasks, row.SameContent row' := by
  cases h with
  | insertTask => exact ⟨row, List.mem_append_left _ hrow, .refl row⟩
  | transitionTask =>
    refine ⟨_, List.mem_map_of_mem hrow, ?_⟩
    split
    · exact ⟨rfl, rfl, rfl, rfl, rfl, rfl, rfl, rfl⟩
    · exact .refl row
  | _ => exact ⟨row, hrow, .refl row⟩

theorem Changes.task_sameContent (h : Changes env db db') {row : TaskStoredRow} (hrow : row ∈ db.tasks) :
    ∃ row' ∈ db'.tasks, row.SameContent row' := by
  induction h with
  | refl => exact ⟨row, hrow, .refl row⟩
  | tail _ hchange ih =>
    obtain ⟨row', hrow', hsame⟩ := ih
    obtain ⟨row'', hrow'', hsame'⟩ := hchange.task_sameContent hrow'
    exact ⟨row'', hrow'', hsame.trans hsame'⟩

/-- The row that recording inserts has the content of the request. -/
theorem TaskRequest.isContentOf_row {r : TaskRequest} {duration : DurationMinutes} {due : Option (OffsetDateTime × String)}
    (hready : r.Ready duration due) {now : SystemTime} {id : ℤ} {t : StoredTask}
    (h : decodeTaskRow (r.row duration (due.map Prod.snd) now id) = .ok t) : r.IsContentOf duration (due.map Prod.fst) t := by
  have hholds := decodeTaskRow_eq_ok h
  refine ⟨hholds.idempotencyKey, hholds.sourceId, hholds.messageId, TaskTitle.ext hholds.title, ?_,
    DurationMinutes.ext (Int.ofNat_inj.mp hholds.duration), ?_⟩
  · have hread := parseTaskKind_eq_ok_iff.mpr hholds.kind
    exact Except.ok.inj (hread.symm.trans (parseTaskKind_eq_ok_iff.mpr rfl))
  · have hread := hholds.dueAt
    cases hdue : due with
    | none =>
      rw [hdue] at hread
      exact (Except.ok.inj hread).symm
    | some written =>
      obtain ⟨at', text⟩ := written
      have hready' := hready.due
      rw [hdue] at hready' hread
      obtain ⟨value, -, hvalue⟩ := transpose_eq_ok_some_iff.mp hready'
      obtain ⟨rfl, hnanos, hformat⟩ := wholeSecondText_eq_ok_iff.mp hvalue
      have hparse : parseTaskTimestamp text "task" = .ok value.toUtc :=
        parseWholeSecond_eq_ok_iff.mpr ⟨rfl, hnanos, hformat⟩
      have hback : transpose (parseTaskTimestamp · "task") (some text) = .ok (some value.toUtc) :=
        transpose_eq_ok_some_iff.mpr ⟨text, rfl, hparse⟩
      exact Except.ok.inj (hread.symm.trans hback)

/-- A recorded task is stored with the content of the request. -/
theorem recordTask_stored {r : TaskRequest} {now : SystemTime} {t : StoredTask}
    (h : (recordTask r now).run db = .ok (t, db')) :
    ∃ duration due, r.Ready duration due ∧ ∃ row ∈ db'.tasks, decodeTaskRow row = .ok t ∧
      r.IsContentOf duration (due.map Prod.fst) t := by
  obtain ⟨duration, due, hready, -, ⟨row, rfl, rfl, hdecode, -⟩ | ⟨rfl, row, hrow, hdecode, hcontent⟩⟩ :=
    recordTask_run_eq_ok h
  · exact ⟨duration, due, hready, _, by simp, hdecode, TaskRequest.isContentOf_row hready hdecode⟩
  · exact ⟨duration, due, hready, row, hrow, hdecode, hcontent⟩

/-- **When recording a task again finds it.** From any state and over any run of calls, the task is there with the
content it was recorded with, and the same call returns it and changes nothing if and only if its message is
actionable. -/
theorem recordTask_retry_iff (h : Reachable env db) {r : TaskRequest} {now : SystemTime} {t : StoredTask}
    (hrun : (recordTask r now).run db = .ok (t, db')) (cs : List Command) (now' : SystemTime) :
    ∃ row ∈ (run env cs db').tasks, ∃ t', decodeTaskRow row = .ok t' ∧ t'.id = t.id ∧
      ((recordTask r now').run (run env cs db') = .ok (t', run env cs db') ↔
        MessageIs Actionable (run env cs db') r.messageId) := by
  obtain ⟨duration, due, hready, row, hrow, hdecode, hcontent⟩ := recordTask_stored hrun
  have hreachable : Reachable env db' := h.call (c := .recordTask r now) rfl hrun
  have hc := (hreachable.run cs).consistent
  obtain ⟨row', hrow', hsame⟩ := (run_changes hreachable.consistent cs).task_sameContent hrow
  obtain ⟨⟨t', ht'⟩, -⟩ := hc.tasks.readable row' hrow'
  have hcontent' := hsame.isContentOf hdecode ht' hcontent
  have hholds' := decodeTaskRow_eq_ok ht'
  refine ⟨row', hrow', t', ht', ?_, fun hagain => ?_, fun hmessage => ?_⟩
  · rw [hholds'.id, hsame.id, ← (decodeTaskRow_eq_ok hdecode).id]
  · obtain ⟨_, _, -, hmessage, -⟩ := recordTask_run_eq_ok hagain
    exact hmessage
  · refine recordTask_run_existing hready hc.task_id hrow' (fun s hs hshares => ?_) ht' hcontent' hmessage
    rcases hshares with hkey | hsource
    · exact hc.task_key.eq hs hrow' (hkey.trans (hcontent'.1.symm.trans hholds'.idempotencyKey))
    · exact hc.task_source.eq hs hrow' (hsource.trans (hcontent'.2.1.symm.trans hholds'.sourceId))

/-- An e-mail that is found actionable. -/
def actionableMail : List Command :=
  [.recordMessage ⟨"key-1", "mail-1", .gmail, "gmail-1", ⟨"Renew the passport", by decide⟩, none, none, newYear.instant⟩
      newYear,
    .transitionMessage "mail-1" .unprocessed .actionable newYear.instant]

/-- The task of the e-mail. -/
def mailTask : TaskRequest := ⟨"key-2", "task-1", 1, ⟨"Renew the passport", by decide⟩, .bill, none, none⟩

/-- The libraries of a store that neither has a quote nor a notification. -/
def noLibraries : Environment := ⟨fun _ => none, ⟨fun _ => "", fun _ => none⟩⟩

theorem recordTask_mailTask :
    ∃ t db', (recordTask mailTask newYear).run (run noLibraries actionableMail .empty) = .ok (t, db') ∧
      step noLibraries (.recordTask mailTask newYear) (run noLibraries actionableMail .empty) = db' := by
  refine ⟨⟨1, "key-2", "task-1", 1, mailTask.title, .bill, ⟨15, by decide, by decide⟩, none, .pending,
    strftimeNow newYear, strftimeNow newYear⟩, _, ?_, rfl⟩
  decide +kernel

/-- The task is proposed, and then scheduled. -/
def scheduledTask : List Command :=
  [.transitionTask "task-1" .pending .proposed newYear.instant, .transitionTask "task-1" .proposed .scheduled newYear.instant]

theorem recordTask_retry_mailTask :
    ∃ t db', (recordTask mailTask newYear).run (run noLibraries actionableMail .empty) = .ok (t, db') ∧
      ∃ row ∈ (run noLibraries scheduledTask db').tasks, ∃ t', decodeTaskRow row = .ok t' ∧ t'.id = t.id ∧
        t'.state = .scheduled ∧
        ((recordTask mailTask newYear).run (run noLibraries scheduledTask db') =
            .ok (t', run noLibraries scheduledTask db') ↔
          MessageIs Actionable (run noLibraries scheduledTask db') 1) := by
  obtain ⟨t, db', hrun, rfl⟩ := recordTask_mailTask
  obtain ⟨row, hrow, t', ht', hid, hiff⟩ := recordTask_retry_iff ⟨actionableMail, rfl⟩ hrun scheduledTask newYear
  have hstates : ∀ row ∈ (run noLibraries scheduledTask
      (step noLibraries (.recordTask mailTask newYear) (run noLibraries actionableMail .empty))).tasks,
        row.state = StoredTaskState.scheduled.asStr := by decide +kernel
  refine ⟨t, _, hrun, row, hrow, t', ht', hid, ?_, hiff⟩
  exact StoredTaskState.asStr_inj ((decodeTaskRow_eq_ok ht').state.symm.trans (hstates row hrow))

/-- A task whose message was scheduled cannot be recorded again. -/
theorem recordTask_scheduled_conflict :
    ∃ t db', (recordTask mailTask newYear).run (run noLibraries actionableMail .empty) = .ok (t, db') ∧
      (recordTask mailTask newYear).run
        (run noLibraries [.transitionMessage "mail-1" .actionable .scheduled newYear.instant] db') =
          .error (.storedRecordInvalid "message") := by
  obtain ⟨t, db', hrun, rfl⟩ := recordTask_mailTask
  refine ⟨t, _, hrun, ?_⟩
  decide +kernel

end AgentVoice.Store

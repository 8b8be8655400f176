import AgentVoice.Foundations.Paging
import AgentVoice.Store.Lifecycles

/-!
# Listings

The lists of audit events, messages and tasks, page by page after a cursor. Rows are added under larger ids and keep them
(`Change.lengthens`), so in every run of the store the rows of these tables stand in the order of their ids
(`run_ascending`), and a list is a page of what the tables hold. A reader that follows its cursor, while other calls are made,
reads nothing twice and misses nothing, and what it has read of the audit log is the beginning of it
(`listings_enumerate`).
-/

namespace AgentVoice.Store

open AgentVoice.Foundations

/-! ### The model -/

section Rows

variable {ρ β : Type} [Row ρ]

/-- Lists the rows after a cursor in the order of their ids, up to a limit:
`SELECT … WHERE … AND (? IS NULL OR id > ?) ORDER BY id ASC LIMIT ?`. -/
def listRows (decode : ρ → StoreResult β) (selects : ρ → Bool) (maxLimit : ℕ) (afterId : Option ℤ) (limit : ℕ)
    (rows : List ρ) : StoreResult (List β) := do
  require (∀ id ∈ afterId, 0 < id) (.invalidInput "cursor")
  require (limit ≠ 0 ∧ limit ≤ maxLimit) (.invalidInput "limit")
  let selected := (rows.filter fun r => selects r && decide (∀ id ∈ afterId, id < Row.rowid r)).mergeSort fun r s =>
    decide (Row.rowid r ≤ Row.rowid s)
  (selected.take limit).mapM decode

end Rows

/-- `MAX_AUDIT_LIST_LIMIT`. -/
def maxAuditListLimit : ℕ := 100

/-- `PaStore::list_audit_events`. -/
def listAuditEvents (afterId : Option ℤ) (limit : ℕ) (db : Database) : StoreResult (List StoredAuditEvent) :=
  listRows decodeAuditEventRow (fun _ => true) maxAuditListLimit afterId limit db.auditEvents

/-- `MAX_MESSAGE_LIST_LIMIT`. -/
def maxMessageListLimit : ℕ := 100

/-- `PaStore::list_messages`. -/
def listMessages (afterId : Option ℤ) (limit : ℕ) (db : Database) : StoreResult (List StoredMessage) :=
  listRows decodeMessageRow (fun _ => true) maxMessageListLimit afterId limit db.messages

/-- The states that the query knows; a row in another state is selected, so that it fails. -/
def listedTriageStates : List String := ["recorded", "unprocessed", "actionable", "ambiguous", "ignored", "scheduled"]

/-- `PaStore::list_messages_by_triage_state`. -/
def listMessagesByTriageState (triageState : MessageTriageState) (afterId : Option ℤ) (limit : ℕ) (db : Database) :
    StoreResult (List StoredMessage) :=
  listRows decodeMessageRow (fun r => r.triageState == triageState.asStr || !listedTriageStates.contains r.triageState)
    maxMessageListLimit afterId limit db.messages

/-! ### What the tables hold -/

/-- The records of the rows that decode. -/
def stored {ρ β : Type} (decode : ρ → StoreResult β) (rows : List ρ) : List β := rows.filterMap fun r => (decode r).toOption

section Rows

variable {ρ β : Type} [Row ρ] {decode : ρ → StoreResult β} {id : β → ℤ} {selects : ρ → Bool} {want : β → Prop}
  [DecidablePred want] {rows : List ρ}

/-- Records have the ids of their rows. -/
theorem map_stored (hread : ∀ r ∈ rows, ∃ x, decode r = .ok x) (hid : ∀ r x, decode r = .ok x → id x = Row.rowid r) :
    (stored decode rows).map id = rows.map Row.rowid :=
  (List.forall₂_eq_eq_eq ▸ List.forall₂_map_left_iff.mpr (List.forall₂_map_right_iff.mpr
    ((forall₂_toOption hread).imp fun r x hx => (hid r x hx).symm))).symm

/-- **A list is a page of what a table holds**, where the rows stand in the order of their ids. -/
theorem listRows_stored (hascending : rows.Pairwise fun r s => Row.rowid r < Row.rowid s)
    (hread : ∀ r ∈ rows, ∃ x, decode r = .ok x)
    (hdecode : ∀ r x, decode r = .ok x → id x = Row.rowid r ∧ (selects r = true ↔ want x)) {maxLimit : ℕ} {afterId : Option ℤ}
    {limit : ℕ} (hcursor : ∀ id ∈ afterId, 0 < id) (hne : limit ≠ 0) (hle : limit ≤ maxLimit) :
    listRows decode selects maxLimit afterId limit rows = .ok (Paging.page id want afterId limit (stored decode rows)) := by
  refine bind_eq_ok_iff.mpr ⟨(), require_of hcursor _, bind_eq_ok_iff.mpr ⟨(), require_of ⟨hne, hle⟩ _, ?_⟩⟩
  have hsorted : (rows.filter fun r => selects r && decide (∀ id ∈ afterId, id < Row.rowid r)).Pairwise fun r s =>
      decide (Row.rowid r ≤ Row.rowid s) = true := (hascending.filter _).imp fun hlt => decide_eq_true hlt.le
  rw [List.mergeSort_of_pairwise hsorted, mapM_eq_ok_iff_forall₂]
  refine List.forall₂_take _ (List.rel_filter ?_ (forall₂_toOption hread))
  intro r x hx
  obtain ⟨hid, hselects⟩ := hdecode r x hx
  show (selects r && decide (∀ id ∈ afterId, id < Row.rowid r)) = true ↔ decide (want x ∧ ∀ c ∈ afterId, c < id x) = true
  rw [Bool.and_eq_true_iff, decide_eq_true_iff, decide_eq_true_iff, hselects, hid]

/-- A list that is returned was asked for with a cursor and a limit that are valid. -/
theorem listRows_valid {maxLimit : ℕ} {afterId : Option ℤ} {limit : ℕ} {found : List β}
    (h : listRows decode selects maxLimit afterId limit rows = .ok found) :
    (∀ id ∈ afterId, 0 < id) ∧ limit ≠ 0 ∧ limit ≤ maxLimit := by
  obtain ⟨_, hcursor, h⟩ := bind_eq_ok_iff.mp h
  obtain ⟨_, hlimit, -⟩ := bind_eq_ok_iff.mp h
  exact ⟨require_eq_ok_iff.mp hcursor, require_eq_ok_iff.mp hlimit⟩

end Rows

/-! ### Rows are added under larger ids -/

variable {env : Environment} {db db' : Database}

/-- What a change leaves: the audit events stay, and messages and tasks keep their ids; what is added comes after them. -/
structure Lengthens (db db' : Database) : Prop where
  auditEvents : db.auditEvents <+: db'.auditEvents
  messages : db.messages.map Row.rowid <+: db'.messages.map Row.rowid
  tasks : db.tasks.map Row.rowid <+: db'.tasks.map Row.rowid

/-- The rows stand in the order of their ids. -/
structure Ascending (db : Database) : Prop where
  auditEvents : db.auditEvents.Pairwise fun r s => Row.rowid r < Row.rowid s
  messages : db.messages.Pairwise fun r s => Row.rowid r < Row.rowid s
  tasks : db.tasks.Pairwise fun r s => Row.rowid r < Row.rowid s

theorem Lengthens.of_eq (haudit : db'.auditEvents = db.auditEvents) (hmessages : db'.messages = db.messages)
    (htasks : db'.tasks = db.tasks) : Lengthens db db' :=
  ⟨haudit ▸ List.prefix_refl _, hmessages ▸ List.prefix_refl _, htasks ▸ List.prefix_refl _⟩

theorem Ascending.of_eq (h : Ascending db) (haudit : db'.auditEvents = db.auditEvents) (hmessages : db'.messages = db.messages)
    (htasks : db'.tasks = db.tasks) : Ascending db' :=
  ⟨haudit ▸ h.auditEvents, hmessages ▸ h.messages, htasks ▸ h.tasks⟩

section Rows

variable {ρ : Type} [Row ρ] {rows : List ρ} {r : ρ} {p : ρ → Bool} {f : ρ → ρ}

theorem map_rowid_updateWhere (hf : ∀ r, Row.rowid (f r) = Row.rowid r) :
    (Table.updateWhere p f rows).map Row.rowid = rows.map Row.rowid := by
  rw [Table.updateWhere, List.map_map]
  refine List.map_congr_left fun r _ => ?_
  show Row.rowid (if p r = true then f r else r) = Row.rowid r
  split
  · exact hf r
  · rfl

theorem grows_insert : rows.map Row.rowid <+: (rows ++ [r]).map Row.rowid := by
  rw [List.map_append]
  exact List.prefix_append _ _

theorem grows_updateWhere (hf : ∀ r, Row.rowid (f r) = Row.rowid r) :
    rows.map Row.rowid <+: (Table.updateWhere p f rows).map Row.rowid := by
  rw [map_rowid_updateWhere hf]

theorem ascending_insert (h : rows.Pairwise fun r s => Row.rowid r < Row.rowid s) (hr : Row.rowid r = Table.nextRowid rows) :
    (rows ++ [r]).Pairwise fun r s => Row.rowid r < Row.rowid s := by
  refine List.pairwise_append.mpr ⟨h, List.pairwise_singleton _ _, fun s hs r' hr' => ?_⟩
  obtain rfl := List.mem_singleton.mp hr'
  rw [hr]
  exact Table.rowid_lt_nextRowid hs

theorem ascending_updateWhere (h : rows.Pairwise fun r s => Row.rowid r < Row.rowid s)
    (hf : ∀ r, Row.rowid (f r) = Row.rowid r) :
    (Table.updateWhere p f rows).Pairwise fun r s => Row.rowid r < Row.rowid s := by
  have hids := List.pairwise_map.mpr h
  rw [← map_rowid_updateWhere (p := p) hf] at hids
  exact List.pairwise_map.mp hids

end Rows

/-- **A change adds rows at the end.** -/
theorem Change.lengthens (h : Change env db db') : Lengthens db db' := by
  have hrefl : Lengthens db db := .of_eq rfl rfl rfl
  cases h with
  | insertAuditEvent => exact { hrefl with auditEvents := List.prefix_append _ _ }
  | insertMessage => exact { hrefl with messages := grows_insert }
  | transitionMessage => exact { hrefl with messages := grows_updateWhere fun _ => rfl }
  | insertTask => exact { hrefl with tasks := grows_insert }
  | transitionTask => exact { hrefl with tasks := grows_updateWhere fun _ => rfl }
  | _ => exact .of_eq rfl rfl rfl

theorem Change.ascending (h : Change env db db') (ha : Ascending db) : Ascending db' := by
  cases h with
  | insertAuditEvent id => exact { ha with auditEvents := ascending_insert ha.auditEvents id }
  | insertMessage id => exact { ha with messages := ascending_insert ha.messages id }
  | transitionMessage => exact { ha with messages := ascending_updateWhere ha.messages fun _ => rfl }
  | insertTask id => exact { ha with tasks := ascending_insert ha.tasks id }
  | transitionTask => exact { ha with tasks := ascending_updateWhere ha.tasks fun _ => rfl }
  | _ => exact ha.of_eq rfl rfl rfl

theorem Changes.lengthens (h : Changes env db db') : Lengthens db db' := by
  induction h with
  | refl => exact .of_eq rfl rfl rfl
  | tail _ hchange ih =>
    exact ⟨ih.auditEvents.trans hchange.lengthens.auditEvents, ih.messages.trans hchange.lengthens.messages,
      ih.tasks.trans hchange.lengthens.tasks⟩

theorem Changes.ascending (h : Changes env db db') (ha : Ascending db) : Ascending db' := by
  induction h with
  | refl => exact ha
  | tail _ hchange ih => exact hchange.ascending ih

/-- What holds of the tables in every run. -/
structure Listed (env : Environment) (db : Database) : Prop where
  consistent : Consistent env db
  ascending : Ascending db

theorem Listed.empty (env : Environment) : Listed env Database.empty :=
  ⟨.empty env, List.Pairwise.nil, List.Pairwise.nil, List.Pairwise.nil⟩

theorem Listed.step (h : Listed env db) (c : Command) : Listed env (step env c db) :=
  ⟨(step_changes h.consistent c).consistent h.consistent, (step_changes h.consistent c).ascending h.ascending⟩

/-! ### Readers of the listings -/

section Reading

variable {ρ β : Type} [Row ρ] {rows : Database → List ρ} {decode : ρ → StoreResult β} {selects : ρ → Bool} {maxLimit : ℕ}
  {id : β → ℤ} {want : β → Prop} [DecidablePred want]

/-- A listing of the store, and the calls that are made in between. -/
def listing (env : Environment) (list : Option ℤ → ℕ → Database → StoreResult (List β)) (id : β → ℤ) :
    Paging.Listing Database Command β ℤ StoreError := ⟨step env, list, id⟩

/-- **A listing of a table is lawful**, where the rows of the table decode and keep their order. -/
theorem lawful_listing {list : Option ℤ → ℕ → Database → StoreResult (List β)}
    (hascending : ∀ db, Ascending db → (rows db).Pairwise fun r s => Row.rowid r < Row.rowid s)
    (hlengthens : ∀ db db', Lengthens db db' → (rows db).map Row.rowid <+: (rows db').map Row.rowid)
    (hread : ∀ db, Consistent env db → ∀ r ∈ rows db, ∃ x, decode r = .ok x)
    (hid : ∀ r x, decode r = .ok x → id x = Row.rowid r)
    (hpages : ∀ cursor limit db found, Listed env db → list cursor limit db = .ok found →
      found = Paging.page id want cursor limit (stored decode (rows db))) :
    Paging.Lawful (listing env list id) (fun db => stored decode (rows db)) want (Listed env) where
  keeps c _ h := h.step c
  ascending db h := by
    have hids := List.pairwise_map.mpr (hascending db h.ascending)
    rw [← map_stored (hread db h.consistent) hid] at hids
    exact List.pairwise_map.mp hids
  grows c db h := by
    show (stored decode (rows db)).map id <+: (stored decode (rows (step env c db))).map id
    rw [map_stored (hread _ h.consistent) hid, map_stored (hread _ (h.step c).consistent) hid]
    exact hlengthens _ _ (step_changes h.consistent c).lengthens
  pages := hpages

/-- A list of rows is a page. -/
theorem listRows_page (hascending : ∀ db, Ascending db → (rows db).Pairwise fun r s => Row.rowid r < Row.rowid s)
    (hread : ∀ db, Consistent env db → ∀ r ∈ rows db, ∃ x, decode r = .ok x)
    (hdecode : ∀ r x, decode r = .ok x → id x = Row.rowid r ∧ (selects r = true ↔ want x)) (cursor : Option ℤ) (limit : ℕ)
    (db : Database) (found : List β) (h : Listed env db)
    (hlist : listRows decode selects maxLimit cursor limit (rows db) = .ok found) :
    found = Paging.page id want cursor limit (stored decode (rows db)) := by
  obtain ⟨hcursor, hne, hle⟩ := listRows_valid hlist
  exact Except.ok.inj (hlist.symm.trans
    (listRows_stored (hascending db h.ascending) (hread db h.consistent) hdecode hcursor hne hle))

variable (env) in
/-- The reader of a listing, and the tables, after calls of the store and pages, from empty tables. -/
def reader (list : Option ℤ → ℕ → Database → StoreResult (List β)) (id : β → ℤ) (as : List (Paging.Action Command)) :
    Paging.Reader Database β ℤ := Paging.after (listing env list id) as (Paging.fresh .empty)

/-- How a reader fares that follows its cursor: its next page is returned; it has read nothing twice, and only what was there
and was wanted; and it has read everything up to its cursor that was wanted while it was there, or everything at all once a
page is not full. -/
structure Enumerates (env : Environment) (list : Option ℤ → ℕ → Database → StoreResult (List β)) (maxLimit : ℕ) (id : β → ℤ)
    (held : Database → List β) (want : β → Prop) (as : List (Paging.Action Command)) : Prop where
  answered : ∀ limit, limit ≠ 0 → limit ≤ maxLimit →
    ∃ found, list (reader env list id as).cursor limit (reader env list id as).store = .ok found
  once : ((reader env list id as).read.map id).Pairwise (· < ·)
  sound : ∀ x ∈ (reader env list id as).read, ∃ before rest, as = before ++ rest ∧
    x ∈ held (reader env list id before).store ∧ want x
  complete : ∀ k, Machine.Throughout (Paging.step (listing env list id)) (Paging.Wanted (listing env list id) held want k) as
      (Paging.fresh .empty) → k ∈ (held (reader env list id as).store).map id →
    ∀ c ∈ (reader env list id as).cursor, k ≤ c → k ∈ (reader env list id as).read.map id
  last : ∀ k, Machine.Throughout (Paging.step (listing env list id)) (Paging.Wanted (listing env list id) held want k) as
      (Paging.fresh .empty) → k ∈ (held (reader env list id as).store).map id → ∀ limit found,
    list (reader env list id as).cursor limit (reader env list id as).store = .ok found → found.length < limit →
      k ∈ ((reader env list id as).read ++ found).map id

/-- **A lawful listing is enumerated.** -/
theorem enumerates_of_lawful {list : Option ℤ → ℕ → Database → StoreResult (List β)} {held : Database → List β}
    (hl : Paging.Lawful (listing env list id) held want (Listed env))
    (hanswers : ∀ cursor limit db, Listed env db → (∀ c ∈ cursor, 0 < c) → limit ≠ 0 → limit ≤ maxLimit →
      ∃ found, list cursor limit db = .ok found)
    (hpos : ∀ db, Listed env db → ∀ x ∈ held db, 0 < id x) (as : List (Paging.Action Command)) :
    Enumerates env list maxLimit id held want as := by
  have hempty := Listed.empty env
  obtain ⟨hlisted, hreads⟩ := hl.run_reads hempty as
  refine ⟨fun limit hne hle => hanswers _ _ _ hlisted (fun c hc => ?_) hne hle, List.pairwise_map.mpr hreads.ascending,
    fun x hx => hl.mem_of_mem_read hempty hx, fun k hwanted => hl.run_complete hempty hwanted,
    fun k hwanted hk limit found hpage hshort => hl.mem_read_of_last_page hempty hwanted hpage hshort hk⟩
  obtain ⟨x, hx, rfl⟩ := hreads.cursor_mem hc
  obtain ⟨before, rest, -, hheld, -⟩ := hl.mem_of_mem_read hempty hx
  exact hpos _ (hl.run_reads hempty before).1 x hheld

end Reading

/-! ### The listings -/

/-- The audit log. -/
def auditLog (db : Database) : List StoredAuditEvent := stored decodeAuditEventRow db.auditEvents

/-- The messages of the store. -/
def messagesHeld (db : Database) : List StoredMessage := stored decodeMessageRow db.messages

/-- The tasks of the store. -/
def tasksHeld (db : Database) : List StoredTask := stored decodeTaskRow db.tasks

theorem decodeAuditEventRow_pos {row : AuditEventStoredRow} {e : StoredAuditEvent} (h : decodeAuditEventRow row = .ok e) :
    0 < e.id := by
  obtain ⟨_, hvalid, -⟩ := bind_eq_ok_iff.mp h
  rw [(decodeAuditEventRow_eq_ok h).1]
  exact (require_eq_ok_iff.mp hvalid).1

/-- A row of a message is selected by the state of the message only. -/
theorem selects_triageState {row : MessageStoredRow} {m : StoredMessage} (h : decodeMessageRow row = .ok m)
    (state : MessageTriageState) :
    (row.triageState == state.asStr || !listedTriageStates.contains row.triageState) = true ↔ m.triageState = state := by
  have hstate := (decodeMessageRow_eq_ok h).triageState
  have hlisted : listedTriageStates.contains m.triageState.asStr = true := by cases m.triageState <;> decide
  rw [hstate, hlisted, Bool.not_true, Bool.or_false, beq_iff_eq]
  exact ⟨MessageTriageState.asStr_inj, fun h => h ▸ rfl⟩

theorem mem_stored {ρ β : Type} {decode : ρ → StoreResult β} {rows : List ρ} {x : β} (h : x ∈ stored decode rows) :
    ∃ r ∈ rows, decode r = .ok x := by
  obtain ⟨r, hr, hx⟩ := List.mem_filterMap.mp h
  cases hdecode : decode r with
  | error e =>
    rw [hdecode] at hx
    exact absurd hx.symm (Option.some_ne_none _)
  | ok y =>
    rw [hdecode] at hx
    obtain rfl := Option.some.inj hx
    exact ⟨r, hr, hdecode⟩

/-- A list of tasks is a page. -/
theorem listTasksByState_page (h : Listed env db) (state : StoredTaskState) {cursor : Option ℤ} {limit : ℕ}
    (hcursor : ∀ id ∈ cursor, 0 < id) (hne : limit ≠ 0) (hle : limit ≤ maxTaskListLimit) :
    listTasksByState state cursor limit db =
      .ok (Paging.page StoredTask.id (fun t => t.state = state) cursor limit (tasksHeld db)) := by
  obtain ⟨tasks, hpairwise, hmem, hlist⟩ := listTasksByState_stored h.consistent
  have hread : ∀ r ∈ db.tasks, ∃ t, decodeTaskRow r = .ok t := fun r hr => (h.consistent.tasks.readable r hr).1
  have hids := List.pairwise_map.mpr h.ascending.tasks
  rw [← map_stored hread fun r t ht => (decodeTaskRow_eq_ok ht).id] at hids
  have hirrefl : Std.Irrefl fun t u : StoredTask => t.id < u.id := ⟨fun t => lt_irrefl t.id⟩
  have hantisymm : Std.Antisymm fun t u : StoredTask => t.id < u.id := ⟨fun t u htu hut => absurd hut htu.asymm⟩
  have htasks : tasks = tasksHeld db := by
    refine hpairwise.eq_of_mem_iff (List.pairwise_map.mp hids) fun t => (hmem t).trans ⟨?_, mem_stored⟩
    rintro ⟨r, hr, ht⟩
    exact List.mem_filterMap.mpr ⟨r, hr, by rw [ht]; rfl⟩
  rw [hlist state cursor limit hcursor hne hle, htasks]
  rfl

theorem listTasksByState_valid {state : StoredTaskState} {cursor : Option ℤ} {limit : ℕ} {found : List StoredTask}
    (h : listTasksByState state cursor limit db = .ok found) :
    (∀ id ∈ cursor, 0 < id) ∧ limit ≠ 0 ∧ limit ≤ maxTaskListLimit := by
  obtain ⟨_, hcursor, h⟩ := bind_eq_ok_iff.mp h
  obtain ⟨_, hlimit, -⟩ := bind_eq_ok_iff.mp h
  exact ⟨require_eq_ok_iff.mp hcursor, require_eq_ok_iff.mp hlimit⟩

/-- **Listings can be read page by page** while other calls are made: the audit events, the messages, the messages in a
state and the tasks in a state. What was read of the audit log is the beginning of it. -/
theorem listings_enumerate (env : Environment) (as : List (Paging.Action Command)) :
    (Enumerates env listAuditEvents maxAuditListLimit StoredAuditEvent.id auditLog (fun _ => True) as ∧
      (reader env listAuditEvents StoredAuditEvent.id as).read <+:
        auditLog (reader env listAuditEvents StoredAuditEvent.id as).store) ∧
    Enumerates env listMessages maxMessageListLimit StoredMessage.id messagesHeld (fun _ => True) as ∧
    (∀ state, Enumerates env (listMessagesByTriageState state) maxMessageListLimit StoredMessage.id messagesHeld
      (fun m => m.triageState = state) as) ∧
    ∀ state, Enumerates env (listTasksByState state) maxTaskListLimit StoredTask.id tasksHeld (fun t => t.state = state) as := by
  have hauditRead : ∀ db, Consistent env db → ∀ r ∈ db.auditEvents, ∃ e, decodeAuditEventRow r = .ok e :=
    fun db hc => hc.auditEvents.readable
  have hmessageRead : ∀ db, Consistent env db → ∀ r ∈ db.messages, ∃ m, decodeMessageRow r = .ok m :=
    fun db hc => hc.messages.readable
  have htaskRead : ∀ db, Consistent env db → ∀ r ∈ db.tasks, ∃ t, decodeTaskRow r = .ok t :=
    fun db hc r hr => (hc.tasks.readable r hr).1
  have hmessagePos : ∀ db, Listed env db → ∀ m ∈ messagesHeld db, 0 < m.id := fun db _ m hm => by
    obtain ⟨r, -, hr⟩ := mem_stored hm
    rw [(decodeMessageRow_eq_ok hr).id]
    exact (decodeMessageRow_eq_ok hr).id_pos
  have hauditDecode : ∀ r e, decodeAuditEventRow r = .ok e → e.id = Row.rowid r ∧ ((fun _ => true) r = true ↔ True) :=
    fun r e he => ⟨(decodeAuditEventRow_eq_ok he).1, by simp⟩
  have haudit : Paging.Lawful (listing env listAuditEvents StoredAuditEvent.id) auditLog (fun _ => True) (Listed env) :=
    lawful_listing (fun _ h => h.auditEvents) (fun _ _ h => h.auditEvents.map Row.rowid) hauditRead
      (fun r e he => (hauditDecode r e he).1) (listRows_page (fun _ h => h.auditEvents) hauditRead hauditDecode)
  have hmessages : ∀ (want : StoredMessage → Prop) [DecidablePred want] (selects : MessageStoredRow → Bool),
      (∀ r m, decodeMessageRow r = .ok m → (selects r = true ↔ want m)) → ∀ as,
        Enumerates env (fun cursor limit db => listRows decodeMessageRow selects maxMessageListLimit cursor limit db.messages)
          maxMessageListLimit StoredMessage.id messagesHeld want as := by
    intro want _ selects hselects as
    have hdecode : ∀ r m, decodeMessageRow r = .ok m → m.id = Row.rowid r ∧ (selects r = true ↔ want m) :=
      fun r m hm => ⟨(decodeMessageRow_eq_ok hm).id, hselects r m hm⟩
    refine enumerates_of_lawful (lawful_listing (fun _ h => h.messages) (fun _ _ h => h.messages) hmessageRead
      (fun r m hm => (hdecode r m hm).1) (listRows_page (fun _ h => h.messages) hmessageRead hdecode)) ?_ hmessagePos as
    intro cursor limit db h hcursor hne hle
    exact ⟨_, listRows_stored h.ascending.messages (hmessageRead db h.consistent) hdecode hcursor hne hle⟩
  refine ⟨⟨enumerates_of_lawful haudit ?_ ?_ as, ?_⟩, ?_, fun state => ?_, fun state => ?_⟩
  · intro cursor limit db h hcursor hne hle
    exact ⟨_, listRows_stored h.ascending.auditEvents (hauditRead db h.consistent) hauditDecode hcursor hne hle⟩
  · intro db _ e he
    obtain ⟨r, -, hr⟩ := mem_stored he
    exact decodeAuditEventRow_pos hr
  · refine haudit.run_prefix (fun _ => trivial) (fun c db h => ?_) (Listed.empty env) as
    exact (step_changes h.consistent c).lengthens.auditEvents.filterMap _
  · exact hmessages _ _ (fun _ _ _ => by simp) as
  · exact hmessages _ _ (fun r m hm => selects_triageState hm state) as
  · refine enumerates_of_lawful (lawful_listing (fun _ h => h.tasks) (fun _ _ h => h.tasks) htaskRead
      (fun r t ht => (decodeTaskRow_eq_ok ht).id) ?_) ?_ ?_ as
    · intro cursor limit db found h hlist
      obtain ⟨hcursor, hne, hle⟩ := listTasksByState_valid hlist
      exact Except.ok.inj (hlist.symm.trans (listTasksByState_page h state hcursor hne hle))
    · exact fun cursor limit db h hcursor hne hle => ⟨_, listTasksByState_page h state hcursor hne hle⟩
    · intro db _ t ht
      obtain ⟨r, -, hr⟩ := mem_stored ht
      rw [(decodeTaskRow_eq_ok hr).id]
      exact (decodeTaskRow_eq_ok hr).id_pos

end AgentVoice.Store

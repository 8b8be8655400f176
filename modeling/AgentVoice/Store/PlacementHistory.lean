import AgentVoice.Store.InsertLaws

/-!
# The history of a placement

A placed task stays: its draft is never deleted, and its placement keeps everything but the event, which is set at most
once (`Changes.placedTask`).
-/

namespace AgentVoice.Store

open AgentVoice.Foundations AgentVoice.Domain

variable {env : Environment} {db db' : Database}

/-- The row of a placement becomes another: an event is set where there was none. -/
inductive OwnerTaskPlacementStoredRow.Becomes (r : OwnerTaskPlacementStoredRow) : OwnerTaskPlacementStoredRow → Prop
  | same : Becomes r r
  | submitted (providerEventId : String) (prepared : r.providerEventId = none) : Becomes r (r.submit providerEventId)

theorem OwnerTaskPlacementStoredRow.Becomes.trans {r s t : OwnerTaskPlacementStoredRow} (h : r.Becomes s)
    (h' : s.Becomes t) : r.Becomes t := by
  cases h' with
  | same => exact h
  | submitted providerEventId hprepared =>
    cases h with
    | same => exact .submitted providerEventId hprepared
    | submitted _ _ => cases hprepared

/-- A placement that has an event stays as it is. -/
theorem OwnerTaskPlacementStoredRow.Becomes.eq_of_submitted {r s : OwnerTaskPlacementStoredRow} (h : r.Becomes s)
    (hsubmitted : r.providerEventId ≠ none) : s = r := by
  cases h with
  | same => rfl
  | submitted _ hprepared => exact absurd hprepared hsubmitted

theorem OwnerTaskPlacementStoredRow.Becomes.ownerTaskDraftId {r s : OwnerTaskPlacementStoredRow} (h : r.Becomes s) :
    s.ownerTaskDraftId = r.ownerTaskDraftId := by
  cases h <;> rfl

/-- **What a change of the tables does to a placement.** -/
theorem Change.placement (hc : Consistent env db) (h : Change env db db') {r : OwnerTaskPlacementStoredRow}
    (hr : r ∈ db.ownerTaskPlacements) : ∃ s ∈ db'.ownerTaskPlacements, r.Becomes s := by
  cases h with
  | insertPlacement => exact ⟨r, List.mem_append_left _ hr, .same⟩
  | @submitPlacement id providerEventId p hsubmitted =>
    by_cases hid : r.ownerTaskDraftId = id
    · obtain ⟨row, hrow, hrowId, hprepared, -⟩ := hsubmitted.exists_row
      obtain rfl := hc.placement_id.eq hr hrow (hid.trans hrowId.symm)
      exact ⟨_, Table.mem_updateWhere.mpr (.inl ⟨r, hr, beq_iff_eq.mpr hid, rfl⟩), .submitted _ hprepared⟩
    · exact ⟨r, Table.mem_updateWhere.mpr (.inr ⟨hr, beq_eq_false_iff_ne.mpr hid⟩), .same⟩
  | _ => exact ⟨r, hr, .same⟩

/-- A change of the tables keeps the draft of a placed task. -/
theorem Change.placed_draft (h : Change env db db') {r : OwnerTaskStoredRow} (hr : r ∈ db.ownerTaskDrafts)
    {p : OwnerTaskPlacementStoredRow} (hp : p ∈ db.ownerTaskPlacements) (hid : p.ownerTaskDraftId = r.id) :
    r ∈ db'.ownerTaskDrafts := by
  cases h with
  | insertOwnerTaskDraft => exact List.mem_append_left _ hr
  | @deleteOwnerTaskDraft id hfree =>
    refine Table.mem_deleteWhere.mpr ⟨hr, beq_eq_false_iff_ne.mpr ?_⟩
    rintro rfl
    exact hfree p hp hid
  | _ => exact hr

/-! ### Placed tasks -/

/-- A task is placed: the rows of its draft and of its placement are there. -/
structure PlacedTask (timezones : Timezones) (stored : StoredOwnerTaskDraft) (p : StoredOwnerTaskPlacement)
    (db : Database) : Prop where
  draft : ∃ row ∈ db.ownerTaskDrafts, decodeOwnerTaskRow row = .ok stored
  placement : ∃ row ∈ db.ownerTaskPlacements, decodeOwnerTaskPlacement timezones row = .ok p
  id : p.ownerTaskDraftId = stored.id

/-- A placement becomes another: an event is set where there was none. -/
def StoredOwnerTaskPlacement.Becomes (p q : StoredOwnerTaskPlacement) : Prop :=
  q = p ∨ p.providerEventId = none ∧ ∃ providerEventId, q = { p with providerEventId := some providerEventId }

/-- A placement keeps everything but its event. -/
theorem StoredOwnerTaskPlacement.Becomes.content {p q : StoredOwnerTaskPlacement} (h : p.Becomes q) :
    q.ownerTaskDraftId = p.ownerTaskDraftId ∧ q.startsAt = p.startsAt ∧ q.endsAt = p.endsAt ∧ q.timezone = p.timezone ∧
      q.operationKey = p.operationKey ∧ q.ownerFingerprint = p.ownerFingerprint := by
  rcases h with rfl | ⟨-, providerEventId, rfl⟩
  · exact ⟨rfl, rfl, rfl, rfl, rfl, rfl⟩
  · exact ⟨rfl, rfl, rfl, rfl, rfl, rfl⟩

theorem StoredOwnerTaskPlacement.Becomes.trans {p q t : StoredOwnerTaskPlacement} (h : p.Becomes q) (h' : q.Becomes t) :
    p.Becomes t := by
  rcases h' with rfl | ⟨hnone, providerEventId, rfl⟩
  · exact h
  · rcases h with rfl | ⟨-, providerEventId', rfl⟩
    · exact .inr ⟨hnone, providerEventId, rfl⟩
    · cases hnone

theorem OwnerTaskPlacementStoredRow.Becomes.decoded {timezones : Timezones} {r s : OwnerTaskPlacementStoredRow}
    (h : r.Becomes s) {p q : StoredOwnerTaskPlacement} (hp : decodeOwnerTaskPlacement timezones r = .ok p)
    (hq : decodeOwnerTaskPlacement timezones s = .ok q) : p.Becomes q := by
  cases h with
  | same => exact .inl (Except.ok.inj (hq.symm.trans hp))
  | submitted providerEventId hprepared =>
    have hr := decodeOwnerTaskPlacement_eq_ok hp
    have hs := decodeOwnerTaskPlacement_eq_ok hq
    refine .inr ⟨hr.providerEventId.trans hprepared, providerEventId, ?_⟩
    have hstarts : q.startsAt = p.startsAt := format_injective hs.startsAt.2.2 hr.startsAt.2.2
    have hends : q.endsAt = p.endsAt := format_injective hs.endsAt.2.2 hr.endsAt.2.2
    cases q
    obtain rfl := hs.ownerTaskDraftId.trans hr.ownerTaskDraftId.symm
    obtain rfl := hs.timezone.trans hr.timezone.symm
    obtain rfl := hs.operationKey.trans hr.operationKey.symm
    obtain rfl := hs.ownerFingerprint.trans hr.ownerFingerprint.symm
    obtain rfl := hs.providerEventId
    obtain rfl := hstarts
    obtain rfl := hends
    rfl

/-- **A placed task stays placed**, at the same time and under the same key; its event stays once it is set. -/
theorem Changes.placedTask (hc : Consistent env db) (h : Changes env db db') {stored : StoredOwnerTaskDraft}
    {p : StoredOwnerTaskPlacement} (hplaced : PlacedTask env.timezones stored p db) :
    ∃ q, p.Becomes q ∧ PlacedTask env.timezones stored q db' := by
  obtain ⟨⟨d, hd, hstored⟩, ⟨r, hr, hp⟩, hid⟩ := hplaced
  have hrid : r.ownerTaskDraftId = d.id := by
    rw [← (decodeOwnerTaskPlacement_eq_ok hp).ownerTaskDraftId, hid, (decodeOwnerTaskRow_eq_ok hstored).2.1]
  obtain ⟨hd', s, hs, hbecomes⟩ : d ∈ db'.ownerTaskDrafts ∧ ∃ s ∈ db'.ownerTaskPlacements, r.Becomes s := by
    refine h.keeps (Q := fun db => d ∈ db.ownerTaskDrafts ∧ ∃ s ∈ db.ownerTaskPlacements, r.Becomes s)
      (fun before after hbefore hchange hkept => ?_) hc ⟨hd, r, hr, .same⟩
    obtain ⟨hmem, s, hs, hbecomes⟩ := hkept
    obtain ⟨t, ht, hbecomes'⟩ := hchange.placement hbefore hs
    exact ⟨hchange.placed_draft hmem hs (hbecomes.ownerTaskDraftId.trans hrid), t, ht, hbecomes.trans hbecomes'⟩
  obtain ⟨⟨q, hq⟩, -⟩ := (h.consistent hc).ownerTaskPlacements.readable s hs
  have hbecomes' := hbecomes.decoded hp hq
  refine ⟨q, hbecomes', ⟨d, hd', hstored⟩, ⟨s, hs, hq⟩, ?_⟩
  exact hbecomes'.content.1.trans hid

/-- A placed task is loaded by the id of its draft. -/
theorem PlacedTask.load (hc : Consistent env db) {stored : StoredOwnerTaskDraft} {p : StoredOwnerTaskPlacement}
    (h : PlacedTask env.timezones stored p db) :
    (loadOwnerTaskDraftById stored.id).run db = .ok (stored, db) ∧
      (loadOwnerTaskPlacement env.timezones stored.id).run db = .ok (p, db) := by
  obtain ⟨⟨d, hd, hstored⟩, ⟨r, hr, hp⟩, hid⟩ := h
  have hdid := (decodeOwnerTaskRow_eq_ok hstored).2.1
  have hdraft : Table.byRowid stored.id db.ownerTaskDrafts = some d := by
    rw [hdid]
    exact Table.byRowid_of_mem hc.ownerTask_id hd
  have hplacement : Table.byRowid stored.id db.ownerTaskPlacements = some r := by
    rw [← hid, (decodeOwnerTaskPlacement_eq_ok hp).ownerTaskDraftId]
    exact Table.byRowid_of_mem hc.placement_id hr
  constructor
  · rw [loadOwnerTaskDraftById, Tx.read_bind, hdraft, okOr_some, Tx.ofResult_bind_of_ok rfl, hstored]
    rfl
  · refine loadOwnerTaskPlacement_run_eq_ok_iff.mpr ⟨rfl, ?_, r, hplacement, hp⟩
    rw [hid]
    exact ensureOwnerTaskDraftExists_eq_ok_iff.mpr ⟨d, stored, hdraft, hstored⟩

/-- **A placement that is loaded is loaded later**, at the same time and under the same key. -/
theorem Changes.loadOwnerTaskPlacement (hc : Consistent env db) (h : Changes env db db') {id : ℤ}
    {p : StoredOwnerTaskPlacement} {db₁ : Database}
    (hload : (loadOwnerTaskPlacement env.timezones id).run db = .ok (p, db₁)) :
    ∃ q, p.Becomes q ∧ (Store.loadOwnerTaskPlacement env.timezones id).run db' = .ok (q, db') := by
  obtain ⟨-, hexists, row, hrow, hp⟩ := loadOwnerTaskPlacement_run_eq_ok_iff.mp hload
  obtain ⟨d, stored, hd, hstored⟩ := ensureOwnerTaskDraftExists_eq_ok_iff.mp hexists
  obtain ⟨hdmem, hdid⟩ := Table.byRowid_eq_some hd
  obtain ⟨hrmem, hrid⟩ := Table.byRowid_eq_some hrow
  have hid : stored.id = p.ownerTaskDraftId := (decodeOwnerTaskRow_eq_ok hstored).2.1.trans hdid
  have hplaced : PlacedTask env.timezones stored p db := ⟨⟨d, hdmem, hstored⟩, ⟨row, hrmem, hp⟩, hid.symm⟩
  obtain ⟨q, hbecomes, hlater⟩ := h.placedTask hc hplaced
  have hload' := (hlater.load (h.consistent hc)).2
  rw [hid, (decodeOwnerTaskPlacement_eq_ok hp).ownerTaskDraftId] at hload'
  exact ⟨q, hbecomes, hrid ▸ hload'⟩

/-- A placement that has an event stays as it is. -/
theorem Changes.submitted_placement (hc : Consistent env db) (h : Changes env db db') {row : OwnerTaskPlacementStoredRow}
    (hrow : row ∈ db.ownerTaskPlacements) (hsubmitted : row.providerEventId ≠ none) : row ∈ db'.ownerTaskPlacements := by
  refine h.keeps (Q := fun db => row ∈ db.ownerTaskPlacements) (fun before after hbefore hchange hmem => ?_) hc hrow
  obtain ⟨s, hs, hbecomes⟩ := hchange.placement hbefore hmem
  exact hbecomes.eq_of_submitted hsubmitted ▸ hs

/-- Preparing a task places it, as it was asked. -/
theorem savePreparedOwnerTask_placed {sourceId : Option String} {draft : OwnerTaskDraft} {r : PlacementRequest}
    {stored : StoredOwnerTaskDraft} {p : StoredOwnerTaskPlacement}
    (h : (savePreparedOwnerTask env.timezones sourceId draft r).run db = .ok ((stored, p), db')) :
    PlacedTask env.timezones stored p db' ∧ stored.draft.Same draft ∧ r.IsContentOf p := by
  obtain ⟨startsAt, endsAt, dueAt, db₁, hfind, hplace⟩ := savePreparedOwnerTask_run_eq_ok h
  obtain ⟨hsame, ⟨d, hd, hstored⟩, -⟩ := findOrInsertOwnerTaskDraft_run_eq_ok hfind
  obtain ⟨hid, hcontent, hplacement, hadded⟩ := placeOwnerTask_run_eq_ok hplace
  refine ⟨⟨⟨d, ?_, hstored⟩, hplacement, hid⟩, hsame, hcontent⟩
  rcases hadded with ⟨rfl, -⟩ | rfl <;> exact hd

end AgentVoice.Store

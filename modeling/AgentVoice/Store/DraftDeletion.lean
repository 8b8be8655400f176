import AgentVoice.Store.Effects

/-!
# Deleting drafts

`delete_appointment_draft_by_id` and `delete_owner_task_draft_by_id` test for proposals that refer to the draft. Quotes
and placements refer to drafts as well, by foreign keys that restrict the deletion: a draft that only these refer to is
not deleted, and the caller gets the error of the storage and no conflict (`deleteDrafts_clean_iff`).
-/

namespace AgentVoice.Store

open AgentVoice.Foundations AgentVoice.Domain

variable {env : Environment} {db db' : Database}

/-- What deleting a row is to return, and the tables it is to leave. -/
def cleanDelete (found referenced : Bool) (resource : String) (removed db : Database) :
    Except StoreError Unit × Database :=
  if found = false then (.error (.notFound resource), db)
  else if referenced then (.error (.conflict resource), db)
  else (.ok (), removed)

namespace Database

/-- The database without an appointment draft. -/
def withoutAppointmentDraft (id : ℤ) (db : Database) : Database :=
  { db with appointmentDrafts := Table.deleteWhere (fun r => r.id == id) db.appointmentDrafts }

/-- The database without an owner task draft. -/
def withoutOwnerTaskDraft (id : ℤ) (db : Database) : Database :=
  { db with ownerTaskDrafts := Table.deleteWhere (fun r => r.id == id) db.ownerTaskDrafts }

/-- Whether a proposal or an owner task placement refers to an owner task draft. -/
def ownerTaskDraftRestricted (id : ℤ) (db : Database) : Bool :=
  db.proposals.any (fun p => p.ownerTaskDraftId == some id) ||
    db.ownerTaskPlacements.any fun p => p.ownerTaskDraftId == id

end Database

/-- Deleting an appointment draft does what it is to do: a conflict while a proposal or a quote refers to it. -/
def DeletesAppointmentDraftCleanly (db : Database) (id : ℤ) : Prop :=
  (deleteAppointmentDraftById id).commit db =
    cleanDelete (Table.byRowid id db.appointmentDrafts).isSome (db.appointmentDraftRestricted id) "appointment draft"
      (db.withoutAppointmentDraft id) db

/-- Deleting an owner task draft does what it is to do: a conflict while a proposal or a placement refers to it. -/
def DeletesOwnerTaskDraftCleanly (db : Database) (id : ℤ) : Prop :=
  (deleteOwnerTaskDraftById id).commit db =
    cleanDelete (Table.byRowid id db.ownerTaskDrafts).isSome (db.ownerTaskDraftRestricted id) "owner task draft"
      (db.withoutOwnerTaskDraft id) db

/-! ### The two transactions -/

/-- What the deletes do: of the references, those of proposals are tested, the others fail the statement. -/
def guardedDelete (found proposed restricted : Bool) (resource : String) (removed db : Database) :
    Except StoreError Unit × Database :=
  if found = false then (.error (.notFound resource), db)
  else if proposed then (.error (.conflict resource), db)
  else if restricted then (.error .sqlite, db)
  else (.ok (), removed)

theorem commit_deleteAppointmentDraftById (id : ℤ) :
    (deleteAppointmentDraftById id).commit db =
      guardedDelete (Table.byRowid id db.appointmentDrafts).isSome
        (db.proposals.any fun p => p.appointmentDraftId == some id) (db.appointmentDraftRestricted id)
        "appointment draft" (db.withoutAppointmentDraft id) db := by
  rw [Tx.commit, deleteAppointmentDraftById, guardedDelete, Tx.read_bind]
  cases hfound : (Table.byRowid id db.appointmentDrafts).isSome with
  | false => rw [Tx.ensure_bind_of_not (by simp), if_pos rfl]
  | true =>
    rw [Tx.ensure_bind_of rfl, Tx.read_bind, if_neg (by simp)]
    cases hproposed : db.proposals.any fun p => p.appointmentDraftId == some id with
    | true => rw [Tx.ensure_bind_of_not (by simp), if_pos rfl]
    | false =>
      rw [Tx.ensure_bind_of rfl, Tx.read_bind, if_neg (by simp)]
      cases hrestricted : db.appointmentDraftRestricted id with
      | true => rw [Tx.ensure_bind_of_not (by simp), if_pos rfl]
      | false =>
        rw [Tx.ensure_bind_of rfl, if_neg (by simp)]
        rfl

theorem commit_deleteOwnerTaskDraftById (id : ℤ) :
    (deleteOwnerTaskDraftById id).commit db =
      guardedDelete (Table.byRowid id db.ownerTaskDrafts).isSome
        (db.proposals.any fun p => p.ownerTaskDraftId == some id)
        (db.ownerTaskPlacements.any fun p => p.ownerTaskDraftId == id)
        "owner task draft" (db.withoutOwnerTaskDraft id) db := by
  rw [Tx.commit, deleteOwnerTaskDraftById, guardedDelete, Tx.read_bind]
  cases hfound : (Table.byRowid id db.ownerTaskDrafts).isSome with
  | false => rw [Tx.ensure_bind_of_not (by simp), if_pos rfl]
  | true =>
    rw [Tx.ensure_bind_of rfl, Tx.read_bind, if_neg (by simp)]
    cases hproposed : db.proposals.any fun p => p.ownerTaskDraftId == some id with
    | true => rw [Tx.ensure_bind_of_not (by simp), if_pos rfl]
    | false =>
      rw [Tx.ensure_bind_of rfl, Tx.read_bind, if_neg (by simp)]
      cases hplaced : db.ownerTaskPlacements.any fun p => p.ownerTaskDraftId == id with
      | true => rw [Tx.ensure_bind_of_not (by simp), if_pos rfl]
      | false =>
        rw [Tx.ensure_bind_of rfl, if_neg (by simp)]
        rfl

/-- The guarded delete is clean unless a row is there that only other rows than proposals refer to. -/
theorem guardedDelete_eq_clean_iff {found proposed other : Bool} {resource : String} {removed : Database} :
    guardedDelete found proposed (proposed || other) resource removed db =
        cleanDelete found (proposed || other) resource removed db ↔
      ¬ (found = true ∧ proposed = false ∧ other = true) := by
  cases found <;> cases proposed <;> cases other <;> simp [guardedDelete, cleanDelete]

theorem guardedDelete_or (found proposed other : Bool) (resource : String) (removed : Database) :
    guardedDelete found proposed other resource removed db =
      guardedDelete found proposed (proposed || other) resource removed db := by
  cases proposed <;> rfl

/-! ### References in the states of the store -/

/-- The draft that a quote refers to is there. -/
theorem draft_of_quote (hc : Consistent env db) {id : ℤ} {q : AppointmentQuoteStoredRow}
    (hq : q ∈ db.appointmentQuotes) (hid : q.appointmentDraftId = some id) :
    (Table.byRowid id db.appointmentDrafts).isSome = true := by
  obtain ⟨stored, hstored⟩ := hc.appointmentQuotes.readable q hq
  have hholds := decodeAppointmentQuoteRow_eq_ok hstored
  have hissued : stored.state ≠ .issued := by
    intro hissued
    rw [(hholds.issued hissued).1] at hid
    cases hid
  obtain ⟨index, draft, -, -, hselection⟩ := hholds.selection hissued
  obtain ⟨draftId, -, -, row, ⟨hdraftId, -⟩, -, -, -, hrow, -⟩ := decodeQuoteSelection_eq_ok_iff.mp hselection
  obtain rfl := Option.some.inj (hid.symm.trans hdraftId)
  rw [hrow]
  rfl

/-- The draft that a placement refers to is there. -/
theorem draft_of_placement (hc : Consistent env db) {p : OwnerTaskPlacementStoredRow}
    (hp : p ∈ db.ownerTaskPlacements) : (Table.byRowid p.ownerTaskDraftId db.ownerTaskDrafts).isSome = true := by
  obtain ⟨-, hexists⟩ := hc.ownerTaskPlacements.readable p hp
  obtain ⟨row, -, hrow, -⟩ := ensureOwnerTaskDraftExists_eq_ok_iff.mp hexists
  rw [hrow]
  rfl

/-- **When deleting a draft is clean.** In every state of the store a draft is deleted, or its deletion refused with a
conflict or as not found, as it is to be, unless a quote, or a placement, refers to the draft and no proposal does. -/
theorem deleteDrafts_clean_iff (h : Reachable env db) (id : ℤ) :
    (DeletesAppointmentDraftCleanly db id ↔
        ¬ ((∃ q ∈ db.appointmentQuotes, q.appointmentDraftId = some id) ∧
          ∀ p ∈ db.proposals, p.appointmentDraftId ≠ some id)) ∧
      (DeletesOwnerTaskDraftCleanly db id ↔
        ¬ ((∃ p ∈ db.ownerTaskPlacements, p.ownerTaskDraftId = id) ∧
          ∀ p ∈ db.proposals, p.ownerTaskDraftId ≠ some id)) := by
  have hc := h.consistent
  constructor
  · rw [DeletesAppointmentDraftCleanly, commit_deleteAppointmentDraftById, Database.appointmentDraftRestricted,
      guardedDelete_eq_clean_iff, not_iff_not]
    simp only [List.any_eq_true, List.any_eq_false, beq_iff_eq]
    constructor
    · rintro ⟨-, hproposed, hquoted⟩
      exact ⟨hquoted, hproposed⟩
    · rintro ⟨⟨q, hq, hid⟩, hproposed⟩
      exact ⟨draft_of_quote hc hq hid, hproposed, q, hq, hid⟩
  · rw [DeletesOwnerTaskDraftCleanly, commit_deleteOwnerTaskDraftById, guardedDelete_or,
      Database.ownerTaskDraftRestricted, guardedDelete_eq_clean_iff, not_iff_not]
    simp only [List.any_eq_true, List.any_eq_false, beq_iff_eq]
    constructor
    · rintro ⟨-, hproposed, hplaced⟩
      exact ⟨hplaced, hproposed⟩
    · rintro ⟨⟨p, hp, rfl⟩, hproposed⟩
      exact ⟨draft_of_placement hc hp, hproposed, p, hp, rfl⟩

/-- A parser of one time zone, and no JSON. -/
def utcOnly : Environment := ⟨fun value => if value = "UTC" then some "UTC" else none, ⟨fun _ => "", fun _ => none⟩⟩

/-- The identifier of a quote. -/
def someQuoteId : QuoteId := ⟨"00000000-0000-4000-8000-000000000000", by decide⟩

/-- Noon of the first day of 2026. -/
def noon : OffsetDateTime := ⟨newYear.instant.unixNanos + 12 * 60 * minute, 0⟩

/-- Issues a quote of one slot and prepares a draft for it. -/
def preparedQuote : List Command :=
  [.saveAppointmentQuote ⟨someQuoteId, newYear.instant⟩ .callback "UTC"
      [⟨noon, ⟨noon.unixNanos + 15 * minute, 0⟩, by decide⟩],
    .prepareAppointmentDraftFromQuote someQuoteId 0 "source-1"
      ⟨someQuoteId, ⟨"Ada", ⟨"ada@example.com", by decide⟩, by decide, by decide⟩, .callback, noon, false,
        ⟨"draft-key", by decide, by decide⟩⟩ newYear.instant]

/-- Stores a draft of an owner task and places it. -/
def placedTask : List Command :=
  [.saveOwnerTaskDraft none
      ⟨.bill, "Water the plants", ⟨30, by decide, by decide⟩, none, ⟨"plants-key", by decide, by decide⟩, by decide, by decide⟩,
    .saveOwnerTaskPlacement 1 ⟨noon, ⟨noon.unixNanos + 30 * minute, 0⟩, "UTC", "operation-1", "owner"⟩]

theorem deleteDrafts_clean_iff_preparedQuote :
    (DeletesAppointmentDraftCleanly (run utcOnly preparedQuote .empty) 1 ↔
        ¬ ((∃ q ∈ (run utcOnly preparedQuote .empty).appointmentQuotes, q.appointmentDraftId = some 1) ∧
          ∀ p ∈ (run utcOnly preparedQuote .empty).proposals, p.appointmentDraftId ≠ some 1)) ∧
      (DeletesOwnerTaskDraftCleanly (run utcOnly preparedQuote .empty) 1 ↔
        ¬ ((∃ p ∈ (run utcOnly preparedQuote .empty).ownerTaskPlacements, p.ownerTaskDraftId = 1) ∧
          ∀ p ∈ (run utcOnly preparedQuote .empty).proposals, p.ownerTaskDraftId ≠ some 1)) :=
  deleteDrafts_clean_iff ⟨preparedQuote, rfl⟩ 1

theorem cleanDelete_ne_sqlite {found referenced : Bool} {resource : String} {removed : Database} :
    (cleanDelete found referenced resource removed db).1 ≠ .error .sqlite := by
  cases found <;> cases referenced <;> simp [cleanDelete]

/-- A draft that was prepared from a quote, and a draft that was placed, are refused with the error of the storage. -/
theorem deleteDrafts_sqlite :
    Reachable utcOnly (run utcOnly preparedQuote .empty) ∧
      ((deleteAppointmentDraftById 1).commit (run utcOnly preparedQuote .empty)).1 = .error .sqlite ∧
      ¬ DeletesAppointmentDraftCleanly (run utcOnly preparedQuote .empty) 1 ∧
      Reachable utcOnly (run utcOnly placedTask .empty) ∧
      ((deleteOwnerTaskDraftById 1).commit (run utcOnly placedTask .empty)).1 = .error .sqlite ∧
      ¬ DeletesOwnerTaskDraftCleanly (run utcOnly placedTask .empty) 1 := by
  have hquoted : ((deleteAppointmentDraftById 1).commit (run utcOnly preparedQuote .empty)).1 = .error .sqlite := by
    decide +kernel
  have hplaced : ((deleteOwnerTaskDraftById 1).commit (run utcOnly placedTask .empty)).1 = .error .sqlite := by
    decide +kernel
  refine ⟨⟨_, rfl⟩, hquoted, fun hclean => ?_, ⟨_, rfl⟩, hplaced, fun hclean => ?_⟩
  · exact cleanDelete_ne_sqlite (hclean ▸ hquoted)
  · exact cleanDelete_ne_sqlite (hclean ▸ hplaced)

end AgentVoice.Store

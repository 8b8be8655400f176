import AgentVoice.Foundations.CompareAndSet
import AgentVoice.Foundations.Table
import AgentVoice.Store.Columns

/-!
# Provider cursors

`load_provider_cursor` and `advance_provider_cursor`. Every stream has an opaque cursor, absent or null at first,
that callers advance by compare and set; `cursorOf` is the register a stream is. Every call is one transaction, so
that calls of any number of store handles take effect one after the other; a call that cannot get the lock is as
if it had not been made.
-/

namespace AgentVoice.Store

open AgentVoice.Foundations AgentVoice.Foundations.CompareAndSet

/-- A row of `provider_cursors`; the unused `id` column is left out. -/
structure ProviderCursorRow where
  provider : String
  cursor : Option String
  updatedAt : String
  deriving DecidableEq, Repr

/-- Whether a text can be a cursor: not blank, bounded, of ASCII characters without control characters. -/
def IsProviderCursor (value : String) : Prop :=
  ¬ IsBlank value ∧ byteLength value ≤ maxIdentifierLength ∧ isAscii value = true ∧ hasControl value = false

instance (value : String) : Decidable (IsProviderCursor value) := inferInstanceAs (Decidable (_ ∧ _))

/-- `validate_provider_cursor_identifier`. -/
def validateProviderCursorIdentifier (value field : String) : StoreResult String :=
  if IsProviderCursor value then .ok value else .error (.invalidInput field)

theorem validateProviderCursorIdentifier_eq_ok_iff {value field text : String} :
    validateProviderCursorIdentifier value field = .ok text ↔ IsProviderCursor value ∧ value = text := by
  rw [validateProviderCursorIdentifier]
  by_cases h : IsProviderCursor value <;> simp [h]

/-- `load_provider_cursor_row`: the cursor of the stream's row, if there is a row. -/
def loadProviderCursorRow (streamId : String) : Tx StoreError (List ProviderCursorRow) (Option (Option String)) :=
  Tx.read fun t => (Table.byKey ProviderCursorRow.provider streamId t).map ProviderCursorRow.cursor

/-- `PaStore::load_provider_cursor`. -/
def loadProviderCursor (streamId : String) : Tx StoreError (List ProviderCursorRow) (Option String) := do
  let streamId ← Tx.ofResult (validateMachineIdentifier streamId "stream_id")
  let cursor ← loadProviderCursorRow streamId
  match cursor with
  | none | some none => return none
  | some (some cursor) =>
    Tx.ofResult (replaceError ((validateProviderCursorIdentifier cursor "cursor").map some)
      (storedRecordInvalid "provider cursor"))

/-- The row an insert of `advance_provider_cursor` adds. -/
def newProviderCursor (streamId next : String) (now : SystemTime) : ProviderCursorRow :=
  ⟨streamId, some next, currentTimestamp now⟩

/-- The row an update of `advance_provider_cursor` leaves. -/
def ProviderCursorRow.advance (next : String) (now : SystemTime) (row : ProviderCursorRow) : ProviderCursorRow :=
  { row with
    cursor := some next
    updatedAt := currentTimestamp now }

/-- `PaStore::advance_provider_cursor`. -/
def advanceProviderCursor (streamId : String) (expected : Option String) (next : String) (now : SystemTime) :
    Tx StoreError (List ProviderCursorRow) Unit := do
  let streamId ← Tx.ofResult (validateMachineIdentifier streamId "stream_id")
  let expected ← Tx.ofResult (transpose (validateProviderCursorIdentifier · "expected") expected)
  let next ← Tx.ofResult (validateProviderCursorIdentifier next "next")
  let current ← loadProviderCursorRow streamId
  match current with
  | none =>
    Tx.ensure (expected = none) (.cursorConflict "provider cursor")
    -- the insert does nothing where the stream has a row
    let present ← Tx.read fun t => t.any fun row => row.provider == streamId
    Tx.ensure (present = false) (.cursorConflict "provider cursor")
    Tx.write (· ++ [newProviderCursor streamId next now])
  | some current =>
    let current ← Tx.ofResult (transpose (fun cursor =>
      replaceError (validateProviderCursorIdentifier cursor "cursor") (storedRecordInvalid "provider cursor")) current)
    Tx.ensure (expected = current) (.cursorConflict "provider cursor")
    if current = some next then return ()
    else do
      let own := fun (row : ProviderCursorRow) => row.provider == streamId && row.cursor == current
      let updated ← Tx.read fun t => t.countP own
      Tx.write (Table.updateWhere own (ProviderCursorRow.advance next now))
      Tx.ensure (updated = 1) (.cursorConflict "provider cursor")

/-- A call on the cursors. -/
inductive CursorCall where
  | load (streamId : String)
  | advance (streamId : String) (expected : Option String) (next : String) (now : SystemTime)

/-- The cursors after a call. -/
def stepCursors : CursorCall → List ProviderCursorRow → List ProviderCursorRow
  | .load streamId, t => ((loadProviderCursor streamId).commit t).2
  | .advance streamId expected next now, t => ((advanceProviderCursor streamId expected next now).commit t).2

/-- The cursor of a stream, as `load_provider_cursor` gives it: nothing for a stream without a row. -/
def cursorOf (streamId : String) (t : List ProviderCursorRow) : Option String :=
  (Table.byKey ProviderCursorRow.provider streamId t).bind ProviderCursorRow.cursor

/-- The exchange that a call was: a successful advance of the stream to another cursor than it expected. It is
told by the call and its answer alone. -/
def cursorExchange (streamId : String) : CursorCall → List ProviderCursorRow → Option (Exchange (Option String))
  | .load _, _ => none
  | .advance streamId' expected next now, t =>
    match (advanceProviderCursor streamId' expected next now).commit t with
    | (.ok (), _) => if streamId' = streamId ∧ expected ≠ some next then some ⟨expected, some next⟩ else none
    | (.error _, _) => none

/-- The rows that the calls leave: one for each stream, with valid cursors. -/
structure WellFormedCursors (t : List ProviderCursorRow) : Prop where
  unique : Table.Unique ProviderCursorRow.provider t
  valid : ∀ row ∈ t, ∀ cursor, row.cursor = some cursor → IsProviderCursor cursor

/-! ### What a call does -/

/-- What a successful advance does: it expected the stream's cursor, and it left the tables alone, where the cursor
was the next one already, or put the next one in place of that cursor. -/
theorem advanceProviderCursor_run_eq_ok {streamId : String} {expected : Option String} {next : String}
    {now : SystemTime} {t t' : List ProviderCursorRow} {u : Unit}
    (h : (advanceProviderCursor streamId expected next now).run t = .ok (u, t')) :
    expected = cursorOf streamId t ∧
      (t' = t ∧ cursorOf streamId t = some next ∨
        cursorOf streamId t ≠ some next ∧
          (Table.byKey ProviderCursorRow.provider streamId t = none ∧ t' = t ++ [newProviderCursor streamId next now] ∨
            ∃ row, Table.byKey ProviderCursorRow.provider streamId t = some row ∧
              t' = Table.updateWhere (fun r => r.provider == streamId && r.cursor == row.cursor)
                (ProviderCursorRow.advance next now) t)) := by
  simp only [advanceProviderCursor, Tx.ofResult_bind_eq_ok_iff, validateMachineIdentifier_eq_ok_iff,
    loadProviderCursorRow, Tx.read_bind] at h
  obtain ⟨_, ⟨-, rfl⟩, expected', hexpected, next', hnext, h⟩ := h
  obtain rfl := eq_of_transpose_eq_ok (fun _ _ h => (validateProviderCursorIdentifier_eq_ok_iff.mp h).2) hexpected
  obtain ⟨-, rfl⟩ := validateProviderCursorIdentifier_eq_ok_iff.mp hnext
  cases hrow : Table.byKey ProviderCursorRow.provider streamId t with
  | none =>
    simp only [hrow, Option.map_none, Tx.ensure_bind_eq_ok_iff, Tx.read_bind] at h
    obtain ⟨rfl, -, hwrite⟩ := h
    cases hwrite
    simp [cursorOf, hrow]
  | some row =>
    simp only [hrow, Option.map_some, Tx.ofResult_bind_eq_ok_iff, Tx.ensure_bind_eq_ok_iff] at h
    obtain ⟨current, hcurrent, rfl, h⟩ := h
    have hsame : row.cursor = expected := eq_of_transpose_eq_ok (fun cursor text hcursor =>
      (validateProviderCursorIdentifier_eq_ok_iff.mp (replaceError_eq_ok_iff.mp hcursor)).2) hcurrent
    have hcursor : cursorOf streamId t = expected := by rw [cursorOf, hrow, Option.bind_some, hsame]
    refine ⟨hcursor.symm, ?_⟩
    by_cases hdone : expected = some next
    · rw [if_pos hdone] at h
      cases h
      exact Or.inl ⟨rfl, hcursor.trans hdone⟩
    · simp only [if_neg hdone, Tx.read_bind, Tx.write_bind, Tx.run_ensure_eq_ok_iff] at h
      obtain ⟨-, rfl⟩ := h
      exact Or.inr ⟨hcursor ▸ hdone, Or.inr ⟨row, rfl, by rw [hsame]⟩⟩

/-- The next cursor of a successful advance is valid. -/
theorem advanceProviderCursor_isProviderCursor {streamId : String} {expected : Option String} {next : String}
    {now : SystemTime} {t t' : List ProviderCursorRow} {u : Unit}
    (h : (advanceProviderCursor streamId expected next now).run t = .ok (u, t')) : IsProviderCursor next := by
  simp only [advanceProviderCursor, Tx.ofResult_bind_eq_ok_iff] at h
  obtain ⟨_, -, _, -, _, hnext, -⟩ := h
  exact (validateProviderCursorIdentifier_eq_ok_iff.mp hnext).1

/-- A load returns the stream's cursor. -/
theorem loadProviderCursor_run_eq_ok {streamId : String} {t t' : List ProviderCursorRow} {cursor : Option String}
    (h : (loadProviderCursor streamId).run t = .ok (cursor, t')) : cursor = cursorOf streamId t ∧ t' = t := by
  simp only [loadProviderCursor, Tx.ofResult_bind_eq_ok_iff, validateMachineIdentifier_eq_ok_iff,
    loadProviderCursorRow, Tx.read_bind] at h
  obtain ⟨_, ⟨-, rfl⟩, h⟩ := h
  cases hrow : Table.byKey ProviderCursorRow.provider streamId t with
  | none =>
    rw [hrow] at h
    cases h
    exact ⟨by rw [cursorOf, hrow, Option.bind_none], rfl⟩
  | some row =>
    rw [hrow, Option.map_some] at h
    rw [cursorOf, hrow, Option.bind_some]
    cases hcursor : row.cursor with
    | none =>
      rw [hcursor] at h
      cases h
      exact ⟨rfl, rfl⟩
    | some text =>
      rw [hcursor] at h
      obtain ⟨hload, rfl⟩ := Tx.run_ofResult_eq_ok_iff.mp h
      refine ⟨?_, rfl⟩
      rw [replaceError_eq_ok_iff] at hload
      cases hvalid : validateProviderCursorIdentifier text "cursor" with
      | error e =>
        rw [hvalid] at hload
        cases hload
      | ok text' =>
        rw [hvalid] at hload
        obtain ⟨-, rfl⟩ := validateProviderCursorIdentifier_eq_ok_iff.mp hvalid
        exact (Except.ok.inj hload).symm

/-- A successful advance leaves the next cursor. -/
theorem cursorOf_advance {streamId : String} {expected : Option String} {next : String} {now : SystemTime}
    {t t' : List ProviderCursorRow} {u : Unit}
    (h : (advanceProviderCursor streamId expected next now).run t = .ok (u, t')) : cursorOf streamId t' = some next := by
  obtain ⟨-, ⟨rfl, hcursor⟩ | ⟨-, ⟨hnone, rfl⟩ | ⟨row, hrow, rfl⟩⟩⟩ := advanceProviderCursor_run_eq_ok h
  · exact hcursor
  · rw [cursorOf, Table.byKey, List.find?_append, show t.find? (fun r => r.provider == streamId) = none from hnone, Option.none_or]
    simp [newProviderCursor]
  · have hid := (Table.byKey_eq_some hrow).2
    rw [cursorOf, Table.byKey_updated (f := ProviderCursorRow.advance next now) (fun _ => rfl) hrow (by simp [hid])]
    rfl

/-- An advance leaves the rows of the other streams alone. -/
theorem advanceProviderCursor_filter {streamId other : String} (hother : other ≠ streamId) {expected : Option String}
    {next : String} {now : SystemTime} {t t' : List ProviderCursorRow} {u : Unit}
    (h : (advanceProviderCursor streamId expected next now).run t = .ok (u, t')) :
    t'.filter (fun r => r.provider == other) = t.filter fun r => r.provider == other := by
  obtain ⟨-, ⟨rfl, -⟩ | ⟨-, ⟨-, rfl⟩ | ⟨row, -, rfl⟩⟩⟩ := advanceProviderCursor_run_eq_ok h
  · rfl
  · simp [List.filter_append, newProviderCursor, hother.symm]
  · exact Table.filter_updateWhere (fun _ => rfl) fun r hr => by
      obtain ⟨hprovider, -⟩ := Bool.and_eq_true_iff.mp hr
      rw [beq_iff_eq.mp hprovider]
      simpa using hother.symm

theorem cursorOf_of_filter {streamId : String} {t t' : List ProviderCursorRow}
    (h : t'.filter (fun r => r.provider == streamId) = t.filter fun r => r.provider == streamId) :
    cursorOf streamId t' = cursorOf streamId t := by
  simp only [cursorOf, Table.byKey, ← List.head?_filter, h]

/-- An advance of one stream keeps the cursor of another. -/
theorem cursorOf_advance_other {streamId other : String} (hother : other ≠ streamId) {expected : Option String}
    {next : String} {now : SystemTime} {t t' : List ProviderCursorRow} {u : Unit}
    (h : (advanceProviderCursor streamId expected next now).run t = .ok (u, t')) :
    cursorOf other t' = cursorOf other t := cursorOf_of_filter (advanceProviderCursor_filter hother h)

/-! ### The history of a stream -/

/-- An exchange expected the cursor before it, left the next one, and so changed the cursor. -/
theorem cursorExchange_some {streamId : String} {c : CursorCall} {t : List ProviderCursorRow}
    {e : Exchange (Option String)} (h : cursorExchange streamId c t = some e) :
    e.expected = cursorOf streamId t ∧ e.next = cursorOf streamId (stepCursors c t) ∧
      cursorOf streamId (stepCursors c t) ≠ cursorOf streamId t := by
  cases c with
  | load => cases h
  | advance streamId' expected next now =>
    cases hrun : (advanceProviderCursor streamId' expected next now).run t with
    | error e' =>
      rw [cursorExchange, Tx.commit_of_error hrun] at h
      cases h
    | ok r =>
      obtain ⟨u, t'⟩ := r
      rw [cursorExchange, Tx.commit_of_ok hrun] at h
      rw [stepCursors, Tx.commit_of_ok hrun]
      dsimp only at h ⊢
      split at h
      · rename_i hchanges
        obtain ⟨rfl, hne⟩ := hchanges
        cases h
        have hexpected := (advanceProviderCursor_run_eq_ok hrun).1
        refine ⟨hexpected, (cursorOf_advance hrun).symm, ?_⟩
        rw [cursorOf_advance hrun, ← hexpected]
        exact Ne.symm hne
      · cases h

/-- A call that was no exchange of a stream keeps its cursor. -/
theorem cursorExchange_none {streamId : String} {c : CursorCall} {t : List ProviderCursorRow}
    (h : cursorExchange streamId c t = none) : cursorOf streamId (stepCursors c t) = cursorOf streamId t := by
  cases c with
  | load streamId' =>
    cases hrun : (loadProviderCursor streamId').run t with
    | error e => rw [stepCursors, Tx.commit_of_error hrun]
    | ok r => rw [stepCursors, Tx.commit_of_ok hrun, (loadProviderCursor_run_eq_ok hrun).2]
  | advance streamId' expected next now =>
    cases hrun : (advanceProviderCursor streamId' expected next now).run t with
    | error e => rw [stepCursors, Tx.commit_of_error hrun]
    | ok r =>
      obtain ⟨u, t'⟩ := r
      rw [cursorExchange, Tx.commit_of_ok hrun] at h
      rw [stepCursors, Tx.commit_of_ok hrun]
      dsimp only at h ⊢
      by_cases hstream : streamId' = streamId
      · subst hstream
        have hsame : expected = some next := by simpa using h
        rw [cursorOf_advance hrun, ← (advanceProviderCursor_run_eq_ok hrun).1, hsame]
      · exact cursorOf_advance_other (Ne.symm hstream) hrun

/-- An advance that expects another cursor than the stream has fails, and changes no row. -/
theorem advanceProviderCursor_stale {streamId : String} {expected : Option String} {next : String} {now : SystemTime}
    {t : List ProviderCursorRow} (h : expected ≠ cursorOf streamId t) :
    ∃ e, (advanceProviderCursor streamId expected next now).commit t = (.error e, t) := by
  cases hrun : (advanceProviderCursor streamId expected next now).run t with
  | error e => exact ⟨e, Tx.commit_of_error hrun⟩
  | ok r => exact absurd (advanceProviderCursor_run_eq_ok hrun).1 h

theorem transpose_of_isProviderCursor {check : String → StoreResult String}
    (hcheck : ∀ text, IsProviderCursor text → check text = .ok text) {cursor : Option String}
    (hvalid : ∀ text, cursor = some text → IsProviderCursor text) : transpose check cursor = .ok cursor := by
  cases cursor with
  | none => exact transpose_none check
  | some text => exact transpose_eq_ok_some_iff.mpr ⟨text, rfl, hcheck text (hvalid text rfl)⟩

/-- What an advance does whose arguments are valid, and that expects the valid cursor of its stream's row. -/
theorem advanceProviderCursor_run_of_row {streamId next : String} {now : SystemTime} {t : List ProviderCursorRow}
    {row : ProviderCursorRow} (hrow : Table.byKey ProviderCursorRow.provider streamId t = some row)
    (hvalid : ∀ text, row.cursor = some text → IsProviderCursor text) (hstream : isMachineIdentifier streamId = true)
    (hnext : IsProviderCursor next) :
    (advanceProviderCursor streamId row.cursor next now).run t =
      if row.cursor = some next then .ok ((), t)
      else (Tx.ensure (t.countP (fun r => r.provider == streamId && r.cursor == row.cursor) = 1)
          (.cursorConflict "provider cursor")).run
        (Table.updateWhere (fun r => r.provider == streamId && r.cursor == row.cursor)
          (ProviderCursorRow.advance next now) t) := by
  have hchecked : ∀ {text field}, IsProviderCursor text → validateProviderCursorIdentifier text field = .ok text :=
    fun h => validateProviderCursorIdentifier_eq_ok_iff.mpr ⟨h, rfl⟩
  have hexpected : transpose (validateProviderCursorIdentifier · "expected") row.cursor = .ok row.cursor :=
    transpose_of_isProviderCursor (fun _ h => hchecked h) hvalid
  have hstored : transpose (fun cursor => replaceError (validateProviderCursorIdentifier cursor "cursor")
      (storedRecordInvalid "provider cursor")) row.cursor = .ok row.cursor :=
    transpose_of_isProviderCursor (fun _ h => replaceError_eq_ok_iff.mpr (hchecked h)) hvalid
  rw [advanceProviderCursor, Tx.ofResult_bind_of_ok (validateMachineIdentifier_eq_ok_iff.mpr ⟨hstream, rfl⟩),
    Tx.ofResult_bind_of_ok hexpected, Tx.ofResult_bind_of_ok (hchecked hnext), loadProviderCursorRow, Tx.read_bind,
    hrow, Option.map_some]
  dsimp only
  rw [Tx.ofResult_bind_of_ok hstored, Tx.ensure_bind_of (Eq.refl row.cursor)]
  by_cases hdone : row.cursor = some next
  · rw [if_pos hdone, if_pos hdone, Tx.run_pure]
  · rw [if_neg hdone, if_neg hdone, Tx.read_bind, Tx.write_bind]

/-- An advance to the cursor the stream already has changes nothing; it succeeds unless its arguments are invalid. -/
theorem advanceProviderCursor_retry {streamId next : String} {now : SystemTime} {t : List ProviderCursorRow}
    (h : cursorOf streamId t = some next) :
    ((advanceProviderCursor streamId (some next) next now).commit t).2 = t ∧
      (isMachineIdentifier streamId = true → IsProviderCursor next →
        ((advanceProviderCursor streamId (some next) next now).commit t).1 = .ok ()) := by
  constructor
  · cases hrun : (advanceProviderCursor streamId (some next) next now).run t with
    | error e => rw [Tx.commit_of_error hrun]
    | ok r =>
      rw [Tx.commit_of_ok hrun]
      obtain ⟨-, ⟨rfl, -⟩ | ⟨hne, -⟩⟩ := advanceProviderCursor_run_eq_ok hrun
      · rfl
      · exact absurd h hne
  · intro hstream hnext
    obtain ⟨row, hrow, hcursor⟩ := Option.bind_eq_some_iff.mp h
    have hvalid : ∀ text, row.cursor = some text → IsProviderCursor text := fun text htext =>
      Option.some.inj (hcursor.symm.trans htext) ▸ hnext
    have hrun := @advanceProviderCursor_run_of_row streamId next now t row hrow hvalid hstream hnext
    rw [if_pos hcursor, hcursor] at hrun
    rw [Tx.commit_of_ok hrun]

/-- An advance whose arguments are valid, and that expects the cursor its stream has, succeeds. -/
theorem advanceProviderCursor_of_expected {streamId next : String} {now : SystemTime} {t : List ProviderCursorRow}
    (ht : WellFormedCursors t) (hstream : isMachineIdentifier streamId = true) (hnext : IsProviderCursor next) :
    ∃ t', (advanceProviderCursor streamId (cursorOf streamId t) next now).commit t = (.ok (), t') := by
  suffices h : ∃ t', (advanceProviderCursor streamId (cursorOf streamId t) next now).run t = .ok ((), t') by
    obtain ⟨t', hrun⟩ := h
    exact ⟨t', Tx.commit_of_ok hrun⟩
  cases hrow : Table.byKey ProviderCursorRow.provider streamId t with
  | none =>
    have hcursor : cursorOf streamId t = none := by rw [cursorOf, hrow, Option.bind_none]
    have habsent : (t.any fun row => row.provider == streamId) = false := by
      simpa using Table.byKey_eq_none.mp hrow
    refine ⟨t ++ [newProviderCursor streamId next now], ?_⟩
    rw [hcursor, advanceProviderCursor, Tx.ofResult_bind_of_ok (validateMachineIdentifier_eq_ok_iff.mpr ⟨hstream, rfl⟩),
      Tx.ofResult_bind_of_ok (transpose_none _),
      Tx.ofResult_bind_of_ok (validateProviderCursorIdentifier_eq_ok_iff.mpr ⟨hnext, rfl⟩), loadProviderCursorRow,
      Tx.read_bind, hrow, Option.map_none]
    dsimp only
    rw [Tx.ensure_bind_of (Eq.refl none), Tx.read_bind, Tx.ensure_bind_of habsent]
    rfl
  | some row =>
    obtain ⟨hmem, hprovider⟩ := Table.byKey_eq_some hrow
    -- the update finds the one row of the stream
    have hown : t.countP (fun r => r.provider == streamId && r.cursor == row.cursor) = 1 := by
      rw [List.countP_eq_length_filter,
        Table.filter_eq_singleton ht.unique hmem (by simp [hprovider]) fun r hr hp =>
          ht.unique.eq hr hmem (by rw [hprovider]; simpa using (Bool.and_eq_true_iff.mp hp).1),
        List.length_singleton]
    rw [cursorOf, hrow, Option.bind_some, advanceProviderCursor_run_of_row hrow (ht.valid row hmem) hstream hnext]
    by_cases hdone : row.cursor = some next
    · exact ⟨t, if_pos hdone⟩
    · exact ⟨_, (if_neg hdone).trans (Tx.run_ensure_eq_ok_iff.mpr ⟨hown, rfl⟩)⟩

/-- Every call keeps one row for each stream, and valid cursors. -/
theorem WellFormedCursors.step {t : List ProviderCursorRow} (ht : WellFormedCursors t) (c : CursorCall) :
    WellFormedCursors (stepCursors c t) := by
  cases c with
  | load streamId =>
    cases hrun : (loadProviderCursor streamId).run t with
    | error e => rwa [stepCursors, Tx.commit_of_error hrun]
    | ok r => rwa [stepCursors, Tx.commit_of_ok hrun, (loadProviderCursor_run_eq_ok hrun).2]
  | advance streamId expected next now =>
    cases hrun : (advanceProviderCursor streamId expected next now).run t with
    | error e => rwa [stepCursors, Tx.commit_of_error hrun]
    | ok r =>
      rw [stepCursors, Tx.commit_of_ok hrun]
      have hnext := advanceProviderCursor_isProviderCursor hrun
      obtain ⟨-, ⟨hsame, -⟩ | ⟨-, ⟨hnone, hinsert⟩ | ⟨row, -, hupdate⟩⟩⟩ := advanceProviderCursor_run_eq_ok hrun
      · rwa [hsame]
      · rw [hinsert]
        refine ⟨ht.unique.insert (Table.byKey_eq_none.mp hnone), ?_⟩
        intro row hrow cursor hcursor
        rcases List.mem_append.mp hrow with hrow | hrow
        · exact ht.valid row hrow cursor hcursor
        · obtain rfl := List.mem_singleton.mp hrow
          obtain rfl := Option.some.inj hcursor
          exact hnext
      · rw [hupdate]
        refine ⟨ht.unique.updateWhere fun _ => rfl, ?_⟩
        intro r hr cursor hcursor
        obtain ⟨r₀, hr₀, rfl⟩ := List.mem_map.mp hr
        split_ifs at hcursor
        · obtain rfl := Option.some.inj hcursor
          exact hnext
        · exact ht.valid r₀ hr₀ cursor hcursor

/-- **The cursors are compare-and-set registers.** In every run of advances and loads, the successful advances of
a stream that change its cursor form a chain from its first cursor to its last. In every state reached, an advance
that succeeds expected the cursor of its stream and leaves the next one there; one that expects another cursor
fails and changes no row; one to the cursor that the stream has, expecting it, changes no row and succeeds if its
arguments are valid; and an advance leaves the rows of the other streams alone. Where the run began with one row
for each stream and valid cursors, as it does with no rows, every advance with valid arguments that expects the
cursor of its stream succeeds. -/
theorem providerCursor_history (streamId : String) (calls : List CursorCall) (t : List ProviderCursorRow) :
    Linked (cursorOf streamId t) (exchanges stepCursors (cursorExchange streamId) calls t)
        (cursorOf streamId (Machine.run stepCursors calls t)) ∧
      (∀ expected next now t',
        (advanceProviderCursor streamId expected next now).commit (Machine.run stepCursors calls t) = (.ok (), t') →
          expected = cursorOf streamId (Machine.run stepCursors calls t) ∧ cursorOf streamId t' = some next) ∧
      (∀ expected next now, expected ≠ cursorOf streamId (Machine.run stepCursors calls t) →
        ∃ e, (advanceProviderCursor streamId expected next now).commit (Machine.run stepCursors calls t) =
          (.error e, Machine.run stepCursors calls t)) ∧
      (∀ next now, cursorOf streamId (Machine.run stepCursors calls t) = some next →
        ((advanceProviderCursor streamId (some next) next now).commit (Machine.run stepCursors calls t)).2 =
            Machine.run stepCursors calls t ∧
          (isMachineIdentifier streamId = true → IsProviderCursor next →
            ((advanceProviderCursor streamId (some next) next now).commit (Machine.run stepCursors calls t)).1 =
              .ok ())) ∧
      (∀ other expected next now, other ≠ streamId →
        (stepCursors (.advance streamId expected next now) (Machine.run stepCursors calls t)).filter
            (fun r => r.provider == other) =
          (Machine.run stepCursors calls t).filter fun r => r.provider == other) ∧
      (WellFormedCursors t → isMachineIdentifier streamId = true → ∀ next now, IsProviderCursor next →
        ∃ t', (advanceProviderCursor streamId (cursorOf streamId (Machine.run stepCursors calls t)) next now).commit
          (Machine.run stepCursors calls t) = (.ok (), t')) := by
  refine ⟨linked_exchanges _ (fun _ _ _ => cursorExchange_some) (fun _ _ => cursorExchange_none) calls t, ?_,
    fun _ _ _ => advanceProviderCursor_stale, fun _ _ => advanceProviderCursor_retry, ?_, ?_⟩
  · intro expected next now t' h
    have hrun := Tx.commit_eq_ok_iff.mp h
    exact ⟨(advanceProviderCursor_run_eq_ok hrun).1, cursorOf_advance hrun⟩
  · intro other expected next now hother
    cases hrun : (advanceProviderCursor streamId expected next now).run (Machine.run stepCursors calls t) with
    | error e => rw [stepCursors, Tx.commit_of_error hrun]
    | ok r =>
      rw [stepCursors, Tx.commit_of_ok hrun]
      exact advanceProviderCursor_filter hother hrun
  · intro ht hstream next now hnext
    have hkept : WellFormedCursors (Machine.run stepCursors calls t) :=
      Machine.run_invariant (I := WellFormedCursors) (fun c _ hc => hc.step c) ht calls
    exact advanceProviderCursor_of_expected hkept hstream hnext

end AgentVoice.Store

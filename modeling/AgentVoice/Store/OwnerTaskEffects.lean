import AgentVoice.Store.OwnerTasks

/-!
# What the owner task operations do

One lemma for each operation of the owner tasks: the row a successful call added or found, and what it holds.
-/

namespace AgentVoice.Store

open AgentVoice.Foundations AgentVoice.Domain

variable {timezones : Timezones}

/-! ### Drafts -/

theorem transpose_validateSourceId_eq_ok {sourceId text : Option String}
    (h : transpose validateSourceId sourceId = .ok text) : text = sourceId :=
  (eq_of_transpose_eq_ok (fun _ _ hs => (validateSourceId_eq_ok_iff.mp hs).2) h).symm

theorem decodeOwnerTaskDraft_key {kind : TaskKind} {title : String} {durationMinutes : ℤ}
    {dueAt : Option OffsetDateTime} {key : IdempotencyKey} {d : OwnerTaskDraft}
    (h : decodeOwnerTaskDraft kind title durationMinutes dueAt key = .ok d) : d.idempotencyKey = key := by
  unfold decodeOwnerTaskDraft at h
  split at h
  · rw [replaceError_eq_ok_iff, OwnerTaskDraft.withDuration] at h
    split at h
    · cases h
    · obtain ⟨duration, -, h⟩ := bind_eq_ok_iff.mp h
      obtain rfl := Except.ok.inj h
      rfl
  · cases h

/-- What a row that decodes holds. -/
theorem decodeOwnerTaskRow_eq_ok {row : OwnerTaskStoredRow} {d : StoredOwnerTaskDraft}
    (h : decodeOwnerTaskRow row = .ok d) : 0 < row.id ∧ d.id = row.id ∧ d.sourceId = row.sourceId ∧
      d.draft.idempotencyKey.text = trim row.idempotencyKey := by
  obtain ⟨u, hid, h⟩ := bind_eq_ok_iff.mp h
  obtain ⟨sourceId, hsource, h⟩ := bind_eq_ok_iff.mp h
  obtain ⟨kind, -, h⟩ := bind_eq_ok_iff.mp h
  obtain ⟨dueAt, -, h⟩ := bind_eq_ok_iff.mp h
  obtain ⟨key, hkey, h⟩ := bind_eq_ok_iff.mp h
  obtain ⟨draft, hdraft, h⟩ := bind_eq_ok_iff.mp h
  obtain rfl := Except.ok.inj h
  rw [replaceError_eq_ok_iff, IdempotencyKey.new_eq_ok_iff] at hkey
  refine ⟨require_eq_ok_iff.mp hid, rfl, transpose_validateSourceId_eq_ok (replaceError_eq_ok_iff.mp hsource), ?_⟩
  rw [decodeOwnerTaskDraft_key hdraft]
  exact hkey.2

/-- What is written of optional instants is read back. -/
theorem transpose_parse_format {t : Option OffsetDateTime} {text : Option String}
    (h : transpose formatOffsetDatetime t = .ok text) : transpose parseOffsetDatetime text = .ok t := by
  cases text with
  | none =>
    rw [transpose_eq_ok_none_iff.mp h]
    rfl
  | some s =>
    obtain ⟨u, rfl, hu⟩ := transpose_eq_ok_some_iff.mp h
    rw [formatOffsetDatetime_eq_ok_iff] at hu
    simp [transpose, parseOffsetDatetime, parse_format hu, Except.map]

/-- The columns of a draft give the draft back. -/
theorem decodeOwnerTaskDraft_self (draft : OwnerTaskDraft) :
    decodeOwnerTaskDraft draft.kind draft.title draft.duration.minutes draft.dueAt draft.idempotencyKey =
      .ok draft := by
  have hfits := draft.duration.fits
  have hdraft : ∀ (n : ℕ) (fits : n < 2 ^ 32), n = draft.duration.minutes →
      OwnerTaskDraft.withDuration draft.kind draft.title n fits draft.dueAt draft.idempotencyKey = .ok draft := by
    rintro n fits rfl
    simp only [OwnerTaskDraft.withDuration, dif_neg draft.title_not_blank, DurationMinutes.new,
      dif_pos draft.duration.pos, ok_bind, pure_eq_ok, draft.title_trimmed]
  unfold decodeOwnerTaskDraft
  split
  · rw [hdraft _ _ (Int.toNat_natCast _), replaceError_ok]
  · rename_i hbounds
    exact absurd ⟨Int.natCast_nonneg _, by omega⟩ hbounds

/-- **What is read from the row of a draft is that draft.** -/
theorem decodeOwnerTaskRow_row {sourceId : Option String} {draft : OwnerTaskDraft} {dueAt : Option String} {id : ℤ}
    (hsource : transpose validateSourceId sourceId = .ok sourceId)
    (hdue : transpose formatOffsetDatetime draft.dueAt = .ok dueAt) (hid : 0 < id) :
    decodeOwnerTaskRow (ownerTaskDraftRow sourceId draft dueAt id) = .ok ⟨id, sourceId, draft⟩ := by
  have hsource' : replaceError (transpose validateSourceId sourceId) (storedRecordInvalid "owner task draft") =
      .ok sourceId := replaceError_eq_ok_iff.mpr hsource
  have hkey : replaceError (IdempotencyKey.new draft.idempotencyKey.text) (storedRecordInvalid "owner task draft") =
      .ok draft.idempotencyKey := replaceError_eq_ok_iff.mpr (IdempotencyKey.new_text _)
  refine bind_eq_ok_iff.mpr ⟨(), require_of hid _, ?_⟩
  refine bind_eq_ok_iff.mpr ⟨sourceId, hsource', ?_⟩
  refine bind_eq_ok_iff.mpr ⟨draft.kind, parseTaskKind_eq_ok_iff.mpr rfl, ?_⟩
  refine bind_eq_ok_iff.mpr ⟨draft.dueAt, transpose_parse_format hdue, ?_⟩
  refine bind_eq_ok_iff.mpr ⟨draft.idempotencyKey, hkey, ?_⟩
  exact bind_eq_ok_iff.mpr ⟨draft, decodeOwnerTaskDraft_self draft, rfl⟩

/-- **Saving a draft** adds a row under a key and a source no row has, or finds the row that holds exactly that
draft. -/
theorem saveOwnerTaskDraft_run_eq_ok {sourceId : Option String} {draft : OwnerTaskDraft} {db db' : Database}
    {d : StoredOwnerTaskDraft} (h : (saveOwnerTaskDraft sourceId draft).run db = .ok (d, db')) :
    (∃ dueAt, db' = { db with
        ownerTaskDrafts :=
          db.ownerTaskDrafts ++ [ownerTaskDraftRow sourceId draft dueAt (Table.nextRowid db.ownerTaskDrafts)] } ∧
        decodeOwnerTaskRow (ownerTaskDraftRow sourceId draft dueAt (Table.nextRowid db.ownerTaskDrafts)) = .ok d ∧
        ∀ r ∈ db.ownerTaskDrafts, sameOwnerTaskIdentity sourceId draft r = false) ∨ db' = db := by
  simp only [saveOwnerTaskDraft, Tx.ofResult_bind_eq_ok_iff] at h
  obtain ⟨source, hsource, dueAt, hdue, hinsert⟩ := h
  obtain rfl := transpose_validateSourceId_eq_ok hsource
  obtain ⟨t, hexec, rfl⟩ := Tx.run_zoom_eq_ok_iff.mp hinsert
  rcases IdempotentInsert.run_execReturning_eq_ok hexec with ⟨hfresh, rfl, rfl⟩ | ⟨rfl, -, -⟩
  · exact Or.inl ⟨dueAt, rfl, decodeOwnerTaskRow_row hsource hdue (Table.nextRowid_pos _), hfresh⟩
  · exact Or.inr rfl

/-- **Finding or inserting a draft** adds a row under a key and a source no row has, or finds a row that holds
exactly that draft. -/
theorem findOrInsertOwnerTaskDraft_run_eq_ok {sourceId : Option String} {draft : OwnerTaskDraft}
    {dueAt : Option String} {db db' : Database} {d : StoredOwnerTaskDraft}
    (h : (findOrInsertOwnerTaskDraft sourceId draft dueAt).run db = .ok (d, db')) :
    d.draft.Same draft ∧ (∃ r ∈ db'.ownerTaskDrafts, decodeOwnerTaskRow r = .ok d) ∧
      ((db' = { db with
          ownerTaskDrafts :=
            db.ownerTaskDrafts ++ [ownerTaskDraftRow sourceId draft dueAt (Table.nextRowid db.ownerTaskDrafts)] } ∧
          decodeOwnerTaskRow (ownerTaskDraftRow sourceId draft dueAt (Table.nextRowid db.ownerTaskDrafts)) = .ok d ∧
          ∀ r ∈ db.ownerTaskDrafts, sameOwnerTaskIdentity sourceId draft r = false) ∨ db' = db) := by
  simp only [findOrInsertOwnerTaskDraft, Tx.read_bind, Tx.write_bind, Tx.ofResult_bind_eq_ok_iff,
    Tx.run_ofResult_eq_ok_iff, okOr_eq_ok_iff] at h
  obtain ⟨items, hitems, hfind, rfl⟩ := h
  have hmem := List.mem_of_find?_eq_some hfind
  have hsame := of_decide_eq_true (@List.find?_some _
    (fun (item : StoredOwnerTaskDraft) => decide (item.sourceId = sourceId ∧ item.draft.Same draft)) _ _ hfind)
  obtain ⟨r, hr, hdecode⟩ := exists_of_mem_mapM hitems hmem
  rw [List.mem_filter] at hr
  refine ⟨hsame.2, ⟨r, hr.1, hdecode⟩, ?_⟩
  cases hclash : db.ownerTaskDrafts.any (sameOwnerTaskIdentity sourceId draft) with
  | true => exact Or.inr (by simp)
  | false =>
    rw [hclash, if_neg Bool.false_ne_true] at hr
    rw [if_neg Bool.false_ne_true]
    have hfresh : ∀ s ∈ db.ownerTaskDrafts, sameOwnerTaskIdentity sourceId draft s = false := by
      simpa using hclash
    rcases List.mem_append.mp hr.1 with hold | hnew
    · rw [hfresh r hold] at hr
      exact absurd hr.2 (by simp)
    · obtain rfl := List.mem_singleton.mp hnew
      exact Or.inl ⟨rfl, hdecode, hfresh⟩

/-! ### Placements -/

/-- What a row that decodes holds. -/
structure OwnerTaskPlacementStoredRow.Holds (timezones : Timezones) (row : OwnerTaskPlacementStoredRow)
    (p : StoredOwnerTaskPlacement) : Prop where
  ownerTaskDraftId : p.ownerTaskDraftId = row.ownerTaskDraftId
  ownerTaskDraftId_pos : 0 < row.ownerTaskDraftId
  startsAt : p.startsAt.offsetSeconds = 0 ∧ p.startsAt.nanosecond = 0 ∧ p.startsAt.format = some row.startsAt
  endsAt : p.endsAt.offsetSeconds = 0 ∧ p.endsAt.nanosecond = 0 ∧ p.endsAt.format = some row.endsAt
  ordered : p.startsAt.unixNanos < p.endsAt.unixNanos
  timezone : p.timezone = row.timezone
  timezone_named : ¬ IsBlank row.timezone ∧ timezones row.timezone = some row.timezone
  operationKey : p.operationKey = row.operationKey
  operationKey_valid : isMachineIdentifier row.operationKey = true
  ownerFingerprint : p.ownerFingerprint = row.ownerFingerprint
  ownerFingerprint_valid : isMachineIdentifier row.ownerFingerprint = true
  providerEventId : p.providerEventId = row.providerEventId
  providerEventId_valid : ∀ value ∈ row.providerEventId, IsProviderEventId value
  state : PlacementStateAgrees row

theorem decodeOwnerTaskPlacement_eq_ok {row : OwnerTaskPlacementStoredRow} {p : StoredOwnerTaskPlacement}
    (h : decodeOwnerTaskPlacement timezones row = .ok p) : row.Holds timezones p := by
  obtain ⟨_, hid, h⟩ := bind_eq_ok_iff.mp h
  obtain ⟨zone, hzone, h⟩ := bind_eq_ok_iff.mp h
  obtain ⟨_, hkey, h⟩ := bind_eq_ok_iff.mp h
  obtain ⟨_, hfingerprint, h⟩ := bind_eq_ok_iff.mp h
  obtain ⟨_, hevent, h⟩ := bind_eq_ok_iff.mp h
  obtain ⟨startsAt, hstarts, h⟩ := bind_eq_ok_iff.mp h
  obtain ⟨endsAt, hends, h⟩ := bind_eq_ok_iff.mp h
  obtain ⟨_, hordered, h⟩ := bind_eq_ok_iff.mp h
  obtain ⟨_, hstate, h⟩ := bind_eq_ok_iff.mp h
  obtain rfl := Except.ok.inj h
  rw [require_eq_ok_iff] at hid hkey hfingerprint hevent hordered hstate
  rw [replaceError_eq_ok_iff, validateOwnerTaskTimezone, replaceError_eq_ok_iff,
    validateAppointmentQuoteTimezone_eq_ok_iff] at hzone
  rw [parseOwnerTaskPlacementDatetime, parseWholeSecond_eq_ok_iff] at hstarts hends
  exact
    { ownerTaskDraftId := rfl
      ownerTaskDraftId_pos := hid
      startsAt := hstarts
      endsAt := hends
      ordered := hordered
      timezone := rfl
      timezone_named := ⟨hzone.1, hzone.2.1⟩
      operationKey := rfl
      operationKey_valid := hkey
      ownerFingerprint := rfl
      ownerFingerprint_valid := hfingerprint
      providerEventId := rfl
      providerEventId_valid := hevent
      state := hstate }

theorem ensureOwnerTaskDraftExists_eq_ok_iff {ownerTaskDraftId : ℤ} {db : Database} {u : Unit} :
    ensureOwnerTaskDraftExists ownerTaskDraftId db = .ok u ↔
      ∃ row d, Table.byRowid ownerTaskDraftId db.ownerTaskDrafts = some row ∧ decodeOwnerTaskRow row = .ok d := by
  simp only [ensureOwnerTaskDraftExists, bind_eq_ok_iff, okOr_eq_ok_iff, pure_eq_ok, and_true]
  exact exists_congr fun row => exists_and_left.symm

/-- **Placing an owner task** adds a placement for a draft and an operation key no placement has, or finds the
placement that holds exactly that. -/
theorem placeOwnerTask_run_eq_ok {r : PlacementRequest} {startsAt endsAt : String} {ownerTaskDraftId : ℤ}
    {db db' : Database} {p : StoredOwnerTaskPlacement}
    (h : (placeOwnerTask timezones r startsAt endsAt ownerTaskDraftId).run db = .ok (p, db')) :
    p.ownerTaskDraftId = ownerTaskDraftId ∧ r.IsContentOf p ∧
      (∃ row ∈ db'.ownerTaskPlacements, decodeOwnerTaskPlacement timezones row = .ok p) ∧
      ((db' = { db with
          ownerTaskPlacements := db.ownerTaskPlacements ++ [r.row startsAt endsAt ownerTaskDraftId] } ∧
          decodeOwnerTaskPlacement timezones (r.row startsAt endsAt ownerTaskDraftId) = .ok p ∧
          ∀ s ∈ db.ownerTaskPlacements, s.ownerTaskDraftId ≠ ownerTaskDraftId ∧ s.operationKey ≠ r.operationKey) ∨
        db' = db) := by
  simp only [placeOwnerTask, Tx.read_bind, Tx.write_bind, Tx.ofResult_bind_eq_ok_iff, Tx.ensure_bind_eq_ok_iff,
    okOr_eq_ok_iff, Tx.run_pure, Except.ok.injEq, Prod.mk.injEq] at h
  obtain ⟨row, hrow, placement, hdecode, hid, hsame, rfl, rfl⟩ := h
  have hmem : row ∈ (if db.ownerTaskPlacements.any (fun p => p.ownerTaskDraftId == ownerTaskDraftId ||
      p.operationKey == r.operationKey) = true then db
      else { db with
        ownerTaskPlacements :=
          db.ownerTaskPlacements ++ [r.row startsAt endsAt ownerTaskDraftId] }).ownerTaskPlacements := by
    rcases Option.or_eq_some_iff.mp hrow with hbyId | ⟨-, hbyKey⟩
    · exact (Table.byRowid_eq_some hbyId).1
    · exact (Table.byKey_eq_some hbyKey).1
  refine ⟨hid, hsame, ⟨row, hmem, hdecode⟩, ?_⟩
  cases hclash : db.ownerTaskPlacements.any fun p => p.ownerTaskDraftId == ownerTaskDraftId ||
      p.operationKey == r.operationKey with
  | true => exact Or.inr (if_pos rfl)
  | false =>
    rw [hclash, if_neg Bool.false_ne_true] at hmem
    rw [if_neg Bool.false_ne_true]
    have hfresh : ∀ s ∈ db.ownerTaskPlacements, s.ownerTaskDraftId ≠ ownerTaskDraftId ∧
        s.operationKey ≠ r.operationKey := by
      simpa using hclash
    have hholds := decodeOwnerTaskPlacement_eq_ok hdecode
    rcases List.mem_append.mp hmem with hold | hnew
    · exact absurd (hholds.ownerTaskDraftId.symm.trans hid) (hfresh row hold).1
    · obtain rfl := List.mem_singleton.mp hnew
      exact Or.inl ⟨rfl, hdecode, hfresh⟩

/-- **Placing a stored draft** does what placing does, for a draft that exists. -/
theorem saveOwnerTaskPlacement_run_eq_ok {ownerTaskDraftId : ℤ} {r : PlacementRequest} {db db' : Database}
    {p : StoredOwnerTaskPlacement} (h : (saveOwnerTaskPlacement timezones ownerTaskDraftId r).run db = .ok (p, db')) :
    ∃ startsAt endsAt, ensureOwnerTaskDraftExists ownerTaskDraftId db = .ok () ∧
      (placeOwnerTask timezones r startsAt endsAt ownerTaskDraftId).run db = .ok (p, db') := by
  simp only [saveOwnerTaskPlacement, Tx.ensure_bind_eq_ok_iff, Tx.ofResult_bind_eq_ok_iff, Tx.read_bind] at h
  obtain ⟨-, ⟨startsAt, endsAt⟩, -, _, hexists, hplace⟩ := h
  exact ⟨startsAt, endsAt, hexists, hplace⟩

/-- **Preparing an owner task** stores the draft, or finds it, and places it. -/
theorem savePreparedOwnerTask_run_eq_ok {sourceId : Option String} {draft : OwnerTaskDraft} {r : PlacementRequest}
    {db db' : Database} {d : StoredOwnerTaskDraft} {p : StoredOwnerTaskPlacement}
    (h : (savePreparedOwnerTask timezones sourceId draft r).run db = .ok ((d, p), db')) :
    ∃ startsAt endsAt dueAt db₁, (findOrInsertOwnerTaskDraft sourceId draft dueAt).run db = .ok (d, db₁) ∧
      (placeOwnerTask timezones r startsAt endsAt d.id).run db₁ = .ok (p, db') := by
  simp only [savePreparedOwnerTask, Tx.ensure_bind_eq_ok_iff, Tx.ofResult_bind_eq_ok_iff] at h
  obtain ⟨-, source, hsource, ⟨startsAt, endsAt⟩, -, dueAt, -, hfind⟩ := h
  obtain rfl := transpose_validateSourceId_eq_ok hsource
  obtain ⟨stored, db₁, hstored, hrest⟩ := Tx.run_bind_eq_ok_iff.mp hfind
  obtain ⟨placement, db₂, hplace, hpure⟩ := Tx.run_bind_eq_ok_iff.mp hrest
  cases hpure
  exact ⟨startsAt, endsAt, dueAt, db₁, hstored, hplace⟩

theorem loadOwnerTaskPlacement_run_eq_ok_iff {ownerTaskDraftId : ℤ} {db db' : Database}
    {p : StoredOwnerTaskPlacement} :
    (loadOwnerTaskPlacement timezones ownerTaskDraftId).run db = .ok (p, db') ↔
      db' = db ∧ ensureOwnerTaskDraftExists p.ownerTaskDraftId db = .ok () ∧
        ∃ row, Table.byRowid ownerTaskDraftId db.ownerTaskPlacements = some row ∧
          decodeOwnerTaskPlacement timezones row = .ok p := by
  have href : ∀ q : StoredOwnerTaskPlacement, ∀ u db₁, (validateOwnerTaskPlacementReference q).run db = .ok (u, db₁) ↔
      ensureOwnerTaskDraftExists q.ownerTaskDraftId db = .ok () ∧ db₁ = db := by
    intro q u db₁
    rw [validateOwnerTaskPlacementReference, Tx.read_bind, Tx.run_ofResult_eq_ok_iff, replaceError_eq_ok_iff]
  simp only [loadOwnerTaskPlacement, Tx.read_bind, Tx.ofResult_bind_eq_ok_iff, okOr_eq_ok_iff]
  constructor
  · rintro ⟨row, hrow, p', hdecode, hrest⟩
    obtain ⟨u, db₁, hcheck, hpure⟩ := Tx.run_bind_eq_ok_iff.mp hrest
    obtain ⟨hexists, rfl⟩ := (href p' u db₁).mp hcheck
    cases hpure
    exact ⟨rfl, hexists, row, hrow, hdecode⟩
  · rintro ⟨rfl, hexists, row, hrow, hdecode⟩
    exact ⟨row, hrow, p, hdecode, Tx.run_bind_eq_ok_iff.mpr ⟨(), db', (href p () db').mpr ⟨hexists, rfl⟩, rfl⟩⟩

/-- What submitting a placement did: it had no event, no other placement has the event, and it takes it. -/
structure PlacementSubmitted (timezones : Timezones) (ownerTaskDraftId : ℤ) (providerEventId : String)
    (db db' : Database) (p : StoredOwnerTaskPlacement) : Prop where
  exists_row : ∃ row ∈ db.ownerTaskPlacements, row.ownerTaskDraftId = ownerTaskDraftId ∧ row.providerEventId = none ∧
    decodeOwnerTaskPlacement timezones (row.submit providerEventId) = .ok p
  fresh : ∀ s ∈ db.ownerTaskPlacements, s.providerEventId ≠ some providerEventId
  eq : db' = { db with
    ownerTaskPlacements := Table.updateWhere (fun s => s.ownerTaskDraftId == ownerTaskDraftId)
      (OwnerTaskPlacementStoredRow.submit providerEventId) db.ownerTaskPlacements }

/-- **Submitting a placement** finds it submitted with that event, or submits it. -/
theorem submitOwnerTaskPlacement_run_eq_ok {ownerTaskDraftId : ℤ} {providerEventId : String} {db db' : Database}
    {p : StoredOwnerTaskPlacement}
    (h : (submitOwnerTaskPlacement timezones ownerTaskDraftId providerEventId).run db = .ok (p, db'))
    (hunique : Table.Unique Row.rowid db.ownerTaskPlacements) :
    p.providerEventId = some providerEventId ∧ p.ownerTaskDraftId = ownerTaskDraftId ∧
      ((db' = db ∧ ∃ row ∈ db.ownerTaskPlacements, decodeOwnerTaskPlacement timezones row = .ok p) ∨
        PlacementSubmitted timezones ownerTaskDraftId providerEventId db db' p) := by
  simp only [submitOwnerTaskPlacement, Tx.ofResult_bind_eq_ok_iff, validateProviderEventId_eq_ok_iff] at h
  obtain ⟨_, ⟨-, rfl⟩, hload⟩ := h
  obtain ⟨placement, db₁, hplacement, hchoice⟩ := Tx.run_bind_eq_ok_iff.mp hload
  obtain ⟨rfl, -, row, hrow, hdecode⟩ := loadOwnerTaskPlacement_run_eq_ok_iff.mp hplacement
  obtain ⟨hmem, hid⟩ := Table.byRowid_eq_some hrow
  have hholds := decodeOwnerTaskPlacement_eq_ok hdecode
  cases hevent : placement.providerEventId with
  | some existing =>
    simp only [hevent, Tx.ensure_bind_eq_ok_iff, Tx.run_pure, Except.ok.injEq, Prod.mk.injEq] at hchoice
    obtain ⟨rfl, rfl, rfl⟩ := hchoice
    exact ⟨hevent, hholds.ownerTaskDraftId.trans hid, Or.inl ⟨rfl, row, hmem, hdecode⟩⟩
  | none =>
    rw [hevent] at hchoice
    obtain ⟨_, db₂, hfree, hupdate⟩ := Tx.run_bind_eq_ok_iff.mp hchoice
    have hfresh : db₂ = db₁ ∧ ∀ s ∈ db₁.ownerTaskPlacements, s.providerEventId ≠ some providerEventId := by
      simp only [ensureEventFree, Tx.read_bind] at hfree
      cases hfind : db₁.ownerTaskPlacements.find? fun s => s.providerEventId == some providerEventId with
      | none =>
        rw [hfind] at hfree
        cases hfree
        exact ⟨rfl, by simpa using hfind⟩
      | some s =>
        -- the placement that holds the event would be this one, which holds none
        simp only [hfind, Tx.ofResult_bind_eq_ok_iff, Tx.run_ensure_eq_ok_iff] at hfree
        obtain ⟨existing, hexisting, hsame, -⟩ := hfree
        have hs := decodeOwnerTaskPlacement_eq_ok hexisting
        have hheld : s.providerEventId = some providerEventId := by
          simpa using @List.find?_some _ (fun (s : OwnerTaskPlacementStoredRow) =>
            s.providerEventId == some providerEventId) _ _ hfind
        obtain rfl := hunique.eq (List.mem_of_find?_eq_some hfind) hmem
          ((hs.ownerTaskDraftId.symm.trans hsame).trans hid.symm)
        rw [← hholds.providerEventId, hevent] at hheld
        cases hheld
    obtain ⟨rfl, hfresh⟩ := hfresh
    rw [Tx.write_bind] at hupdate
    obtain ⟨rfl, -, row', hrow', hdecode'⟩ := loadOwnerTaskPlacement_run_eq_ok_iff.mp hupdate
    have hfound := Table.byRowid_updateWhere (p := fun s => s.ownerTaskDraftId == ownerTaskDraftId)
      (f := OwnerTaskPlacementStoredRow.submit providerEventId) (fun _ => rfl) hrow (beq_iff_eq.mpr hid)
    obtain rfl := Option.some.inj (hrow'.symm.trans hfound)
    have hholds' := decodeOwnerTaskPlacement_eq_ok hdecode'
    refine ⟨hholds'.providerEventId, hholds'.ownerTaskDraftId.trans hid, Or.inr ⟨⟨row, hmem, hid, ?_, hdecode'⟩, hfresh, rfl⟩⟩
    rw [← hholds.providerEventId, hevent]

end AgentVoice.Store

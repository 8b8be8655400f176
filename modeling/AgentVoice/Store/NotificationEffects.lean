import AgentVoice.Store.Notifications
import Mathlib.Data.List.Forall2

/-!
# What the outbox operations do

One lemma for each operation of the outbox: which rows a successful call read, which it wrote, and what
it returned. The results above this module use these lemmas and never look into an operation again.
-/

namespace AgentVoice.Store

open AgentVoice.Foundations AgentVoice.Domain

variable {json : TemplateJson}

/-- A row that can be read: its integers are 64-bit, it decodes, and its references hold. -/
def Readable (json : TemplateJson) (db : Database) (row : NotificationStoredRow) : Prop :=
  row.attempts < 2 ^ 63 ∧
    ∃ n, decodeNotificationRow json row = .ok n ∧ validateStoredNotificationReferences db n = .ok ()

theorem readNotification_run_eq_ok_iff {row : NotificationStoredRow} {db db' : Database} {n : StoredNotification} :
    (readNotification json row).run db = .ok (n, db') ↔
      db' = db ∧ row.attempts < 2 ^ 63 ∧ decodeNotificationRow json row = .ok n ∧
        validateStoredNotificationReferences db n = .ok () := by
  simp only [readNotification, Tx.ensure_bind_eq_ok_iff, Tx.ofResult_bind_eq_ok_iff, Tx.read_bind, Tx.run_pure,
    Except.ok.injEq, Prod.mk.injEq, id_eq]
  constructor
  · rintro ⟨hfits, m, hdecode, ⟨⟩, hrefs, rfl, rfl⟩
    exact ⟨rfl, hfits, hdecode, hrefs⟩
  · rintro ⟨rfl, hfits, hdecode, hrefs⟩
    exact ⟨hfits, n, hdecode, (), hrefs, rfl, rfl⟩

theorem loadNotification_run_eq_ok_iff {id : ℤ} {db db' : Database} {n : StoredNotification} :
    (loadNotification json id).run db = .ok (n, db') ↔
      ∃ row, Table.byRowid id db.notificationOutbox = some row ∧ db' = db ∧ row.attempts < 2 ^ 63 ∧
        decodeNotificationRow json row = .ok n ∧ validateStoredNotificationReferences db n = .ok () := by
  simp only [loadNotification, Tx.read_bind, Tx.ofResult_bind_eq_ok_iff, okOr_eq_ok_iff,
    readNotification_run_eq_ok_iff]

/-- The references that are asked for when a notification is enqueued. -/
def ReferencesHold (db : Database) (proposalId eventMappingId : Option ℤ) (kind : NotificationKind) : Prop :=
  (∀ id ∈ proposalId, 0 < id) ∧ (∀ id ∈ eventMappingId, 0 < id) ∧
    (kind.requiresProposal = true → proposalId.isSome = true) ∧
    (kind.requiresProposal = false → proposalId = none ∧ eventMappingId = none) ∧
    (∀ id ∈ proposalId, (Table.byRowid id db.proposals).isSome = true) ∧
    ∀ id ∈ eventMappingId, ∃ m, Table.byRowid id db.eventMappings = some m ∧ some m.proposalId = proposalId

theorem validateNotificationReferences_run_eq_ok_iff {proposalId eventMappingId : Option ℤ} {kind : NotificationKind}
    {db db' : Database} {u : Unit} :
    (validateNotificationReferences proposalId eventMappingId kind).run db = .ok (u, db') ↔
      db' = db ∧ ReferencesHold db proposalId eventMappingId kind := by
  simp only [validateNotificationReferences, Tx.ensure_bind_eq_ok_iff, Tx.read_bind, id_eq]
  cases eventMappingId with
  | none =>
    simp only [Tx.run_pure, Except.ok.injEq, Prod.mk.injEq, true_and, ReferencesHold]
    constructor
    · rintro ⟨hp, hm, hsome, hnone, -, hexists, rfl⟩
      exact ⟨rfl, hp, hm, hsome, fun h => ⟨hnone h, trivial⟩, hexists, by simp⟩
    · rintro ⟨rfl, hp, hm, hsome, hnone, hexists, -⟩
      exact ⟨hp, hm, hsome, fun h => (hnone h).1, fun _ => trivial, hexists, rfl⟩
  | some id =>
    simp only [Tx.ofResult_bind_eq_ok_iff, okOr_eq_ok_iff, Tx.run_ensure_eq_ok_iff, ReferencesHold]
    constructor
    · rintro ⟨hp, hm, hsome, hnone, hnone', hexists, m, hmapping, hsame, rfl⟩
      refine ⟨rfl, hp, hm, hsome, fun h => ⟨hnone h, hnone' h⟩, hexists, fun id' hid' => ?_⟩
      cases hid'
      exact ⟨m, hmapping, hsame⟩
    · rintro ⟨rfl, hp, hm, hsome, hnone, hexists, hmapping⟩
      obtain ⟨m, hm', hsame⟩ := hmapping id rfl
      exact ⟨hp, hm, hsome, fun h => (hnone h).1, fun h => (hnone h).2, hexists, m, hm', hsame, rfl⟩

/-! ### Enqueueing -/

/-- What enqueueing needs before it looks at the outbox. -/
structure EnqueueRequest.Ready (r : EnqueueRequest) (db : Database) (key : IdempotencyKey) (availableAt : String) :
    Prop where
  key : storeKey r.idempotencyKey = .ok key
  availableAt : formatOffsetDatetime r.availableAt.toUtc = .ok availableAt
  references : ReferencesHold db r.proposalId r.eventMappingId r.kind

/-- **Enqueueing** adds a row that can be read, under a key no row has, or finds the row with that key, which
then holds the same notification. -/
theorem enqueueNotification_run_eq_ok {r : EnqueueRequest} {clock : SystemTime} {db db' : Database}
    {n : StoredNotification} (h : (enqueueNotification json r clock).run db = .ok (n, db')) :
    ∃ key availableAt, r.Ready db key availableAt ∧
      ((∃ persistedAt row, row = r.row json key.text availableAt persistedAt (Table.nextRowid db.notificationOutbox) ∧
          (∀ s ∈ db.notificationOutbox, s.idempotencyKey ≠ key.text) ∧
          db' = db.mapOutbox (· ++ [row]) ∧
          decodeNotificationRow json row = .ok n ∧ validateStoredNotificationReferences db' n = .ok ()) ∨
        (db' = db ∧ ∃ row ∈ db.notificationOutbox, row.idempotencyKey = key.text ∧
          decodeNotificationRow json row = .ok n ∧ r.SameAs n)) := by
  simp only [enqueueNotification, Tx.ofResult_bind_eq_ok_iff] at h
  obtain ⟨key, hkey, availableAt, havailable, persistedAt, -, hrest⟩ := h
  obtain ⟨u, db₁, hrefs, hinsert⟩ := Tx.run_bind_eq_ok_iff.mp hrest
  obtain ⟨rfl, hrefs⟩ := validateNotificationReferences_run_eq_ok_iff.mp hrefs
  refine ⟨key, availableAt, ⟨hkey, havailable, hrefs⟩, ?_⟩
  rw [Tx.read_bind] at hinsert
  cases hexisting : Table.byKey NotificationStoredRow.idempotencyKey key.text db₁.notificationOutbox with
  | none =>
    rw [hexisting] at hinsert
    simp only [Tx.read_bind, onOutbox, Tx.write_bind, Tx.ofResult_bind_eq_ok_iff, okOr_eq_ok_iff,
      readNotification_run_eq_ok_iff] at hinsert
    obtain ⟨row, hrow, rfl, -, hdecode, hread⟩ := hinsert
    obtain rfl := Option.some.inj (hrow.symm.trans (Table.byRowid_insert rfl))
    exact Or.inl ⟨persistedAt, _, rfl, Table.byKey_eq_none.mp hexisting, rfl, hdecode, hread⟩
  | some row =>
    rw [hexisting] at hinsert
    obtain ⟨stored, db₂, hread, hsame⟩ := Tx.run_bind_eq_ok_iff.mp hinsert
    obtain ⟨rfl, -, hdecode, -⟩ := readNotification_run_eq_ok_iff.mp hread
    simp only [Tx.ensure_bind_eq_ok_iff, Tx.run_pure, Except.ok.injEq, Prod.mk.injEq] at hsame
    obtain ⟨hsame, rfl, rfl⟩ := hsame
    obtain ⟨hmem, hrowkey⟩ := Table.byKey_eq_some hexisting
    exact Or.inr ⟨rfl, row, hmem, hrowkey, hdecode, hsame⟩

/-- What enqueueing does when a readable row has the key: it returns the stored notification exactly when
that is the notification asked for. -/
theorem enqueueNotification_run_existing {r : EnqueueRequest} (clock : SystemTime) {db : Database}
    {key : IdempotencyKey} {availableAt : String} (hready : r.Ready db key availableAt)
    {row : NotificationStoredRow} {n : StoredNotification}
    (hrow : Table.byKey NotificationStoredRow.idempotencyKey key.text db.notificationOutbox = some row)
    (hfits : row.attempts < 2 ^ 63) (hdecode : decodeNotificationRow json row = .ok n)
    (hrefs : validateStoredNotificationReferences db n = .ok ()) :
    (enqueueNotification json r clock).run db =
      if r.SameAs n then .ok (n, db) else .error (.conflict "notification") := by
  obtain ⟨persistedAt, hpersisted⟩ := clock.exists_format
  have hreferences := validateNotificationReferences_run_eq_ok_iff (u := ()).mpr
    ⟨rfl, hready.references⟩
  have hread := readNotification_run_eq_ok_iff.mpr ⟨rfl, hfits, hdecode, hrefs⟩
  rw [enqueueNotification, Tx.ofResult_bind_of_ok hready.key, Tx.ofResult_bind_of_ok hready.availableAt,
    Tx.ofResult_bind_of_ok hpersisted, Tx.run_bind_of_ok hreferences, Tx.read_bind, hrow]
  simp only []
  rw [Tx.run_bind_of_ok hread]
  by_cases hsame : r.SameAs n
  · rw [if_pos hsame, Tx.ensure_bind_of hsame, Tx.run_pure]
  · rw [if_neg hsame, Tx.ensure_bind_of_not hsame]

/-! ### Claiming -/

/-- What the claim loop did for one id. -/
structure Claimed (json : TemplateJson) (nowKey leaseUntil updatedAt : String) (t : List NotificationStoredRow)
    (id : ℤ) (n : StoredNotification) : Prop where
  exists_row : ∃ row ∈ t, row.id = id ∧ claimable nowKey row = true ∧ row.attempts + 1 < 2 ^ 63 ∧
    decodeNotificationRow json (row.claim leaseUntil updatedAt) = .ok n

/-- Changing the one row with a primary key. -/
theorem updateWhere_rowid {t : List NotificationStoredRow} (hunique : Table.Unique Row.rowid t)
    {p : NotificationStoredRow → Bool} {row : NotificationStoredRow} (hrow : row ∈ t) (hp : p row = true)
    (f : NotificationStoredRow → NotificationStoredRow) :
    Table.updateWhere (fun r => r.id == row.id && p r) f t = Table.updateWhere (fun r => r.id == row.id) f t := by
  refine List.map_congr_left fun r hr => ?_
  by_cases hid : r.id = row.id
  · obtain rfl := hunique.eq hr hrow hid
    simp [hp]
  · simp [hid]

theorem claimOne_run_eq_ok {nowKey leaseUntil updatedAt : String} {id : ℤ} {db db' : Database}
    (hunique : Table.Unique Row.rowid db.notificationOutbox) {n : StoredNotification}
    (h : (claimOne json nowKey leaseUntil updatedAt id).run db = .ok (n, db')) :
    (∃ row ∈ db.notificationOutbox, row.id = id ∧ claimable nowKey row = true ∧ row.attempts + 1 < 2 ^ 63 ∧
        decodeNotificationRow json (row.claim leaseUntil updatedAt) = .ok n) ∧
      db' = db.mapOutbox (Table.updateWhere (fun r => r.id == id) (NotificationStoredRow.claim leaseUntil updatedAt)) ∧
      validateStoredNotificationReferences db n = .ok () := by
  simp only [claimOne, Tx.read_bind, onOutbox, Tx.write_bind, Tx.ensure_bind_eq_ok_iff,
    loadNotification_run_eq_ok_iff] at h
  obtain ⟨hcount, row', hload, rfl, hfits, hdecode, hrefs⟩ := h
  have hpos : 0 < db.notificationOutbox.countP fun r => r.id == id && claimable nowKey r := by
    rw [hcount]
    exact Nat.one_pos
  obtain ⟨row, hrow, hp⟩ := List.countP_pos_iff.mp hpos
  rw [Bool.and_eq_true, beq_iff_eq] at hp
  obtain ⟨rfl, hclaim⟩ := hp
  have hupdate := updateWhere_rowid hunique hrow hclaim (NotificationStoredRow.claim leaseUntil updatedAt)
  rw [Database.mapOutbox, hupdate] at hload
  have hfound := Table.byRowid_updateWhere (p := fun r => r.id == row.id)
    (f := NotificationStoredRow.claim leaseUntil updatedAt) (fun _ => rfl) (Table.byRowid_of_mem hunique hrow) (by simp)
  obtain rfl := Option.some.inj (hload.symm.trans hfound)
  refine ⟨⟨row, hrow, rfl, hclaim, hfits, hdecode⟩, ?_, hrefs⟩
  rw [Database.mapOutbox, Database.mapOutbox, hupdate]

/-- Claiming one row and then others is claiming all of them. -/
theorem updateWhere_claim {leaseUntil updatedAt : String} {id : ℤ} {ids : List ℤ} (hid : id ∉ ids)
    (t : List NotificationStoredRow) :
    Table.updateWhere (fun r => ids.contains r.id) (NotificationStoredRow.claim leaseUntil updatedAt)
        (Table.updateWhere (fun r => r.id == id) (NotificationStoredRow.claim leaseUntil updatedAt) t) =
      Table.updateWhere (fun r => (id :: ids).contains r.id) (NotificationStoredRow.claim leaseUntil updatedAt) t := by
  simp only [Table.updateWhere, List.map_map]
  refine List.map_congr_left fun r _ => ?_
  by_cases hr : r.id = id
  · subst hr
    simp [NotificationStoredRow.claim, hid]
  · simp [hr]

/-- **The claim loop** raises each selected row once and leaves the others. -/
theorem claimEach_run_eq_ok {nowKey leaseUntil updatedAt : String} {ids : List ℤ} (hnodup : ids.Nodup)
    {db db' : Database} (hunique : Table.Unique Row.rowid db.notificationOutbox) {ns : List StoredNotification}
    (h : (claimEach json nowKey leaseUntil updatedAt ids).run db = .ok (ns, db')) :
    List.Forall₂ (Claimed json nowKey leaseUntil updatedAt db.notificationOutbox) ids ns ∧
      db' = db.mapOutbox
        (Table.updateWhere (fun r => ids.contains r.id) (NotificationStoredRow.claim leaseUntil updatedAt)) ∧
      ∀ n ∈ ns, validateStoredNotificationReferences db n = .ok () := by
  induction ids generalizing db ns with
  | nil =>
    cases h
    refine ⟨List.Forall₂.nil, ?_, by simp⟩
    simp [Database.mapOutbox, Table.updateWhere]
  | cons id ids ih =>
    obtain ⟨hid, hnodup⟩ := List.nodup_cons.mp hnodup
    obtain ⟨n, db₁, hone, hrest⟩ := Tx.run_bind_eq_ok_iff.mp h
    obtain ⟨ns', db₂, heach, hpure⟩ := Tx.run_bind_eq_ok_iff.mp hrest
    cases hpure
    obtain ⟨hrow, rfl, hrefs⟩ := claimOne_run_eq_ok hunique hone
    have hunique₁ := hunique.updateWhere (p := fun r => r.id == id)
      (f := NotificationStoredRow.claim leaseUntil updatedAt) fun _ => rfl
    obtain ⟨hall, rfl, hrefs'⟩ := ih hnodup hunique₁ heach
    refine ⟨List.Forall₂.cons ⟨hrow⟩ ?_, ?_, ?_⟩
    · -- the rows claimed later are not the one claimed now
      have hne : ∀ id' ∈ ids, id' ≠ id := fun id' hid' heq => hid (heq ▸ hid')
      refine ((List.forall₂_and_left _ _).mpr ⟨hne, hall⟩).imp fun id' n' hclaimed => ?_
      obtain ⟨hne, row, hrow, hrowid, hclaim, hread⟩ := hclaimed
      rcases Table.mem_updateWhere.mp hrow with ⟨s, -, hs, rfl⟩ | ⟨hrow, -⟩
      · exact absurd (hrowid.symm.trans (beq_iff_eq.mp hs)) hne
      · exact ⟨row, hrow, hrowid, hclaim, hread⟩
    · simp only [Database.mapOutbox, updateWhere_claim hid]
    · intro m hm
      rcases List.mem_cons.mp hm with rfl | hm
      · exact hrefs
      · exact hrefs' m hm

/-- The candidates of a claim are distinct rows that the claim may take. -/
theorem claimCandidates_nodup {nowKey : String} {limit : ℕ} {t : List NotificationStoredRow}
    (hunique : Table.Unique Row.rowid t) : (claimCandidates nowKey limit t).Nodup := by
  have hfilter : ((t.filter (claimable nowKey)).map (·.id)).Nodup :=
    List.pairwise_map.mpr (List.Pairwise.filter _ hunique)
  have hsorted : (((t.filter (claimable nowKey)).insertionSort claimOrder).map (·.id)).Nodup :=
    ((List.perm_insertionSort _ _).map _).nodup_iff.mpr hfilter
  exact ((List.take_sublist _ _).map _).nodup hsorted

/-- What a claim checked and computed before it touched the outbox. -/
structure ClaimStarted (now : OffsetDateTime) (limit : ℕ) (leaseDuration : ℤ) (nowKey leaseUntil : String) : Prop where
  lease_pos : 0 < leaseDuration
  nowKey : formatNotificationComparisonDatetime now.toUtc = .ok nowKey
  leaseUntil : formatOffsetDatetime ⟨now.unixNanos + leaseDuration, 0⟩ = .ok leaseUntil

/-- **Claiming** raises the attempt of each selected row once and leaves every other row. -/
theorem claimNotifications_run_eq_ok {now : OffsetDateTime} {limit : ℕ} {leaseDuration : ℤ} {clock : SystemTime}
    {db db' : Database} (hunique : Table.Unique Row.rowid db.notificationOutbox) {ns : List StoredNotification}
    (h : (claimNotifications json now limit leaseDuration clock).run db = .ok (ns, db')) :
    ∃ nowKey leaseUntil updatedAt, ClaimStarted now limit leaseDuration nowKey leaseUntil ∧
      List.Forall₂ (Claimed json nowKey leaseUntil updatedAt db.notificationOutbox)
        (claimCandidates nowKey limit db.notificationOutbox) ns ∧
      db' = db.mapOutbox (Table.updateWhere
        (fun r => (claimCandidates nowKey limit db.notificationOutbox).contains r.id)
        (NotificationStoredRow.claim leaseUntil updatedAt)) ∧
      ∀ n ∈ ns, validateStoredNotificationReferences db n = .ok () := by
  simp only [claimNotifications, Tx.ensure_bind_eq_ok_iff, Tx.ofResult_bind_eq_ok_iff, Tx.read_bind,
    okOr_eq_ok_iff] at h
  obtain ⟨-, hlease, leaseUntil, hadd, nowKey, hnowKey, leaseText, hleaseText, updatedAt, -, heach⟩ := h
  obtain ⟨rfl, -⟩ := OffsetDateTime.checkedAdd_eq_some_iff.mp hadd
  obtain ⟨hall, hdb, hrefs⟩ := claimEach_run_eq_ok (claimCandidates_nodup hunique) hunique heach
  exact ⟨nowKey, leaseText, updatedAt, ⟨hlease, hnowKey, hleaseText⟩, hall, hdb, hrefs⟩

/-- A claimed row, and the notification that was returned for it. -/
theorem exists_claimed {nowKey leaseUntil updatedAt : String} {t : List NotificationStoredRow} {ids : List ℤ}
    {ns : List StoredNotification} (h : List.Forall₂ (Claimed json nowKey leaseUntil updatedAt t) ids ns) {id : ℤ}
    (hid : id ∈ ids) :
    ∃ n ∈ ns, ∃ row ∈ t, row.id = id ∧ claimable nowKey row = true ∧ row.attempts + 1 < 2 ^ 63 ∧
      decodeNotificationRow json (row.claim leaseUntil updatedAt) = .ok n := by
  obtain ⟨n, hn, hclaimed⟩ := exists_of_mem_forall₂ h hid
  exact ⟨n, hn, hclaimed.exists_row⟩

/-! ### Completing, giving back and deleting -/

theorem ownedBy_iff {id expectedAttempt : ℤ} {row : NotificationStoredRow} :
    ownedBy id expectedAttempt row = true ↔ row.id = id ∧ row.status = "delivering" ∧ row.attempts = expectedAttempt := by
  simp [ownedBy, and_assoc]

/-- The update of an owned attempt. -/
theorem updateOwned_run_eq_ok {id expectedAttempt : ℤ} {f : NotificationStoredRow → NotificationStoredRow}
    (hf : ∀ r, (f r).id = r.id) {db db' : Database} (hunique : Table.Unique Row.rowid db.notificationOutbox)
    {n : StoredNotification} (h : (updateOwned json id expectedAttempt f).run db = .ok (n, db')) :
    (∃ row ∈ db.notificationOutbox, ownedBy id expectedAttempt row = true ∧
        decodeNotificationRow json (f row) = .ok n) ∧
      db' = db.mapOutbox (Table.updateWhere (fun r => r.id == id) f) ∧
      validateStoredNotificationReferences db n = .ok () := by
  simp only [updateOwned, Tx.read_bind, onOutbox, Tx.write_bind, Tx.ensure_bind_eq_ok_iff,
    loadNotification_run_eq_ok_iff] at h
  obtain ⟨hcount, row', hload, rfl, -, hdecode, hrefs⟩ := h
  have hpos : 0 < db.notificationOutbox.countP (ownedBy id expectedAttempt) := by
    rw [hcount]
    exact Nat.one_pos
  obtain ⟨row, hrow, howned⟩ := List.countP_pos_iff.mp hpos
  have hid : row.id = id := by
    simp only [ownedBy, Bool.and_eq_true, beq_iff_eq] at howned
    exact howned.1.1
  subst hid
  have hupdate : Table.updateWhere (ownedBy row.id expectedAttempt) f db.notificationOutbox =
      Table.updateWhere (fun r => r.id == row.id) f db.notificationOutbox := by
    rw [← updateWhere_rowid hunique hrow howned f]
    refine List.map_congr_left fun r _ => ?_
    simp [ownedBy, Bool.and_assoc]
  rw [Database.mapOutbox, hupdate] at hload
  have hfound := Table.byRowid_updateWhere (p := fun r => r.id == row.id) (f := f) hf
    (Table.byRowid_of_mem hunique hrow) (by simp)
  obtain rfl := Option.some.inj (hload.symm.trans hfound)
  refine ⟨⟨row, hrow, howned, hdecode⟩, ?_, hrefs⟩
  rw [Database.mapOutbox, Database.mapOutbox, hupdate]

/-- **Completing** returns a row that is already complete, or completes the delivering row of the attempt. -/
theorem markNotificationSent_run_eq_ok {id expectedAttempt : ℤ} {sentAt : OffsetDateTime} {clock : SystemTime}
    {db db' : Database} (hunique : Table.Unique Row.rowid db.notificationOutbox) {n : StoredNotification}
    (h : (markNotificationSent json id expectedAttempt sentAt clock).run db = .ok (n, db')) :
    (db' = db ∧ ∃ row ∈ db.notificationOutbox, row.id = id ∧ row.status = "sent" ∧ row.attempts = expectedAttempt) ∨
      ∃ sentAtText updatedAt,
        (∃ row ∈ db.notificationOutbox, ownedBy id expectedAttempt row = true ∧
          decodeNotificationRow json (row.complete sentAtText updatedAt) = .ok n) ∧
        db' = db.mapOutbox
          (Table.updateWhere (fun r => r.id == id) (NotificationStoredRow.complete sentAtText updatedAt)) ∧
        validateStoredNotificationReferences db n = .ok () := by
  simp only [markNotificationSent, Tx.ofResult_bind_eq_ok_iff] at h
  obtain ⟨_, -, sentAtText, -, updatedAt, -, hrest⟩ := h
  obtain ⟨existing, db₁, hload, hupdate⟩ := Tx.run_bind_eq_ok_iff.mp hrest
  obtain ⟨row, hrow, rfl, -, hdecode, -⟩ := loadNotification_run_eq_ok_iff.mp hload
  by_cases hdone : existing.status = .sent ∧ existing.attempts = expectedAttempt ∧
      existing.sentAt = some sentAt.toUtc
  · rw [if_pos hdone] at hupdate
    cases hupdate
    obtain ⟨hmem, hid⟩ := Table.byRowid_eq_some hrow
    have hholds := decodeNotificationRow_eq_ok hdecode
    refine Or.inl ⟨rfl, row, hmem, hid, ?_, hholds.attempts.symm.trans hdone.2.1⟩
    rw [hholds.status, hdone.1]
    rfl
  · rw [if_neg hdone, Tx.ensure_bind_eq_ok_iff] at hupdate
    exact Or.inr ⟨sentAtText, updatedAt, updateOwned_run_eq_ok
      (f := NotificationStoredRow.complete sentAtText updatedAt) (fun _ => rfl) hunique hupdate.2⟩

/-- **Giving back** makes the delivering row of the attempt pending again. -/
theorem rescheduleNotification_run_eq_ok {id expectedAttempt : ℤ} {availableAt : OffsetDateTime} {errorCode : String}
    {clock : SystemTime} {db db' : Database} (hunique : Table.Unique Row.rowid db.notificationOutbox)
    {n : StoredNotification}
    (h : (rescheduleNotification json id expectedAttempt availableAt errorCode clock).run db = .ok (n, db')) :
    ∃ availableAtText updatedAt, formatOffsetDatetime availableAt.toUtc = .ok availableAtText ∧
      (∃ row ∈ db.notificationOutbox, ownedBy id expectedAttempt row = true ∧
        decodeNotificationRow json (row.reschedule availableAtText errorCode updatedAt) = .ok n) ∧
      db' = db.mapOutbox (Table.updateWhere (fun r => r.id == id)
        (NotificationStoredRow.reschedule availableAtText errorCode updatedAt)) ∧
      validateStoredNotificationReferences db n = .ok () := by
  simp only [rescheduleNotification, Tx.ofResult_bind_eq_ok_iff] at h
  obtain ⟨_, -, availableAtText, havailable, updatedAt, -, code, hcode, hrest⟩ := h
  obtain ⟨existing, db₁, hload, hupdate⟩ := Tx.run_bind_eq_ok_iff.mp hrest
  obtain ⟨row, -, rfl, -⟩ := loadNotification_run_eq_ok_iff.mp hload
  have hsame := validateNotificationErrorCode_eq hcode
  subst hsame
  rw [Tx.ensure_bind_eq_ok_iff] at hupdate
  exact ⟨availableAtText, updatedAt, havailable, updateOwned_run_eq_ok
    (f := NotificationStoredRow.reschedule availableAtText code updatedAt) (fun _ => rfl) hunique hupdate.2⟩

theorem deleteNotificationById_run_eq_ok {id : ℤ} {db db' : Database} {u : Unit}
    (h : (deleteNotificationById id).run db = .ok (u, db')) :
    (∃ row ∈ db.notificationOutbox, row.id = id) ∧ db' = db.mapOutbox (Table.deleteWhere fun r => r.id == id) := by
  simp only [deleteNotificationById, Tx.read_bind, Tx.ensure_bind_eq_ok_iff, onOutbox, Tx.run_write, Except.ok.injEq,
    Prod.mk.injEq, true_and] at h
  obtain ⟨hsome, rfl⟩ := h
  obtain ⟨r, hr⟩ := Option.isSome_iff_exists.mp hsome
  exact ⟨⟨r, Table.byRowid_eq_some hr⟩, rfl⟩

end AgentVoice.Store

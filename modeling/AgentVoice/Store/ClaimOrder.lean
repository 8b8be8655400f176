import AgentVoice.Foundations.FirstElements
import AgentVoice.Store.Delivery
import Mathlib.Data.Prod.Lex
import Mathlib.Data.String.Basic

/-!
# The order of the claim

A claim selects with texts: it compares the keys of columns with the key of an instant, and sorts by them. What it
hands out is a statement about instants: the notifications that are due, the earliest first
(`claimNotifications_first`).
-/

namespace AgentVoice.Store

open AgentVoice.Foundations

variable {env : Environment} {json : TemplateJson} {db db' : Database}

/-- The notifications of the outbox, as they are read. -/
def Database.notifications (json : TemplateJson) (db : Database) : List StoredNotification :=
  db.notificationOutbox.filterMap fun row => (decodeNotificationRow json row).toOption

namespace StoredNotification

/-- Due at an instant: pending and available, or delivering under a lease that ran out. -/
def EligibleAt (now : OffsetDateTime) (n : StoredNotification) : Prop :=
  n.status = .pending ∧ n.availableAt.unixNanos ≤ now.unixNanos ∨
    n.status = .delivering ∧ ∃ lease ∈ n.leaseUntil, lease.unixNanos ≤ now.unixNanos

instance (now : OffsetDateTime) (n : StoredNotification) : Decidable (n.EligibleAt now) :=
  inferInstanceAs (Decidable (_ ∨ _))

/-- The place in the order of availability: by instant, then by id. -/
def place (n : StoredNotification) : ℤ ×ₗ ℤ := toLex (n.availableAt.unixNanos, n.id)

end StoredNotification

/-! ### Keys and instants -/

/-- **Keys are ordered strictly as instants are.** -/
theorem comparisonKey_lt_iff {t u : OffsetDateTime} (ht : t.YearWritable) (hu : u.YearWritable)
    (htutc : t.offsetSeconds = 0) (huutc : u.offsetSeconds = 0) :
    comparisonKey t < comparisonKey u ↔ t.unixNanos < u.unixNanos := by
  rw [← not_le, comparisonKey_le_iff hu ht huutc htutc, not_le]

theorem comparisonKey_eq_iff {t u : OffsetDateTime} (ht : t.YearWritable) (hu : u.YearWritable)
    (htutc : t.offsetSeconds = 0) (huutc : u.offsetSeconds = 0) :
    comparisonKey t = comparisonKey u ↔ t.unixNanos = u.unixNanos := by
  rw [le_antisymm_iff, le_antisymm_iff, comparisonKey_le_iff ht hu htutc huutc,
    comparisonKey_le_iff hu ht huutc htutc]

variable {row row' : NotificationStoredRow} {n n' : StoredNotification}

/-- The claim sorts rows by their places. -/
theorem claimOrder_iff (hn : row.Holds json n) (hn' : row'.Holds json n') :
    claimOrder row row' ↔ n.place ≤ n'.place := by
  obtain ⟨hutc, hformat⟩ := hn.availableAt
  obtain ⟨hutc', hformat'⟩ := hn'.availableAt
  have hyear := (utc_text hutc hformat).1
  have hyear' := (utc_text hutc' hformat').1
  rw [claimOrder, comparisonSql_eq_key hutc hformat, comparisonSql_eq_key hutc' hformat',
    comparisonKey_lt_iff hyear hyear' hutc hutc', comparisonKey_eq_iff hyear hyear' hutc hutc',
    StoredNotification.place, StoredNotification.place, Prod.Lex.toLex_le_toLex, hn.id, hn'.id]

/-- The key of the claim's own instant. -/
theorem nowKey_eq {now : OffsetDateTime} {nowKey : String}
    (h : formatNotificationComparisonDatetime now.toUtc = .ok nowKey) :
    now.toUtc.YearWritable ∧ nowKey = comparisonKey now.toUtc := by
  obtain ⟨text, htext, -⟩ := bind_eq_ok_iff.mp h
  have hnow : now.toUtc.toUtc.format = some text := formatOffsetDatetime_eq_ok_iff.mp htext
  exact ⟨(utc_text rfl hnow).1, (Except.ok.inj ((formatNotificationComparisonDatetime_eq hnow).symm.trans h)).symm⟩

theorem sql_le_nowKey_iff {t now : OffsetDateTime} {text nowKey : String} (hutc : t.offsetSeconds = 0)
    (hformat : t.format = some text) (h : formatNotificationComparisonDatetime now.toUtc = .ok nowKey) :
    notificationTimestampComparisonSql text ≤ nowKey ↔ t.unixNanos ≤ now.unixNanos := by
  obtain ⟨hyear, rfl⟩ := nowKey_eq h
  rw [comparisonSql_eq_key hutc hformat, comparisonKey_le_iff (utc_text hutc hformat).1 hyear hutc rfl]
  rfl

/-- The claim selects the rows that are due. -/
theorem claimable_iff (hn : row.Holds json n) {now : OffsetDateTime} {nowKey : String}
    (h : formatNotificationComparisonDatetime now.toUtc = .ok nowKey) :
    claimable nowKey row = true ↔ n.EligibleAt now := by
  have havailable := sql_le_nowKey_iff hn.availableAt.1 hn.availableAt.2 h
  have hstatus : ∀ s : NotificationStatus, row.status = s.asStr ↔ n.status = s := by
    intro s
    rw [hn.status]
    exact ⟨NotificationStatus.asStr_inj, congrArg _⟩
  have hlease : (row.leaseUntil.any fun lease => decide (notificationTimestampComparisonSql lease ≤ nowKey)) = true ↔
      ∃ lease ∈ n.leaseUntil, lease.unixNanos ≤ now.unixNanos := by
    have htranspose := hn.leaseUntil
    cases hrow : row.leaseUntil with
    | none =>
      rw [hrow, transpose_none, Except.ok.injEq] at htranspose
      rw [← htranspose]
      simp
    | some text =>
      cases hstored : n.leaseUntil with
      | none =>
        rw [hstored, transpose_eq_ok_none_iff, hrow] at htranspose
        cases htranspose
      | some lease =>
        rw [hstored, transpose_eq_ok_some_iff, hrow] at htranspose
        obtain ⟨text', htext, hparse⟩ := htranspose
        obtain rfl := Option.some.inj htext
        obtain ⟨hutc, hformat⟩ := parseCanonical_eq_ok_iff.mp hparse
        rw [Option.any_some, decide_eq_true_iff, sql_le_nowKey_iff hutc hformat h]
        simp
  rw [claimable, Bool.or_eq_true, Bool.and_eq_true, Bool.and_eq_true, hlease, decide_eq_true_iff, havailable,
    beq_iff_eq, beq_iff_eq, StoredNotification.EligibleAt]
  exact or_congr (and_congr_left' (hstatus .pending)) (and_congr_left' (hstatus .delivering))

/-! ### What the claim hands out -/

instance : Std.Total claimOrder where
  total r s := by
    unfold claimOrder
    rcases lt_trichotomy (notificationTimestampComparisonSql r.availableAt)
      (notificationTimestampComparisonSql s.availableAt) with hlt | heq | hgt
    · exact Or.inl (Or.inl hlt)
    · rcases le_total r.id s.id with hle | hle
      · exact Or.inl (Or.inr ⟨heq, hle⟩)
      · exact Or.inr (Or.inr ⟨heq.symm, hle⟩)
    · exact Or.inr (Or.inl hgt)

instance : IsTrans NotificationStoredRow claimOrder where
  trans r s q hrs hsq := by
    unfold claimOrder at hrs hsq ⊢
    rcases hrs with hrs | ⟨hrs, hid⟩ <;> rcases hsq with hsq | ⟨hsq, hid'⟩
    · exact Or.inl (hrs.trans hsq)
    · exact Or.inl (hsq ▸ hrs)
    · exact Or.inl (hrs ▸ hsq)
    · exact Or.inr ⟨hrs.trans hsq, hid.trans hid'⟩

/-- Every row of the outbox is read. -/
theorem exists_notification (hc : Consistent env db) {row : NotificationStoredRow} (hrow : row ∈ db.notificationOutbox) :
    ∃ n, decodeNotificationRow env.json row = .ok n := by
  obtain ⟨-, n, hn, -⟩ := hc.notificationOutbox.readable row hrow
  exact ⟨n, hn⟩

/-- Some rows of the outbox, and what is read from them. -/
theorem forall₂_read (hc : Consistent env db) {rows : List NotificationStoredRow}
    (hrows : ∀ row ∈ rows, row ∈ db.notificationOutbox) :
    List.Forall₂ (fun row n => decodeNotificationRow env.json row = .ok n) rows
      (rows.filterMap fun row => (decodeNotificationRow env.json row).toOption) :=
  forall₂_toOption fun row hrow => exists_notification hc (hrows row hrow)

/-- The due rows are the due notifications. -/
theorem filterMap_claimable (hc : Consistent env db) {now : OffsetDateTime} {nowKey : String}
    (h : formatNotificationComparisonDatetime now.toUtc = .ok nowKey) :
    (db.notificationOutbox.filter (claimable nowKey)).filterMap
        (fun row => (decodeNotificationRow env.json row).toOption) =
      (db.notifications env.json).filter fun n => decide (n.EligibleAt now) := by
  rw [Database.notifications, List.filterMap_filter, List.filter_filterMap]
  refine List.filterMap_congr fun row hrow => ?_
  obtain ⟨n, hn⟩ := exists_notification hc hrow
  have hsome : (decodeNotificationRow env.json row).toOption = some n := by rw [hn]; rfl
  have hdue := claimable_iff (decodeNotificationRow_eq_ok hn) h
  rw [hsome, Option.filter_some, Bool.eq_iff_iff.mpr (hdue.trans decide_eq_true_iff.symm)]

/-- The candidates of a claim, in their order. -/
def dueRows (nowKey : String) (t : List NotificationStoredRow) : List NotificationStoredRow :=
  (t.filter (claimable nowKey)).insertionSort claimOrder

theorem mem_of_mem_dueRows {nowKey : String} {t : List NotificationStoredRow} {row : NotificationStoredRow}
    (h : row ∈ dueRows nowKey t) : row ∈ t ∧ claimable nowKey row = true :=
  List.mem_filter.mp ((List.mem_insertionSort claimOrder).mp h)

/-- The notifications read from the candidates are those that are due, the earliest first. -/
theorem due_sorted (hc : Consistent env db) {nowKey : String} :
    ((dueRows nowKey db.notificationOutbox).filterMap
      fun row => (decodeNotificationRow env.json row).toOption).Pairwise fun n n' => n.place < n'.place := by
  have hids : (dueRows nowKey db.notificationOutbox).Pairwise fun r s => r.id ≠ s.id := by
    have hfilter : (db.notificationOutbox.filter (claimable nowKey)).Pairwise fun r s => r.id ≠ s.id :=
      hc.notification_id.filter _
    exact (List.perm_insertionSort claimOrder _).symm.pairwise hfilter fun h => h.symm
  have horder : (dueRows nowKey db.notificationOutbox).Pairwise claimOrder := List.pairwise_insertionSort _ _
  have hrows : ∀ row ∈ dueRows nowKey db.notificationOutbox, row ∈ db.notificationOutbox :=
    fun row hrow => (mem_of_mem_dueRows hrow).1
  refine pairwise_of_forall₂ (forall₂_read hc hrows) (horder.and hids) ?_
  rintro row - row' - n n' hn hn' ⟨hle, hne⟩
  have hholds := decodeNotificationRow_eq_ok hn
  have hholds' := decodeNotificationRow_eq_ok hn'
  refine lt_of_le_of_ne ((claimOrder_iff hholds hholds').mp hle) fun heq => hne ?_
  have hid : n.id = n'.id := congrArg (fun p => (ofLex p).2) heq
  exact hholds.id.symm.trans (hid.trans hholds'.id)

/-- What a claim returns for a row keeps its place. -/
theorem place_claim {leaseUntil updatedAt : String} (hn : row.Holds env.json n)
    (hn' : (row.claim leaseUntil updatedAt).Holds env.json n') : n'.place = n.place := by
  have havailable : n'.availableAt = n.availableAt := format_injective hn'.availableAt.2 hn.availableAt.2
  have hid : n'.id = n.id := hn'.id.trans hn.id.symm
  rw [StoredNotification.place, StoredNotification.place, havailable, hid]

/-- **A claim hands out the earliest due notifications**, as many as it may. -/
theorem claimNotifications_order (hc : Consistent env db) {now : OffsetDateTime} {limit : ℕ} {leaseDuration : ℤ}
    {clock : SystemTime} {ns : List StoredNotification}
    (h : (claimNotifications env.json now limit leaseDuration clock).run db = .ok (ns, db')) :
    IsFirst limit {p | ∃ n ∈ db.notifications env.json, n.EligibleAt now ∧ n.place = p}
        (ns.map StoredNotification.place) ∧
      ns.length = min limit ((db.notifications env.json).countP fun n => decide (n.EligibleAt now)) := by
  obtain ⟨nowKey, leaseUntil, updatedAt, hstarted, hall, -, -⟩ := claimNotifications_run_eq_ok hc.notification_id h
  have hrows : ∀ row ∈ dueRows nowKey db.notificationOutbox, row ∈ db.notificationOutbox :=
    fun row hrow => (mem_of_mem_dueRows hrow).1
  set due := (dueRows nowKey db.notificationOutbox).filterMap
    fun row => (decodeNotificationRow env.json row).toOption with hdue
  have hperm : due.Perm ((db.notifications env.json).filter fun n => decide (n.EligibleAt now)) := by
    rw [← filterMap_claimable hc hstarted.nowKey]
    exact (List.perm_insertionSort claimOrder _).filterMap _
  have hsorted : (due.map StoredNotification.place).Pairwise (· < ·) := List.pairwise_map.mpr (due_sorted hc)
  have hplaces : ns.map StoredNotification.place = (due.map StoredNotification.place).take limit := by
    have hread : List.Forall₂ (fun row n => decodeNotificationRow env.json row = .ok n)
        ((dueRows nowKey db.notificationOutbox).take limit) (due.take limit) :=
      List.forall₂_take limit (forall₂_read hc hrows)
    have hclaimed := List.forall₂_map_left_iff.mp hall
    rw [← List.map_take]
    refine map_eq_map_of_forall₂ hclaimed hread fun row hrow n n₀ hclaim hn₀ => ?_
    obtain ⟨row', hrow', hid, -, -, hn⟩ := hclaim.exists_row
    obtain rfl := hc.notification_id.eq hrow' (hrows row (List.mem_of_mem_take hrow)) hid
    exact place_claim (decodeNotificationRow_eq_ok hn₀) (decodeNotificationRow_eq_ok hn)
  have hmem : ∀ p, p ∈ due.map StoredNotification.place ↔
      p ∈ {p | ∃ n ∈ db.notifications env.json, n.EligibleAt now ∧ n.place = p} := by
    intro p
    simp only [List.mem_map, hperm.mem_iff, List.mem_filter, decide_eq_true_iff, Set.mem_ofPred_eq, and_assoc]
  refine ⟨hplaces ▸ isFirst_take hsorted hmem, ?_⟩
  have hlength := congrArg List.length hplaces
  rwa [List.length_map, List.length_take, List.length_map, hperm.length_eq, ← List.countP_eq_length_filter] at hlength

/-! ### A claim succeeds -/

/-- A row that a claim changed is read as the notification under its next attempt. -/
theorem decode_claim (hn : decodeNotificationRow json row = .ok n) {leaseUntil updatedAt updated : String}
    {lease : OffsetDateTime} (hlease : parseStoredNotificationTimestamp leaseUntil = .ok lease)
    (hupdated : validateStoredNotificationMetadataTimestamp updatedAt = .ok updated) :
    decodeNotificationRow json (row.claim leaseUntil updatedAt) =
      .ok { n with
        status := .delivering, leaseUntil := some lease, sentAt := none, lastErrorCode := none
        attempts := row.attempts + 1, updatedAt := updated } := by
  obtain ⟨_, hids, h⟩ := bind_eq_ok_iff.mp hn
  obtain ⟨key, hkey, h⟩ := bind_eq_ok_iff.mp h
  obtain ⟨_, hproposal, h⟩ := bind_eq_ok_iff.mp h
  obtain ⟨_, hmapping, h⟩ := bind_eq_ok_iff.mp h
  obtain ⟨kind, hkind, h⟩ := bind_eq_ok_iff.mp h
  obtain ⟨_, hrefs, h⟩ := bind_eq_ok_iff.mp h
  obtain ⟨recipient, hrecipient, h⟩ := bind_eq_ok_iff.mp h
  obtain ⟨payload, hpayload, h⟩ := bind_eq_ok_iff.mp h
  obtain ⟨fields, hfields, h⟩ := bind_eq_ok_iff.mp h
  obtain ⟨templateData, htemplate, h⟩ := bind_eq_ok_iff.mp h
  obtain ⟨status, -, h⟩ := bind_eq_ok_iff.mp h
  obtain ⟨availableAt, havailable, h⟩ := bind_eq_ok_iff.mp h
  obtain ⟨_, -, h⟩ := bind_eq_ok_iff.mp h
  obtain ⟨_, -, h⟩ := bind_eq_ok_iff.mp h
  obtain ⟨_, -, h⟩ := bind_eq_ok_iff.mp h
  obtain ⟨_, -, h⟩ := bind_eq_ok_iff.mp h
  obtain ⟨createdAt, hcreated, h⟩ := bind_eq_ok_iff.mp h
  obtain ⟨_, -, h⟩ := bind_eq_ok_iff.mp h
  obtain rfl := Except.ok.inj h
  rw [require_eq_ok_iff] at hids
  have hids' : 0 < row.id ∧ 0 ≤ row.attempts + 1 := ⟨hids.1, by omega⟩
  have hcolumns : StatusColumnsAgree .delivering (row.attempts + 1) (some lease) none none :=
    ⟨by omega, rfl, rfl, rfl⟩
  have hstatus : parseNotificationStatus "delivering" = .ok .delivering := rfl
  have hsome : transpose parseStoredNotificationTimestamp (some leaseUntil) = .ok (some lease) :=
    transpose_eq_ok_some_iff.mpr ⟨leaseUntil, rfl, hlease⟩
  have hnone : replaceError (transpose validateNotificationErrorCode none) (storedRecordInvalid "notification") =
      .ok none := rfl
  refine bind_eq_ok_iff.mpr ⟨(), require_of hids' _, ?_⟩
  refine bind_eq_ok_iff.mpr ⟨_, hkey, bind_eq_ok_iff.mpr ⟨_, hproposal, bind_eq_ok_iff.mpr ⟨_, hmapping, ?_⟩⟩⟩
  refine bind_eq_ok_iff.mpr ⟨_, hkind, bind_eq_ok_iff.mpr ⟨_, hrefs, bind_eq_ok_iff.mpr ⟨_, hrecipient, ?_⟩⟩⟩
  refine bind_eq_ok_iff.mpr ⟨_, hpayload, bind_eq_ok_iff.mpr ⟨_, hfields, bind_eq_ok_iff.mpr ⟨_, htemplate, ?_⟩⟩⟩
  refine bind_eq_ok_iff.mpr ⟨_, hstatus, bind_eq_ok_iff.mpr ⟨_, havailable, bind_eq_ok_iff.mpr ⟨_, hsome, ?_⟩⟩⟩
  refine bind_eq_ok_iff.mpr ⟨none, rfl, bind_eq_ok_iff.mpr ⟨none, hnone, ?_⟩⟩
  refine bind_eq_ok_iff.mpr ⟨(), require_of hcolumns _, ?_⟩
  exact bind_eq_ok_iff.mpr ⟨_, hcreated, bind_eq_ok_iff.mpr ⟨_, hupdated, rfl⟩⟩

/-- The arguments that a claim accepts. -/
def ClaimArguments (now : OffsetDateTime) (limit : ℕ) (leaseDuration : ℤ) : Prop :=
  (limit ≠ 0 ∧ limit < 2 ^ 63) ∧ 0 < leaseDuration ∧ now.toUtc.YearWritable ∧
    OffsetDateTime.YearWritable ⟨now.unixNanos + leaseDuration, 0⟩

instance (now : OffsetDateTime) (limit : ℕ) (leaseDuration : ℤ) : Decidable (ClaimArguments now limit leaseDuration) :=
  inferInstanceAs (Decidable (_ ∧ _))

theorem claimOne_run_of_claimable {nowKey leaseUntil updatedAt : String}
    (hunique : Table.Unique Row.rowid db.notificationOutbox) {row : NotificationStoredRow}
    (hrow : row ∈ db.notificationOutbox) (hclaimable : claimable nowKey row = true) {n : StoredNotification}
    (hfits : row.attempts + 1 < 2 ^ 63) (hn : decodeNotificationRow json (row.claim leaseUntil updatedAt) = .ok n)
    (hrefs : validateStoredNotificationReferences db n = .ok ()) :
    (claimOne json nowKey leaseUntil updatedAt row.id).run db = .ok (n, db.mapOutbox
      (Table.updateWhere (fun r => r.id == row.id) (NotificationStoredRow.claim leaseUntil updatedAt))) := by
  have hcount : db.notificationOutbox.countP (fun r => r.id == row.id && claimable nowKey r) = 1 := by
    rw [← Table.countP_eq_one hunique hrow rfl]
    refine List.countP_congr fun r hr => ?_
    by_cases hid : r.id = row.id
    · obtain rfl := hunique.eq hr hrow hid
      simp [hclaimable]
    · have hrowid : Row.rowid r ≠ Row.rowid row := hid
      simp [hid, hrowid]
  have hupdate := updateWhere_rowid hunique hrow hclaimable (NotificationStoredRow.claim leaseUntil updatedAt)
  have hfound := Table.byRowid_updateWhere (p := fun r => r.id == row.id)
    (f := NotificationStoredRow.claim leaseUntil updatedAt) (fun _ => rfl) (Table.byRowid_of_mem hunique hrow) (by simp)
  simp only [claimOne, Tx.read_bind, onOutbox, Tx.write_bind]
  rw [Tx.ensure_bind_of hcount, loadNotification_run_eq_ok_iff, Database.mapOutbox, Database.mapOutbox, hupdate]
  exact ⟨_, hfound, rfl, hfits, hn, hrefs⟩

/-- The claim loop succeeds on rows that are due and that can be claimed. -/
theorem claimEach_run_of_claimable {nowKey leaseUntil updatedAt : String} {ids : List ℤ} (hnodup : ids.Nodup)
    (hunique : Table.Unique Row.rowid db.notificationOutbox)
    (hrows : ∀ id ∈ ids, ∃ row ∈ db.notificationOutbox, row.id = id ∧ claimable nowKey row = true ∧
      row.attempts + 1 < 2 ^ 63 ∧ ∃ n, decodeNotificationRow json (row.claim leaseUntil updatedAt) = .ok n ∧
        validateStoredNotificationReferences db n = .ok ()) :
    ∃ ns db', (claimEach json nowKey leaseUntil updatedAt ids).run db = .ok (ns, db') := by
  induction ids generalizing db with
  | nil => exact ⟨[], db, rfl⟩
  | cons id ids ih =>
    obtain ⟨hid, hdistinct⟩ := List.nodup_cons.mp hnodup
    obtain ⟨row, hrow, hrowid, hclaimable, hfits, n, hn, hrefs⟩ := hrows id List.mem_cons_self
    have hone := claimOne_run_of_claimable hunique hrow hclaimable hfits hn hrefs
    rw [hrowid] at hone
    have hunique₁ := hunique.updateWhere (p := fun r => r.id == id)
      (f := NotificationStoredRow.claim leaseUntil updatedAt) fun _ => rfl
    have hrest : ∃ ns db', (claimEach json nowKey leaseUntil updatedAt ids).run (db.mapOutbox
        (Table.updateWhere (fun r => r.id == id) (NotificationStoredRow.claim leaseUntil updatedAt))) = .ok (ns, db') := by
      refine ih hdistinct hunique₁ fun id' hid' => ?_
      obtain ⟨r, hr, rfl, hrest⟩ := hrows id' (List.mem_cons_of_mem _ hid')
      have hne : r.id ≠ id := fun heq => hid (heq ▸ hid')
      exact ⟨r, Table.mem_updateWhere.mpr (Or.inr ⟨hr, beq_eq_false_iff_ne.mpr hne⟩), rfl, hrest⟩
    obtain ⟨ns, db', hrest⟩ := hrest
    refine ⟨n :: ns, db', ?_⟩
    rw [claimEach, Tx.run_bind_of_ok hone, Tx.run_bind_of_ok hrest, Tx.run_pure]

theorem inRange_of_yearWritable {t : OffsetDateTime} (h : t.YearWritable) : t.InRange := by
  obtain ⟨hlow, hhigh⟩ := h
  simp only [OffsetDateTime.localNanos, epochNanos, calendarNanos] at hlow hhigh
  simp only [OffsetDateTime.InRange, second] at hlow hhigh ⊢
  omega

theorem format_of_yearWritable {t : OffsetDateTime} (hutc : t.offsetSeconds = 0) (h : t.YearWritable) :
    ∃ text, t.format = some text := by
  have hoffset : OffsetWritable t.offsetSeconds := by
    rw [hutc]
    decide
  exact ⟨_, if_pos ⟨h, hoffset⟩⟩

/-- **A claim with valid arguments succeeds**, unless the attempts of a due notification ran out. -/
theorem claimNotifications_succeeds (hunique : Table.Unique Row.rowid db.notificationOutbox)
    (hreadable : ∀ row ∈ db.notificationOutbox, Readable json db row) {now : OffsetDateTime} {limit : ℕ} {leaseDuration : ℤ}
    (harguments : ClaimArguments now limit leaseDuration)
    (hattempts : ∀ n ∈ db.notifications json, n.EligibleAt now → n.attempts + 1 < 2 ^ 63) (clock : SystemTime) :
    ∃ ns db', (claimNotifications json now limit leaseDuration clock).run db = .ok (ns, db') := by
  obtain ⟨hlimit, hduration, hnow, hlater⟩ := harguments
  obtain ⟨nowText, hnowText⟩ := format_of_yearWritable rfl hnow
  obtain ⟨leaseText, hleaseText⟩ := format_of_yearWritable rfl hlater
  obtain ⟨updatedAt, hupdatedAt⟩ := clock.exists_format
  have hadd : now.toUtc.checkedAdd leaseDuration = some ⟨now.unixNanos + leaseDuration, 0⟩ :=
    OffsetDateTime.checkedAdd_eq_some_iff.mpr ⟨rfl, inRange_of_yearWritable hlater⟩
  have hkey := formatNotificationComparisonDatetime_eq (t := now.toUtc) hnowText
  have hlease : parseStoredNotificationTimestamp leaseText = .ok ⟨now.unixNanos + leaseDuration, 0⟩ :=
    parseCanonical_eq_ok_iff.mpr ⟨rfl, hleaseText⟩
  have hupdated : validateStoredNotificationMetadataTimestamp updatedAt = .ok updatedAt :=
    bind_eq_ok_iff.mpr ⟨clock.instant,
      parseCanonical_eq_ok_iff.mpr ⟨clock.utc, formatOffsetDatetime_eq_ok_iff.mp hupdatedAt⟩,
      replaceError_eq_ok_iff.mpr hupdatedAt⟩
  have heach : ∃ ns db', (claimEach json (comparisonKey now.toUtc.toUtc) leaseText updatedAt
      (claimCandidates (comparisonKey now.toUtc.toUtc) limit db.notificationOutbox)).run db = .ok (ns, db') := by
    refine claimEach_run_of_claimable (claimCandidates_nodup hunique) hunique fun id hid => ?_
    obtain ⟨row, hrow, rfl⟩ := List.mem_map.mp hid
    obtain ⟨hmem, hclaimable⟩ := mem_of_mem_dueRows (List.mem_of_mem_take hrow)
    obtain ⟨-, n, hn, hrefs⟩ := hreadable row hmem
    have hholds := decodeNotificationRow_eq_ok hn
    have hread : n ∈ db.notifications json := List.mem_filterMap.mpr ⟨row, hmem, by rw [hn]; rfl⟩
    have hfits := hattempts n hread ((claimable_iff hholds hkey).mp hclaimable)
    exact ⟨row, hmem, rfl, hclaimable, hholds.attempts ▸ hfits, _, decode_claim hn hlease hupdated, hrefs⟩
  obtain ⟨ns, db', hrun⟩ := heach
  refine ⟨ns, db', ?_⟩
  rw [claimNotifications, Tx.ensure_bind_of hlimit, Tx.ensure_bind_of hduration,
    Tx.ofResult_bind_of_ok (okOr_eq_ok_iff.mpr hadd), Tx.ofResult_bind_of_ok hkey,
    Tx.ofResult_bind_of_ok (formatOffsetDatetime_eq_ok_iff.mpr hleaseText), Tx.ofResult_bind_of_ok hupdatedAt,
    Tx.read_bind, hrun]

/-- **The claim and its keys.** Keys are ordered strictly as instants are, the SQL expression computes the key of the
instant in a column, and hence a claim hands out the earliest due notifications, as many as it may. -/
theorem claimNotifications_first (env : Environment) :
    (∀ t u : OffsetDateTime, t.offsetSeconds = 0 → u.offsetSeconds = 0 → t.YearWritable → u.YearWritable →
      ∃ keyT keyU, formatNotificationComparisonDatetime t = .ok keyT ∧ formatNotificationComparisonDatetime u = .ok keyU ∧
        (keyT < keyU ↔ t.unixNanos < u.unixNanos)) ∧
      (∀ (t : OffsetDateTime) text, t.offsetSeconds = 0 → t.format = some text →
        formatNotificationComparisonDatetime t = .ok (notificationTimestampComparisonSql text)) ∧
      ∀ db, Reachable env db → ∀ now limit leaseDuration clock,
        (ClaimArguments now limit leaseDuration →
          (∀ n ∈ db.notifications env.json, n.EligibleAt now → n.attempts + 1 < 2 ^ 63) →
            ∃ ns db', (claimNotifications env.json now limit leaseDuration clock).run db = .ok (ns, db')) ∧
          ∀ ns db', (claimNotifications env.json now limit leaseDuration clock).run db = .ok (ns, db') →
            IsFirst limit {p | ∃ n ∈ db.notifications env.json, n.EligibleAt now ∧ n.place = p}
                (ns.map StoredNotification.place) ∧
              ns.length = min limit ((db.notifications env.json).countP fun n => decide (n.EligibleAt now)) := by
  refine ⟨fun t u htutc huutc ht hu => ?_, fun t text hutc hformat => ?_, fun db hdb now limit leaseDuration clock => ?_⟩
  · obtain ⟨textT, hformatT⟩ := format_of_yearWritable htutc ht
    obtain ⟨textU, hformatU⟩ := format_of_yearWritable huutc hu
    rw [← OffsetDateTime.toUtc_eq_self htutc] at hformatT
    rw [← OffsetDateTime.toUtc_eq_self huutc] at hformatU
    refine ⟨_, _, formatNotificationComparisonDatetime_eq hformatT, formatNotificationComparisonDatetime_eq hformatU, ?_⟩
    rw [OffsetDateTime.toUtc_eq_self htutc, OffsetDateTime.toUtc_eq_self huutc]
    exact comparisonKey_lt_iff ht hu htutc huutc
  · have hself := OffsetDateTime.toUtc_eq_self hutc
    rw [comparisonSql_eq_key hutc hformat, formatNotificationComparisonDatetime_eq (hself.symm ▸ hformat), hself]
  · refine ⟨fun harguments hattempts => ?_, fun ns db' hrun => claimNotifications_order hdb.consistent hrun⟩
    exact claimNotifications_succeeds hdb.consistent.notification_id hdb.consistent.notificationOutbox.readable harguments
      hattempts clock

/-- A summary that becomes available some time after the new year. -/
def summaryAfter (idempotencyKey : String) (nanos : ℤ) : EnqueueRequest :=
  { summaryRequest with idempotencyKey, availableAt := ⟨newYear.instant.unixNanos + nanos, 0⟩ }

/-- Three summaries, of which the one that is available first is handed out for a second. -/
def oneHandedOut : Database :=
  run callBackLibraries
    [.enqueueNotification (summaryAfter "key-1" 250000000) newYear, .enqueueNotification (summaryAfter "key-2" 0) newYear,
      .enqueueNotification (summaryAfter "key-3" 500000000) newYear, .claimNotifications newYear.instant 1 second newYear] .empty

/-- A second later it is handed out again, with the one that is next. -/
theorem claimNotifications_first_oneHandedOut :
    ∃ ns db', (claimNotifications callBackLibraries.json ⟨newYear.instant.unixNanos + second, 0⟩ 2 second newYear).run
        oneHandedOut = .ok (ns, db') ∧ ns.map (·.id) = [2, 1] ∧
      IsFirst 2 {p | ∃ n ∈ oneHandedOut.notifications callBackLibraries.json,
        n.EligibleAt ⟨newYear.instant.unixNanos + second, 0⟩ ∧ n.place = p} (ns.map StoredNotification.place) := by
  obtain ⟨hsucceeds, horder⟩ := (claimNotifications_first callBackLibraries).2.2 oneHandedOut ⟨_, rfl⟩
    ⟨newYear.instant.unixNanos + second, 0⟩ 2 second newYear
  have hruns : (∀ n ∈ oneHandedOut.notifications callBackLibraries.json,
        n.EligibleAt ⟨newYear.instant.unixNanos + second, 0⟩ → n.attempts + 1 < 2 ^ 63) ∧
      ((claimNotifications callBackLibraries.json ⟨newYear.instant.unixNanos + second, 0⟩ 2 second newYear).run
        oneHandedOut).toOption.map (fun r => r.1.map (·.id)) = some [2, 1] := by decide +kernel
  obtain ⟨hattempts, hclaimed⟩ := hruns
  obtain ⟨ns, db', hrun⟩ := hsucceeds (by decide) hattempts
  rw [hrun] at hclaimed
  exact ⟨ns, db', hrun, Option.some.inj hclaimed, (horder ns db' hrun).1⟩

end AgentVoice.Store

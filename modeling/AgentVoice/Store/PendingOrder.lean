import AgentVoice.Store.ClaimOrder

/-!
# The order of the pending list

`list_pending_notifications` sorts by the text of the availability, without the key that the claim sorts by. A text
without a fraction comes after the texts of the same second with one, and a shorter fraction after the longer ones
that begin with it: `Z` is greater than the point and the digits. Elsewhere both orders agree
(`listPendingNotifications_order_iff`).
-/

namespace AgentVoice.Store

open AgentVoice.Foundations

variable {env : Environment} {json : TemplateJson} {db db' : Database}

/-! ### Texts of instants -/

/-- The text of an instant in UTC, without its `Z`. -/
def instantText (t : OffsetDateTime) : List Char := wholeText t.fields ++ fractionText t.fields.nanos

theorem digit_bounds {n : ℕ} (h : n < 10 ^ 9) {c : Char} (hc : c ∈ trimZeros (decimal 9 n)) : '0' ≤ c ∧ c < 'Z' := by
  have hdigit := isDigit_of_mem_decimal h (mem_of_mem_trimZeros hc)
  simp only [Char.isDigit, Bool.and_eq_true, decide_eq_true_iff] at hdigit
  exact ⟨hdigit.1, lt_of_le_of_lt hdigit.2 (by decide)⟩

/-- The fractions of one second. -/
theorem fractionText_end_lt {n m : ℕ} (hm : m < 10 ^ 9) (hlt : n < m) :
    (fractionText n <+: fractionText m → fractionText m ++ ['Z'] < fractionText n ++ ['Z']) ∧
      (¬ fractionText n <+: fractionText m → fractionText n ++ ['Z'] < fractionText m ++ ['Z']) := by
  have hn : n < 10 ^ 9 := hlt.trans hm
  have hmzero : m ≠ 0 := by omega
  by_cases hzero : n = 0
  · subst hzero
    rw [fractionText, fractionText, if_pos rfl, if_neg hmzero]
    refine ⟨fun _ => ?_, fun hnot => absurd List.nil_prefix hnot⟩
    exact List.cons_lt_cons_iff.mpr (Or.inl (by decide))
  · obtain ⟨k, hk⟩ := trimZeros_append_replicate (decimal 9 n)
    obtain ⟨l, hl⟩ := trimZeros_append_replicate (decimal 9 m)
    have hlength : (trimZeros (decimal 9 n)).length + k = (trimZeros (decimal 9 m)).length + l := by
      have hn' := congrArg List.length hk
      have hm' := congrArg List.length hl
      rw [length_decimal, List.length_append, List.length_replicate] at hn' hm'
      omega
    have hdecimal : trimZeros (decimal 9 n) ++ List.replicate k '0' < trimZeros (decimal 9 m) ++ List.replicate l '0' := by
      rw [← hk, ← hl]
      exact (decimal_lt_iff hn hm).mpr hlt
    obtain ⟨hbegins, hnot⟩ := fraction_end_lt (fun c hc => (digit_bounds hn hc).1)
      (fun c hc => (digit_bounds hm hc).2) hlength hdecimal
    rw [fractionText, fractionText, if_neg hzero, if_neg hmzero, List.cons_prefix_cons]
    simp only [true_and, List.cons_append, List.cons_lt_cons_self]
    exact ⟨hbegins, hnot⟩

/-- The date and time are compared before the rest of a text. -/
theorem wholeText_append_lt_iff {t u : OffsetDateTime} (ht : t.YearWritable) (hu : u.YearWritable) {s s' : List Char} :
    wholeText t.fields ++ s < wholeText u.fields ++ s' ↔
      t.localSeconds < u.localSeconds ∨ t.localSeconds = u.localSeconds ∧ s < s' := by
  rw [append_lt_append_iff (by simp), OffsetDateTime.wholeText_lt_iff ht hu, OffsetDateTime.wholeText_eq_iff ht hu]

/-- **The text order of instants**: the earlier instant comes first, unless its text begins the other one. -/
theorem format_text_lt {t u : OffsetDateTime} {a b : String} (htutc : t.offsetSeconds = 0) (huutc : u.offsetSeconds = 0)
    (ha : t.format = some a) (hb : u.format = some b) (hlt : t.unixNanos < u.unixNanos) :
    (instantText t <+: instantText u → b < a) ∧ (¬ instantText t <+: instantText u → a < b) := by
  obtain ⟨ht, hta⟩ := utc_text htutc ha
  obtain ⟨hu, hub⟩ := utc_text huutc hb
  rw [String.lt_iff, String.lt_iff, hta, hub, wholeText_append_lt_iff ht hu, wholeText_append_lt_iff hu ht]
  have hlocal : t.localNanos < u.localNanos := by
    simp only [OffsetDateTime.localNanos, htutc, huutc]
    omega
  have hnanos : t.fields.nanos = t.localNanos.toNat % 1000000000 := rfl
  have hnanos' : u.fields.nanos = u.localNanos.toNat % 1000000000 := rfl
  have hpos := ht.1
  by_cases hsecond : t.localSeconds = u.localSeconds
  · have hfraction : t.fields.nanos < u.fields.nanos := by
      simp only [OffsetDateTime.localSeconds] at hsecond
      omega
    have hwhole := (OffsetDateTime.wholeText_eq_iff ht hu).mpr hsecond
    rw [instantText, instantText, hwhole, List.prefix_append_right_inj]
    obtain ⟨hbegins, hnot⟩ := fractionText_end_lt (fields_nanos_lt u) hfraction
    exact ⟨fun h => Or.inr ⟨hsecond.symm, hbegins h⟩, fun h => Or.inr ⟨hsecond, hnot h⟩⟩
  · have hearlier : t.localSeconds < u.localSeconds := by
      simp only [OffsetDateTime.localSeconds] at hsecond ⊢
      omega
    refine ⟨fun h => absurd ?_ hsecond, fun _ => Or.inl hearlier⟩
    rw [← OffsetDateTime.wholeText_eq_iff ht hu]
    have hprefix : wholeText t.fields <+: wholeText u.fields :=
      List.prefix_of_prefix_length_le ((List.prefix_append _ _).trans h) (List.prefix_append _ _) (by simp)
    exact hprefix.eq_of_length (by simp)

/-! ### The list -/

/-- The pending notifications of the outbox. -/
def Database.pending (json : TemplateJson) (db : Database) : List StoredNotification :=
  (db.notifications json).filter (·.status = .pending)

/-- The list returns the pending notifications, in the order of their availability instants and ids. -/
def ListsInOrder (json : TemplateJson) (db : Database) : Prop :=
  ∃ ns, (listPendingNotifications json).run db = .ok (ns, db) ∧ ns.Perm (db.pending json) ∧
    ns.Pairwise fun n n' => n.place < n'.place

/-- The notification is available before the other one, and the text of its instant begins that of the other. -/
def StoredNotification.BeginsText (n n' : StoredNotification) : Prop :=
  n.availableAt.unixNanos < n'.availableAt.unixNanos ∧ instantText n.availableAt <+: instantText n'.availableAt

instance (n n' : StoredNotification) : Decidable (n.BeginsText n') := inferInstanceAs (Decidable (_ ∧ _))

instance : Std.Total listOrder where
  total r s := by
    unfold listOrder
    rcases lt_trichotomy r.availableAt s.availableAt with hlt | heq | hgt
    · exact Or.inl (Or.inl hlt)
    · rcases le_total r.id s.id with hle | hle
      · exact Or.inl (Or.inr ⟨heq, hle⟩)
      · exact Or.inr (Or.inr ⟨heq.symm, hle⟩)
    · exact Or.inr (Or.inl hgt)

instance : IsTrans NotificationStoredRow listOrder where
  trans r s q hrs hsq := by
    unfold listOrder at hrs hsq ⊢
    rcases hrs with hrs | ⟨hrs, hid⟩ <;> rcases hsq with hsq | ⟨hsq, hid'⟩
    · exact Or.inl (hrs.trans hsq)
    · exact Or.inl (hsq ▸ hrs)
    · exact Or.inl (hrs ▸ hsq)
    · exact Or.inr ⟨hrs.trans hsq, hid.trans hid'⟩

theorem readEach_run (hreadable : ∀ row ∈ db.notificationOutbox, Readable json db row) {rows : List NotificationStoredRow}
    (hrows : ∀ row ∈ rows, row ∈ db.notificationOutbox) :
    (readEach json rows).run db =
      .ok (rows.filterMap fun row => (decodeNotificationRow json row).toOption, db) := by
  induction rows with
  | nil => rfl
  | cons row rows ih =>
    obtain ⟨hfits, n, hn, hrefs⟩ := hreadable row (hrows row List.mem_cons_self)
    have hread := readNotification_run_eq_ok_iff.mpr ⟨rfl, hfits, hn, hrefs⟩
    have hrest := ih fun r hr => hrows r (List.mem_cons_of_mem _ hr)
    rw [readEach, Tx.run_bind_of_ok hread, Tx.run_bind_of_ok hrest, Tx.run_pure,
      List.filterMap_cons_some (b := n) (by rw [hn]; rfl)]

theorem mem_of_mem_pendingRows {t : List NotificationStoredRow} {row : NotificationStoredRow} (h : row ∈ pendingRows t) :
    row ∈ t := List.mem_of_mem_filter ((List.mem_insertionSort listOrder).mp h)

/-- The list returns the pending notifications in the order of the texts. -/
theorem listPendingNotifications_run (hreadable : ∀ row ∈ db.notificationOutbox, Readable json db row) :
    (listPendingNotifications json).run db =
      .ok ((pendingRows db.notificationOutbox).filterMap fun row => (decodeNotificationRow json row).toOption, db) := by
  rw [listPendingNotifications, Tx.read_bind]
  exact readEach_run hreadable fun row hrow => mem_of_mem_pendingRows hrow

theorem pendingRows_perm (hc : Consistent env db) :
    ((pendingRows db.notificationOutbox).filterMap fun row => (decodeNotificationRow env.json row).toOption).Perm
      (db.pending env.json) := by
  refine ((List.perm_insertionSort listOrder _).filterMap _).trans (List.Perm.of_eq ?_)
  rw [Database.pending, Database.notifications, List.filterMap_filter, List.filter_filterMap]
  refine List.filterMap_congr fun row hrow => ?_
  obtain ⟨n, hn⟩ := exists_notification hc hrow
  have hsome : (decodeNotificationRow env.json row).toOption = some n := by rw [hn]; rfl
  have hstatus : (row.status == "pending") = decide (n.status = .pending) := by
    rw [(decodeNotificationRow_eq_ok hn).status, Bool.eq_iff_iff, beq_iff_eq, decide_eq_true_iff]
    exact ⟨fun h => NotificationStatus.asStr_inj (t := .pending) h, fun h => h ▸ rfl⟩
  rw [hsome, Option.filter_some, hstatus]

/-- The listed notifications are in the order of their texts. -/
theorem pendingRows_sorted (hc : Consistent env db) :
    (pendingRows db.notificationOutbox).Pairwise fun r s => listOrder r s ∧ r.id ≠ s.id := by
  have hids : (pendingRows db.notificationOutbox).Pairwise fun r s => r.id ≠ s.id := by
    have hfilter : (db.notificationOutbox.filter (·.status == "pending")).Pairwise fun r s => r.id ≠ s.id :=
      hc.notification_id.filter _
    exact (List.perm_insertionSort listOrder _).symm.pairwise hfilter fun h => h.symm
  exact (List.pairwise_insertionSort listOrder _).and hids

variable {row row' : NotificationStoredRow} {n n' : StoredNotification}

theorem text_lt_of_begins (hn : row.Holds env.json n) (hn' : row'.Holds env.json n') (h : n.BeginsText n') :
    row'.availableAt < row.availableAt :=
  (format_text_lt hn.availableAt.1 hn'.availableAt.1 hn.availableAt.2 hn'.availableAt.2 h.1).1 h.2

/-- Where no text begins another, the order of texts is that of places. -/
theorem place_lt_of_listOrder (hn : row.Holds env.json n) (hn' : row'.Holds env.json n') (hnot : ¬ n'.BeginsText n)
    (horder : listOrder row row') (hids : row.id ≠ row'.id) : n.place < n'.place := by
  rw [StoredNotification.place, StoredNotification.place, Prod.Lex.toLex_lt_toLex]
  rcases horder with hlt | ⟨heq, hle⟩
  · rcases lt_trichotomy n.availableAt.unixNanos n'.availableAt.unixNanos with hearlier | hsame | hlater
    · exact Or.inl hearlier
    · have hinstant : n.availableAt = n'.availableAt := by
        rw [← OffsetDateTime.toUtc_eq_self hn.availableAt.1, ← OffsetDateTime.toUtc_eq_self hn'.availableAt.1,
          OffsetDateTime.toUtc, OffsetDateTime.toUtc, hsame]
      have htext : row.availableAt = row'.availableAt :=
        Option.some.inj (hn.availableAt.2.symm.trans (hinstant ▸ hn'.availableAt.2))
      exact absurd hlt (htext ▸ lt_irrefl _)
    · have hgt := (format_text_lt hn'.availableAt.1 hn.availableAt.1 hn'.availableAt.2 hn.availableAt.2 hlater).2
        fun hprefix => hnot ⟨hlater, hprefix⟩
      exact absurd hgt (lt_asymm hlt)
  · have hinstant : n.availableAt = n'.availableAt :=
      format_injective hn.availableAt.2 (heq ▸ hn'.availableAt.2)
    refine Or.inr ⟨congrArg OffsetDateTime.unixNanos hinstant, ?_⟩
    rw [hn.id, hn'.id]
    exact lt_of_le_of_ne hle hids

/-- **When the list is in order.** The pending notifications are listed in the order of their availability instants and
ids, as the claim takes them, exactly when of no two of them the earlier one's text, without its `Z`, begins the
other's. -/
theorem listPendingNotifications_order_iff (h : Reachable env db) :
    ListsInOrder env.json db ↔ ∀ n ∈ db.pending env.json, ∀ n' ∈ db.pending env.json, ¬ n.BeginsText n' := by
  have hc := h.consistent
  have hperm := pendingRows_perm hc
  have hread := forall₂_read hc fun row hrow => mem_of_mem_pendingRows hrow
  have hrun := listPendingNotifications_run hc.notificationOutbox.readable
  set ns := (pendingRows db.notificationOutbox).filterMap fun row => (decodeNotificationRow env.json row).toOption
  constructor
  · rintro ⟨listed, hrun', -, hplaces⟩ n hn n' hn' hbegins
    obtain rfl : listed = ns := congrArg Prod.fst (Except.ok.inj (hrun'.symm.trans hrun))
    have htexts : ns.Pairwise fun n n' => ¬ n.BeginsText n' := by
      refine pairwise_of_forall₂ hread (pendingRows_sorted hc) ?_
      rintro row - row' - n n' hn hn' ⟨horder, -⟩ hbegins
      have hlt := text_lt_of_begins (decodeNotificationRow_eq_ok hn) (decodeNotificationRow_eq_ok hn') hbegins
      rcases horder with hgt | ⟨heq, -⟩
      · exact lt_asymm hlt hgt
      · exact absurd hlt (heq ▸ lt_irrefl _)
    -- of two listed notifications neither begins the other: the second one is not even earlier
    have hneither : ns.Pairwise fun n n' => ¬ n.BeginsText n' ∧ ¬ n'.BeginsText n := by
      refine (htexts.and hplaces).imp fun {n n'} h => ⟨h.1, fun hback => ?_⟩
      rw [StoredNotification.place, StoredNotification.place, Prod.Lex.toLex_lt_toLex] at h
      have hback' := hback.1
      omega
    have hself : ∀ n ∈ ns, ¬ n.BeginsText n ∧ ¬ n.BeginsText n := fun n _ =>
      ⟨fun h => lt_irrefl _ h.1, fun h => lt_irrefl _ h.1⟩
    have hsymm : Std.Symm fun n n' : StoredNotification => ¬ n.BeginsText n' ∧ ¬ n'.BeginsText n := ⟨fun _ _ h => h.symm⟩
    exact (hneither.forall_of_forall hself (hperm.mem_iff.mpr hn) (hperm.mem_iff.mpr hn')).1 hbegins
  · intro hnot
    refine ⟨ns, hrun, hperm, pairwise_of_forall₂ hread (pendingRows_sorted hc) ?_⟩
    rintro row hrow row' hrow' n n' hn hn' ⟨horder, hids⟩
    have hmem : ∀ {row n}, row ∈ pendingRows db.notificationOutbox → decodeNotificationRow env.json row = .ok n →
        n ∈ db.pending env.json := fun {row n} hrow hn =>
      hperm.mem_iff.mp (List.mem_filterMap.mpr ⟨row, hrow, by rw [hn]; rfl⟩)
    exact place_lt_of_listOrder (decodeNotificationRow_eq_ok hn) (decodeNotificationRow_eq_ok hn')
      (hnot n' (hmem hrow' hn') n (hmem hrow hn)) horder hids

/-- Three summaries that become available in turn. -/
def threeSummaries : Database :=
  run callBackLibraries
    [.enqueueNotification (summaryAfter "key-1" 500000000) newYear,
      .enqueueNotification (summaryAfter "key-2" 250000000) newYear,
      .enqueueNotification (summaryAfter "key-3" second) newYear] .empty

theorem listPendingNotifications_order_iff_threeSummaries :
    ListsInOrder callBackLibraries.json threeSummaries ∧ (threeSummaries.pending callBackLibraries.json).length = 3 :=
  ⟨(listPendingNotifications_order_iff ⟨_, rfl⟩).mpr (by decide +kernel), by decide +kernel⟩

/-- Two summaries, the second of which becomes available half a second later. -/
def twoSummaries : Database :=
  run callBackLibraries
    [.enqueueNotification (summaryAfter "key-1" 0) newYear, .enqueueNotification (summaryAfter "key-2" 500000000) newYear] .empty

/-- The summary that is available at once is listed after the one that is available half a second later. -/
theorem listPendingNotifications_outOfOrder :
    Reachable callBackLibraries twoSummaries ∧
      ((listPendingNotifications callBackLibraries.json).run twoSummaries).toOption.map
          (fun r => r.1.map fun n => (n.id, n.availableAt.unixNanos - newYear.instant.unixNanos)) =
        some [(2, 500000000), (1, 0)] ∧
      ¬ ListsInOrder callBackLibraries.json twoSummaries := by
  have hlisted : ((listPendingNotifications callBackLibraries.json).run twoSummaries).toOption.map
      (fun r => r.1.map fun n => (n.id, n.availableAt.unixNanos - newYear.instant.unixNanos)) =
        some [(2, 500000000), (1, 0)] := by decide +kernel
  refine ⟨⟨_, rfl⟩, hlisted, ?_⟩
  rintro ⟨ns, hrun, -, hplaces⟩
  rw [hrun] at hlisted
  have hns : ns.map (fun n => (n.id, n.availableAt.unixNanos - newYear.instant.unixNanos)) = [(2, 500000000), (1, 0)] :=
    Option.some.inj hlisted
  have hordered : (ns.map fun n => (n.id, n.availableAt.unixNanos - newYear.instant.unixNanos)).Pairwise
      fun p q => p.2 < q.2 ∨ p.2 = q.2 ∧ p.1 < q.1 := by
    refine List.pairwise_map.mpr (hplaces.imp fun {n n'} hlt => ?_)
    rw [StoredNotification.place, StoredNotification.place, Prod.Lex.toLex_lt_toLex] at hlt
    simp only
    omega
  rw [hns] at hordered
  exact absurd hordered (by decide)

end AgentVoice.Store

import AgentVoice.Store.Delivery

/-!
# Enqueueing again

A notification keeps its content over a run; only a reschedule writes its availability. Enqueueing it again with the
same arguments compares both, so it finds the notification exactly when its availability is still the one asked for.
-/

namespace AgentVoice.Store

open AgentVoice.Foundations AgentVoice.Domain

variable {env : Environment} {db db' : Database}

/-- A notification with an id is there. -/
def HasNotification (id : ℤ) (db : Database) : Prop := ∃ row ∈ db.notificationOutbox, row.id = id

instance (id : ℤ) (db : Database) : Decidable (HasNotification id db) := inferInstanceAs (Decidable (∃ _ ∈ _, _))

/-- Moves keep the content of a notification. -/
theorem NotificationStoredRow.Moves.sameContent {r r' : NotificationStoredRow} {c : Command} (h : r.Moves c r') :
    r.SameContent r' := by
  cases h <;> exact ⟨rfl, rfl, rfl, rfl, rfl, rfl, rfl⟩

/-- A call that gives a notification back for no other instant. -/
def Command.KeepsAvailability (id : ℤ) (availableAt : OffsetDateTime) : Command → Prop
  | .rescheduleNotification id' _ availableAt' _ _ => id' = id → availableAt'.toUtc = availableAt.toUtc
  | _ => True

/-- What moves keep of the availability of a notification. -/
theorem NotificationStoredRow.Moves.availableAt {r r' : NotificationStoredRow} {c : Command} (h : r.Moves c r')
    {t : OffsetDateTime} (hc : c.KeepsAvailability r.id t) (ht : formatOffsetDatetime t.toUtc = .ok r.availableAt) :
    r'.availableAt = r.availableAt := by
  cases h with
  | claimed | completed => rfl
  | rescheduled howned htext =>
    rw [hc (ownedBy_iff.mp howned).1.symm] at htext
    exact Except.ok.inj (htext.symm.trans ht)

/-- **A notification that stays keeps its content.** -/
theorem run_sameContent (h : Reachable env db) {row : NotificationStoredRow} (hrow : row ∈ db.notificationOutbox)
    {cs : List Command} (hstays : Machine.Throughout (step env) (HasNotification row.id) cs db) :
    ∃ row' ∈ (run env cs db).notificationOutbox, row.SameContent row' := by
  refine Machine.run_keeps (I := Consistent env) (R := fun _ => True)
    (Q := fun db => ∃ row' ∈ db.notificationOutbox, row.SameContent row')
    (fun c s hs => (step_changes hs c).consistent hs) (fun c s hs _ _ hnext hQ => ?_) h.consistent (fun _ _ => trivial) hstays
    ⟨row, hrow, .refl row⟩
  obtain ⟨r, hr, hsame⟩ := hQ
  obtain ⟨r', hr', hid⟩ := hnext
  refine ⟨r', hr', ?_⟩
  rcases step_notification hs c hr hr' (hid.trans hsame.id.symm) with rfl | hmoves
  · exact hsame
  · exact hsame.trans hmoves.sameContent

/-- A notification that is given back for no other instant keeps its availability, too. -/
theorem run_sameRequest (h : Reachable env db) {row : NotificationStoredRow} (hrow : row ∈ db.notificationOutbox)
    {t : OffsetDateTime} (ht : formatOffsetDatetime t.toUtc = .ok row.availableAt) {cs : List Command}
    (hcs : ∀ c ∈ cs, c.KeepsAvailability row.id t)
    (hstays : Machine.Throughout (step env) (HasNotification row.id) cs db) :
    ∃ row' ∈ (run env cs db).notificationOutbox, row.SameRequest row' := by
  refine Machine.run_keeps (I := Consistent env) (R := fun c => c.KeepsAvailability row.id t)
    (Q := fun db => ∃ row' ∈ db.notificationOutbox, row.SameRequest row')
    (fun c s hs => (step_changes hs c).consistent hs) (fun c s hs hc _ hnext hQ => ?_) h.consistent hcs hstays
    ⟨row, hrow, .refl row⟩
  obtain ⟨r, hr, hsame⟩ := hQ
  obtain ⟨r', hr', hid⟩ := hnext
  refine ⟨r', hr', ?_⟩
  rcases step_notification hs c hr hr' (hid.trans hsame.id.symm) with rfl | hmoves
  · exact hsame
  · rw [← hsame.id] at hc
    exact hsame.trans ⟨hmoves.sameContent, hmoves.availableAt hc (hsame.availableAt ▸ ht)⟩

/-- What a call that succeeded asked for is ready again where the notification is there. -/
theorem EnqueueRequest.Ready.again {r : EnqueueRequest} {key : IdempotencyKey} {availableAt : String}
    (h : r.Ready db key availableAt) {n : StoredNotification} (hproposal : n.proposalId = r.proposalId)
    (hmapping : n.eventMappingId = r.eventMappingId) (hrefs : validateStoredNotificationReferences db' n = .ok ()) :
    r.Ready db' key availableAt := by
  obtain ⟨hpos, hpos', hrequired, hnone, -, -⟩ := h.references
  obtain ⟨hexists, hmatches⟩ := validateStoredNotificationReferences_eq_ok_iff.mp hrefs
  rw [hproposal] at hexists hmatches
  rw [hmapping] at hmatches
  exact ⟨h.key, h.availableAt, hpos, hpos', hrequired, hnone, hexists, hmatches⟩

/-- What enqueueing again does with a notification of the same content. -/
theorem enqueueNotification_again (hc : Consistent env db') {r : EnqueueRequest} {key : IdempotencyKey}
    {availableAt : String} (hready : r.Ready db key availableAt) {row row' : NotificationStoredRow}
    (hrow' : row' ∈ db'.notificationOutbox) (hcontent : row.SameContent row') (hkey : row.idempotencyKey = trim r.idempotencyKey)
    {n : StoredNotification} (hn : decodeNotificationRow env.json row = .ok n) (hsame : r.SameAs n) (clock : SystemTime) :
    (∃ m, (enqueueNotification env.json r clock).run db' = .ok (m, db') ∧ m.id = n.id) ↔
      formatOffsetDatetime r.availableAt.toUtc = .ok row'.availableAt := by
  obtain ⟨hfits, m, hm, hrefs⟩ := hc.notificationOutbox.readable row' hrow'
  obtain ⟨hid, hproposal, hmapping, hkind, hrecipient, htemplate⟩ := hcontent.decoded hn hm
  obtain ⟨h₁, h₂, h₃, h₄, h₅, -⟩ := hsame
  have hfound := Table.byKey_of_mem hc.notification_key hrow'
  rw [hcontent.idempotencyKey, hkey, ← (storeKey_eq_ok_iff.mp hready.key).2] at hfound
  have hready' := hready.again (hproposal.trans h₁) (hmapping.trans h₂) hrefs
  have hrun := enqueueNotification_run_existing clock hready' hfound hfits hm hrefs
  obtain ⟨hutc, hformat⟩ := (decodeNotificationRow_eq_ok hm).availableAt
  rw [formatOffsetDatetime_eq_ok_iff]
  constructor
  · rintro ⟨m', hagain, -⟩
    by_cases hsame : r.SameAs m
    · rw [← hsame.2.2.2.2.2]
      exact hformat
    · rw [hrun, if_neg hsame] at hagain
      cases hagain
  · intro hwritten
    have hsame : r.SameAs m := ⟨hproposal.trans h₁, hmapping.trans h₂, hkind.trans h₃, hrecipient.trans h₄,
      htemplate.trans h₅, format_injective hformat hwritten⟩
    exact ⟨m, hrun.trans (if_pos hsame), hid⟩

/-- **When enqueueing again finds the notification.** From any state and over any run of calls in which the
notification stays, the same call returns it and changes nothing if and only if its availability is the one asked for;
and it is where no call gave it back for another instant. -/
theorem enqueueNotification_retry_iff (hjson : env.json.RoundTrips) (h : Reachable env db) {r : EnqueueRequest}
    {clock : SystemTime} {n : StoredNotification} (hrun : (enqueueNotification env.json r clock).run db = .ok (n, db'))
    {cs : List Command} (hstays : Machine.Throughout (step env) (HasNotification n.id) cs db') (clock' : SystemTime) :
    ∃ row ∈ (run env cs db').notificationOutbox, row.id = n.id ∧
      ((∃ m, (enqueueNotification env.json r clock').run (run env cs db') = .ok (m, run env cs db') ∧ m.id = n.id) ↔
        formatOffsetDatetime r.availableAt.toUtc = .ok row.availableAt) ∧
      ((∀ c ∈ cs, c.KeepsAvailability n.id r.availableAt) →
        formatOffsetDatetime r.availableAt.toUtc = .ok row.availableAt) := by
  obtain ⟨key, availableAt, hready, -⟩ := enqueueNotification_run_eq_ok hrun
  obtain ⟨⟨row, hrow, hkey, n', hn', hid, hsame⟩, -⟩ := enqueueNotification_writes hjson hrun
  have hreachable : Reachable env db' := h.call (c := .enqueueNotification r clock) rfl hrun
  have hholds := decodeNotificationRow_eq_ok hn'
  have hrowid : row.id = n.id := hholds.id.symm.trans hid
  rw [← hrowid] at hstays
  obtain ⟨row', hrow', hcontent⟩ := run_sameContent hreachable hrow hstays
  have hc := (hreachable.run cs).consistent
  refine ⟨row', hrow', hcontent.id.trans hrowid, ?_, fun hcs => ?_⟩
  · rw [← hid]
    exact enqueueNotification_again hc hready hrow' hcontent hkey hn' hsame clock'
  · have hformat : formatOffsetDatetime r.availableAt.toUtc = .ok row.availableAt := by
      rw [formatOffsetDatetime_eq_ok_iff, ← hsame.2.2.2.2.2]
      exact hholds.availableAt.2
    rw [← hrowid] at hcs
    obtain ⟨row'', hrow'', hrequest⟩ := run_sameRequest hreachable hrow hformat hcs hstays
    obtain rfl := hc.notification_id.eq hrow' hrow'' (hcontent.id.trans hrequest.id.symm)
    rw [hrequest.availableAt]
    exact hformat

/-- A worker claims the summary and gives it back for a second later. -/
def givenBack : List Command :=
  [.claimNotifications newYear.instant 1 second newYear,
    .rescheduleNotification 1 1 ⟨newYear.instant.unixNanos + second, 0⟩ "timeout" newYear]

/-- The tables with the summary. -/
def withSummary : Database := step callBackLibraries (.enqueueNotification summaryRequest newYear) .empty

theorem enqueueNotification_withSummary : ∃ n, (enqueueNotification callBackLibraries.json summaryRequest newYear).run .empty =
    .ok (n, withSummary) ∧ n.id = 1 := by
  refine ⟨summaryRequest.stored "key-1" (strftimeNow newYear) 1, ?_, rfl⟩
  decide +kernel

theorem givenBack_stays : Machine.Throughout (step callBackLibraries) (HasNotification 1) givenBack withSummary := by
  refine ⟨by decide +kernel, by decide +kernel, ?_⟩
  show HasNotification 1 _
  decide +kernel

theorem enqueueNotification_retry_givenBack :
    ∃ row ∈ (run callBackLibraries givenBack withSummary).notificationOutbox, row.id = 1 ∧
      ((∃ m, (enqueueNotification callBackLibraries.json summaryRequest newYear).run
          (run callBackLibraries givenBack withSummary) = .ok (m, run callBackLibraries givenBack withSummary) ∧ m.id = 1) ↔
        formatOffsetDatetime summaryRequest.availableAt.toUtc = .ok row.availableAt) ∧
      ((∀ c ∈ givenBack, c.KeepsAvailability 1 summaryRequest.availableAt) →
        formatOffsetDatetime summaryRequest.availableAt.toUtc = .ok row.availableAt) := by
  obtain ⟨n, hrun, hid⟩ := enqueueNotification_withSummary
  have hstays := givenBack_stays
  rw [← hid] at hstays ⊢
  exact enqueueNotification_retry_iff (TemplateJson.writing_roundTrips _ _) ⟨[], rfl⟩ hrun hstays newYear

/-- A notification that was given back for a later instant is in conflict with the call that enqueued it. -/
theorem enqueueNotification_givenBack_conflict :
    ∃ n db', (enqueueNotification callBackLibraries.json summaryRequest newYear).run .empty = .ok (n, db') ∧
      Machine.Throughout (step callBackLibraries) (HasNotification n.id) givenBack db' ∧
      (enqueueNotification callBackLibraries.json summaryRequest newYear).run (run callBackLibraries givenBack db') =
        .error (.conflict "notification") := by
  obtain ⟨n, hrun, hid⟩ := enqueueNotification_withSummary
  refine ⟨n, withSummary, hrun, hid ▸ givenBack_stays, ?_⟩
  decide +kernel

end AgentVoice.Store

import AgentVoice.Availability.Recheck
import AgentVoice.Availability.Specification
import AgentVoice.PaService.SubmissionStages

/-!
# Submissions of requests converge

What attempts of `submit_request` do over time. The contract of one attempt (`submitRequest_triple`) follows the steps of the
saga; what it asks the calendars again is the recheck of the policy (`recheckCalendars_eq`). From it, in every history of
attempts and deliveries, the rows of a submission are written once, the event of its draft is created once, and only after
the quote was consumed and both calendars were free, and all attempts that succeed return the same
(`submitRequest_converges`).
-/

namespace AgentVoice.PaService

open AgentVoice.Foundations AgentVoice.Domain AgentVoice.Providers AgentVoice.Availability AgentVoice.Store

namespace Submission

variable {g : Submission} {db db' : Database} {Q : Database → Calendars → Prop} {since : Database} {buffer : ℤ}
  {before : List ProposalExchange} {c : Calendars}

/-! ### Admitting a request -/

/-- What was admitted is the quote with the draft, to the owner. -/
structure Admitted (g : Submission) (r : AdmittedRequest) : Prop where
  owner : r.owner = g.owner
  stored : r.stored = g.stored
  quoteId : r.quote.quote.id = g.quote.quote.id

/-- The proposal of a quote that was loaded is the one that it was consumed into. -/
def Loaded (g : Submission) (quote : StoredAppointmentQuote) (db : Database) : Prop :=
  ∀ p, quote.proposalId = some p → ConsumedInto g.service.env.timezones g.quote.quote.id p db

theorem Keeps.loaded (quote : StoredAppointmentQuote) : g.Keeps fun db _ => Loaded g quote db :=
  Keeps.forall fun p => (Keeps.consumed p).imp

/-- **The quote is found by its draft**, at any time. -/
theorem Underway.load (hopens : g.Opens) (h : g.Underway since before db c) {q : StoredAppointmentQuote}
    (hload : (loadAppointmentQuoteByDraftId g.service.env.timezones g.stored.id).run db = .ok (q, db')) :
    db' = db ∧ q.quote.id = g.quote.quote.id ∧ q.appointmentDraft = some g.stored ∧ Loaded g q db := by
  have hc := h.reachable.consistent
  obtain ⟨q', hq', hmoves⟩ := h.opened.changes.movesTo hopens.reachable.consistent hopens.quote
  have hdraft := hmoves.appointmentDraft _ hopens.draft
  have hrun := hc.loadAppointmentQuoteByDraftId_run hq' hdraft
  obtain ⟨rfl, rfl⟩ := Prod.mk.inj (Except.ok.inj (hload.symm.trans hrun))
  exact ⟨rfl, by rw [hmoves.quote], hdraft, fun p hp => ⟨q, hq', state_of_proposalId hq' hp, hp⟩⟩

theorem admitSubmission_triple (hopens : g.Opens) {a : SubmitRequestArguments} (ha : a.prepared.draftId = g.stored.id) :
    Saga.Triple (g.submitting since buffer before) (g.Stage since before fun _ _ => True)
      (admitSubmission g.service a) (g.Ends since before fun r db _ => g.Admitted r ∧ Loaded g r.quote db) := by
  refine ofResult_triple fun owner howner => ?_
  have howner' : owner = g.owner := Option.some.inj ((okOr_eq_ok_iff.mp howner).symm.trans hopens.owner)
  refine bind_triple (K := fun admitted db _ => admitted.2 = g.stored ∧ admitted.1.quote.id = g.quote.quote.id ∧
    Loaded g admitted.1 db) ?_ fun admitted => ?_
  · refine ofResult_triple fun _ _ => ?_
    refine bind_triple (K := fun quote db _ => True ∧ quote.quote.id = g.quote.quote.id ∧
      quote.appointmentDraft = some g.stored ∧ Loaded g quote db) ?_ fun quote => Saga.Triple.done fun db c h => ?_
    · refine read_triple (.const True) fun q db db' c hunderway _ hrun => ?_
      rw [ha] at hrun
      exact hunderway.load hopens hrun
    · obtain ⟨hunderway, -, hid, hdraft, hloaded⟩ := h
      refine ⟨hunderway, fun admitted hadmitted => ?_⟩
      obtain ⟨stored, hstored, hrest⟩ := bind_eq_ok_iff.mp hadmitted
      obtain ⟨_, -, hpair⟩ := bind_eq_ok_iff.mp hrest
      obtain rfl := Except.ok.inj hpair
      exact ⟨Option.some.inj ((okOr_eq_ok_iff.mp hstored).symm.trans hdraft), hid, hloaded⟩
  · refine ofResult_triple fun durableNow _ => pure_triple fun db c h => ?_
    exact ⟨⟨howner', h.1, h.2.1⟩, h.2.2⟩

/-! ### What is there already -/

/-- A proposal that was found is the one that the quote was consumed into. -/
def Found (g : Submission) (existing : Option StoredProposal) (db : Database) : Prop :=
  ∀ p, existing = some p → ConsumedInto g.service.env.timezones g.quote.quote.id p.id db

theorem Keeps.found (existing : Option StoredProposal) : g.Keeps fun db _ => Found g existing db :=
  Keeps.forall fun p => (Keeps.consumed p.id).imp

theorem existingProposal_triple {r : AdmittedRequest} :
    Saga.Triple (g.submitting since buffer before) (g.Stage since before fun db _ => Loaded g r.quote db)
      (existingProposal r) (g.Ends since before fun existing db _ => Found g existing db) := by
  rw [existingProposal]
  cases hproposal : r.quote.proposalId with
  | none => exact pure_triple fun _ _ _ p hp => absurd hp.symm (Option.some_ne_none p)
  | some proposalId =>
    refine bind_triple (K := fun p db _ => Loaded g r.quote db ∧ p.id = proposalId) ?_ fun p => ?_
    · refine read_triple (.loaded r.quote) fun p db db' c _ _ hrun => ?_
      obtain ⟨rfl, row, hrow, hdecode⟩ := loadProposalById_run_eq_ok_iff.mp hrun
      exact ⟨rfl, (decodeProposalRow_eq_ok hdecode).2.1.trans (Table.byRowid_eq_some hrow).2⟩
    · refine ofResult_triple fun _ _ => pure_triple fun db c h p' hp' => ?_
      obtain rfl := Option.some.inj hp'
      rw [h.2]
      exact h.1 proposalId hproposal

/-- The proposal and the mapping that an attempt goes on with. -/
structure Placed (g : Submission) (placed : StoredProposal × StoredEventMapping) (db : Database) : Prop where
  consumed : ConsumedInto g.service.env.timezones g.quote.quote.id placed.1.id db
  mapping : MappingOf placed.1.id placed.2.id db

theorem Keeps.placed (placed : StoredProposal × StoredEventMapping) : g.Keeps fun db _ => Placed g placed db :=
  ⟨fun _ _ _ hc hlater h => ⟨h.consumed.later hlater hc, h.mapping.later hlater⟩, fun _ _ _ _ h => h⟩

theorem existingMapping_triple {r : AdmittedRequest} {existing : Option StoredProposal} :
    Saga.Triple (g.submitting since buffer before) (g.Stage since before fun db _ => Found g existing db)
      (existingMapping g.service.crypto r existing)
      (g.Ends since before fun mapped db _ => Found g existing db ∧ ∀ placed, mapped = some placed → Placed g placed db) := by
  cases existing with
  | none => exact pure_triple fun _ _ h => ⟨h, fun placed hplaced => absurd hplaced.symm (Option.some_ne_none placed)⟩
  | some proposal =>
    have hfound : g.Keeps fun db _ => Found g (some proposal) db := .found _
    refine Saga.Triple.attempt_bind (stable_stage hfound) (fun clock loaded _ => ?_) fun error _ => ?_
    · refine Saga.Triple.weaken (P := g.Stage since before fun db _ => Found g (some proposal) db ∧
        ∀ m, loaded = .ok m → MappingOf proposal.id m.id db) (ofResult_triple fun mapping hmapping => ?_) ?_ fun _ _ _ h => h
      · refine pure_triple fun db c h => ⟨h.1, fun placed hplaced => ?_⟩
        cases loaded with
        | ok m =>
          obtain ⟨_, -, hsome⟩ := bind_eq_ok_iff.mp hmapping
          obtain rfl := Except.ok.inj hsome
          obtain rfl := Option.some.inj hplaced
          exact ⟨h.1 proposal rfl, h.2 m rfl⟩
        | error e =>
          rw [mappingFound] at hmapping
          split at hmapping
          · obtain rfl := Except.ok.inj hmapping
            exact absurd hplaced.symm (Option.some_ne_none placed)
          · cases hmapping
      · rintro db' c ⟨db, ⟨hunderway, h⟩, hcommit⟩
        cases loaded with
        | error e =>
          obtain ⟨-, rfl⟩ := Tx.commit_eq_error hcommit
          exact ⟨hunderway, h, nofun⟩
        | ok m =>
          obtain ⟨rfl, row, hrow, hdecode⟩ :=
            loadEventMappingByProposalId_run_eq_ok_iff.mp (Tx.commit_eq_ok_iff.mp hcommit)
          obtain ⟨hmem, hproposal⟩ := Table.byKey_eq_some hrow
          refine ⟨hunderway, h, fun m' hm' => ?_⟩
          obtain rfl := Except.ok.inj hm'
          exact ⟨row, hmem, hproposal, (decodeEventMappingRow_eq_ok hdecode).2.1.symm⟩
    · refine ofResult_triple fun mapping hmapping => pure_triple fun db c h => ⟨h, fun placed hplaced => ?_⟩
      rw [mappingFound] at hmapping
      split at hmapping
      · obtain rfl := Except.ok.inj hmapping
        exact absurd hplaced.symm (Option.some_ne_none placed)
      · cases hmapping

/-! ### Placing a proposal -/

/-- The event of a draft is what the draft proposes. -/
theorem googleProposalDraft_proposes {timezones : Timezones} {r : AdmittedRequest} (hr : g.Admitted r)
    {draft : GoogleProposalDraft} (h : googleProposalDraft timezones r = .ok draft) : g.Proposes draft := by
  obtain ⟨start, hstart, h⟩ := bind_eq_ok_iff.mp h
  obtain ⟨stop, hstop, h⟩ := bind_eq_ok_iff.mp h
  obtain ⟨range, hrange, h⟩ := bind_eq_ok_iff.mp h
  obtain ⟨-, -, -, -, rfl⟩ := GoogleProposalDraft.fromOwner_eq_ok_iff.mp (mapError_eq_ok_iff.mp h)
  obtain ⟨-, -, hrangeStart, hrangeStop⟩ := TimeRange.new_eq_ok_iff.mp (replaceError_eq_ok_iff.mp hrange)
  obtain rfl := toChronoUtc_eq_ok hstart
  obtain rfl := toChronoUtc_eq_ok hstop
  rw [hr.stored] at hrangeStart hrangeStop
  refine ⟨?_, rfl, hrangeStart, hrangeStop, by rw [hr.owner]⟩
  rw [hr.stored]
  rfl

/-- The times that are asked for are those of the draft with the buffer around them. -/
theorem recheckRange_eq_ok {policy : AvailabilityPolicy} {draft : AppointmentDraft}
    {recheck : OffsetDateTime × OffsetDateTime × TimeRange} (h : recheckRange policy draft = .ok recheck) :
    recheck.2.2.start = draft.startsAt.unixNanos - policy.meetingBuffer ∧
      recheck.2.2.stop = draft.endsAt.unixNanos + policy.meetingBuffer ∧ recheck.1.unixNanos = recheck.2.2.start ∧
      recheck.2.1.unixNanos = recheck.2.2.stop := by
  obtain ⟨start, hstart, h⟩ := bind_eq_ok_iff.mp h
  obtain ⟨stop, hstop, h⟩ := bind_eq_ok_iff.mp h
  obtain ⟨startsAt, hstartsAt, h⟩ := bind_eq_ok_iff.mp h
  obtain ⟨endsAt, hendsAt, h⟩ := bind_eq_ok_iff.mp h
  obtain ⟨range, hrange, h⟩ := bind_eq_ok_iff.mp h
  obtain rfl := Except.ok.inj h
  obtain ⟨-, -, hrangeStart, hrangeStop⟩ := TimeRange.new_eq_ok_iff.mp (replaceError_eq_ok_iff.mp hrange)
  obtain ⟨rfl, -⟩ := OffsetDateTime.checkedAdd_eq_some_iff.mp (okOr_eq_ok_iff.mp hstart)
  obtain ⟨rfl, -⟩ := OffsetDateTime.checkedAdd_eq_some_iff.mp (okOr_eq_ok_iff.mp hstop)
  obtain rfl := toChronoUtc_eq_ok hstartsAt
  obtain rfl := toChronoUtc_eq_ok hendsAt
  exact ⟨hrangeStart, hrangeStop, hrangeStart.symm, hrangeStop.symm⟩

/-- Over the times that are asked for, the overlap test of the policy answers. -/
theorem recheckOverlaps_of_recheckRange {policy : AvailabilityPolicy} {draft : AppointmentDraft}
    (hutc : draft.startsAt.offsetSeconds = 0) {recheck : OffsetDateTime × OffsetDateTime × TimeRange}
    (h : recheckRange policy draft = .ok recheck) (outlookBusy googleBusy : List BusyInterval) :
    recheckOverlaps policy draft.startsAt.unixNanos draft.endsAt.unixNanos outlookBusy googleBusy =
      .ok (busyOverlaps outlookBusy recheck.1.unixNanos recheck.2.1.unixNanos ||
        busyOverlaps googleBusy recheck.1.unixNanos recheck.2.1.unixNanos) := by
  obtain ⟨hrangeStart, hrangeStop, hstart, hstop⟩ := recheckRange_eq_ok h
  obtain ⟨start, hrecheckStart, h⟩ := bind_eq_ok_iff.mp h
  obtain ⟨stop, hrecheckStop, -⟩ := bind_eq_ok_iff.mp h
  obtain ⟨rfl, hstartInRange⟩ := OffsetDateTime.checkedAdd_eq_some_iff.mp (okOr_eq_ok_iff.mp hrecheckStart)
  obtain ⟨rfl, hstopInRange⟩ := OffsetDateTime.checkedAdd_eq_some_iff.mp (okOr_eq_ok_iff.mp hrecheckStop)
  rw [hutc, ← sub_eq_add_neg] at hstartInRange
  rw [show draft.endsAt.offsetSeconds = 0 from hutc] at hstopInRange
  rw [hstart, hstop, hrangeStart, hrangeStop]
  exact recheckOverlaps_eq hstartInRange hstopInRange outlookBusy googleBusy

/-- **The recheck of a submission is the overlap test of the policy**, over what the calendars answer. -/
theorem recheckCalendars_eq {policy : AvailabilityPolicy} {draft : AppointmentDraft}
    (hutc : draft.startsAt.offsetSeconds = 0) :
    recheckCalendars policy draft = (do
      let recheck ← Saga.ofResult (recheckRange policy draft)
      let outlook ← Saga.query (.listOutlookBusy recheck.2.2)
      let outlookBusy ← Saga.ofResult (outlook.busy.mapError .outlookCalendar)
      let google ← Saga.query (.listGoogleBusy recheck.2.2)
      let googleBusy ← Saga.ofResult (google.busy.mapError .googleCalendar)
      Saga.ofResult ((recheckOverlaps policy draft.startsAt.unixNanos draft.endsAt.unixNanos outlookBusy
        googleBusy).mapError .availability)) := by
  rw [recheckCalendars]
  cases h : recheckRange policy draft with
  | error e => rfl
  | ok recheck =>
    have hoverlaps := recheckOverlaps_of_recheckRange hutc h
    simp only [hoverlaps]
    rfl

/-- **Asking the calendars** shows them to be free, unless the times are taken. -/
theorem recheckCalendars_triple (hQ : g.Keeps Q) (policy : AvailabilityPolicy) :
    Saga.Triple (g.submitting since policy.meetingBuffer before) (g.Stage since before Q)
      (recheckCalendars policy g.stored.draft)
      (g.Ends since before fun taken db c => Q db c ∧ (taken = false → g.FreeSince policy.meetingBuffer before c)) := by
  refine ofResult_triple fun recheck hrecheck => ?_
  obtain ⟨hstart, hstop, hfirst, hlast⟩ := recheckRange_eq_ok hrecheck
  refine ask_triple hQ (fun _ _ _ draft hcall => ProposalCall.noConfusion hcall) fun outlook => ?_
  refine ofResult_triple fun outlookBusy houtlook => ?_
  refine ask_triple (hQ.and (.answered _ _)) (fun _ _ _ draft hcall => ProposalCall.noConfusion hcall) fun google => ?_
  refine ofResult_triple fun googleBusy hgoogle => pure_triple fun db c h => ⟨h.1.1, fun hfree => ?_⟩
  obtain ⟨⟨_, ⟨⟨exchanges, hexchanges, houtlookMem⟩, -⟩⟩, ⟨⟨exchanges', hexchanges', hgoogleMem⟩, -⟩⟩ := h
  obtain rfl := List.append_cancel_right (hexchanges'.symm.trans hexchanges)
  rw [hfirst, hlast, Bool.or_eq_false_iff] at hfree
  exact ⟨_, hexchanges, recheck.2.2, outlook, google, outlookBusy, googleBusy, hstart, hstop, houtlookMem,
    mapError_eq_ok_iff.mp houtlook, hgoogleMem, mapError_eq_ok_iff.mp hgoogle, hfree.1, hfree.2⟩

/-- **A lookup** finds the event of the draft. -/
theorem findProposal_triple (hQ : g.Keeps Q) {draft : GoogleProposalDraft} (hkey : draft.operationKey = g.operationKey)
    (owner : MailAddress) :
    Saga.Triple (g.submitting since buffer before) (g.Stage since before Q) (findProposal draft owner)
      (g.Ends since before fun found db c => Q db c ∧ ∀ event, found = some event → g.HasEvent event c) := by
  refine ask_triple hQ (fun _ _ _ draft hcall => ProposalCall.noConfusion hcall) fun answer => Saga.Triple.done fun db c h => ?_
  obtain ⟨hunderway, hQ, -, hevent⟩ := h
  refine ⟨hunderway, fun found hfound => ⟨hQ, fun event heventFound => ?_⟩⟩
  obtain rfl := heventFound
  cases hanswer : answer.event with
  | ok answered =>
    rw [hanswer] at hfound
    obtain ⟨_, hvalid, hsome⟩ := bind_eq_ok_iff.mp hfound
    obtain ⟨_, -, hsame⟩ := bind_eq_ok_iff.mp hvalid
    obtain rfl := Except.ok.inj hsame
    obtain rfl := Option.some.inj (Except.ok.inj hsome)
    exact hevent draft _ (.inl rfl) hkey hanswer
  | error e =>
    rw [hanswer] at hfound
    cases e <;> cases hfound

/-- **Before the quote is consumed**, the event is found or the calendars are free. -/
theorem findWhereTaken_triple (hQ : g.Keeps Q) {policy : AvailabilityPolicy} {r : AdmittedRequest} (hr : g.Admitted r)
    {draft : GoogleProposalDraft} (hkey : draft.operationKey = g.operationKey) (existing : Option StoredProposal) :
    Saga.Triple (g.submitting since policy.meetingBuffer before) (g.Stage since before Q)
      (findWhereTaken policy r draft existing)
      (g.Ends since before fun found db c => Q db c ∧ (∀ event, found = some event → g.HasEvent event c) ∧
        (found = none → existing = none → g.FreeSince policy.meetingBuffer before c)) := by
  cases existing with
  | some proposal =>
    refine pure_triple fun db c h => ⟨h, fun event hevent => absurd hevent.symm (Option.some_ne_none event), ?_⟩
    exact fun _ hnone => absurd hnone (Option.some_ne_none proposal)
  | none =>
    rw [findWhereTaken, hr.stored]
    refine bind_triple (recheckCalendars_triple hQ policy) fun taken => ?_
    cases taken with
    | true =>
      refine bind_triple (findProposal_triple (hQ.and (Keeps.imp (p := true = false) (.free _ _))) hkey r.owner) fun found => ?_
      refine ofResult_triple fun event hevent => pure_triple fun db c h => ⟨h.1.1, ?_, fun hnone => ?_⟩
      · rintro _ ⟨⟩
        exact h.2 event (okOr_eq_ok_iff.mp hevent)
      · exact absurd hnone (Option.some_ne_none event)
    | false =>
      refine pure_triple fun db c h => ⟨h.1, fun event hevent => absurd hevent.symm (Option.some_ne_none event), ?_⟩
      exact fun _ _ => h.2 rfl

theorem findUnlessFound_triple (hQ : g.Keeps Q) {draft : GoogleProposalDraft} (hkey : draft.operationKey = g.operationKey)
    (owner : MailAddress) (found : Option CalendarEvent) (existing : Option StoredProposal) :
    Saga.Triple (g.submitting since buffer before)
      (g.Stage since before fun db c => Q db c ∧ (∀ event, found = some event → g.HasEvent event c) ∧
        (found = none → existing = none → g.FreeSince buffer before c))
      (findUnlessFound draft owner found)
      (g.Ends since before fun found db c => Q db c ∧ (∀ event, found = some event → g.HasEvent event c) ∧
        (found = none → existing = none → g.FreeSince buffer before c)) := by
  cases found with
  | some event => exact pure_triple fun _ _ h => h
  | none =>
    have hfree : g.Keeps fun db c => Q db c ∧ (existing = none → g.FreeSince buffer before c) := hQ.and (.imp (.free _ _))
    refine Saga.Triple.weaken (findProposal_triple hfree hkey owner) ?_ ?_
    · exact fun db c h => ⟨h.1, h.2.1, h.2.2.2 rfl⟩
    · exact fun r db c h => ⟨h.1, fun found hr => ⟨(h.2 found hr).1.1, (h.2 found hr).2, fun _ => (h.2 found hr).1.2⟩⟩

/-- **The quote is consumed**, or was. -/
theorem takeProposal_triple (hQ : g.Keeps Q) {r : AdmittedRequest} (hr : g.Admitted r) (existing : Option StoredProposal)
    (hfound : ∀ db c, Q db c → Found g existing db) :
    Saga.Triple (g.submitting since buffer before) (g.Stage since before Q)
      (takeProposal g.service.env.timezones r existing)
      (g.Ends since before fun p db c => Q db c ∧ ConsumedInto g.service.env.timezones g.quote.quote.id p.id db) := by
  cases existing with
  | some proposal => exact pure_triple fun db c h => ⟨h, hfound db c h proposal rfl⟩
  | none =>
    rw [takeProposal, hr.stored, hr.quoteId]
    refine store_triple hQ (fun clock => .submitAppointmentQuote g.quote.quote.id g.stored.id (proposalKey g.stored.id)
      (proposalSource g.stored.id) r.durableNow clock) (fun _ => rfl) fun clock p db db' c hunderway _ hrun => ?_
    obtain ⟨p?, hwritten⟩ := hunderway.written
    obtain ⟨hnext, hextends, hconsumed⟩ := hwritten.submit hunderway.reachable.consistent hrun
    exact ⟨⟨_, hnext⟩, hextends, hconsumed⟩

/-- **Before an event is created**, the calendars are free. -/
theorem ensureCreatable_triple (hQ : g.Keeps Q) {a : SubmitRequestArguments} {r : AdmittedRequest} (hr : g.Admitted r)
    (existing : Option StoredProposal)
    (hfree : ∀ db c, Q db c → existing = none → g.FreeSince a.policy.meetingBuffer before c) :
    Saga.Triple (g.submitting since a.policy.meetingBuffer before) (g.Stage since before Q)
      (ensureCreatable a r existing)
      (g.Ends since before fun _ db c => Q db c ∧ g.FreeSince a.policy.meetingBuffer before c) := by
  cases existing with
  | none => exact ofResult_triple fun cutoff _ => ensure_triple fun _ db c h => ⟨h, hfree db c h rfl⟩
  | some proposal =>
    rw [ensureCreatable, hr.stored]
    refine bind_triple (recheckCalendars_triple hQ a.policy) fun taken => ?_
    exact ensure_triple fun htaken db c h => ⟨h.1, h.2 htaken⟩

/-- **The event is asked for** only after the quote was consumed and both calendars were free. -/
theorem placeEvent_triple (hQ : g.Keeps Q) {a : SubmitRequestArguments} {r : AdmittedRequest} (hr : g.Admitted r)
    (existing : Option StoredProposal) (hfound : ∀ db c, Q db c → Found g existing db) {draft : GoogleProposalDraft}
    (hproposes : g.Proposes draft) (found : Option CalendarEvent) :
    Saga.Triple (g.submitting since a.policy.meetingBuffer before)
      (g.Stage since before fun db c => Q db c ∧ (∀ event, found = some event → g.HasEvent event c) ∧
        (found = none → existing = none → g.FreeSince a.policy.meetingBuffer before c))
      (placeEvent g.service.env.timezones a r existing draft found)
      (g.Ends since before fun placed db c =>
        ConsumedInto g.service.env.timezones g.quote.quote.id placed.1.id db ∧ g.HasEvent placed.2 c) := by
  cases found with
  | some event =>
    have hkept : g.Keeps fun db c => Q db c ∧ g.HasEvent event c := hQ.and (.event event)
    refine Saga.Triple.weaken (P := g.Stage since before fun db c => Q db c ∧ g.HasEvent event c) ?_
      (fun db c h => ⟨h.1, h.2.1, h.2.2.1 event rfl⟩) fun _ _ _ h => h
    refine bind_triple (takeProposal_triple hkept hr existing fun db c h => hfound db c h.1) fun p => ?_
    exact pure_triple fun db c h => ⟨h.2, h.1.2⟩
  | none =>
    have hkept : g.Keeps fun db c => Q db c ∧ (existing = none → g.FreeSince a.policy.meetingBuffer before c) :=
      hQ.and (.imp (.free _ _))
    refine Saga.Triple.weaken (P := g.Stage since before fun db c => Q db c ∧
      (existing = none → g.FreeSince a.policy.meetingBuffer before c)) ?_
      (fun db c h => ⟨h.1, h.2.1, h.2.2.2 rfl⟩) fun _ _ _ h => h
    refine bind_triple (ensureCreatable_triple hkept hr existing fun db c h => h.2) fun _ => ?_
    refine bind_triple (takeProposal_triple (hkept.and (.free _ _)) hr existing fun db c h => hfound db c h.1.1) fun p => ?_
    refine ask_triple ((hkept.and (.free _ _)).and (.consumed p.id)) (fun db c h draft' hcall => ?_) fun answer => ?_
    · obtain rfl := ProposalCall.createProposal.inj hcall
      exact ⟨hproposes, ⟨p.id, h.2⟩, h.1.2⟩
    · refine ofResult_triple fun event hevent => ofResult_triple fun event' hvalid => pure_triple fun db c h => ?_
      obtain ⟨_, -, hsame⟩ := bind_eq_ok_iff.mp hvalid
      obtain rfl := Except.ok.inj hsame
      exact ⟨h.1.2, h.2.event draft event (.inr rfl) hproposes.key (mapError_eq_ok_iff.mp hevent)⟩

/-- The rows of a quote that was consumed are those of its proposal. -/
theorem Written.of_consumed {p? : Option ℤ} {events : List CalendarEvent} (h : g.Written p? db events) {p : ℤ}
    (hconsumed : ConsumedInto g.service.env.timezones g.quote.quote.id p db) : g.Written (some p) db events := by
  obtain ⟨q, hq, rfl⟩ := h.quote
  obtain ⟨q', hq', -, hp⟩ := hconsumed
  obtain rfl := Except.ok.inj (hq.symm.trans hq')
  rw [← hp]
  exact h

theorem placeProposal_triple {a : SubmitRequestArguments} {r : AdmittedRequest} (hr : g.Admitted r)
    (existing : Option StoredProposal) :
    Saga.Triple (g.submitting since a.policy.meetingBuffer before) (g.Stage since before fun db _ => Found g existing db)
      (placeProposal g.service a r existing) (g.Ends since before fun placed db _ => Placed g placed db) := by
  have hkept : g.Keeps fun db _ => Found g existing db := .found existing
  refine ofResult_triple fun draft hdraft => ?_
  have hproposes : g.Proposes draft := googleProposalDraft_proposes hr hdraft
  refine bind_triple (findWhereTaken_triple hkept hr hproposes.key existing) fun found => ?_
  refine bind_triple (findUnlessFound_triple hkept hproposes.key r.owner found existing) fun found => ?_
  refine bind_triple (placeEvent_triple hkept hr existing (fun _ _ h => h) hproposes found) fun placed => ?_
  have hplaced : g.Keeps fun db c => ConsumedInto g.service.env.timezones g.quote.quote.id placed.1.id db ∧
    g.HasEvent placed.2 c := (Keeps.consumed _).and (.event _)
  refine bind_triple (store_triple (K := fun m db _ => MappingOf placed.1.id m.id db) hplaced
    (fun clock => .attachEventMapping placed.1.id "google_calendar" placed.2.providerEventId
      (eventMappingSource g.service.crypto placed.1.id r.owner) (some r.stored.draft.startsAt) (some r.stored.draft.endsAt) clock)
    (fun _ => rfl) ?_) fun mapping => pure_triple fun db c h => ⟨h.1.1, h.2⟩
  rintro clock m db db' c hunderway ⟨hconsumed, hmem, heventKey⟩ hrun
  obtain ⟨p?, hwritten⟩ := hunderway.written
  obtain ⟨hnext, hextends, hmapping⟩ :=
    (hwritten.of_consumed hconsumed).attach hunderway.reachable.consistent hmem heventKey hrun
  exact ⟨⟨_, hnext⟩, hextends, hmapping⟩

/-! ### Announcing a proposal -/

/-- **A notification is enqueued** once. -/
theorem enqueue_triple (who : Recipient) (hQ : g.Keeps Q) {p : ℤ}
    (hconsumed : ∀ db c, Q db c → ConsumedInto g.service.env.timezones g.quote.quote.id p db)
    (htold : g.Told who) {recipient : NotificationRecipient} (haddress : recipient.value = g.address who) {mappingId : ℤ}
    {template : NotificationTemplateData} {consumedAt : OffsetDateTime} :
    Saga.Triple (g.submitting since buffer before) (g.Stage since before Q)
      (Saga.store .store fun clock =>
        enqueueNotification g.service.env.json (who.notification p mappingId recipient template consumedAt) clock)
      (g.Ends since before fun n db c => Q db c ∧ NotificationUnder (who.notificationKey p) n.id db) := by
  refine store_triple hQ
    (fun clock => .enqueueNotification (who.notification p mappingId recipient template consumedAt) clock)
    (fun _ => rfl) fun clock n db db' c hunderway h hrun => ?_
  obtain ⟨p?, hwritten⟩ := hunderway.written
  obtain ⟨hnext, hextends, hnotification⟩ :=
    (hwritten.of_consumed (hconsumed db c h)).enqueue hunderway.reachable.consistent htold haddress hrun
  exact ⟨⟨_, hnext⟩, hextends, hnotification⟩

/-- **An audit event is logged** once. -/
theorem appendSubmissionAudit_triple (entry : AuditEntry) (hQ : g.Keeps Q) {p : ℤ}
    (hconsumed : ∀ db c, Q db c → ConsumedInto g.service.env.timezones g.quote.quote.id p db)
    (hkey : g.AuditKey p entry.idempotencyKey) {occurredAt : OffsetDateTime} :
    Saga.Triple (g.submitting since buffer before) (g.Stage since before Q) (appendSubmissionAudit entry occurredAt)
      (g.Ends since before fun _ db c => Q db c ∧ AuditUnder entry.idempotencyKey db) := by
  refine bind_triple (store_triple (K := fun _ db _ => AuditUnder entry.idempotencyKey db) hQ
    (fun clock => .appendAuditEvent entry occurredAt clock) (fun _ => rfl) ?_)
    fun _ => pure_triple fun _ _ h => h
  intro clock e db db' c hunderway h hrun
  obtain ⟨p?, hwritten⟩ := hunderway.written
  obtain ⟨hnext, hextends, haudit⟩ :=
    (hwritten.of_consumed (hconsumed db c h)).append hunderway.reachable.consistent hkey hrun
  exact ⟨⟨_, hnext⟩, hextends, haudit⟩

/-- The notification of the requester, where the requester is told. -/
def RequesterTold (g : Submission) (p : ℤ) (id? : Option ℤ) (db : Database) : Prop :=
  match id? with
  | some id => g.Told .requester ∧ NotificationUnder (Recipient.requester.notificationKey p) id db
  | none => ¬ g.Told .requester

theorem Keeps.requesterTold (p : ℤ) (id? : Option ℤ) : g.Keeps fun db _ => RequesterTold g p id? db := by
  cases id? with
  | some id => exact (Keeps.const _).and (.notification _ _)
  | none => exact .const _

theorem notifyRequester_triple (hQ : g.Keeps Q) {p : ℤ}
    (hconsumed : ∀ db c, Q db c → ConsumedInto g.service.env.timezones g.quote.quote.id p db) {r : AdmittedRequest}
    (hr : g.Admitted r) {mappingId : ℤ} {template : NotificationTemplateData} {consumedAt : OffsetDateTime} :
    Saga.Triple (g.submitting since buffer before) (g.Stage since before Q)
      (notifyRequester g.service.env.json r p mappingId template consumedAt)
      (g.Ends since before fun id? db c => Q db c ∧ RequesterTold g p id? db) := by
  rw [notifyRequester, hr.stored]
  by_cases hincluded : g.stored.draft.requesterIncluded = true
  · rw [if_pos hincluded]
    refine ofResult_triple fun requester hrequester => ?_
    have haddress : requester.value = g.address .requester :=
      ConfirmedEmail.confirm_eq_ok_iff.mp (replaceError_eq_ok_iff.mp (mapError_eq_ok_iff.mp hrequester))
    refine bind_triple (enqueue_triple .requester hQ hconsumed hincluded haddress) fun n => ?_
    exact pure_triple fun _ _ h => ⟨h.1, hincluded, h.2⟩
  · rw [if_neg hincluded]
    exact pure_triple fun _ _ h => ⟨h, hincluded⟩

/-- What an attempt returned stands in the tables. -/
structure Returned (g : Submission) (s : SubmittedRequest) (db : Database) : Prop where
  consumed : ConsumedInto g.service.env.timezones g.quote.quote.id s.proposalId db
  mapping : MappingOf s.proposalId s.eventMappingId db
  ownerNotification : NotificationUnder (Recipient.owner.notificationKey s.proposalId) s.ownerNotificationId db
  requesterNotification : RequesterTold g s.proposalId s.requesterNotificationId db
  auditEvents : ∀ key, g.AuditKey s.proposalId key → AuditUnder key db
  state : s.state = .pending

theorem auditRequester_triple (hQ : g.Keeps Q) {p : ℤ}
    (hconsumed : ∀ db c, Q db c → ConsumedInto g.service.env.timezones g.quote.quote.id p db) {id? : Option ℤ}
    (htold : ∀ db c, Q db c → RequesterTold g p id? db) {occurredAt : OffsetDateTime} :
    Saga.Triple (g.submitting since buffer before) (g.Stage since before Q) (auditRequester p occurredAt id?)
      (g.Ends since before fun _ db c => Q db c ∧ (g.Told .requester → AuditUnder (Recipient.requester.auditKey p) db)) := by
  cases id? with
  | none => exact pure_triple fun db c h => ⟨h, fun hincluded => absurd hincluded (htold db c h)⟩
  | some id =>
    intro turns hturns db c h
    have hincluded : g.Told .requester := (htold db c h.2).1
    refine (Saga.Triple.weaken (appendSubmissionAudit_triple (Recipient.requester.audit p id) hQ hconsumed
      (.notification .requester hincluded)) (fun _ _ h => h) ?_) turns hturns db c h
    exact fun r db c h => ⟨h.1, fun u hu => ⟨(h.2 u hu).1, fun _ => (h.2 u hu).2⟩⟩

theorem announce_triple {r : AdmittedRequest} (hr : g.Admitted r) (placed : StoredProposal × StoredEventMapping) :
    Saga.Triple (g.submitting since buffer before) (g.Stage since before fun db _ => Placed g placed db)
      (announce g.service.env.json g.service.env.timezones r placed.1.id placed.2.id)
      (g.Ends since before fun s db _ => Returned g s db) := by
  have hplaced : g.Keeps fun db _ => Placed g placed db := .placed placed
  refine bind_triple (read_triple (K := fun _ _ _ => True) hplaced fun q db db' c _ _ hrun => ?_) fun quote => ?_
  · exact ⟨(decodeAppointmentQuoteById_run_eq_ok_iff.mp hrun).2, trivial⟩
  refine ofResult_triple fun consumedAt _ => ofResult_triple fun template _ => ofResult_triple fun recipient hrecipient => ?_
  have haddress : recipient.value = g.address .owner := by
    have hvalue : recipient.value = r.owner.value :=
      ConfirmedEmail.confirm_eq_ok_iff.mp (replaceError_eq_ok_iff.mp (mapError_eq_ok_iff.mp hrecipient))
    rw [hvalue, hr.owner]
    rfl
  have hplaced := hplaced.and (Keeps.const (g := g) True)
  refine bind_triple (enqueue_triple .owner hplaced (fun _ _ h => h.1.consumed) trivial haddress) fun n => ?_
  have hnotified := hplaced.and (.notification (Recipient.owner.notificationKey placed.1.id) n.id)
  refine bind_triple (notifyRequester_triple hnotified (fun _ _ h => h.1.1.consumed) hr) fun id? => ?_
  have htold := hnotified.and (.requesterTold placed.1.id id?)
  have hrequest : g.AuditKey placed.1.id (requestAudit r.stored.id).idempotencyKey := by
    rw [hr.stored]
    exact .request
  refine bind_triple (appendSubmissionAudit_triple (requestAudit r.stored.id) htold (fun _ _ h => h.1.1.1.consumed) hrequest) fun _ => ?_
  have hfirst := htold.and (.audit (requestAudit r.stored.id).idempotencyKey)
  refine bind_triple (appendSubmissionAudit_triple (proposalAudit placed.1.id) hfirst
    (fun _ _ h => h.1.1.1.1.consumed) .proposal) fun _ => ?_
  have hsecond := hfirst.and (.audit (proposalAudit placed.1.id).idempotencyKey)
  refine bind_triple (appendSubmissionAudit_triple (Recipient.owner.audit placed.1.id n.id) hsecond
    (fun _ _ h => h.1.1.1.1.1.consumed) (.notification .owner trivial)) fun _ => ?_
  have hthird := hsecond.and (.audit (Recipient.owner.auditKey placed.1.id))
  refine bind_triple (auditRequester_triple hthird (fun _ _ h => h.1.1.1.1.1.1.consumed) fun _ _ h => h.1.1.1.2) fun _ => ?_
  refine pure_triple fun db c h => ?_
  obtain ⟨⟨⟨⟨⟨⟨⟨hplaced, -⟩, hnotification⟩, hrequester⟩, hrequestAudit⟩, hproposalAudit⟩, hownerAudit⟩, hrequesterAudit⟩ := h
  refine ⟨hplaced.consumed, hplaced.mapping, hnotification, hrequester, fun key hkey => ?_, rfl⟩
  cases hkey with
  | request => exact hr.stored ▸ hrequestAudit
  | proposal => exact hproposalAudit
  | notification who hwho =>
    cases who with
    | owner => exact hownerAudit
    | requester => exact hrequesterAudit hwho

/-! ### The whole attempt -/

theorem resolveProposal_triple {a : SubmitRequestArguments} {r : AdmittedRequest} (hr : g.Admitted r) :
    Saga.Triple (g.submitting since a.policy.meetingBuffer before) (g.Stage since before fun db _ => Loaded g r.quote db)
      (resolveProposal g.service a r) (g.Ends since before fun placed db _ => Placed g placed db) := by
  refine bind_triple existingProposal_triple fun existing => ?_
  refine bind_triple existingMapping_triple fun mapped => ?_
  cases mapped with
  | some placed => exact pure_triple fun _ _ h => h.2 placed rfl
  | none => exact (placeProposal_triple hr existing).weaken (fun _ _ h => ⟨h.1, h.2.1⟩) fun _ _ _ h => h

/-- **The contract of `submit_request`.** -/
theorem submitRequest_triple (hopens : g.Opens) {a : SubmitRequestArguments} (ha : a.prepared.draftId = g.stored.id) :
    Saga.Triple (g.submitting since a.policy.meetingBuffer before) (g.Stage since before fun _ _ => True)
      (submitRequest g.service a) (g.Ends since before fun s db _ => Returned g s db) := by
  refine bind_triple (admitSubmission_triple hopens ha) fun r turns hturns db c h => ?_
  have hr : g.Admitted r := h.2.1
  refine (bind_triple (P := g.Stage since before fun db _ => Loaded g r.quote db) (resolveProposal_triple (a := a) hr)
    fun placed => announce_triple hr placed) turns hturns db c ⟨h.1, h.2.2⟩

/-! ### Histories -/

theorem Returned.later {s : SubmittedRequest} (hc : Consistent g.service.env db) (h : Returned g s db)
    (hextends : Extends g.service.env db db') : Returned g s db' where
  consumed := h.consumed.later hextends hc
  mapping := h.mapping.later hextends
  ownerNotification := h.ownerNotification.later hextends
  requesterNotification := (Keeps.requesterTold _ _).tables db db' ⟨[], []⟩ hc hextends h.requesterNotification
  auditEvents key hkey := (h.auditEvents key hkey).later hextends
  state := h.state

theorem NotificationUnder.unique (hc : Consistent g.service.env db) {key : String} {id id' : ℤ}
    (h : NotificationUnder key id db) (h' : NotificationUnder key id' db) : id = id' := by
  obtain ⟨row, hrow, hkey, rfl⟩ := h
  obtain ⟨row', hrow', hkey', rfl⟩ := h'
  rw [hc.notification_key.eq hrow hrow' (hkey.trans hkey'.symm)]

/-- **What stands in the tables is one result.** -/
theorem Returned.unique (hc : Consistent g.service.env db) {s s' : SubmittedRequest} (h : Returned g s db)
    (h' : Returned g s' db) : s = s' := by
  obtain ⟨p, m, n, id?, state⟩ := s
  obtain ⟨p', m', n', id?', state'⟩ := s'
  obtain rfl : p = p' := h.consumed.unique h'.consumed
  obtain rfl : m = m' := by
    obtain ⟨row, hrow, hproposal, hid⟩ := h.mapping
    obtain ⟨row', hrow', hproposal', hid'⟩ := h'.mapping
    obtain rfl := hc.mapping_proposalId.eq hrow hrow' (hproposal.trans hproposal'.symm)
    exact hid.symm.trans hid'
  obtain rfl : n = n' := NotificationUnder.unique hc h.ownerNotification h'.ownerNotification
  obtain rfl : state = state' := h.state.trans h'.state.symm
  obtain rfl : id? = id?' := by
    have htold := h.requesterNotification
    have htold' := h'.requesterNotification
    cases id? with
    | none =>
      cases id?' with
      | none => rfl
      | some id' => exact absurd htold'.1 htold
    | some id =>
      cases id?' with
      | none => exact absurd htold.1 htold'
      | some id' => rw [NotificationUnder.unique hc htold.2 htold'.2]
  rfl

variable (g)

/-- What the attempts to submit the request are called with. -/
abbrev Attempt : Type := { a : SubmitRequestArguments // a.prepared.draftId = g.stored.id }

/-- An attempt to submit the request. -/
def attempt (a : g.Attempt) (turns : List (Saga.Turn SystemTime StoreError Command ProposalOracle))
    (s : Database × Calendars) : Saga.Ran Database Calendars ProposalCall ServiceError SubmittedRequest :=
  Saga.run (proposalSurroundings g.service.env) turns (submitRequest g.service a.1) s.1 s.2

/-- The tables and the calendars after an attempt. -/
def afterAttempt (a : g.Attempt) (turns : List (Saga.Turn SystemTime StoreError Command ProposalOracle))
    (s : Database × Calendars) : Database × Calendars := ((g.attempt a turns s).store, (g.attempt a turns s).world)

/-- The turns of an episode. -/
def IsEpisode : Saga.Episode g.Attempt SystemTime StoreError Command ProposalOracle → Prop
  | .attempt _ turns => ∀ t ∈ turns, IsTurn t
  | .interfere c => c.isDelivery = true

/-- The tables and the calendars after attempts to submit the request, and deliveries between them. -/
def after (episodes : List (Saga.Episode g.Attempt SystemTime StoreError Command ProposalOracle))
    (s : Database × Calendars) : Database × Calendars :=
  Machine.run (Saga.Episode.step (proposalSurroundings g.service.env) fun a => submitRequest g.service a.1) episodes s

/-- The tables and the calendars before the first attempt. -/
def opening : Database × Calendars := (g.start, ⟨g.events, []⟩)

/-- There is one of each. -/
structure Once (s : Database × Calendars) : Prop where
  proposal : (∀ row ∈ g.start.proposals, row.appointmentDraftId ≠ some g.stored.id) →
    s.1.proposals.countP (fun row => row.appointmentDraftId == some g.stored.id) ≤ 1
  eventMapping (p : ℤ) : s.1.eventMappings.countP (fun row => row.proposalId == p) ≤ 1
  notification (who : Recipient) (p : ℤ) :
    s.1.notificationOutbox.countP (fun row => row.idempotencyKey == who.notificationKey p) ≤ 1
  auditEvent (key : String) : s.1.auditEvents.countP (fun row => row.idempotencyKey == key) ≤ 1
  event : s.2.events.countP (fun e => e.operationKey == g.operationKey) ≤ 1

/-- How attempts to submit the request go on: what was written is written once; an attempt asks for the event only after
the quote was consumed and both calendars were free; what it returns stands in the tables; and attempts that succeed
agree. -/
structure Converges (s : Database × Calendars) : Prop where
  written : ∃ p?, g.Written p? s.1 s.2.events
  once : g.Once s
  asks : ∀ a turns, (∀ t ∈ turns, IsTurn t) → ∀ asked ∈ (g.attempt a turns s).asked, ∀ draft,
    asked.1 = .createProposal draft → g.MayCreate a.1.policy.meetingBuffer s.2.exchanges draft asked.2.1 asked.2.2
  returns : ∀ a turns, (∀ t ∈ turns, IsTurn t) → ∀ r, (g.attempt a turns s).result = some (.ok r) →
    Returned g r (g.attempt a turns s).store
  agree : ∀ a turns, (∀ t ∈ turns, IsTurn t) → ∀ r, (g.attempt a turns s).result = some (.ok r) →
    ∀ later, (∀ e ∈ later, g.IsEpisode e) → ∀ a' turns', (∀ t ∈ turns', IsTurn t) → ∀ r',
      (g.attempt a' turns' (g.after later (g.afterAttempt a turns s))).result = some (.ok r') → r' = r

variable {g}

/-- An attempt keeps its contract. -/
theorem attempt_ends (hopens : g.Opens) {a : g.Attempt} {turns : List (Saga.Turn SystemTime StoreError Command ProposalOracle)}
    (hturns : ∀ t ∈ turns, IsTurn t) {s : Database × Calendars} (h : g.Underway since before s.1 s.2) :
    (∀ asked ∈ (g.attempt a turns s).asked, ∀ draft, asked.1 = .createProposal draft →
      g.MayCreate a.1.policy.meetingBuffer before draft asked.2.1 asked.2.2) ∧
      g.Underway since before (g.attempt a turns s).store (g.attempt a turns s).world ∧
      ∀ r, (g.attempt a turns s).result = some (.ok r) → Returned g r (g.attempt a turns s).store := by
  obtain ⟨hasks, hstops, hreturns⟩ := submitRequest_triple hopens a.2 turns hturns s.1 s.2 ⟨h, trivial⟩
  refine ⟨hasks, ?_, fun r hr => (hreturns _ hr).2 r rfl⟩
  cases hresult : (g.attempt a turns s).result with
  | none => exact hstops hresult
  | some r => exact (hreturns r hresult).1

/-- **A history keeps what holds throughout.** -/
theorem after_underway (hopens : g.Opens) {s : Database × Calendars} (h : g.Underway since [] s.1 s.2)
    {episodes : List (Saga.Episode g.Attempt SystemTime StoreError Command ProposalOracle)}
    (hepisodes : ∀ e ∈ episodes, g.IsEpisode e) :
    g.Underway since [] (g.after episodes s).1 (g.after episodes s).2 := by
  refine Saga.Episode.run_invariant (x := g.submitting since 0 []) (I := g.Underway since []) ?_
    (fun c db world hc h => (h.delivered hc).2) ?_ h
  · exact fun a turns hturns db c h => (attempt_ends hopens (a := a) (s := (db, c)) hturns h).2.1
  · intro e he
    have hepisode := hepisodes e he
    cases e with
    | interfere c => exact hepisode
    | attempt a turns => exact hepisode

/-- An attempt starts where all attempts are underway. -/
theorem Underway.restart {s : Database × Calendars} (h : g.Underway since before s.1 s.2) (exchanges : List ProposalExchange)
    (hexchanges : exchanges <:+ s.2.exchanges) : g.Underway s.1 exchanges s.1 s.2 :=
  ⟨h.reachable, h.opened, .refl _ _, h.written, h.event, hexchanges⟩

theorem Underway.once {s : Database × Calendars} (h : g.Underway since before s.1 s.2) : g.Once s where
  proposal hnone := by
    obtain ⟨p?, hwritten⟩ := h.written
    obtain ⟨new, hnew, hone, -⟩ := hwritten.proposals
    have hzero : g.start.proposals.countP (fun row => row.appointmentDraftId == some g.stored.id) = 0 :=
      List.countP_eq_zero.mpr fun row hrow => by simpa using hnone row hrow
    rw [hnew, List.countP_append, hzero, Nat.zero_add]
    exact List.countP_le_length.trans hone
  eventMapping p := countP_le_one h.reachable.consistent.mapping_proposalId p
  notification who p := countP_le_one h.reachable.consistent.notification_key _
  auditEvent key := countP_le_one h.reachable.consistent.audit_key key
  event := h.event

/-- Before the first attempt everything is underway. -/
theorem Opens.underway (hopens : g.Opens) : g.Underway g.start [] g.opening.1 g.opening.2 :=
  ⟨hopens.reachable, .refl _ _, .refl _ _, ⟨none, hopens.written⟩, hopens.event, List.suffix_refl _⟩

/-- **Attempts that are underway converge.** -/
theorem Underway.converges (hopens : g.Opens) {s : Database × Calendars} (h : g.Underway since before s.1 s.2) :
    g.Converges s := by
  have hstart : g.Underway s.1 s.2.exchanges s.1 s.2 := h.restart _ (List.suffix_refl _)
  refine ⟨h.written, h.once, ?_, ?_, ?_⟩
  · exact fun a turns hturns => (attempt_ends hopens hturns hstart).1
  · exact fun a turns hturns => (attempt_ends hopens hturns hstart).2.2
  · intro a turns hturns r hr later hlater a' turns' hturns' r' hr'
    obtain ⟨-, hfirst, hreturned⟩ := attempt_ends (a := a) hopens hturns hstart
    have hagain : g.Underway (g.attempt a turns s).store [] (g.attempt a turns s).store (g.attempt a turns s).world :=
      Underway.restart (s := g.afterAttempt a turns s) hfirst [] (List.nil_suffix)
    have hafter := after_underway (s := g.afterAttempt a turns s) hopens hagain hlater
    obtain ⟨-, hsecond, hreturned'⟩ := attempt_ends (a := a') hopens hturns' hafter
    have hlast := (hreturned r hr).later hfirst.reachable.consistent hsecond.later
    exact (hreturned' r' hr').unique hsecond.reachable.consistent hlast

/-- **Submissions of requests converge**, from every quote that is prepared, after every history of attempts and
deliveries. -/
theorem submitRequest_converges (hopens : g.Opens)
    {episodes : List (Saga.Episode g.Attempt SystemTime StoreError Command ProposalOracle)}
    (hepisodes : ∀ e ∈ episodes, g.IsEpisode e) : g.Converges (g.after episodes g.opening) :=
  (after_underway hopens hopens.underway hepisodes).converges hopens

/-! ### An answer that is lost -/

theorem isValidEmail_ada : isValidEmail "ada@example.com" = true := by decide

theorem trim_ada : trim "Ada" = "Ada" := by decide

theorem not_isBlank_ada : ¬ IsBlank "Ada" := by decide

theorem trim_draftKey : trim "draft-key" = "draft-key" := by decide

theorem not_isBlank_draftKey : ¬ IsBlank "draft-key" := by decide

theorem noon_lt_quarterPast : noon.unixNanos < noon.unixNanos + 15 * minute := by decide

/-- The draft of a callback at noon. -/
def noonDraft : StoredAppointmentDraft :=
  ⟨1, "source-1", ⟨someQuoteId, ⟨"Ada", ⟨"ada@example.com", isValidEmail_ada⟩, trim_ada, not_isBlank_ada⟩, .callback, noon, false,
    ⟨"draft-key", trim_draftKey, not_isBlank_draftKey⟩⟩⟩

/-- The quote that is prepared with it. -/
def noonPreparedQuote : StoredAppointmentQuote where
  quote := ⟨someQuoteId, newYear.instant⟩
  appointmentKind := .callback
  timezone := "UTC"
  offeredSlots := [⟨noon, ⟨noon.unixNanos + 15 * minute, 0⟩, noon_lt_quarterPast⟩]
  state := .prepared
  selectedSlotIndex := some 0
  appointmentDraft := some noonDraft
  consumedAt := none
  proposalId := none

/-- The digest that the address of the owner has: nothing else is hashed here. -/
def ownerDigest : Auth.Crypto where
  sha256 _ := .mk #[0x81, 0x1c, 0xee, 0x69, 0xc6, 0xfc, 0xd1, 0x17, 0x0e, 0xb8, 0x7a, 0xcb, 0x97, 0x71, 0x36, 0x25,
    0x16, 0x80, 0x19, 0x14, 0x0c, 0x4d, 0xcb, 0x59, 0x41, 0xea, 0x44, 0x30, 0x43, 0x80, 0xfb, 0xd2]
  hmacVerify _ _ _ := false

/-- A service whose JSON library writes the notification of the callback. -/
def noonService : SubmissionService where
  env.timezones := utcOnly.timezones
  env.json := .writing
    ⟨some pendingProposalTitle, some noon, some ⟨noon.unixNanos + 15 * minute, 0⟩, some "UTC", some .callback, some .pending⟩
    "\x7b\"title\":\"Pending assistant request\",\"starts_at\":[2026,1,12,0,0,0,0,0,0],\"ends_at\":[2026,1,12,15,0,0,0,0,0],\"timezone\":\"UTC\",\"appointment_kind\":\"callback\",\"proposal_state\":\"pending\"\x7d"
  crypto := ownerDigest
  clock := stoppedClock
  owner := some theOwner

/-- The submission of the callback. -/
def noonSubmission : Submission where
  service := noonService
  owner := theOwner
  quote := noonPreparedQuote
  stored := noonDraft
  start := run noonService.env preparedQuote .empty
  events := []

/-- A quarter of an hour around meetings. -/
def bufferedPolicy : AvailabilityPolicy :=
  { caseyPolicy with
    meetingBuffer := 15 * minute
    meetingBuffer_nonneg := by decide }

/-- Submits the callback. -/
def submitNoon : noonSubmission.Attempt :=
  ⟨⟨bufferedPolicy, requestOf noonPreparedQuote noonDraft 1
    "Callback for Ada <ada@example.com> on 2026-01-01 at 12:00 (UTC); requester not included.", newYear.instant⟩, rfl⟩

theorem noon_fits : FitsNanos noon.unixNanos := by decide +kernel

theorem quarterPast_fits : FitsNanos (noon.unixNanos + 15 * minute) := by decide +kernel

/-- The event that is created. -/
def pendingEvent : CalendarEvent where
  providerEventId := "event-1"
  operationKey := ""
  title := pendingProposalTitle
  timeRange := ⟨noon.unixNanos, noon.unixNanos + 15 * minute, noon_fits, quarterPast_fits, noon_lt_quarterPast⟩
  timezone := "UTC"
  attendees := [⟨theOwner, .needsAction⟩]
  lastModifiedAt := newYear.instant.unixNanos

/-- Nothing is busy, and an event would be created. -/
def freeCalendars (creation : Creation) : ProposalOracle := ⟨.ok [], none, pendingEvent, creation⟩

/-- An attempt creates the event and loses the answer. -/
def lostAnswer : List (Saga.Episode noonSubmission.Attempt SystemTime StoreError Command ProposalOracle) :=
  [.attempt submitNoon [.call newYear, .answer (freeCalendars .answered), .answer (freeCalendars .answered),
    .answer (freeCalendars .answered), .call newYear, .answer (freeCalendars (.lost .notFound))]]

/-- An attempt that finds the event, attaches it and announces the proposal. -/
def secondAttempt : List (Saga.Turn SystemTime StoreError Command ProposalOracle) :=
  [.call newYear, .call newYear, .call newYear, .answer (freeCalendars .answered), .call newYear, .call newYear, .call newYear,
    .call newYear, .call newYear, .call newYear]

theorem submitRequest_converges_lostAnswer :
    noonSubmission.Converges (noonSubmission.after lostAnswer noonSubmission.opening) ∧
      (noonSubmission.attempt submitNoon secondAttempt (noonSubmission.after lostAnswer noonSubmission.opening)).result =
        some (.ok ⟨1, 1, 1, none, .pending⟩) := by
  have hreachable : Reachable noonSubmission.service.env noonSubmission.start := by
    simp only [noonSubmission]
    exact ⟨preparedQuote, rfl⟩
  have hopens : noonSubmission.Opens := ⟨rfl, hreachable, by decide +kernel, rfl, rfl, Nat.zero_le 1⟩
  refine ⟨submitRequest_converges hopens ?_, by decide +kernel⟩
  intro e he
  obtain rfl := List.mem_singleton.mp he
  intro t ht
  simp only [List.mem_cons, List.not_mem_nil, or_false] at ht
  rcases ht with rfl | rfl | rfl | rfl | rfl | rfl <;> trivial

/-- The callback is at noon. -/
example : noon.format = some "2026-01-01T12:00:00Z" := by decide +kernel

end Submission

end AgentVoice.PaService

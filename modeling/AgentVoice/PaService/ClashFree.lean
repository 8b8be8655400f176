import AgentVoice.PaService.SharedCalendars

/-!
# No double booking

Attempts of `submit_request` and of `submit_owner_task`, for any quotes and tasks and one after another, share the calendars of
the owner. Whatever the clocks say, whatever fails, stops or loses its answer, and whatever others do to the calendars and to
the tables, no two bookings of the service overlap, and a request keeps the buffer of the policy from everything that was
booked before it (`bookings_clashFree`). The contract of an attempt follows its steps: questions other than a creation leave
the bookings of the service or lose some of them, and a creation is reached only where both calendars were shown to be clear.
-/

namespace AgentVoice.PaService

open AgentVoice.Foundations AgentVoice.Domain AgentVoice.Providers AgentVoice.Availability AgentVoice.Store
open AgentVoice.Foundations.Saga (AsksOnly)
open Bookings
open scoped List

variable {θ ρ α β : Type}

/-- What is asked for in a submission of a request. -/
def ProposalCall.provider : ProposalCall → ProviderCall
  | .listOutlookBusy range => .listBusy .outlook range
  | .listGoogleBusy range => .listBusy .google range
  | .findProposal draft => .find .google draft.operationKey
  | .createProposal draft => .create .google draft.operationKey draft.timeRange

/-- What is asked for in a submission of an owner task. -/
def CalendarCall.provider : CalendarCall → ProviderCall
  | .findOwnerEvent draft => .find .outlook draft.operationKey
  | .listOutlookBusy range => .listBusy .outlook range
  | .listGoogleBusy range => .listBusy .google range
  | .createOwnerEvent draft => .create .outlook draft.operationKey draft.timeRange

/-- Around an attempt other calls of the store are made, and the calendars answer. -/
def bookingSurroundings (env : Environment) (provider : θ → ProviderCall) :
    Saga.Surroundings Command BookingOracle Database Bookings θ CalendarAnswer where
  interfere := step env
  answer o question w := answer w o (provider question)

/-- What may happen around an attempt, and what holds wherever it stops. -/
def booking (env : Environment) (provider : θ → ProviderCall) (buffer : ℤ) :
    Saga.Setting SystemTime StoreError Database θ CalendarAnswer Command BookingOracle Bookings where
  surroundings := bookingSurroundings env provider
  allowed _ := True
  asks _ _ _ := True
  stops _ w := ClashFree w buffer

/-! ### The rules for the steps of an attempt -/

/-- What is said of the bookings of the service still holds when some of them are gone. -/
structure Kept (K : Bookings → Prop) : Prop where
  sublist : ∀ w w', own w' <+ own w → K w → K w'

theorem Kept.trivial : Kept fun _ => True := ⟨fun _ _ _ h => h⟩

theorem Kept.imp {p : Prop} {K : Bookings → Prop} (h : Kept K) : Kept fun w => p → K w :=
  ⟨fun w w' hsublist hK hp => h.sublist w w' hsublist (hK hp)⟩

theorem Kept.clear (start stop : ℤ) : Kept fun w => Clear w start stop := ⟨fun _ _ hsublist h => h.sublist hsublist⟩

section Rules

variable {env : Environment} {provider : θ → ProviderCall} {buffer : ℤ} {K : Bookings → Prop}
  {Q : ServiceResult α → Database → Bookings → Prop}

/-- Whether a question asks for no creation. -/
abbrev Harmless (provider : θ → ProviderCall) (question : θ) : Prop := ¬ (provider question).Creates

theorem kept_answer (hK : Kept K) (o : BookingOracle) {question : θ} {w : Bookings} (hquestion : Harmless provider question)
    (h : ClashFree w buffer ∧ K w) :
    ClashFree (answer w o (provider question)).2 buffer ∧ K (answer w o (provider question)).2 := by
  rw [answer_bookings hquestion]
  exact ⟨h.1.sublist own_afterOthers, hK.sublist _ _ own_afterOthers h.2⟩

/-- **Steps that create nothing**, and what follows them. -/
theorem harmless_bind {p : Operation θ CalendarAnswer β} {f : β → Operation θ CalendarAnswer α}
    (hp : AsksOnly (Harmless provider) p) (hK : Kept K)
    (herror : ∀ e s w, ClashFree w buffer → K w → Q (.error e) s w)
    (hf : ∀ b, Saga.Triple (booking env provider buffer) (fun _ w => ClashFree w buffer ∧ K w) (f b) Q) :
    Saga.Triple (booking env provider buffer) (fun _ w => ClashFree w buffer ∧ K w) (p >>= f) Q :=
  Saga.Triple.frame_bind hp (fun _ _ h => h.1) (fun _ _ _ _ _ => trivial)
    (fun o _ _ _ hquestion h => kept_answer hK o hquestion h) (fun e s w h => herror e s w h.1 h.2) hf

variable (env provider buffer) in
/-- Nothing that the saga does lets the bookings of the service clash. -/
abbrev KeepsApart (p : Operation θ CalendarAnswer α) : Prop :=
  Saga.Triple (booking env provider buffer) (fun _ w => ClashFree w buffer) p fun _ _ w => ClashFree w buffer

/-- Steps that create nothing, to the end. -/
theorem harmless_triple {p : Operation θ CalendarAnswer α} (hp : AsksOnly (Harmless provider) p) :
    KeepsApart env provider buffer p :=
  Saga.Triple.frame hp (fun _ _ h => h) (fun _ _ _ _ _ => trivial) fun o _ _ _ hquestion h =>
    (kept_answer Kept.trivial o hquestion ⟨h, trivial⟩).1

/-- One saga after another. -/
theorem keepsApart_bind {p : Operation θ CalendarAnswer β} {f : β → Operation θ CalendarAnswer α}
    (hp : KeepsApart env provider buffer p) (hf : ∀ b, KeepsApart env provider buffer (f b)) :
    KeepsApart env provider buffer (p >>= f) := by
  refine Saga.Triple.bind (R := fun _ _ w => ClashFree w buffer) (hp.weaken (fun _ _ h => h) fun b _ w h => ?_) hf
  cases b <;> exact h

/-- A busy list without overlaps shows a calendar to be clear. -/
def Shows (calendar : CalendarName) (range : TimeRange) (a : CalendarAnswer) (w : Bookings) : Prop :=
  ∀ busy, a.busy = .ok busy → busyOverlaps busy range.start range.stop = false → ClearIn w calendar range.start range.stop

theorem Kept.shows (calendar : CalendarName) (range : TimeRange) (a : CalendarAnswer) : Kept (Shows calendar range a) :=
  ⟨fun _ _ hsublist h busy hbusy hfree => (h busy hbusy hfree).sublist hsublist⟩

/-- **Asking a calendar for busy times.** -/
theorem busy_bind (question : θ) (calendar : CalendarName) (range : TimeRange)
    (hquestion : provider question = .listBusy calendar range) (hK : Kept K)
    {f : CalendarAnswer → Operation θ CalendarAnswer α}
    (hf : ∀ a, Saga.Triple (booking env provider buffer)
      (fun _ w => ClashFree w buffer ∧ K w ∧ Shows calendar range a w) (f a) Q) :
    Saga.Triple (booking env provider buffer) (fun _ w => ClashFree w buffer ∧ K w) (Saga.query question >>= f) Q := by
  have hharmless : Harmless provider question := by
    rw [Harmless, hquestion]
    exact not_false
  refine Saga.Triple.query_bind (Saga.stable_world fun _ _ h => h.1) (fun _ _ _ => trivial) fun o a _ => ?_
  refine (hf a).weaken ?_ fun _ _ _ h => h
  rintro s w' ⟨w, h, hanswer⟩
  have hkept := kept_answer hK o hharmless h
  have hshown : Shows calendar range (answer w o (provider question)).1 (answer w o (provider question)).2 := by
    rw [hquestion]
    exact fun busy hbusy hfree => clearIn_of_busyAnswer hbusy hfree
  have hanswer' : answer w o (provider question) = (a, w') := hanswer
  rw [hanswer'] at hkept hshown
  exact ⟨hkept.1, hkept.2, hshown⟩

/-- **Creating an event** where the calendars are clear. -/
theorem create_bind (question : θ) (calendar : CalendarName) (key : String) (range : TimeRange)
    (hquestion : provider question = .create calendar key range) {f : CalendarAnswer → Operation θ CalendarAnswer α}
    (hf : ∀ a, Saga.Triple (booking env provider buffer) (fun _ w => ClashFree w buffer) (f a) Q) :
    Saga.Triple (booking env provider buffer) (fun _ w => ClashFree w buffer ∧
      Clear w (range.start - margin buffer calendar) (range.stop + margin buffer calendar)) (Saga.query question >>= f) Q := by
  refine Saga.Triple.query_bind (Saga.stable_world fun _ _ h => h.1) (fun _ _ _ => trivial) fun o a _ => ?_
  refine (hf a).weaken ?_ fun _ _ _ h => h
  rintro s w' ⟨w, h, hanswer⟩
  -- others may remove bookings before the creation; what is left is clear as well
  have hcreated : ClashFree (answer w o (provider question)).2 buffer := by
    rw [hquestion]
    exact h.1.create h.2
  have hanswer' : answer w o (provider question) = (a, w') := hanswer
  rwa [hanswer'] at hcreated

end Rules

/-! ### Submitting a request -/

section Requests

variable {env : Environment} {buffer : ℤ} {K : Bookings → Prop} {A : θ → Prop} {timezones : Timezones}
  {service : SubmissionService} {a : SubmitRequestArguments} {r : AdmittedRequest}

theorem asksOnly_admitSubmission : AsksOnly A (admitSubmission service a : Operation θ ρ AdmittedRequest) :=
  (AsksOnly.ofResult _).bind fun _ => AsksOnly.bind
    ((AsksOnly.ofResult _).bind fun _ => (AsksOnly.store _ _).bind fun _ => .ofResult _)
    fun _ => (AsksOnly.ofResult _).bind fun _ => .pure _

theorem asksOnly_existingProposal : AsksOnly A (existingProposal r : Operation θ ρ (Option StoredProposal)) := by
  rw [existingProposal]
  cases r.quote.proposalId with
  | none => exact .pure _
  | some proposalId => exact (AsksOnly.store _ _).bind fun _ => (AsksOnly.ofResult _).bind fun _ => .pure _

theorem asksOnly_existingMapping (existing : Option StoredProposal) :
    AsksOnly A (existingMapping service.crypto r existing : Operation θ ρ (Option (StoredProposal × StoredEventMapping))) := by
  cases existing with
  | none => exact .pure _
  | some proposal => exact (AsksOnly.attempt _).bind fun _ => (AsksOnly.ofResult _).bind fun _ => .pure _

theorem asksOnly_takeProposal (existing : Option StoredProposal) :
    AsksOnly A (takeProposal timezones r existing : Operation θ ρ StoredProposal) := by
  cases existing with
  | none => exact .store _ _
  | some proposal => exact .pure _

theorem asksOnly_appendSubmissionAudit (entry : AuditEntry) (occurredAt : OffsetDateTime) :
    AsksOnly A (appendSubmissionAudit entry occurredAt : Operation θ ρ Unit) := (AsksOnly.store _ _).bind fun _ => .pure _

theorem asksOnly_announce (json : TemplateJson) (proposalId mappingId : ℤ) :
    AsksOnly A (announce json timezones r proposalId mappingId : Operation θ ρ SubmittedRequest) := by
  have hnotify : ∀ template consumedAt,
      AsksOnly A (notifyRequester json r proposalId mappingId template consumedAt : Operation θ ρ (Option ℤ)) := by
    intro template consumedAt
    rw [notifyRequester]
    split_ifs
    · exact (AsksOnly.ofResult _).bind fun _ => (AsksOnly.store _ _).bind fun _ => .pure _
    · exact .pure _
  have haudit : ∀ consumedAt notificationId,
      AsksOnly A (auditRequester proposalId consumedAt notificationId : Operation θ ρ Unit) := by
    intro consumedAt notificationId
    cases notificationId with
    | none => exact .pure _
    | some id => exact asksOnly_appendSubmissionAudit _ _
  refine (AsksOnly.store _ _).bind fun _ => (AsksOnly.ofResult _).bind fun consumedAt => (AsksOnly.ofResult _).bind fun template => ?_
  refine (AsksOnly.ofResult _).bind fun _ => (AsksOnly.store _ _).bind fun _ => (hnotify template consumedAt).bind fun id => ?_
  refine (asksOnly_appendSubmissionAudit _ _).bind fun _ => (asksOnly_appendSubmissionAudit _ _).bind fun _ => ?_
  exact (asksOnly_appendSubmissionAudit _ _).bind fun _ => (haudit consumedAt id).bind fun _ => .pure _

theorem asksOnly_findProposal (draft : GoogleProposalDraft) (owner : MailAddress) :
    AsksOnly (Harmless ProposalCall.provider) (findProposal draft owner) := by
  have hfind : Harmless ProposalCall.provider (.findProposal draft) := not_false
  exact (AsksOnly.query hfind).bind fun _ => .ofResult _

/-- The times of a draft with the buffer of a policy around them are clear. -/
def ClearAround (policy : AvailabilityPolicy) (draft : AppointmentDraft) (w : Bookings) : Prop :=
  Clear w (draft.startsAt.unixNanos - policy.meetingBuffer) (draft.endsAt.unixNanos + policy.meetingBuffer)

/-- **Where both calendars say that the times of a draft are free, they are clear.** -/
theorem recheckCalendars_clear (policy : AvailabilityPolicy) (draft : AppointmentDraft) :
    Saga.Triple (booking env ProposalCall.provider buffer) (fun _ w => ClashFree w buffer)
      (recheckCalendars policy draft)
      fun taken _ w => ClashFree w buffer ∧ (taken = .ok false → ClearAround policy draft w) := by
  refine Saga.Triple.ofResult_bind (fun recheck hrecheck => ?_) fun e _ _ _ h => ⟨h, nofun⟩
  obtain ⟨hstart, hstop, hfirst, hlast⟩ := Submission.recheckRange_eq_ok hrecheck
  refine (busy_bind (ProposalCall.listOutlookBusy recheck.2.2) .outlook recheck.2.2 rfl Kept.trivial fun outlook => ?_).weaken
    (fun _ _ h => ⟨h, trivial⟩) fun _ _ _ h => h
  refine Saga.Triple.ofResult_bind (fun outlookBusy houtlook => ?_) fun e _ _ _ h => ⟨h.1, nofun⟩
  refine (busy_bind (ProposalCall.listGoogleBusy recheck.2.2) .google recheck.2.2 rfl (Kept.shows .outlook recheck.2.2 outlook)
    fun google => ?_).weaken (fun _ _ h => ⟨h.1, h.2.2⟩) fun _ _ _ h => h
  refine Saga.Triple.ofResult_bind (fun googleBusy hgoogle => ?_) fun e _ _ _ h => ⟨h.1, nofun⟩
  refine Saga.Triple.pure fun _ w h => ⟨h.1, fun hfree => ?_⟩
  have hnone := Except.ok.inj hfree
  rw [hfirst, hlast, Bool.or_eq_false_iff] at hnone
  have hclear := clear_of_clearIn (h.2.1 _ (mapError_eq_ok_iff.mp houtlook) hnone.1) (h.2.2 _ (mapError_eq_ok_iff.mp hgoogle) hnone.2)
  rwa [hstart, hstop] at hclear

/-- What is known of the calendars when an event was looked for: where there is none, and the quote is not consumed, they are
clear. -/
def Looked (policy : AvailabilityPolicy) (draft : AppointmentDraft) (existing : Option StoredProposal)
    (found : Option CalendarEvent) (w : Bookings) : Prop :=
  found = none → existing = none → ClearAround policy draft w

theorem findWhereTaken_looked (policy : AvailabilityPolicy) (draft : GoogleProposalDraft) (existing : Option StoredProposal) :
    Saga.Triple (booking env ProposalCall.provider buffer) (fun _ w => ClashFree w buffer)
      (findWhereTaken policy r draft existing)
      fun found _ w => ClashFree w buffer ∧ ∀ event, found = .ok event → Looked policy r.stored.draft existing event w := by
  cases existing with
  | some proposal =>
    refine Saga.Triple.pure fun _ w h => ⟨h, fun event _ _ hnone => ?_⟩
    exact absurd hnone (Option.some_ne_none proposal)
  | none =>
    rw [findWhereTaken]
    refine Saga.Triple.bind (R := fun taken _ w => ClashFree w buffer ∧ (taken = false → ClearAround policy r.stored.draft w))
      ((recheckCalendars_clear policy r.stored.draft).weaken (fun _ _ h => h) fun taken _ w h => ?_) fun taken => ?_
    · cases taken with
      | ok taken => exact ⟨h.1, fun hfree => h.2 (congrArg _ hfree)⟩
      | error e => exact ⟨h.1, fun _ hevent => by cases hevent⟩
    cases taken with
    | false =>
      refine Saga.Triple.pure fun _ w h => ⟨h.1, fun event _ _ _ => h.2 rfl⟩
    | true =>
      refine (harmless_bind (K := fun _ => True) (asksOnly_findProposal draft r.owner) Kept.trivial
        (fun e _ w h _ => ⟨h, fun _ hevent => by cases hevent⟩) fun found => ?_).weaken (fun _ _ h => ⟨h.1, trivial⟩) fun _ _ _ h => h
      refine Saga.Triple.ofResult_bind (fun event _ => ?_) fun e _ _ _ h =>
        ⟨h.1, fun _ hevent => by cases hevent⟩
      refine Saga.Triple.pure fun _ w h => ⟨h.1, fun found hfound hnone => ?_⟩
      exact absurd ((Except.ok.inj hfound).trans hnone) (Option.some_ne_none event)

theorem findUnlessFound_looked (policy : AvailabilityPolicy) (draft : GoogleProposalDraft) (existing : Option StoredProposal)
    (found : Option CalendarEvent) :
    Saga.Triple (booking env ProposalCall.provider buffer)
      (fun _ w => ClashFree w buffer ∧ Looked policy r.stored.draft existing found w) (findUnlessFound draft r.owner found)
      fun found _ w => ClashFree w buffer ∧ ∀ event, found = .ok event → Looked policy r.stored.draft existing event w := by
  cases found with
  | some event =>
    refine Saga.Triple.pure fun _ w h => ⟨h.1, fun found hfound => ?_⟩
    rw [← Except.ok.inj hfound]
    exact h.2
  | none =>
    have hkept : Kept fun w => existing = none → ClearAround policy r.stored.draft w := (Kept.clear _ _).imp
    refine (Saga.Triple.frame (asksOnly_findProposal draft r.owner) (fun _ _ h => h.1) (fun _ _ _ _ _ => trivial)
      fun o _ _ _ hquestion h => kept_answer hkept o hquestion h).weaken (fun _ _ h => ⟨h.1, h.2 rfl⟩) fun _ _ w h => ?_
    exact ⟨h.1, fun _ _ _ => h.2⟩

/-- **An event is created only where both calendars were shown to be clear**, in this attempt. -/
theorem ensureCreatable_clear (existing : Option StoredProposal) :
    Saga.Triple (booking env ProposalCall.provider buffer)
      (fun _ w => ClashFree w buffer ∧ (existing = none → ClearAround a.policy r.stored.draft w))
      (ensureCreatable a r existing)
      fun u _ w => ClashFree w buffer ∧ (u = .ok () → ClearAround a.policy r.stored.draft w) := by
  cases existing with
  | none =>
    refine Saga.Triple.ofResult_bind (fun cutoff _ => ?_) fun e _ _ _ h => ⟨h.1, fun hok => by cases hok⟩
    exact Saga.Triple.done fun _ w h => ⟨h.1, fun _ => h.2 rfl⟩
  | some proposal =>
    rw [ensureCreatable]
    refine Saga.Triple.bind (R := fun taken _ w => ClashFree w buffer ∧ (taken = false → ClearAround a.policy r.stored.draft w))
      ((recheckCalendars_clear a.policy r.stored.draft).weaken (fun _ _ h => h.1) fun taken _ w h => ?_) fun taken => ?_
    · cases taken with
      | ok taken => exact ⟨h.1, fun hfree => h.2 (congrArg _ hfree)⟩
      | error e => exact ⟨h.1, fun hok => by cases hok⟩
    · exact Saga.Triple.done fun _ w h => ⟨h.1, fun hok => h.2 (require_eq_ok_iff.mp hok)⟩

/-- The times of the event are those of the draft. -/
theorem googleProposalDraft_times {draft : GoogleProposalDraft} (h : googleProposalDraft timezones r = .ok draft) :
    draft.timeRange.start = r.stored.draft.startsAt.unixNanos ∧ draft.timeRange.stop = r.stored.draft.endsAt.unixNanos := by
  obtain ⟨start, hstart, h⟩ := bind_eq_ok_iff.mp h
  obtain ⟨stop, hstop, h⟩ := bind_eq_ok_iff.mp h
  obtain ⟨range, hrange, h⟩ := bind_eq_ok_iff.mp h
  obtain ⟨-, -, -, -, rfl⟩ := GoogleProposalDraft.fromOwner_eq_ok_iff.mp (mapError_eq_ok_iff.mp h)
  obtain ⟨-, -, hrangeStart, hrangeStop⟩ := TimeRange.new_eq_ok_iff.mp (replaceError_eq_ok_iff.mp hrange)
  obtain rfl := toChronoUtc_eq_ok hstart
  obtain rfl := toChronoUtc_eq_ok hstop
  exact ⟨hrangeStart, hrangeStop⟩

theorem placeEvent_clashFree (hbuffer : buffer ≤ a.policy.meetingBuffer) (existing : Option StoredProposal)
    {draft : GoogleProposalDraft} (hdraft : googleProposalDraft timezones r = .ok draft) (found : Option CalendarEvent) :
    Saga.Triple (booking env ProposalCall.provider buffer)
      (fun _ w => ClashFree w buffer ∧ Looked a.policy r.stored.draft existing found w)
      (placeEvent timezones a r existing draft found) fun _ _ w => ClashFree w buffer := by
  cases found with
  | some event =>
    have hplace : AsksOnly (Harmless ProposalCall.provider) (placeEvent timezones a r existing draft (some event)) :=
      (asksOnly_takeProposal existing).bind fun _ => .pure _
    exact (harmless_triple hplace).weaken (fun _ _ h => h.1) fun _ _ _ h => h
  | none =>
    obtain ⟨hstart, hstop⟩ := googleProposalDraft_times hdraft
    rw [placeEvent]
    refine Saga.Triple.bind (R := fun _ _ w => ClashFree w buffer ∧ ClearAround a.policy r.stored.draft w)
      ((ensureCreatable_clear existing).weaken (fun _ _ h => ⟨h.1, h.2 rfl⟩) fun u _ w h => ?_) fun _ => ?_
    · cases u with
      | ok u => exact ⟨h.1, h.2 rfl⟩
      | error e => exact h.1
    refine harmless_bind (asksOnly_takeProposal existing) (Kept.clear _ _) (fun _ _ _ h _ => h) fun proposal => ?_
    refine (create_bind (ProposalCall.createProposal draft) .google draft.operationKey draft.timeRange rfl fun answer => ?_).weaken
      (fun _ w h => ⟨h.1, ?_⟩) fun _ _ _ h => h
    · exact harmless_triple ((AsksOnly.ofResult _).bind fun _ => (AsksOnly.ofResult _).bind fun _ => .pure _)
    · refine h.2.narrow ?_ ?_
      · rw [hstart]
        exact sub_le_sub_left hbuffer _
      · rw [hstop]
        exact add_le_add_right hbuffer _

theorem placeProposal_keepsApart (hbuffer : buffer ≤ a.policy.meetingBuffer) (existing : Option StoredProposal) :
    KeepsApart env ProposalCall.provider buffer (placeProposal service a r existing) := by
  refine Saga.Triple.ofResult_bind (fun draft hdraft => ?_) fun _ _ _ _ h => h
  refine Saga.Triple.bind (R := fun found _ w => ClashFree w buffer ∧ Looked a.policy r.stored.draft existing found w)
    ((findWhereTaken_looked a.policy draft existing).weaken (fun _ _ h => h) fun found _ w h => ?_) fun found => ?_
  · cases found with
    | ok found => exact ⟨h.1, h.2 found rfl⟩
    | error e => exact h.1
  refine Saga.Triple.bind (R := fun found _ w => ClashFree w buffer ∧ Looked a.policy r.stored.draft existing found w)
    ((findUnlessFound_looked a.policy draft existing found).weaken (fun _ _ h => h) fun found _ w h => ?_) fun found => ?_
  · cases found with
    | ok found => exact ⟨h.1, h.2 found rfl⟩
    | error e => exact h.1
  refine Saga.Triple.bind (R := fun _ _ w => ClashFree w buffer)
    ((placeEvent_clashFree hbuffer existing hdraft found).weaken (fun _ _ h => h) fun placed _ w h => ?_) fun placed => ?_
  · cases placed <;> exact h
  · exact harmless_triple ((AsksOnly.store _ _).bind fun _ => .pure _)

/-- **An attempt to submit a request** keeps the bookings of the service apart. -/
theorem submitRequest_keepsApart (hbuffer : buffer ≤ a.policy.meetingBuffer) :
    KeepsApart env ProposalCall.provider buffer (submitRequest service a) := by
  refine keepsApart_bind (harmless_triple asksOnly_admitSubmission) fun r => keepsApart_bind ?_ fun placed => ?_
  · refine keepsApart_bind (harmless_triple asksOnly_existingProposal) fun existing => ?_
    refine keepsApart_bind (harmless_triple (asksOnly_existingMapping existing)) fun mapped => ?_
    cases mapped with
    | some placed => exact harmless_triple (.pure _)
    | none => exact placeProposal_keepsApart hbuffer existing
  · exact harmless_triple (asksOnly_announce _ _ _)

end Requests

/-! ### Submitting an owner task -/

section OwnerTasks

variable {env : Environment} {buffer : ℤ} {A : θ → Prop} {timezones : Timezones} {a : SubmitArguments}
  {placement : StoredOwnerTaskPlacement} {draft : OwnerEventDraft}

theorem asksOnly_auditSubmission (providerEventId : String) :
    AsksOnly A (auditSubmission a providerEventId : Operation θ ρ SubmittedOwnerTask) := by
  have hresolve : ∀ appended, AsksOnly A (resolveAudit (ownerTaskSubmissionAuditKey a.prepared.ownerTaskDraftId) appended :
      Operation θ ρ StoredAuditEvent) := by
    intro appended
    cases appended with
    | ok audit => exact .pure _
    | error error =>
      cases error with
      | conflict resource => exact .store _ _
      | _ => exact .fail _
  have hensure : AsksOnly A (ensureOwnerTaskSubmissionAudit a.prepared.ownerTaskDraftId a.now : Operation θ ρ Unit) :=
    (AsksOnly.attempt _).bind fun appended => (hresolve appended).bind fun _ => .ensure _ _
  exact hensure.bind fun _ => .pure _

theorem asksOnly_recordSubmission (event : CalendarEvent) :
    AsksOnly A (recordSubmission timezones a event : Operation θ ρ SubmittedOwnerTask) :=
  (AsksOnly.store _ _).bind fun _ => (AsksOnly.ofResult _).bind fun _ => (AsksOnly.ensure _ _).bind fun _ =>
    asksOnly_auditSubmission _

theorem harmless_findOwnerEvent (draft : OwnerEventDraft) : Harmless CalendarCall.provider (.findOwnerEvent draft) := not_false

theorem createOwnerEvent_keepsApart :
    Saga.Triple (booking env CalendarCall.provider buffer)
      (fun _ w => ClashFree w buffer ∧ Clear w draft.timeRange.start draft.timeRange.stop) (createOwnerEvent draft)
      fun _ _ w => ClashFree w buffer := by
  refine (create_bind (CalendarCall.createOwnerEvent draft) .outlook draft.operationKey draft.timeRange rfl fun answer => ?_).weaken
    (fun _ w h => ?_) fun _ _ _ h => h
  · cases answer.event with
    | ok event => exact harmless_triple (.ofResult _)
    | error e => exact harmless_triple ((AsksOnly.query (harmless_findOwnerEvent draft)).bind fun _ => .ofResult _)
  · rwa [margin, sub_zero, add_zero]

theorem createWhereFree_keepsApart (hstart : placement.startsAt.unixNanos = draft.timeRange.start)
    (hstop : placement.endsAt.unixNanos = draft.timeRange.stop) :
    KeepsApart env CalendarCall.provider buffer (createWhereFree placement draft) := by
  refine (busy_bind (CalendarCall.listOutlookBusy draft.timeRange) .outlook draft.timeRange rfl Kept.trivial
    fun outlook => ?_).weaken (fun _ _ h => ⟨h, trivial⟩) fun _ _ _ h => h
  refine Saga.Triple.ofResult_bind (fun outlookBusy houtlook => ?_) fun _ _ _ _ h => h.1
  refine (busy_bind (CalendarCall.listGoogleBusy draft.timeRange) .google draft.timeRange rfl
    (Kept.shows .outlook draft.timeRange outlook) fun google => ?_).weaken (fun _ _ h => ⟨h.1, h.2.2⟩) fun _ _ _ h => h
  refine Saga.Triple.ofResult_bind (fun googleBusy hgoogle => ?_) fun _ _ _ _ h => h.1
  refine Saga.Triple.ensure_bind (fun hfree => ?_) fun _ _ _ h => h.1
  rw [hstart, hstop] at hfree
  refine createOwnerEvent_keepsApart.weaken (fun _ w h => ⟨h.1, ?_⟩) fun _ _ _ h => h
  exact clear_of_clearIn (h.2.1 _ (mapError_eq_ok_iff.mp houtlook) hfree.1) (h.2.2 _ (mapError_eq_ok_iff.mp hgoogle) hfree.2)

/-- What was admitted is the placement with the event at its times. -/
theorem admitOwnerTask_times :
    Saga.Triple (booking env CalendarCall.provider buffer) (fun _ w => ClashFree w buffer) (admitOwnerTask timezones a)
      fun admitted _ w => ClashFree w buffer ∧ ∀ placed, admitted = .ok placed →
        placed.1.startsAt.unixNanos = placed.2.timeRange.start ∧ placed.1.endsAt.unixNanos = placed.2.timeRange.stop := by
  have herror : ∀ (e : ServiceError) (_ : Database) (w : Bookings), ClashFree w buffer → True →
      ClashFree w buffer ∧ ∀ placed : StoredOwnerTaskPlacement × OwnerEventDraft, Except.error e = .ok placed →
        placed.1.startsAt.unixNanos = placed.2.timeRange.start ∧ placed.1.endsAt.unixNanos = placed.2.timeRange.stop :=
    fun e _ w h _ => ⟨h, fun _ hplaced => by cases hplaced⟩
  refine (harmless_bind (AsksOnly.ofResult _) Kept.trivial herror fun _ => ?_).weaken (fun _ _ h => ⟨h, trivial⟩) fun _ _ _ h => h
  refine harmless_bind (AsksOnly.store _ _) Kept.trivial herror fun stored => ?_
  refine harmless_bind (AsksOnly.store _ _) Kept.trivial herror fun placement => ?_
  refine Saga.Triple.done fun _ w h => ⟨h.1, fun placed hplaced => ?_⟩
  obtain ⟨_, -, hevent⟩ := bind_eq_ok_iff.mp hplaced
  obtain ⟨draft, hdraft, hpair⟩ := bind_eq_ok_iff.mp hevent
  obtain rfl := Except.ok.inj hpair
  obtain ⟨-, -, hstart, hstop⟩ := ownerEventDraft_eq_ok hdraft
  exact ⟨hstart.symm, hstop.symm⟩

theorem obtainOwnerEvent_keepsApart (hstart : placement.startsAt.unixNanos = draft.timeRange.start)
    (hstop : placement.endsAt.unixNanos = draft.timeRange.stop) :
    KeepsApart env CalendarCall.provider buffer (obtainOwnerEvent placement draft) := by
  refine keepsApart_bind (harmless_triple (.query (harmless_findOwnerEvent draft))) fun answer => ?_
  cases answer.event with
  | ok event => exact harmless_triple (.ofResult _)
  | error e =>
    cases e with
    | notFound => exact createWhereFree_keepsApart hstart hstop
    | _ => exact harmless_triple (.fail _)

/-- **An attempt to submit an owner task** keeps the bookings of the service apart. -/
theorem submitOwnerTask_keepsApart : KeepsApart env CalendarCall.provider buffer (submitOwnerTask timezones a) := by
  refine Saga.Triple.bind (R := fun placed _ w => ClashFree w buffer ∧
      placed.1.startsAt.unixNanos = placed.2.timeRange.start ∧ placed.1.endsAt.unixNanos = placed.2.timeRange.stop)
    (admitOwnerTask_times.weaken (fun _ _ h => h) fun placed _ w h => ?_) fun placed => ?_
  · cases placed with
    | ok placed => exact ⟨h.1, h.2 placed rfl⟩
    | error e => exact h.1
  rintro turns hturns db w ⟨h, hstart, hstop⟩
  refine (?_ : KeepsApart env CalendarCall.provider buffer _) turns hturns db w h
  cases placed.1.providerEventId with
  | some providerEventId => exact harmless_triple (asksOnly_auditSubmission providerEventId)
  | none =>
    exact keepsApart_bind (obtainOwnerEvent_keepsApart hstart hstop) fun event => harmless_triple (asksOnly_recordSubmission event)

end OwnerTasks

/-! ### All bookings -/

/-- What happens to the tables and the calendars over time. -/
inductive BookingActivity where
  /-- An attempt to submit a request. -/
  | request (arguments : SubmitRequestArguments) (turns : List (Saga.Turn SystemTime StoreError Command BookingOracle))
  /-- An attempt to submit an owner task. -/
  | ownerTask (arguments : SubmitArguments) (turns : List (Saga.Turn SystemTime StoreError Command BookingOracle))
  /-- Another call of the store. -/
  | call (command : Command)

/-- The tables and the calendars where a run stops or ends. -/
def ended {δ : Type} (ran : Saga.Ran Database Bookings θ δ α) : Database × Bookings := (ran.store, ran.world)

theorem ended_bookings {δ : Type} (ran : Saga.Ran Database Bookings θ δ α) : (ended ran).2 = ran.world := rfl

namespace BookingActivity

/-- The tables and the calendars after an activity. -/
def step (service : SubmissionService) : BookingActivity → Database × Bookings → Database × Bookings
  | request arguments turns, s =>
    ended (Saga.run (bookingSurroundings service.env ProposalCall.provider) turns (submitRequest service arguments) s.1 s.2)
  | ownerTask arguments turns, s =>
    ended (Saga.run (bookingSurroundings service.env CalendarCall.provider) turns
      (submitOwnerTask service.env.timezones arguments) s.1 s.2)
  | call command, s => (Store.step service.env command s.1, s.2)

/-- The policy of a request has a buffer of some length at least. -/
def Buffers (buffer : ℤ) : BookingActivity → Prop
  | request arguments _ => buffer ≤ arguments.policy.meetingBuffer
  | _ => True

end BookingActivity

/-- Where a saga keeps the bookings apart, they are apart wherever it stops or ends. -/
theorem KeepsApart.world {env : Environment} {provider : θ → ProviderCall} {buffer : ℤ} {p : Operation θ CalendarAnswer α}
    (hp : KeepsApart env provider buffer p) (turns : List (Saga.Turn SystemTime StoreError Command BookingOracle))
    {s : Database × Bookings} (h : ClashFree s.2 buffer) :
    ClashFree (Saga.run (bookingSurroundings env provider) turns p s.1 s.2).world buffer := by
  obtain ⟨-, hstops, hreturns⟩ := hp turns (fun _ _ => trivial) s.1 s.2 h
  cases hresult : (Saga.run (bookingSurroundings env provider) turns p s.1 s.2).result with
  | none => exact hstops hresult
  | some r => exact hreturns r hresult

/-- The tables and the calendars after activities, one after another. -/
def afterBookings (service : SubmissionService) (activities : List BookingActivity) (s : Database × Bookings) :
    Database × Bookings := Machine.run (BookingActivity.step service) activities s

theorem afterBookings_clashFree (service : SubmissionService) {buffer : ℤ} {activities : List BookingActivity}
    (hactivities : ∀ activity ∈ activities, activity.Buffers buffer) {s : Database × Bookings} (h : ClashFree s.2 buffer) :
    ClashFree (afterBookings service activities s).2 buffer := by
  induction activities generalizing s with
  | nil => exact h
  | cons activity activities ih =>
    refine ih (fun activity' hmem => hactivities activity' (List.mem_cons_of_mem _ hmem)) ?_
    have hbuffers := hactivities activity List.mem_cons_self
    cases activity with
    | request arguments turns =>
      rw [BookingActivity.step, ended_bookings]
      exact (submitRequest_keepsApart hbuffers).world turns h
    | ownerTask arguments turns =>
      rw [BookingActivity.step, ended_bookings]
      exact submitOwnerTask_keepsApart.world turns h
    | call command => exact h

/-- **No double booking.** However attempts to submit requests and owner tasks go on, whatever fails, stops or loses its answer,
and whatever others do to the calendars and the tables: no two bookings of the service overlap, and a request keeps the
buffer of the policy from everything that was booked before it. -/
theorem bookings_clashFree (service : SubmissionService) {buffer : ℤ} (hbuffer : 0 ≤ buffer)
    {activities : List BookingActivity} (hactivities : ∀ activity ∈ activities, activity.Buffers buffer)
    {s : Database × Bookings} (h : ClashFree s.2 buffer) :
    ClashFree (afterBookings service activities s).2 buffer ∧
      (own (afterBookings service activities s).2).Pairwise fun b b' =>
        b.Misses b'.event.timeRange.start b'.event.timeRange.stop := by
  have hafter := afterBookings_clashFree service hactivities h
  exact ⟨hafter, hafter.apart hbuffer⟩

/-! ### A task at the time of a request -/

/-- Others do nothing, some times are busy, and an event would be created. -/
def untouched (busy : List BusyInterval) : BookingOracle where
  left _ := true
  added := []
  busy := .ok busy
  lookup := none
  event := Submission.pendingEvent
  creation := .answered

/-- The callback at noon. -/
def noonBusy : BusyInterval := ⟨noon.unixNanos, noon.unixNanos + 15 * minute, Submission.noon_lt_quarterPast⟩

/-- A task is prepared for noon, an attempt books the callback at noon and stops, and the task is submitted. -/
def noonActivities : List BookingActivity :=
  [.call (.savePreparedOwnerTask none waterPlants
      ⟨noon, ⟨noon.unixNanos + 45 * minute, 0⟩, "UTC", "water-plants", verifiedOwner.fingerprint⟩),
    .request Submission.submitNoon.1 [.call newYear, .answer (untouched []), .answer (untouched []), .answer (untouched []),
      .call newYear, .answer (untouched [])],
    .ownerTask submitNoonTask [.call newYear, .call newYear, .answer (untouched []), .answer (untouched []),
      .answer (untouched [noonBusy]), .answer (untouched [])]]

theorem bookings_clashFree_noon :
    let ended := afterBookings Submission.noonService noonActivities (Submission.noonSubmission.start, [])
    (ClashFree ended.2 (15 * minute) ∧ (own ended.2).Pairwise fun b b' =>
      b.Misses b'.event.timeRange.start b'.event.timeRange.stop) ∧
    (own ended.2).map (·.calendar) = [.google] := by
  refine ⟨bookings_clashFree Submission.noonService (by decide) ?_ List.Pairwise.nil, by decide +kernel⟩
  intro activity hactivity
  simp only [noonActivities, List.mem_cons, List.not_mem_nil, or_false] at hactivity
  rcases hactivity with rfl | rfl | rfl
  · trivial
  · show 15 * minute ≤ Submission.bufferedPolicy.meetingBuffer
    exact le_rfl
  · trivial

/-- The quarter of an hour that the callback takes. -/
example : OffsetDateTime.format ⟨noon.unixNanos + 15 * minute, 0⟩ = some "2026-01-01T12:15:00Z" := by decide +kernel

end AgentVoice.PaService

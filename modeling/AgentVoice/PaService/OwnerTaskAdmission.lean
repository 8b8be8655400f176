import AgentVoice.PaService.OwnerTasks
import Mathlib

/-!
# Prepared owner tasks

`prepare_owner_task` checks a task by the rules of the domain and of the store, `submit_owner_task` by those of the
provider's boundary. These agree on keys, time zones and the order of the times; of the title and of the instants the
provider asks more (`EventFits`). A task that was prepared is submitted without a local error, whatever other calls do
in between, just where its title and its times fit an event (`prepareOwnerTask_submittable_iff`).
-/

namespace AgentVoice.PaService

open AgentVoice.Foundations AgentVoice.Domain AgentVoice.Providers AgentVoice.Availability AgentVoice.Store

variable {env : Environment} {db db' : Database}

/-- The time zones of the calendar library have short names, without outer white space. -/
def NamesZones (timezones : Timezones) : Prop :=
  ∀ value name, timezones value = some name → trim name = name ∧ byteLength name ≤ maxProviderIdLength

/-- A title and two times that an event can have. -/
def EventFits (title : String) (startsAt endsAt : ℤ) : Prop :=
  byteLength title ≤ maxProviderIdLength ∧ hasControl title = false ∧ FitsNanos startsAt ∧ FitsNanos endsAt

/-! ### The event of a placed task -/

/-- The characters of a machine identifier are printable ASCII characters other than the space. -/
theorem char_of_isMachineIdentifier {value : String} (h : isMachineIdentifier value = true) :
    ∀ c ∈ value.toList, 32 < c.toNat ∧ c.toNat < 127 := by
  intro c hc
  have hall := (Bool.and_eq_true_iff.mp h).2
  have hchar := List.all_eq_true.mp hall c hc
  simp only [isAsciiAlphanumeric, Bool.or_eq_true_iff, Bool.and_eq_true_iff, decide_eq_true_iff, beq_iff_eq] at hchar
  rcases hchar with (((((⟨h₁, h₂⟩ | ⟨h₁, h₂⟩) | ⟨h₁, h₂⟩) | rfl) | rfl) | rfl) | rfl
  all_goals first | omega | decide

/-- A machine identifier is an identifier of a provider. -/
theorem isProviderIdentifier_of_isMachineIdentifier {value : String} (h : isMachineIdentifier value = true) :
    IsProviderIdentifier value := by
  have hchars := char_of_isMachineIdentifier h
  obtain ⟨hbounds, -⟩ := Bool.and_eq_true_iff.mp h
  obtain ⟨hne, hlength⟩ := Bool.and_eq_true_iff.mp hbounds
  refine ⟨?_, of_decide_eq_true hlength, ?_, ?_⟩
  · rw [isBlank_iff]
    intro hblank
    cases hvalue : value.toList with
    | nil => exact (bne_iff_ne.mp hne) (String.toList_inj.mp hvalue)
    | cons c rest =>
      have hc : c ∈ value.toList := hvalue ▸ List.mem_cons_self
      have hspace := hblank c hc
      obtain ⟨hlow, hhigh⟩ := hchars c hc
      simp only [isWhitespace, Bool.or_eq_true_iff, Bool.and_eq_true_iff, decide_eq_true_iff, beq_iff_eq] at hspace
      omega
  · exact List.all_eq_true.mpr fun c hc => decide_eq_true ((hchars c hc).2.trans (by decide))
  · refine List.any_eq_false.mpr fun c hc => ?_
    obtain ⟨hlow, hhigh⟩ := hchars c hc
    simp only [isControl, Bool.or_eq_true_iff, Bool.and_eq_true_iff, decide_eq_true_iff]
    omega

/-- An instant that a placement holds is one of the calendar library. -/
theorem toChronoUtc_of_format {t : OffsetDateTime} {text : String} (hutc : t.offsetSeconds = 0)
    (h : t.format = some text) : toChronoUtc t = .ok t.unixNanos := by
  obtain ⟨⟨hlow, hhigh⟩, -⟩ := OffsetDateTime.format_eq_some_iff.mp h
  have hrange : chronoMin ≤ t.unixTimestamp ∧ t.unixTimestamp ≤ chronoMax := by
    simp only [OffsetDateTime.localNanos, hutc, epochNanos, calendarNanos, second] at hlow hhigh
    simp only [OffsetDateTime.unixTimestamp, chronoMin, chronoMax, second]
    omega
  rw [toChronoUtc, require_of hrange]
  rfl

/-- A time zone that the store accepts is one at the provider's boundary. -/
theorem isCalendarTimezone_of_named {timezones : Timezones} (hzones : NamesZones timezones) {name : String}
    (hblank : ¬IsBlank name) (hname : timezones name = some name) : IsCalendarTimezone timezones name := by
  obtain ⟨htrimmed, hshort⟩ := hzones name name hname
  exact ⟨hblank, hshort, htrimmed, by rw [hname]; rfl⟩

/-- **A placed task has an event** just where its title and its times fit one. -/
theorem ownerEventDraft_eq_ok_iff (hzones : NamesZones env.timezones) {stored : StoredOwnerTaskDraft}
    {p : StoredOwnerTaskPlacement} (hplaced : PlacedTask env.timezones stored p db) :
    (∃ event, ownerEventDraft env.timezones stored p = .ok event) ↔
      EventFits stored.draft.title p.startsAt.unixNanos p.endsAt.unixNanos := by
  obtain ⟨row, -, hrow⟩ := hplaced.placement
  have hholds := decodeOwnerTaskPlacement_eq_ok hrow
  have hkey : IsProviderIdentifier p.operationKey := by
    rw [hholds.operationKey]
    exact isProviderIdentifier_of_isMachineIdentifier hholds.operationKey_valid
  have hzone : IsCalendarTimezone env.timezones p.timezone := by
    rw [hholds.timezone]
    exact isCalendarTimezone_of_named hzones hholds.timezone_named.1 hholds.timezone_named.2
  rw [ownerEventDraft, toChronoUtc_of_format hholds.startsAt.1 hholds.startsAt.2.2, ok_bind,
    toChronoUtc_of_format hholds.endsAt.1 hholds.endsAt.2.2, ok_bind]
  constructor
  · rintro ⟨event, h⟩
    obtain ⟨range, hrange, hevent⟩ := bind_eq_ok_iff.mp h
    obtain ⟨hstart, hstop, -, -⟩ := TimeRange.new_eq_ok_iff.mp (replaceError_eq_ok_iff.mp hrange)
    obtain ⟨-, htitle, -, -⟩ := OwnerEventDraft.new_eq_ok_iff.mp (mapError_eq_ok_iff.mp hevent)
    exact ⟨htitle.2.1, htitle.2.2, hstart, hstop⟩
  · rintro ⟨hlength, hcontrol, hstart, hstop⟩
    let range : TimeRange := ⟨p.startsAt.unixNanos, p.endsAt.unixNanos, hstart, hstop, hholds.ordered⟩
    have hrange : TimeRange.new p.startsAt.unixNanos p.endsAt.unixNanos = .ok range :=
      TimeRange.new_eq_ok_iff.mpr ⟨hstart, hstop, rfl, rfl⟩
    have htitle : IsCalendarTitle stored.draft.title := ⟨stored.draft.title_not_blank, hlength, hcontrol⟩
    rw [hrange, replaceError_ok, ok_bind]
    exact ⟨_, mapError_eq_ok_iff.mpr (OwnerEventDraft.new_eq_ok_iff.mpr ⟨hkey, htitle, hzone, rfl⟩)⟩

/-! ### Preparing and submitting -/

theorem eq_of_same {t u : OffsetDateTime} (h : t.Same u) (hoffset : t.offsetSeconds = u.offsetSeconds) : t = u := by
  cases t
  cases u
  exact OffsetDateTime.mk.injEq _ _ _ _ ▸ ⟨h, hoffset⟩

theorem OwnerTaskArguments.placement_eq_ok {a : OwnerTaskArguments} {r : PlacementRequest} (h : a.placement = .ok r) :
    a.verified.validateAt a.callerNumber a.now = .ok () ∧ a.startsAt.offsetSeconds = 0 ∧ r.startsAt = a.startsAt ∧
      a.startsAt.checkedAdd (a.draft.duration.minutes * minute) = some r.endsAt ∧ r.timezone = a.timezone ∧
      r.operationKey = a.operationKey ∧ r.ownerFingerprint = a.verified.fingerprint := by
  obtain ⟨_, hverified, h⟩ := bind_eq_ok_iff.mp h
  obtain ⟨startsAt, hstarts, h⟩ := bind_eq_ok_iff.mp h
  obtain ⟨endsAt, hends, h⟩ := bind_eq_ok_iff.mp h
  obtain rfl := Except.ok.inj h
  obtain ⟨hoffset, -, rfl⟩ := canonicalOwnerTime_eq_ok_iff.mp hstarts
  exact ⟨hverified, hoffset, rfl, okOr_eq_ok_iff.mp hends, rfl, rfl, rfl⟩

/-- A task that was returned was placed, as it was asked. -/
theorem prepareOwnerTask_ran {a : OwnerTaskArguments} {time : SystemTime} {prepared : PreparedOwnerTask}
    (h : Saga.run (storeSurroundings env) [.call time] (prepareOwnerTask env.timezones a) db () =
      ⟨some (.ok prepared), db', (), []⟩) :
    ∃ r stored p, a.placement = .ok r ∧
      (savePreparedOwnerTask env.timezones a.sourceId a.draft r).run db = .ok ((stored, p), db') ∧
      a.IsStoredAs r stored p ∧ prepared = preparedOwnerTask stored p := by
  cases hplacement : a.placement with
  | error e =>
    rw [prepareOwnerTask, hplacement] at h
    cases congrArg Saga.Ran.result h
  | ok r =>
    rw [prepareOwnerTask, hplacement] at h
    have hcall : Saga.run (storeSurroundings env) [.call time]
        (Saga.bind (Saga.store ServiceError.store fun _ => savePreparedOwnerTask env.timezones a.sourceId a.draft r)
          fun stored : StoredOwnerTaskDraft × StoredOwnerTaskPlacement => Saga.bind
            (Saga.ensure (a.IsStoredAs r stored.1 stored.2) (ServiceError.store (.conflict "owner task preparation")))
            fun _ => pure (preparedOwnerTask stored.1 stored.2)) db () = ⟨some (.ok prepared), db', (), []⟩ := h
    obtain ⟨⟨stored, p⟩, s, hsave, hrest⟩ := Saga.run_call_store_eq_ok hcall
    by_cases hstored : a.IsStoredAs r stored p
    · rw [Saga.ensure, require_of hstored] at hrest
      have hresult := congrArg Saga.Ran.result hrest
      obtain rfl : s = db' := congrArg Saga.Ran.store hrest
      exact ⟨r, stored, p, rfl, hsave, hstored, (Except.ok.inj (Option.some.inj hresult)).symm⟩
    · rw [Saga.ensure, require_of_not hstored] at hrest
      cases congrArg Saga.Ran.result hrest

/-- A prepared task is what its placement says, whatever became of the placement. -/
theorem validateOwnerTaskSubmission_of_prepared {a : OwnerTaskArguments} {r : PlacementRequest}
    (hplacement : a.placement = .ok r) {stored : StoredOwnerTaskDraft} {p q : StoredOwnerTaskPlacement}
    (hstored : a.IsStoredAs r stored p) (hplaced : PlacedTask env.timezones stored p db) (hbecomes : p.Becomes q)
    {verified : OwnerVerified} (hverified : verified.fingerprint = a.verified.fingerprint) :
    validateOwnerTaskSubmission (preparedOwnerTask stored p) stored q verified = .ok () := by
  obtain ⟨-, hoffset, hstarts, hends, htimezone, hkey, hfingerprint⟩ := OwnerTaskArguments.placement_eq_ok hplacement
  obtain ⟨hdraft, -, ⟨hpstarts, hpends, hptimezone, hpkey, hpfingerprint⟩, hpid⟩ := hstored
  obtain ⟨row, -, hrow⟩ := hplaced.placement
  have hholds := decodeOwnerTaskPlacement_eq_ok hrow
  have hpa : p.startsAt = a.startsAt := by
    rw [← hstarts]
    rw [← hstarts] at hoffset
    exact eq_of_same hpstarts (hholds.startsAt.1.trans hoffset.symm)
  obtain ⟨hqid, hqstarts, hqends, hqtimezone, hqkey, hqfingerprint⟩ := hbecomes.content
  have hexpected : q.startsAt.checkedAdd (stored.draft.duration.minutes * minute) = some r.endsAt := by
    rw [hqstarts, hpa, hdraft.2.2.1]
    exact hends
  rw [validateOwnerTaskSubmission, hexpected, okOr_some, ok_bind, require_eq_ok_iff]
  refine ⟨rfl, hqid.trans hpid, ?_, ?_, hqtimezone.symm, hqkey.symm, ?_, ?_, ?_, ?_⟩
  · rw [hqstarts]
    rfl
  · rw [hqends]
    rfl
  · rw [hqfingerprint, hpfingerprint, hfingerprint, hverified]
  · rw [hqstarts]
    exact hholds.startsAt.1
  · rw [hqends]
    exact hholds.endsAt.1
  · rw [hqends]
    exact hpends

/-- The opening of a submission loads the draft and then the placement. -/
theorem run_admitOwnerTask {a : SubmitArguments} (hverified : a.verified.validateAt a.callerNumber a.now = .ok ())
    (between : List Command) {stored : StoredOwnerTaskDraft} {q : StoredOwnerTaskPlacement}
    (hdraft : (loadOwnerTaskDraftById a.prepared.ownerTaskDraftId).run db = .ok (stored, db))
    (hplacement : (loadOwnerTaskPlacement env.timezones a.prepared.ownerTaskDraftId).run (run env between db) =
      .ok (q, run env between db)) (time time' : SystemTime) :
    Saga.run (storeSurroundings env) (.call time :: (between.map .interfere ++ [.call time']))
        (admitOwnerTask env.timezones a) db () =
      ⟨some (admitStoredTask env.timezones a.prepared a.verified stored q), run env between db, (), []⟩ := by
  rw [admitOwnerTask, hverified]
  have hfirst := Saga.run_call_store_of_ok (x := storeSurroundings env)
    (t := fun _ => loadOwnerTaskDraftById a.prepared.ownerTaskDraftId) time hdraft (between.map .interfere ++ [.call time'])
    ServiceError.store (fun stored => Saga.bind
      (Saga.store ServiceError.store fun _ => loadOwnerTaskPlacement env.timezones a.prepared.ownerTaskDraftId)
      fun placement => Saga.ofResult (admitStoredTask env.timezones a.prepared a.verified stored placement)) ()
  have hsecond := Saga.run_call_store_of_ok (x := storeSurroundings env)
    (t := fun _ => loadOwnerTaskPlacement env.timezones a.prepared.ownerTaskDraftId) time' hplacement [] ServiceError.store
    (fun placement => Saga.ofResult (admitStoredTask env.timezones a.prepared a.verified stored placement)) ()
  refine hfirst.trans ((Saga.run_interfere_call (storeSurroundings env) between [.call time'] _ _ db ()).trans ?_)
  exact hsecond

theorem ownerEventDraft_of_admitted {timezones : Timezones} {prepared : PreparedOwnerTask} {verified : OwnerVerified}
    {stored : StoredOwnerTaskDraft} {p placement : StoredOwnerTaskPlacement} {event : OwnerEventDraft}
    (h : admitStoredTask timezones prepared verified stored p = .ok (placement, event)) :
    ownerEventDraft timezones stored p = .ok event := by
  obtain ⟨_, -, h⟩ := bind_eq_ok_iff.mp h
  obtain ⟨draft, hdraft, h⟩ := bind_eq_ok_iff.mp h
  obtain ⟨-, rfl⟩ := Prod.mk.inj (Except.ok.inj h)
  exact hdraft

/-- A prepared task can be submitted without a local error: whatever other calls do before the submission and between
its calls, a caller who is verified as its owner is admitted, with the event for the provider. -/
def OwnerTaskSubmittable (env : Environment) (ownerFingerprint : String) (prepared : PreparedOwnerTask) (db : Database) :
    Prop :=
  ∀ (later between : List Command) (a : SubmitArguments) (time time' : SystemTime), a.prepared = prepared →
    a.verified.validateAt a.callerNumber a.now = .ok () → a.verified.fingerprint = ownerFingerprint →
    ∃ placement event, Saga.run (storeSurroundings env) (.call time :: (between.map .interfere ++ [.call time']))
      (admitOwnerTask env.timezones a) (run env later db) () =
        ⟨some (.ok (placement, event)), run env between (run env later db), (), []⟩

/-- **Which prepared tasks can be submitted without a local error**: those whose title and whose times fit an event. -/
theorem prepareOwnerTask_submittable_iff (hzones : NamesZones env.timezones) (hreachable : Reachable env db)
    {a : OwnerTaskArguments} {time : SystemTime} {prepared : PreparedOwnerTask}
    (h : Saga.run (storeSurroundings env) [.call time] (prepareOwnerTask env.timezones a) db () =
      ⟨some (.ok prepared), db', (), []⟩) :
    OwnerTaskSubmittable env a.verified.fingerprint prepared db' ↔
      EventFits a.draft.title a.startsAt.unixNanos (a.startsAt.unixNanos + a.draft.duration.minutes * minute) := by
  obtain ⟨r, stored, p, hplacement, hsave, hstored, rfl⟩ := prepareOwnerTask_ran h
  obtain ⟨hplaced, hdraft, hcontent⟩ := savePreparedOwnerTask_placed hsave
  obtain ⟨hverified, -, hstarts, hends, -, -, -⟩ := OwnerTaskArguments.placement_eq_ok hplacement
  have hreached : Reachable env db' := hreachable.call (c := .savePreparedOwnerTask a.sourceId a.draft r) rfl hsave
  have hfits : EventFits a.draft.title a.startsAt.unixNanos (a.startsAt.unixNanos + a.draft.duration.minutes * minute) ↔
      EventFits stored.draft.title p.startsAt.unixNanos p.endsAt.unixNanos := by
    obtain ⟨hendsAt, -⟩ := OffsetDateTime.checkedAdd_eq_some_iff.mp hends
    rw [hdraft.2.1, hcontent.1, hcontent.2.1, hstarts, hendsAt]
  rw [hfits]
  constructor
  · intro hsubmittable
    obtain ⟨placement, event, hrun⟩ := hsubmittable [] [] ⟨preparedOwnerTask stored p, a.verified, a.callerNumber, a.now⟩
      time time rfl hverified rfl
    obtain ⟨hload, hloadp⟩ := hplaced.load hreached.consistent
    have hran := run_admitOwnerTask (a := ⟨preparedOwnerTask stored p, a.verified, a.callerNumber, a.now⟩) hverified
      [] hload hloadp time time
    have hresult : some (admitStoredTask env.timezones (preparedOwnerTask stored p) a.verified stored p) =
        some (.ok (placement, event)) := congrArg Saga.Ran.result (hran.symm.trans hrun)
    exact (ownerEventDraft_eq_ok_iff hzones hplaced).mp ⟨event, ownerEventDraft_of_admitted (Option.some.inj hresult)⟩
  · rintro hfits later between ⟨_, verified, callerNumber, now⟩ time time' rfl hverified' hfingerprint
    have hconsistent := run_consistent hreached.consistent later
    obtain ⟨q, hbecomes, hlater⟩ := (run_changes hreached.consistent later).placedTask hreached.consistent hplaced
    obtain ⟨q', hbecomes', hbetween⟩ := (run_changes hconsistent between).placedTask hconsistent hlater
    have hvalid := validateOwnerTaskSubmission_of_prepared hplacement hstored hplaced (hbecomes.trans hbecomes') hfingerprint
    obtain ⟨-, hqstarts, hqends, -⟩ := (hbecomes.trans hbecomes').content
    rw [← hqstarts, ← hqends] at hfits
    obtain ⟨event, hevent⟩ := (ownerEventDraft_eq_ok_iff hzones hbetween).mpr hfits
    have hadmitted : admitStoredTask env.timezones (preparedOwnerTask stored p) verified stored q' = .ok (q', event) := by
      rw [admitStoredTask, hvalid, ok_bind, hevent]
      rfl
    refine ⟨q', event, ?_⟩
    rw [← hadmitted]
    exact run_admitOwnerTask hverified' between (hlater.load hconsistent).1
      (hbetween.load (run_consistent hconsistent between)).2 time time'

/-! ### A title that no event can have -/

/-- The owner, verified at the beginning of 2026. -/
def verifiedOwner : OwnerVerified where
  normalizedCaller := "+15550100"
  fingerprint := "owner-fingerprint"
  verifiedAt := newYear.instant
  expiresAt := ⟨newYear.instant.unixNanos + ownerVerificationValidFor, 0⟩

/-- Asks for a task of three quarters of an hour at noon. -/
def noonTask (draft : OwnerTaskDraft) : OwnerTaskArguments where
  draft := draft
  sourceId := none
  startsAt := noon
  timezone := "UTC"
  operationKey := "water-plants"
  verified := verifiedOwner
  callerNumber := "+1 555 0100"
  now := newYear.instant

def waterPlants : OwnerTaskDraft :=
  ⟨.bill, "Water plants", ⟨45, by decide, by decide⟩, none, ⟨"water-key", by decide, by decide⟩, by decide, by decide⟩

/-- The title of this task has a line break. -/
def waterPlantsTwoLines : OwnerTaskDraft :=
  ⟨.bill, "Water\nplants", ⟨45, by decide, by decide⟩, none, ⟨"water-key", by decide, by decide⟩, by decide, by decide⟩

/-- What preparing a task in an empty store ends with. -/
def noonTaskPrepared (draft : OwnerTaskDraft) : Saga.Ran Database Unit Empty ServiceError PreparedOwnerTask :=
  Saga.run (storeSurroundings utcOnly) [.call newYear] (prepareOwnerTask utcOnly.timezones (noonTask draft)) .empty ()

/-- What the opening of a submission of a prepared task ends with. -/
def noonTaskAdmitted (prepared : PreparedOwnerTask) (db : Database) :
    Option (ServiceResult (StoredOwnerTaskPlacement × OwnerEventDraft)) :=
  (Saga.run (storeSurroundings utcOnly) [.call newYear, .call newYear]
    (admitOwnerTask utcOnly.timezones ⟨prepared, verifiedOwner, "+1 555 0100", newYear.instant⟩) db ()).result

/-- What is said of the task that preparing returned. -/
def readmitted (ran : Saga.Ran Database Unit Empty ServiceError PreparedOwnerTask) :
    Option (ServiceResult (StoredOwnerTaskPlacement × OwnerEventDraft)) :=
  match ran.result with
  | some (.ok prepared) => noonTaskAdmitted prepared ran.store
  | _ => none

theorem readmitted_eq_some {ran : Saga.Ran Database Unit Empty ServiceError PreparedOwnerTask}
    {r : ServiceResult (StoredOwnerTaskPlacement × OwnerEventDraft)} (h : readmitted ran = some r) :
    ∃ prepared, ran.result = some (.ok prepared) ∧ noonTaskAdmitted prepared ran.store = some r := by
  unfold readmitted at h
  split at h
  · rename_i prepared hresult
    exact ⟨prepared, hresult, h⟩
  · cases h

theorem prepareOwnerTask_submittable_iff_noon :
    ∃ prepared, (noonTaskPrepared waterPlants).result = some (.ok prepared) ∧
      OwnerTaskSubmittable utcOnly verifiedOwner.fingerprint prepared (noonTaskPrepared waterPlants).store := by
  have hprepared : ((noonTaskPrepared waterPlants).result.map fun r => r.isOk) = some true := by decide +kernel
  obtain ⟨r, hresult, hok⟩ := Option.map_eq_some_iff.mp hprepared
  cases r with
  | error e => cases hok
  | ok prepared =>
    have hzones : NamesZones utcOnly.timezones := by
      intro value name hname
      simp only [utcOnly] at hname
      split at hname
      · obtain rfl := Option.some.inj hname
        decide
      · cases hname
    have hreachable : Reachable utcOnly .empty := ⟨[], rfl⟩
    have hran : Saga.run (storeSurroundings utcOnly) [.call newYear]
        (prepareOwnerTask utcOnly.timezones (noonTask waterPlants)) .empty () =
          ⟨some (.ok prepared), (noonTaskPrepared waterPlants).store, (), []⟩ := ran_of_result hresult
    refine ⟨prepared, hresult, (prepareOwnerTask_submittable_iff hzones hreachable hran).mpr ?_⟩
    exact ⟨by decide +kernel, by decide +kernel, by decide +kernel, by decide +kernel⟩

/-- **A title with a line break is prepared and cannot be submitted.** -/
theorem lineBreak_refused :
    Reachable utcOnly .empty ∧
      ∃ prepared, (noonTaskPrepared waterPlantsTwoLines).result = some (.ok prepared) ∧
        noonTaskAdmitted prepared (noonTaskPrepared waterPlantsTwoLines).store =
          some (.error (.outlookCalendar (.invalidInput .title))) := by
  refine ⟨⟨[], rfl⟩, readmitted_eq_some ?_⟩
  decide +kernel

end AgentVoice.PaService

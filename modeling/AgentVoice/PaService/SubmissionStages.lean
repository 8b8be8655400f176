import AgentVoice.PaService.OwnerTaskSubmission
import AgentVoice.PaService.SubmittedRows

/-!
# The stages of a submission

What surrounds attempts of `submit_request`, and the rules for their steps. Google creates an event under a key once and
finds it under that key (`Calendars`), while busy answers, failures and interruptions are arbitrary and notifications are
delivered in between. Throughout, the rows of the submission are written once and its event is there once
(`Submission.Underway`), and an event is asked for only after the quote was consumed and both calendars were free
(`Submission.MayCreate`). Each rule keeps what holds of the tables and of the calendars (`Submission.Keeps`) and adds what a
step found or wrote.
-/

namespace AgentVoice.PaService

open AgentVoice.Foundations AgentVoice.Domain AgentVoice.Providers AgentVoice.Availability AgentVoice.Store

variable {db db' : Database}

/-! ### The calendars -/

/-- A call of a provider and its answer. -/
abbrev ProposalExchange := ProposalCall × CalendarAnswer

/-- The events of the calendar of Google, and what was asked of the providers, the last first. -/
structure Calendars where
  events : List CalendarEvent
  exchanges : List ProposalExchange

/-- What becomes of the creation of an event. -/
inductive Creation where
  | refused (error : ProviderError)
  /-- The event is created, and the answer is lost. -/
  | lost (error : ProviderError)
  | answered

/-- What decides the answer of a provider: the intervals that are busy, whether a lookup fails, and the event that is
created. -/
structure ProposalOracle where
  busy : ProviderResult (List BusyInterval)
  lookup : Option ProviderError
  event : CalendarEvent
  creation : Creation

namespace Calendars

variable (c : Calendars)

/-- The event under a key. -/
def eventUnder (key : String) : Option CalendarEvent := c.events.find? fun e => e.operationKey == key

/-- Creating an event under a key: one that is there is left, and is the event. -/
def create (key : String) (event : CalendarEvent) : CalendarEvent × List CalendarEvent :=
  match c.eventUnder key with
  | some existing => (existing, c.events)
  | none => ({ event with operationKey := key }, c.events ++ [{ event with operationKey := key }])

/-- What the calendar of Google answers, and the events after that. -/
def answerEvent (oracle : ProposalOracle) : ProposalCall → ProviderResult CalendarEvent × List CalendarEvent
  | .findProposal draft =>
    match oracle.lookup with
    | some error => (.error error, c.events)
    | none => (okOr (c.eventUnder draft.operationKey) .notFound, c.events)
  | .createProposal draft =>
    match oracle.creation with
    | .refused error => (.error error, c.events)
    | .lost error => (.error error, (c.create draft.operationKey oracle.event).2)
    | .answered => (.ok (c.create draft.operationKey oracle.event).1, (c.create draft.operationKey oracle.event).2)
  | .listOutlookBusy _ | .listGoogleBusy _ => (.error .notFound, c.events)

/-- What the providers answer; the exchange is recorded. -/
def answer (oracle : ProposalOracle) (call : ProposalCall) : CalendarAnswer × Calendars :=
  let answer : CalendarAnswer := ⟨(c.answerEvent oracle call).1, oracle.busy⟩
  (answer, ⟨(c.answerEvent oracle call).2, (call, answer) :: c.exchanges⟩)

/-- Calendars that go on: no event is removed. -/
structure Grow (c c' : Calendars) : Prop where
  events : c.events ⊆ c'.events
  exchanges : c.exchanges <:+ c'.exchanges

variable {c} {oracle : ProposalOracle} {call : ProposalCall} {key : String} {event : CalendarEvent}

/-- A creation leaves the event under its key. -/
theorem create_mem : (c.create key event).1 ∈ (c.create key event).2 ∧ (c.create key event).1.operationKey = key := by
  rw [create]
  cases hunder : c.eventUnder key with
  | some existing => exact ⟨List.mem_of_find?_eq_some hunder, by simpa using List.find?_some hunder⟩
  | none => exact ⟨List.mem_append_right _ (List.mem_singleton.mpr rfl), rfl⟩

theorem events_subset_create : c.events ⊆ (c.create key event).2 := by
  rw [create]
  cases c.eventUnder key with
  | some existing => exact List.Subset.refl _
  | none => exact List.subset_append_left _ _

/-- **A creation adds no second event under a key.** -/
theorem create_once {k : String} (h : c.events.countP (fun e => e.operationKey == k) ≤ 1) :
    (c.create key event).2.countP (fun e => e.operationKey == k) ≤ 1 := by
  rw [create]
  cases hunder : c.eventUnder key with
  | some existing => exact h
  | none =>
    rw [List.countP_append, List.countP_singleton]
    split
    · next hkey =>
      obtain rfl : key = k := by simpa using hkey
      have hnone : c.events.countP (fun e => e.operationKey == key) = 0 :=
        List.countP_eq_zero.mpr (List.find?_eq_none.mp hunder)
      rw [hnone]
    · exact h

theorem answerEvent_once {k : String} (h : c.events.countP (fun e => e.operationKey == k) ≤ 1) :
    (c.answerEvent oracle call).2.countP (fun e => e.operationKey == k) ≤ 1 := by
  cases call with
  | findProposal draft =>
    rw [answerEvent]
    cases oracle.lookup <;> exact h
  | createProposal draft =>
    rw [answerEvent]
    cases oracle.creation with
    | refused => exact h
    | lost | answered => exact create_once h
  | listOutlookBusy | listGoogleBusy => exact h

theorem answer_grow : c.Grow (c.answer oracle call).2 := by
  refine ⟨?_, List.suffix_cons _ _⟩
  show c.events ⊆ (c.answerEvent oracle call).2
  cases call with
  | findProposal draft =>
    rw [answerEvent]
    cases oracle.lookup <;> exact List.Subset.refl _
  | createProposal draft =>
    rw [answerEvent]
    cases oracle.creation with
    | refused => exact List.Subset.refl _
    | lost | answered => exact events_subset_create
  | listOutlookBusy | listGoogleBusy => exact List.Subset.refl _

/-- An event that is answered is in the calendar, under the key that was asked for. -/
theorem mem_of_answerEvent {draft : GoogleProposalDraft} (hcall : call = .findProposal draft ∨ call = .createProposal draft)
    (h : (c.answerEvent oracle call).1 = .ok event) :
    event ∈ (c.answerEvent oracle call).2 ∧ event.operationKey = draft.operationKey := by
  rcases hcall with rfl | rfl
  · rw [answerEvent] at h ⊢
    cases hlookup : oracle.lookup with
    | some error =>
      rw [hlookup] at h
      cases h
    | none =>
      rw [hlookup] at h
      have hunder := okOr_eq_ok_iff.mp h
      exact ⟨List.mem_of_find?_eq_some hunder, by simpa using List.find?_some hunder⟩
  · rw [answerEvent] at h ⊢
    cases hcreation : oracle.creation with
    | answered =>
      rw [hcreation] at h
      obtain rfl := Except.ok.inj h
      exact create_mem
    | refused error | lost error =>
      rw [hcreation] at h
      cases h

end Calendars

/-- Around an attempt other calls of the store are made, and the providers answer. -/
def proposalSurroundings (env : Environment) :
    Saga.Surroundings Command ProposalOracle Database Calendars ProposalCall CalendarAnswer where
  interfere := step env
  answer oracle call c := c.answer oracle call

/-! ### What holds throughout -/

namespace Submission

variable (g : Submission)

/-- Both calendars were shown to be free at the times of the draft, with a buffer around them. -/
def FreeShown (buffer : ℤ) (exchanges : List ProposalExchange) : Prop :=
  ∃ (range : TimeRange) (outlook google : CalendarAnswer) (outlookBusy googleBusy : List BusyInterval),
    range.start = g.stored.draft.startsAt.unixNanos - buffer ∧ range.stop = g.stored.draft.endsAt.unixNanos + buffer ∧
    (.listOutlookBusy range, outlook) ∈ exchanges ∧ outlook.busy = .ok outlookBusy ∧
    (.listGoogleBusy range, google) ∈ exchanges ∧ google.busy = .ok googleBusy ∧
    busyOverlaps outlookBusy range.start range.stop = false ∧ busyOverlaps googleBusy range.start range.stop = false

/-- Both calendars were shown to be free since some exchanges. -/
def FreeSince (buffer : ℤ) (before : List ProposalExchange) (c : Calendars) : Prop :=
  ∃ exchanges, c.exchanges = exchanges ++ before ∧ g.FreeShown buffer exchanges

/-- What is asked for: a pending event at the times of the draft, under its key and with the owner alone. -/
structure Proposes (draft : GoogleProposalDraft) : Prop where
  key : draft.operationKey = g.operationKey
  title : draft.pendingTitle = pendingProposalTitle
  starts : draft.timeRange.start = g.stored.draft.startsAt.unixNanos
  stops : draft.timeRange.stop = g.stored.draft.endsAt.unixNanos
  owner : draft.owner = ⟨g.owner, .needsAction⟩

/-- When an event may be asked for: it is what the draft proposes, the quote was consumed, and both calendars were free in
this attempt. -/
structure MayCreate (buffer : ℤ) (before : List ProposalExchange) (draft : GoogleProposalDraft) (db : Database)
    (c : Calendars) : Prop where
  proposes : g.Proposes draft
  consumed : ∃ p, ConsumedInto g.service.env.timezones g.quote.quote.id p db
  free : g.FreeSince buffer before c

/-- What holds throughout an attempt: since the start of all attempts, the rows of the submission are written once and the
event is there once; and nothing is lost since the start of this attempt. -/
structure Underway (since : Database) (before : List ProposalExchange) (db : Database) (c : Calendars) : Prop where
  reachable : Reachable g.service.env db
  opened : Extends g.service.env g.start db
  later : Extends g.service.env since db
  written : ∃ p?, g.Written p? db c.events
  event : c.events.countP (fun e => e.operationKey == g.operationKey) ≤ 1
  exchanges : before <:+ c.exchanges

/-- A turn around an attempt: its calls are made or fail, its questions are answered, or notifications are delivered. -/
def IsTurn : Saga.Turn SystemTime StoreError Command ProposalOracle → Prop
  | .interfere c => c.isDelivery = true
  | _ => True

/-- What may happen around an attempt. -/
def submitting (since : Database) (buffer : ℤ) (before : List ProposalExchange) :
    Saga.Setting SystemTime StoreError Database ProposalCall CalendarAnswer Command ProposalOracle Calendars where
  surroundings := proposalSurroundings g.service.env
  allowed := IsTurn
  asks call db c := ∀ draft, call = .createProposal draft → g.MayCreate buffer before draft db c
  stops := g.Underway since before

/-- What is kept when the tables and the calendars go on. -/
structure Keeps (Q : Database → Calendars → Prop) : Prop where
  tables : ∀ db db' c, Consistent g.service.env db → Extends g.service.env db db' → Q db c → Q db' c
  calendars : ∀ db c c', c.Grow c' → Q db c → Q db c'

variable {g} {Q Q' : Database → Calendars → Prop}

theorem Keeps.const (p : Prop) : g.Keeps fun _ _ => p := ⟨fun _ _ _ _ _ h => h, fun _ _ _ _ h => h⟩

theorem Keeps.and (h : g.Keeps Q) (h' : g.Keeps Q') : g.Keeps fun db c => Q db c ∧ Q' db c :=
  ⟨fun _ _ _ hc hlater hQ => ⟨h.tables _ _ _ hc hlater hQ.1, h'.tables _ _ _ hc hlater hQ.2⟩,
    fun _ _ _ hgrow hQ => ⟨h.calendars _ _ _ hgrow hQ.1, h'.calendars _ _ _ hgrow hQ.2⟩⟩

theorem Keeps.imp {p : Prop} (h : g.Keeps Q) : g.Keeps fun db c => p → Q db c :=
  ⟨fun _ _ _ hc hlater hQ hp => h.tables _ _ _ hc hlater (hQ hp), fun _ _ _ hgrow hQ hp => h.calendars _ _ _ hgrow (hQ hp)⟩

theorem Keeps.forall {α : Type} {Q : α → Database → Calendars → Prop} (h : ∀ a, g.Keeps (Q a)) :
    g.Keeps fun db c => ∀ a, Q a db c :=
  ⟨fun _ _ _ hc hlater hQ a => (h a).tables _ _ _ hc hlater (hQ a), fun _ _ _ hgrow hQ a => (h a).calendars _ _ _ hgrow (hQ a)⟩

theorem Keeps.consumed (p : ℤ) :
    g.Keeps fun db _ => ConsumedInto g.service.env.timezones g.quote.quote.id p db :=
  ⟨fun _ _ _ hc hlater h => h.later hlater hc, fun _ _ _ _ h => h⟩

theorem Keeps.notification (key : String) (id : ℤ) : g.Keeps fun db _ => NotificationUnder key id db :=
  ⟨fun _ _ _ _ hlater h => h.later hlater, fun _ _ _ _ h => h⟩

theorem Keeps.audit (key : String) : g.Keeps fun db _ => AuditUnder key db :=
  ⟨fun _ _ _ _ hlater h => h.later hlater, fun _ _ _ _ h => h⟩

/-- The event of the draft is in the calendar. -/
def HasEvent (g : Submission) (event : CalendarEvent) (c : Calendars) : Prop :=
  event ∈ c.events ∧ event.operationKey = g.operationKey

theorem Keeps.event (event : CalendarEvent) : g.Keeps fun _ c => g.HasEvent event c :=
  ⟨fun _ _ _ _ _ h => h, fun _ _ _ hgrow h => ⟨hgrow.events h.1, h.2⟩⟩

theorem FreeShown.subset {buffer : ℤ} {exchanges exchanges' : List ProposalExchange} (h : g.FreeShown buffer exchanges)
    (hsubset : exchanges ⊆ exchanges') : g.FreeShown buffer exchanges' := by
  obtain ⟨range, outlook, google, outlookBusy, googleBusy, hstart, hstop, houtlook, houtlookBusy, hgoogle, hrest⟩ := h
  exact ⟨range, outlook, google, outlookBusy, googleBusy, hstart, hstop, hsubset houtlook, houtlookBusy, hsubset hgoogle, hrest⟩

theorem Keeps.free (buffer : ℤ) (before : List ProposalExchange) : g.Keeps fun _ c => g.FreeSince buffer before c := by
  refine ⟨fun _ _ _ _ _ h => h, ?_⟩
  rintro _ c c' hgrow ⟨exchanges, hexchanges, hfree⟩
  obtain ⟨new, hnew⟩ := hgrow.exchanges
  exact ⟨new ++ exchanges, by rw [← hnew, hexchanges, List.append_assoc], hfree.subset (List.subset_append_right _ _)⟩

/-! #### Stages -/

variable (g) in
/-- A stage of an attempt. -/
def Stage (since : Database) (before : List ProposalExchange) (Q : Database → Calendars → Prop) (db : Database) (c : Calendars) :
    Prop :=
  g.Underway since before db c ∧ Q db c

variable (g) in
/-- What an attempt, or a part of it, promises of its result. -/
def Ends {α : Type} (since : Database) (before : List ProposalExchange) (K : α → Database → Calendars → Prop)
    (r : ServiceResult α) (db : Database) (c : Calendars) : Prop :=
  g.Underway since before db c ∧ ∀ a, r = .ok a → K a db c

variable {since : Database} {buffer : ℤ} {before : List ProposalExchange} {c : Calendars} {α β : Type}

theorem Ends.error {K : α → Database → Calendars → Prop} (h : g.Underway since before db c) (e : ServiceError) :
    g.Ends since before K (.error e) db c := ⟨h, nofun⟩

theorem Ends.ok {K : α → Database → Calendars → Prop} {a : α} (h : g.Underway since before db c) (hK : K a db c) :
    g.Ends since before K (.ok a) db c := ⟨h, fun _ ha => Except.ok.inj ha ▸ hK⟩

theorem Underway.delivered (h : g.Underway since before db c) {command : Command} (hc : command.isDelivery = true) :
    Extends g.service.env db (step g.service.env command db) ∧
      g.Underway since before (step g.service.env command db) c := by
  have hconsistent := h.reachable.consistent
  have hdelivered : Delivered db (step g.service.env command db) := step_delivered hconsistent hc
  have hextends : Extends g.service.env db (step g.service.env command db) := by
    refine ⟨step_changes hconsistent command, hdelivered.grows, ?_⟩
    rw [hdelivered.others]
    exact List.Subset.refl _
  obtain ⟨p?, hwritten⟩ := h.written
  exact ⟨hextends, h.reachable.run [command], h.opened.trans hextends, h.later.trans hextends, ⟨p?, hwritten.delivered hdelivered⟩,
    h.event, h.exchanges⟩

theorem stable_stage (hQ : g.Keeps Q) : Saga.Stable (g.submitting since buffer before) (g.Stage since before Q) where
  interfere := by
    rintro command db c hallowed ⟨hunderway, h⟩
    obtain ⟨hextends, hnext⟩ := hunderway.delivered hallowed
    exact ⟨hnext, hQ.tables _ _ _ hunderway.reachable.consistent hextends h⟩
  stops _ _ h := h.1

/-- **One part after another.** -/
theorem bind_triple {P : Database → Calendars → Prop} {p : Operation ProposalCall CalendarAnswer α}
    {f : α → Operation ProposalCall CalendarAnswer β} {K : α → Database → Calendars → Prop}
    {K' : β → Database → Calendars → Prop} (hp : Saga.Triple (g.submitting since buffer before) P p (g.Ends since before K))
    (hf : ∀ a, Saga.Triple (g.submitting since buffer before) (g.Stage since before (K a)) (f a) (g.Ends since before K')) :
    Saga.Triple (g.submitting since buffer before) P (p >>= f) (g.Ends since before K') := by
  refine Saga.Triple.bind (R := fun a => g.Stage since before (K a)) (hp.weaken (fun _ _ h => h) ?_) hf
  intro r db c h
  cases r with
  | ok a => exact ⟨h.1, h.2 a rfl⟩
  | error e => exact .error h.1 e

/-- A value. -/
theorem pure_triple {a : α} {K : α → Database → Calendars → Prop} (h : ∀ db c, Q db c → K a db c) :
    Saga.Triple (g.submitting since buffer before) (g.Stage since before Q)
      (pure a : Operation ProposalCall CalendarAnswer α) (g.Ends since before K) :=
  Saga.Triple.pure fun _ _ hQ => .ok hQ.1 (h _ _ hQ.2)

/-- **A computation**, whose error ends the attempt. -/
theorem ofResult_triple {r : ServiceResult α} {f : α → Operation ProposalCall CalendarAnswer β}
    {K : β → Database → Calendars → Prop}
    (h : ∀ a, r = .ok a → Saga.Triple (g.submitting since buffer before) (g.Stage since before Q) (f a) (g.Ends since before K)) :
    Saga.Triple (g.submitting since buffer before) (g.Stage since before Q) (Saga.ofResult r >>= f) (g.Ends since before K) :=
  Saga.Triple.ofResult_bind h fun e _ _ _ hQ => .error hQ.1 e

/-- A check at the end. -/
theorem ensure_triple {p : Prop} [Decidable p] {e : ServiceError} {K : Unit → Database → Calendars → Prop}
    (h : p → ∀ db c, Q db c → K () db c) :
    Saga.Triple (g.submitting since buffer before) (g.Stage since before Q)
      (Saga.ensure p e : Operation ProposalCall CalendarAnswer Unit) (g.Ends since before K) :=
  Saga.Triple.done fun db c hQ => ⟨hQ.1, fun _ hr => h (require_eq_ok_iff.mp hr) db c hQ.2⟩

/-- **A call** keeps what is kept. -/
theorem store_triple (hQ : g.Keeps Q) {t : SystemTime → Tx StoreError Database α} (command : SystemTime → Command)
    (ht : ∀ clock, (command clock).transaction g.service.env = (t clock).discard) {K : α → Database → Calendars → Prop}
    (hcall : ∀ clock a db db' c, g.Underway since before db c → Q db c → (t clock).run db = .ok (a, db') →
      (∃ p?, g.Written p? db' c.events) ∧ Extends g.service.env db db' ∧ K a db' c) :
    Saga.Triple (g.submitting since buffer before) (g.Stage since before Q)
      (Saga.store .store t : Operation ProposalCall CalendarAnswer α)
      (g.Ends since before fun a db c => Q db c ∧ K a db c) := by
  refine Saga.Triple.call (stable_stage hQ) (fun clock r _ => Saga.Triple.done ?_) fun e _ => Saga.Triple.done ?_
  · rintro db' c ⟨db, ⟨hunderway, h⟩, hcommit⟩
    cases r with
    | error e =>
      obtain ⟨-, rfl⟩ := Tx.commit_eq_error hcommit
      exact .error hunderway _
    | ok a =>
      have hrun := Tx.commit_eq_ok_iff.mp hcommit
      obtain ⟨hwritten, hextends, hK⟩ := hcall clock a db db' c hunderway h hrun
      exact .ok ⟨hunderway.reachable.call (ht clock) hrun, hunderway.opened.trans hextends, hunderway.later.trans hextends, hwritten,
        hunderway.event, hunderway.exchanges⟩ ⟨hQ.tables _ _ _ hunderway.reachable.consistent hextends h, hK⟩
  · exact fun db c h => .error h.1 _

/-- A call that reads. -/
theorem read_triple (hQ : g.Keeps Q) {t : Tx StoreError Database α} {K : α → Database → Calendars → Prop}
    (hcall : ∀ a db db' c, g.Underway since before db c → Q db c → t.run db = .ok (a, db') → db' = db ∧ K a db c) :
    Saga.Triple (g.submitting since buffer before) (g.Stage since before Q)
      (Saga.store .store (fun _ => t) : Operation ProposalCall CalendarAnswer α)
      (g.Ends since before fun a db c => Q db c ∧ K a db c) := by
  refine Saga.Triple.call (stable_stage hQ) (fun clock r _ => Saga.Triple.done ?_) fun e _ => Saga.Triple.done ?_
  · rintro db' c ⟨db, ⟨hunderway, h⟩, hcommit⟩
    cases r with
    | error e =>
      obtain ⟨-, rfl⟩ := Tx.commit_eq_error hcommit
      exact .error hunderway _
    | ok a =>
      obtain ⟨rfl, hK⟩ := hcall a db db' c hunderway h (Tx.commit_eq_ok_iff.mp hcommit)
      exact .ok hunderway ⟨h, hK⟩
  · exact fun db c h => .error h.1 _

/-- What is known of a question that was answered. -/
structure Answered (g : Submission) (before : List ProposalExchange) (call : ProposalCall) (answer : CalendarAnswer)
    (c : Calendars) : Prop where
  exchanged : ∃ exchanges, c.exchanges = exchanges ++ before ∧ (call, answer) ∈ exchanges
  event : ∀ draft event, call = .findProposal draft ∨ call = .createProposal draft → draft.operationKey = g.operationKey →
    answer.event = .ok event → g.HasEvent event c

theorem Keeps.answered (call : ProposalCall) (answer : CalendarAnswer) :
    g.Keeps fun _ c => Answered g before call answer c := by
  refine ⟨fun _ _ _ _ _ h => h, ?_⟩
  rintro _ c c' hgrow ⟨⟨exchanges, hexchanges, hmem⟩, hevent⟩
  obtain ⟨new, hnew⟩ := hgrow.exchanges
  refine ⟨⟨new ++ exchanges, by rw [← hnew, hexchanges, List.append_assoc], List.mem_append_right _ hmem⟩, ?_⟩
  exact fun draft event hcall hkey hanswer => ⟨hgrow.events (hevent draft event hcall hkey hanswer).1,
    (hevent draft event hcall hkey hanswer).2⟩

/-- **A question** keeps what is kept. -/
theorem ask_triple (hQ : g.Keeps Q) {call : ProposalCall}
    (hasks : ∀ db c, Q db c → ∀ draft, call = .createProposal draft → g.MayCreate buffer before draft db c)
    {f : CalendarAnswer → Operation ProposalCall CalendarAnswer α} {K : α → Database → Calendars → Prop}
    (hnext : ∀ answer, Saga.Triple (g.submitting since buffer before)
      (g.Stage since before fun db c => Q db c ∧ Answered g before call answer c) (f answer) (g.Ends since before K)) :
    Saga.Triple (g.submitting since buffer before) (g.Stage since before Q) (Saga.query call >>= f) (g.Ends since before K) := by
  refine Saga.Triple.query_bind (stable_stage hQ) (fun db c h => hasks db c h.2) fun oracle answer _ => ?_
  refine (hnext answer).weaken ?_ fun _ _ _ h => h
  rintro db c' ⟨c, ⟨hunderway, h⟩, hanswer⟩
  obtain ⟨rfl, rfl⟩ := Prod.mk.inj hanswer
  have hgrow : c.Grow (c.answer oracle call).2 := Calendars.answer_grow
  obtain ⟨p?, hwritten⟩ := hunderway.written
  obtain ⟨exchanges, hexchanges⟩ := hunderway.exchanges
  refine ⟨⟨hunderway.reachable, hunderway.opened, hunderway.later, ⟨p?, hwritten.events_subset hgrow.events⟩,
    Calendars.answerEvent_once hunderway.event, hunderway.exchanges.trans hgrow.exchanges⟩, hQ.calendars _ _ _ hgrow h, ?_, ?_⟩
  · exact ⟨(call, (c.answer oracle call).1) :: exchanges, congrArg _ hexchanges.symm, List.mem_cons_self⟩
  · intro draft event hcall hkey hevent
    obtain ⟨hmem, heventKey⟩ := Calendars.mem_of_answerEvent hcall hevent
    exact ⟨hmem, heventKey.trans hkey⟩

end Submission

end AgentVoice.PaService

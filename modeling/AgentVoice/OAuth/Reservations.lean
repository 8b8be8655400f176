import AgentVoice.OAuth.Start
import AgentVoice.Foundations.Machine
import Mathlib.Data.List.Nodup
import Mathlib.Data.List.Perm.Subperm

/-!
# Every reservation is used at most once

Runs of logins that begin, callbacks that are validated and purges, in any order and with any clocks, over one
`InMemoryOAuthStateStore`. An entry of the map was put there by a begin of the run (`entry_reserved`), and stays
usable until it is purged or consumed (`usable_run`). A purge forgets consumed entries, so that a state never comes
back only because no begin draws it again (`spent_run`).
-/

namespace AgentVoice.OAuth

open AgentVoice.Foundations AgentVoice.Foundations.Machine

variable {τ υ : Type} [LinearOrder τ]

/-- One step on the store. -/
inductive Step (τ υ : Type) where
  | begin (provider : OAuthProvider) (config : OAuthProviderConfig υ) (nonceSource : SecureRandom) (now : τ)
  | validateCallback (callback : OAuthCallback) (now : τ)
  | purgeExpired (now : τ)

/-- What the caller of a step gets. -/
inductive Answer (υ : Type) where
  | started (result : OAuthResult (OAuthStart υ))
  | validated (result : OAuthResult AuthorizationCode)
  | purged

/-- Whether a step succeeded. -/
def Answer.succeeds : Answer υ → Bool
  | .started result => result.isOk
  | .validated result => result.isOk
  | .purged => true

/-- What a begin reserves. -/
@[ext]
structure Reservation (τ : Type) where
  state : String
  verifier : String
  expiresAt : τ

variable (libs : Libraries τ υ)

/-- A step: its answer, and the store after it. -/
def call : Step τ υ → InMemoryOAuthStateStore τ → Answer υ × InMemoryOAuthStateStore τ
  | .begin provider config nonceSource now, store =>
    ((begin libs provider config nonceSource now store).map .started id)
  | .validateCallback callback now, store => (validateCallback callback now store).map .validated id
  | .purgeExpired now, store => (.purged, store.purgeExpired now)

def answer (a : Step τ υ) (store : InMemoryOAuthStateStore τ) : Answer υ := (call libs a store).1

def step (a : Step τ υ) (store : InMemoryOAuthStateStore τ) : InMemoryOAuthStateStore τ := (call libs a store).2

/-- The answers of a run. -/
def answers (steps : List (Step τ υ)) (store : InMemoryOAuthStateStore τ) : List (Answer υ) :=
  outputs (step libs) (fun a store => [answer libs a store]) steps store

/-- The reservation a step asks for. -/
def Step.prepared : Step τ υ → Option (Reservation τ)
  | .begin provider config nonceSource now =>
    (prepareStart libs provider config nonceSource now).toOption.map fun r => ⟨r.1.state, r.1.codeVerifier, r.2⟩
  | _ => none

/-- The reservation a step makes. -/
def reserved (a : Step τ υ) (store : InMemoryOAuthStateStore τ) : List (Reservation τ) :=
  if (answer libs a store).succeeds then (a.prepared libs).toList else []

/-- The verifier a step hands out, with the state that was presented for it. -/
def handedOut (a : Step τ υ) (store : InMemoryOAuthStateStore τ) : List (String × String) :=
  match a with
  | .begin _ _ _ _ => []
  | .validateCallback callback _ =>
    match answer libs a store with
    | .validated (.ok code) => [(callback.state, code.verifier)]
    | _ => []
  | .purgeExpired _ => []

/-- The clock a step purges with: its own, or that of a begin that succeeds. -/
def purgedWith (a : Step τ υ) (store : InMemoryOAuthStateStore τ) : List τ :=
  match a with
  | .begin _ _ _ now => if (answer libs a store).succeeds then [now] else []
  | .validateCallback _ _ => []
  | .purgeExpired now => [now]

/-- The random states the begins of a run reserve or try to. -/
def randomStates (steps : List (Step τ υ)) : List String :=
  steps.filterMap fun a => (a.prepared libs).map Reservation.state

/-- The store after a run from the empty one. -/
def storeAfter (steps : List (Step τ υ)) : InMemoryOAuthStateStore τ := run (step libs) steps .new

/-- What a run does with its reservations. -/
structure SingleUse (steps : List (Step τ υ)) : Prop where
  /-- A verifier is handed out once for each time it was reserved, at most. -/
  once : (outputs (step libs) (handedOut libs) steps .new).Subperm
    ((outputs (step libs) (reserved libs) steps .new).map fun r => (r.state, r.verifier))
  /-- It goes to a callback with its own state, before it expires. -/
  own : ∀ before callback now after code, steps = before ++ .validateCallback callback now :: after →
    (validateCallback callback now (storeAfter libs before)).1 = .ok code →
    ∃ earlier provider config nonceSource begun later r,
      before = earlier ++ .begin provider config nonceSource begun :: later ∧
      r ∈ reserved libs (.begin provider config nonceSource begun) (storeAfter libs earlier) ∧
      libs.tenMinutesAfter begun = some r.expiresAt ∧ r.state = callback.state ∧ r.verifier = code.verifier ∧
      now < r.expiresAt
  /-- A step that fails changes no later answer. -/
  failed : ∀ before a after, steps = before ++ a :: after → (answer libs a (storeAfter libs before)).succeeds = false →
    ∀ later, answers libs later (storeAfter libs (before ++ [a])) = answers libs later (storeAfter libs before)
  /-- A reservation that was neither consumed nor purged is usable. -/
  usable : ∀ before a later r, steps = before ++ a :: later → r ∈ reserved libs a (storeAfter libs before) →
    (∀ clock ∈ outputs (step libs) (purgedWith libs) later (storeAfter libs (before ++ [a])), clock < r.expiresAt) →
    (∀ pair ∈ outputs (step libs) (handedOut libs) later (storeAfter libs (before ++ [a])), pair.1 ≠ r.state) →
    ∀ callback now, callback.state = r.state → ¬ IsBlank callback.code → now < r.expiresAt →
      (validateCallback callback now (storeAfter libs steps)).1 = .ok ⟨callback.code, r.verifier⟩
  /-- A state that was accepted is not accepted again. -/
  neverAgain : ∀ before first now middle second now' after code,
    steps = before ++ .validateCallback first now :: (middle ++ .validateCallback second now' :: after) →
    (validateCallback first now (storeAfter libs before)).1 = .ok code → second.state = first.state →
    ∀ code', (validateCallback second now' (storeAfter libs (before ++ .validateCallback first now :: middle))).1 ≠
      .ok code'

/-! ### What one step does -/

variable {libs}

theorem validateCallback_eq_ok_iff {callback : OAuthCallback} {now : τ} {store : InMemoryOAuthStateStore τ}
    {code : AuthorizationCode} :
    (validateCallback callback now store).1 = .ok code ↔
      ¬ IsBlank callback.code ∧ ∃ store', store.consume callback.state now = .ok (code.verifier, store') ∧
        code.code = callback.code := by
  unfold validateCallback
  split
  case isTrue hblank => simp [hblank]
  case isFalse hblank =>
    cases hconsume : store.consume callback.state now with
    | error e => simp
    | ok handed =>
      obtain ⟨verifier, store'⟩ := handed
      obtain ⟨code', verifier'⟩ := code
      simp [hblank, and_comm, eq_comm]

/-- The ways a step may go. -/
inductive Goes (libs : Libraries τ υ) (a : Step τ υ) (store : InMemoryOAuthStateStore τ) : Prop where
  | fails (hafter : step libs a store = store) (h : (answer libs a store).succeeds = false)
      (hhanded : handedOut libs a store = [])
  | reserves {provider : OAuthProvider} {config : OAuthProviderConfig υ} {nonceSource : SecureRandom} {now : τ}
      {r : Reservation τ} (hafter : step libs a store = InMemoryOAuthStateStore.purgeExpired now
        ⟨Function.update store.entries r.state (some ⟨r.verifier, r.expiresAt, false⟩)⟩)
      (ha : a = .begin provider config nonceSource now) (hstate : ¬ IsBlank r.state)
      (hlater : libs.tenMinutesAfter now = some r.expiresAt) (hfresh : store.entries r.state = none)
      (hreserved : reserved libs a store = [r]) (hpurged : purgedWith libs a store = [now])
      (hhanded : handedOut libs a store = []) (hok : (answer libs a store).succeeds = true)
  | consumes {callback : OAuthCallback} {now : τ} {verifier : String} {expiresAt : τ}
      (hafter : step libs a store =
        ⟨Function.update store.entries callback.state (some ⟨"", expiresAt, true⟩)⟩)
      (ha : a = .validateCallback callback now)
      (hentry : store.entries callback.state = some ⟨verifier, expiresAt, false⟩) (hlt : now < expiresAt)
      (hhanded : handedOut libs a store = [(callback.state, verifier)])
      (hok : (answer libs a store).succeeds = true)
  | purges {now : τ} (hafter : step libs a store = store.purgeExpired now) (ha : a = .purgeExpired now)
      (hpurged : purgedWith libs a store = [now]) (hhanded : handedOut libs a store = [])
      (hok : (answer libs a store).succeeds = true)

variable (libs) in
theorem goes (a : Step τ υ) (store : InMemoryOAuthStateStore τ) : Goes libs a store := by
  cases a with
  | begin provider config nonceSource now =>
    cases hprepare : prepareStart libs provider config nonceSource now with
    | error e =>
      have hcall : call libs (.begin provider config nonceSource now) store = (.started (.error e), store) := by
        simp [call, begin, hprepare]
      exact .fails (by rw [step, hcall]) (by rw [answer, hcall]; rfl) rfl
    | ok prepared =>
      obtain ⟨start, expiresAt⟩ := prepared
      cases hreserve : store.reserve start.state start.codeVerifier expiresAt with
      | error e =>
        have hcall : call libs (.begin provider config nonceSource now) store = (.started (.error e), store) := by
          simp [call, begin, hprepare, hreserve]
        exact .fails (by rw [step, hcall]) (by rw [answer, hcall]; rfl) rfl
      | ok store' =>
        have hcall : call libs (.begin provider config nonceSource now) store =
            (.started (.ok start), store'.purgeExpired now) := by simp [call, begin, hprepare, hreserve]
        obtain ⟨hstate, -, hfresh, rfl⟩ := InMemoryOAuthStateStore.reserve_eq_ok_iff.mp hreserve
        have hprepared : (Step.begin provider config nonceSource now).prepared libs =
            some ⟨start.state, start.codeVerifier, expiresAt⟩ := by
          simp [Step.prepared, hprepare, Except.toOption]
        have hok : (answer libs (.begin provider config nonceSource now) store).succeeds = true := by
          rw [answer, hcall]
          rfl
        exact .reserves (r := ⟨start.state, start.codeVerifier, expiresAt⟩) (by rw [step, hcall]) rfl hstate
          (prepareStart_expiresAt libs hprepare) hfresh (by rw [reserved, hok, if_pos rfl, hprepared]; rfl)
          (by rw [purgedWith, hok, if_pos rfl]) rfl hok
  | validateCallback callback now =>
    by_cases hblank : IsBlank callback.code
    · have hcall : call libs (.validateCallback callback now) store = (.validated (.error .invalidCode), store) := by
        simp [call, validateCallback, hblank]
      exact .fails (by rw [step, hcall]) (by rw [answer, hcall]; rfl) (by simp only [handedOut, answer, hcall])
    · cases hconsume : store.consume callback.state now with
      | error e =>
        have hcall : call libs (.validateCallback callback now) store = (.validated (.error e), store) := by
          simp [call, validateCallback, hblank, hconsume]
        exact .fails (by rw [step, hcall]) (by rw [answer, hcall]; rfl) (by simp only [handedOut, answer, hcall])
      | ok handed =>
        obtain ⟨verifier, store'⟩ := handed
        have hcall : call libs (.validateCallback callback now) store =
            (.validated (.ok ⟨callback.code, verifier⟩), store') := by
          simp [call, validateCallback, hblank, hconsume]
        obtain ⟨-, expiresAt, hentry, hlt, rfl⟩ := InMemoryOAuthStateStore.consume_eq_ok_iff.mp hconsume
        exact .consumes (by rw [step, hcall]) rfl hentry hlt (by simp only [handedOut, answer, hcall])
          (by rw [answer, hcall]; rfl)
  | purgeExpired now => exact .purges rfl rfl rfl rfl rfl

/-- An entry after a step was there before it, or is the one the step reserves. -/
theorem entry_before {a : Step τ υ} {store : InMemoryOAuthStateStore τ} {state : String} {entry : StateEntry τ}
    (h : (step libs a store).entries state = some entry) :
    (∃ old, store.entries state = some old ∧ old.expiresAt = entry.expiresAt ∧
        (entry.consumed = false → old = entry)) ∨
      ∃ r ∈ reserved libs a store, r.state = state ∧ entry = ⟨r.verifier, r.expiresAt, false⟩ := by
  cases goes libs a store with
  | fails hafter =>
    rw [hafter] at h
    exact Or.inl ⟨entry, h, rfl, fun _ => rfl⟩
  | purges hafter =>
    rw [hafter] at h
    obtain ⟨hentry, -⟩ := InMemoryOAuthStateStore.purgeExpired_eq_some_iff.mp h
    exact Or.inl ⟨entry, hentry, rfl, fun _ => rfl⟩
  | @reserves _ _ _ _ r hafter _ _ _ _ hreserved =>
    rw [hafter] at h
    obtain ⟨hentry, -⟩ := InMemoryOAuthStateStore.purgeExpired_eq_some_iff.mp h
    by_cases hstate : state = r.state
    · subst hstate
      refine Or.inr ⟨r, by simp [hreserved], rfl, ?_⟩
      simpa using hentry.symm
    · simp only [Function.update_of_ne hstate] at hentry
      exact Or.inl ⟨entry, hentry, rfl, fun _ => rfl⟩
  | @consumes callback _ verifier expiresAt hafter _ hold =>
    rw [hafter] at h
    by_cases hstate : state = callback.state
    · subst hstate
      obtain rfl : (⟨"", expiresAt, true⟩ : StateEntry τ) = entry := by simpa using h
      exact Or.inl ⟨_, hold, rfl, fun hconsumed => absurd hconsumed (by simp)⟩
    · simp only [Function.update_of_ne hstate] at h
      exact Or.inl ⟨entry, h, rfl, fun _ => rfl⟩

/-- What a begin reserves is in the map after it. -/
theorem entry_reserved {a : Step τ υ} {store : InMemoryOAuthStateStore τ} {r : Reservation τ}
    (h : r ∈ reserved libs a store) :
    ¬ IsBlank r.state ∧ (step libs a store).entries r.state = some ⟨r.verifier, r.expiresAt, false⟩ := by
  have hsucceeds : (answer libs a store).succeeds = true := by
    by_contra hfails
    simp [reserved, hfails] at h
  cases goes libs a store with
  | fails _ hfails => rw [hsucceeds] at hfails; cases hfails
  | @reserves _ _ _ now r' hafter _ hstate hlater _ hreserved =>
    rw [hreserved, List.mem_singleton] at h
    subst h
    rw [hafter]
    refine ⟨hstate, InMemoryOAuthStateStore.purgeExpired_eq_some_iff.mpr ⟨?_, libs.lt_tenMinutesAfter hlater⟩⟩
    simp
  | consumes _ ha => subst ha; simp [reserved, Step.prepared] at h
  | purges _ ha => subst ha; simp [reserved, Step.prepared] at h

/-- A usable entry stays as it is until it is purged or consumed. -/
theorem usable_step {a : Step τ υ} {store : InMemoryOAuthStateStore τ} {state verifier : String} {expiresAt : τ}
    (h : store.entries state = some ⟨verifier, expiresAt, false⟩)
    (hpurge : ∀ clock ∈ purgedWith libs a store, clock < expiresAt)
    (hhanded : ∀ pair ∈ handedOut libs a store, pair.1 ≠ state) :
    (step libs a store).entries state = some ⟨verifier, expiresAt, false⟩ := by
  cases goes libs a store with
  | fails hafter => rw [hafter]; exact h
  | purges hafter _ hpurged =>
    rw [hafter]
    exact InMemoryOAuthStateStore.purgeExpired_eq_some_iff.mpr ⟨h, hpurge _ (by simp [hpurged])⟩
  | @reserves _ _ _ _ r hafter _ _ _ hfresh _ hpurged =>
    rw [hafter]
    have hstate : state ≠ r.state := by
      rintro rfl
      rw [hfresh] at h
      cases h
    refine InMemoryOAuthStateStore.purgeExpired_eq_some_iff.mpr ⟨?_, hpurge _ (by simp [hpurged])⟩
    simpa [Function.update_of_ne hstate] using h
  | @consumes callback _ verifier' _ hafter _ _ _ hhandedOut =>
    rw [hafter]
    have hstate : state ≠ callback.state := (hhanded (callback.state, verifier') (by simp [hhandedOut])).symm
    simpa [Function.update_of_ne hstate] using h

theorem usable_run {later : List (Step τ υ)} {store : InMemoryOAuthStateStore τ} {state verifier : String}
    {expiresAt : τ} (h : store.entries state = some ⟨verifier, expiresAt, false⟩)
    (hpurge : ∀ clock ∈ outputs (step libs) (purgedWith libs) later store, clock < expiresAt)
    (hhanded : ∀ pair ∈ outputs (step libs) (handedOut libs) later store, pair.1 ≠ state) :
    (run (step libs) later store).entries state = some ⟨verifier, expiresAt, false⟩ := by
  induction later generalizing store with
  | nil => exact h
  | cons a later ih =>
    simp only [outputs, List.forall_mem_append] at hpurge hhanded
    exact ih (usable_step h hpurge.1 hhanded.1) hpurge.2 hhanded.2

/-! ### What a run does -/

theorem storeAfter_concat (steps : List (Step τ υ)) (a : Step τ υ) :
    storeAfter libs (steps ++ [a]) = step libs a (storeAfter libs steps) := run_concat steps a _

/-- An entry of the map was put there by a begin of the run. -/
theorem entry_run {steps : List (Step τ υ)} {state : String} {entry : StateEntry τ}
    (h : (storeAfter libs steps).entries state = some entry) :
    ∃ earlier a later, steps = earlier ++ a :: later ∧ ∃ r ∈ reserved libs a (storeAfter libs earlier),
      r.state = state ∧ entry.expiresAt = r.expiresAt ∧ (entry.consumed = false → entry.verifier = r.verifier) := by
  induction steps using List.reverseRecOn generalizing entry with
  | nil => cases h
  | append_singleton steps a ih =>
    rw [storeAfter_concat] at h
    obtain ⟨old, hold, hexpires, hkept⟩ | ⟨r, hr, hstate, rfl⟩ := entry_before h
    · obtain ⟨earlier, b, later, rfl, r, hr, hstate, hat, hverifier⟩ := ih hold
      refine ⟨earlier, b, later ++ [a], by simp, r, hr, hstate, hexpires.symm.trans hat, fun hconsumed => ?_⟩
      obtain rfl := hkept hconsumed
      exact hverifier hconsumed
    · exact ⟨steps, a, [], rfl, r, hr, hstate, rfl, fun _ => rfl⟩

theorem prepared_of_mem_reserved {a : Step τ υ} {store : InMemoryOAuthStateStore τ} {r : Reservation τ}
    (h : r ∈ reserved libs a store) : a.prepared libs = some r := by
  unfold reserved at h
  split at h
  · simpa using h
  · cases h

theorem mem_randomStates {steps : List (Step τ υ)} {a : Step τ υ} {r : Reservation τ} (ha : a ∈ steps)
    (h : a.prepared libs = some r) : r.state ∈ randomStates libs steps :=
  List.mem_filterMap.mpr ⟨a, ha, by rw [h]; rfl⟩

/-- What a callback is handed. -/
theorem handedOut_eq {a : Step τ υ} {store : InMemoryOAuthStateStore τ} {pair : String × String}
    (h : pair ∈ handedOut libs a store) :
    ∃ expiresAt, store.entries pair.1 = some ⟨pair.2, expiresAt, false⟩ ∧
      (step libs a store).entries pair.1 = some ⟨"", expiresAt, true⟩ := by
  cases goes libs a store with
  | fails _ _ hhanded => rw [hhanded] at h; cases h
  | reserves _ _ _ _ _ _ _ hhanded => rw [hhanded] at h; cases h
  | purges _ _ _ hhanded => rw [hhanded] at h; cases h
  | consumes hafter _ hentry _ hhanded =>
    rw [hhanded, List.mem_singleton] at h
    subst h
    exact ⟨_, hentry, by simp [hafter]⟩

/-- The state that is presented successfully is the random state of a begin. -/
theorem handedOut_reserved {steps : List (Step τ υ)} {pair : String × String}
    (h : pair ∈ outputs (step libs) (handedOut libs) steps .new) :
    ∃ r ∈ outputs (step libs) (reserved libs) steps .new, (r.state, r.verifier) = pair := by
  obtain ⟨before, a, after, rfl, hpair⟩ := mem_outputs_iff.mp h
  obtain ⟨expiresAt, hentry, -⟩ := handedOut_eq hpair
  obtain ⟨earlier, b, later, rfl, r, hr, hstate, -, hverifier⟩ := entry_run hentry
  refine ⟨r, mem_outputs_iff.mpr ⟨earlier, b, later ++ a :: after, by simp, hr⟩, ?_⟩
  rw [hstate, ← hverifier rfl]

theorem reserved_randomStates {steps : List (Step τ υ)} {r : Reservation τ}
    (h : r ∈ outputs (step libs) (reserved libs) steps .new) : r.state ∈ randomStates libs steps := by
  obtain ⟨before, a, after, rfl, hr⟩ := mem_outputs_iff.mp h
  exact mem_randomStates (by simp) (prepared_of_mem_reserved hr)

/-- **Never again.** After a run with distinct random states, no state that was accepted is in the map unless
consumed, and none was accepted twice. -/
theorem spent_run {steps : List (Step τ υ)} (hrandom : (randomStates libs steps).Nodup) :
    ((outputs (step libs) (handedOut libs) steps .new).map Prod.fst).Nodup ∧
      ∀ pair ∈ outputs (step libs) (handedOut libs) steps .new, ∀ entry,
        (storeAfter libs steps).entries pair.1 = some entry → entry.consumed = true := by
  induction steps using List.reverseRecOn with
  | nil => exact ⟨List.nodup_nil, fun _ h => absurd h List.not_mem_nil⟩
  | append_singleton steps a ih =>
    have hsplit : randomStates libs (steps ++ [a]) = randomStates libs steps ++ randomStates libs [a] :=
      List.filterMap_append
    rw [hsplit, List.nodup_append] at hrandom
    obtain ⟨hbefore, -, hdisjoint⟩ := hrandom
    obtain ⟨hnodup, hspent⟩ := ih hbefore
    have hout : outputs (step libs) (handedOut libs) (steps ++ [a]) .new =
        outputs (step libs) (handedOut libs) steps .new ++ handedOut libs a (storeAfter libs steps) := by
      rw [outputs_append]
      simp [outputs, storeAfter]
    rw [hout, List.map_append]
    constructor
    · -- A state that was accepted before would be in the map unconsumed.
      rw [List.nodup_append]
      refine ⟨hnodup, ?_, ?_⟩
      · cases goes libs a (storeAfter libs steps) with
        | fails _ _ hhanded => simp [hhanded]
        | reserves _ _ _ _ _ _ _ hhanded => simp [hhanded]
        | purges _ _ _ hhanded => simp [hhanded]
        | consumes _ _ _ _ hhanded => simp [hhanded]
      · rintro state hmem state' hmem' rfl
        obtain ⟨pair, hpair, rfl⟩ := List.mem_map.mp hmem
        obtain ⟨pair', hpair', hsame⟩ := List.mem_map.mp hmem'
        obtain ⟨expiresAt, hentry, -⟩ := handedOut_eq hpair'
        rw [hsame] at hentry
        cases hspent pair hpair _ hentry
    · intro pair hpair entry hentry
      rw [storeAfter_concat] at hentry
      rcases List.mem_append.mp hpair with hpair | hpair
      · obtain ⟨old, hold, -, hkept⟩ | ⟨r, hr, hstate, rfl⟩ := entry_before hentry
        · cases hconsumed : entry.consumed with
          | true => rfl
          | false =>
            obtain rfl := hkept hconsumed
            rw [hspent pair hpair _ hold] at hconsumed
            cases hconsumed
        · -- The step would reserve a state that an earlier begin drew.
          obtain ⟨r', hr', hpair'⟩ := handedOut_reserved hpair
          have hin := reserved_randomStates hr'
          rw [show r'.state = r.state by rw [hstate, ← hpair']] at hin
          exact absurd rfl (hdisjoint _ hin _ (mem_randomStates List.mem_cons_self (prepared_of_mem_reserved hr)))
      · obtain ⟨expiresAt, -, hafter⟩ := handedOut_eq hpair
        rw [hafter] at hentry
        obtain rfl := Option.some.inj hentry
        rfl

/-! ### The runs of a store -/

theorem step_eq_of_fails {a : Step τ υ} {store : InMemoryOAuthStateStore τ}
    (h : (answer libs a store).succeeds = false) : step libs a store = store := by
  cases goes libs a store with
  | fails hafter => exact hafter
  | reserves _ _ _ _ _ _ _ _ hok => rw [h] at hok; cases hok
  | consumes _ _ _ _ _ hok => rw [h] at hok; cases hok
  | purges _ _ _ _ hok => rw [h] at hok; cases hok

theorem mem_handedOut {callback : OAuthCallback} {now : τ} {store : InMemoryOAuthStateStore τ} {code : AuthorizationCode}
    (h : (validateCallback callback now store).1 = .ok code) :
    (callback.state, code.verifier) ∈ handedOut libs (.validateCallback callback now) store := by
  have hanswer : answer libs (.validateCallback callback now) store = .validated (.ok code) := by
    rw [answer, call, Prod.map_fst, h]
  simp only [handedOut, hanswer, List.mem_singleton]

theorem consumable_of_ok {callback : OAuthCallback} {now : τ} {store : InMemoryOAuthStateStore τ}
    {code : AuthorizationCode} (h : (validateCallback callback now store).1 = .ok code) :
    ∃ expiresAt, store.entries callback.state = some ⟨code.verifier, expiresAt, false⟩ ∧ now < expiresAt := by
  obtain ⟨-, store', hconsume, -⟩ := validateCallback_eq_ok_iff.mp h
  obtain ⟨-, expiresAt, hentry, hlt, -⟩ := InMemoryOAuthStateStore.consume_eq_ok_iff.mp hconsume
  exact ⟨expiresAt, hentry, hlt⟩

/-- A reservation is made by a begin, for the ten minutes from its clock. -/
theorem begins_of_mem_reserved {a : Step τ υ} {store : InMemoryOAuthStateStore τ} {r : Reservation τ}
    (h : r ∈ reserved libs a store) :
    ∃ provider config nonceSource begun, a = .begin provider config nonceSource begun ∧
      libs.tenMinutesAfter begun = some r.expiresAt := by
  have hprepared := prepared_of_mem_reserved h
  cases a with
  | begin provider config nonceSource begun =>
    refine ⟨provider, config, nonceSource, begun, rfl, ?_⟩
    cases hprepare : prepareStart libs provider config nonceSource begun with
    | error e => simp [Step.prepared, hprepare, Except.toOption] at hprepared
    | ok prepared =>
      obtain rfl : (⟨prepared.1.state, prepared.1.codeVerifier, prepared.2⟩ : Reservation τ) = r := by
        simpa [Step.prepared, hprepare, Except.toOption] using hprepared
      exact prepareStart_expiresAt libs hprepare
  | validateCallback => cases hprepared
  | purgeExpired => cases hprepared

/-- **OAuth state reservations.** Where no two begins of a run draw the same random state, every verifier is handed out
at most once, to a callback with its own state and before it expires; a step that fails changes no later answer; what
was neither purged nor consumed is usable; and what was accepted is never accepted again. -/
theorem reservations_singleUse (libs : Libraries τ υ) (steps : List (Step τ υ))
    (hrandom : (randomStates libs steps).Nodup) : SingleUse libs steps where
  once := by
    refine List.subperm_of_subset (List.Nodup.of_map _ (spent_run hrandom).1) fun pair hpair => ?_
    exact List.mem_map.mpr (handedOut_reserved hpair)
  own := by
    rintro before callback now after code rfl hok
    obtain ⟨expiresAt, hentry, hlt⟩ := consumable_of_ok hok
    obtain ⟨earlier, a, later, rfl, r, hr, hstate, hat, hverifier⟩ := entry_run hentry
    obtain ⟨provider, config, nonceSource, begun, rfl, hten⟩ := begins_of_mem_reserved hr
    exact ⟨earlier, provider, config, nonceSource, begun, later, r, rfl, hr, hten, hstate, (hverifier rfl).symm,
      lt_of_lt_of_eq hlt hat⟩
  failed := by
    rintro before a after rfl hfails later
    rw [storeAfter_concat, step_eq_of_fails hfails]
  usable := by
    rintro before a later r rfl hr hpurge hhanded callback now hstate hcode hlt
    obtain ⟨hblank, hentry⟩ := entry_reserved hr
    rw [← storeAfter_concat] at hentry
    have hentry := usable_run hentry hpurge hhanded
    rw [storeAfter, ← run_append, List.append_assoc, List.singleton_append, ← storeAfter] at hentry
    have hconsume := InMemoryOAuthStateStore.consume_eq_ok_iff.mpr ⟨hblank, r.expiresAt, hentry, hlt, rfl⟩
    rw [← hstate] at hconsume
    exact validateCallback_eq_ok_iff.mpr ⟨hcode, _, hconsume, rfl⟩
  neverAgain := by
    rintro before first now middle second now' after code rfl hok hsame code' hok'
    have hpair : (first.state, code.verifier) ∈
        outputs (step libs) (handedOut libs) (before ++ .validateCallback first now :: middle) .new :=
      mem_outputs_iff.mpr ⟨before, _, middle, rfl, mem_handedOut hok⟩
    have hprefix : (randomStates libs (before ++ .validateCallback first now :: middle)).Nodup := by
      refine hrandom.sublist ?_
      exact List.Sublist.filterMap _ (by simp)
    obtain ⟨expiresAt, hentry, -⟩ := consumable_of_ok hok'
    rw [hsame] at hentry
    cases (spent_run hprefix).2 _ hpair _ hentry

/-- A value of a query as `application/x-www-form-urlencoded` writes it. -/
def formEncoded (value : String) : String :=
  String.ofList ((utf8 value).flatMap fun byte =>
    let c := Char.ofNat byte.toNat
    if isAsciiAlphanumeric c || c ∈ ['*', '-', '.', '_'] then [c]
    else if c = ' ' then ['+']
    else '%' :: (hexByte byte.toNat).map Char.toUpper)

/-- The libraries on instants in nanoseconds and on URLs as texts, with the digest of one verifier. -/
def textLibraries : Libraries ℤ String where
  tenMinutesAfter now := if now + 600000000000 ≤ 8210266876799999999999 then some (now + 600000000000) else none
  lt_tenMinutesAfter := by
    intro now later h
    split at h
    · have := Option.some.inj h
      omega
    · cases h
  query url := if '?' ∈ url.toList then some url else none
  fragment url := if '#' ∈ url.toList then some url else none
  asStr url := url
  appendPairs url pairs := url ++ "?" ++ "&".intercalate (pairs.map fun pair => pair.1 ++ "=" ++ formEncoded pair.2)
  sha256 bytes :=
    if bytes = utf8 "BwcHBwcHBwcHBwcHBwcHBwcHBwcHBwcHBwcHBwcHBwc" then
      [220, 75, 248, 12, 119, 71, 61, 19, 15, 160, 222, 134, 186, 64, 24, 254, 152, 187, 33, 64, 5, 230, 165, 137, 29, 18, 186, 145, 68, 111, 158, 129]
    else []

/-- A source that draws the given byte for the state and sevens for the verifier. -/
def drawing (byte : UInt8) : SecureRandom where
  fill n := .ok ⟨List.replicate 32 (if n = 0 then byte else 7), List.length_replicate⟩

def googleLogin : OAuthProviderConfig String where
  clientId := some "agent-voice"
  authorizeUrl := "https://accounts.google.com/o/oauth2/v2/auth"
  scopes := ["openid"]
  redirectUri := "http://localhost:8080/callback"

/-- Two logins with one verifier: the first is replayed, and the second is used half a minute before it expires,
after a purge that forgets the first. -/
def twoLogins : List (Step ℤ String) :=
  let minute := 60000000000
  let first := Base64Url.encode (List.replicate 32 1)
  let second := Base64Url.encode (List.replicate 32 2)
  [.begin .google googleLogin (drawing 1) 0, .begin .google googleLogin (drawing 2) minute,
    .validateCallback ⟨"code", first⟩ (2 * minute), .validateCallback ⟨"code", first⟩ (2 * minute),
    .purgeExpired (10 * minute), .validateCallback ⟨"code", first⟩ (3 * minute),
    .validateCallback ⟨"code", second⟩ (10 * minute + minute / 2)]

theorem reservations_singleUse_twoLogins :
    (outputs (step textLibraries) (handedOut textLibraries) twoLogins .new).length = 2 ∧
      SingleUse textLibraries twoLogins :=
  ⟨by decide +kernel, reservations_singleUse _ _ (by decide +kernel)⟩

end AgentVoice.OAuth

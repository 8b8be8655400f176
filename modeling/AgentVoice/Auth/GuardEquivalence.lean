import AgentVoice.Auth.ReplayGuard
import AgentVoice.Foundations.ExpiringSet
import AgentVoice.Foundations.Machine

/-!
# The two replay guards agree

Both guards keep the set of the nonces they accepted with the seconds of their acceptance, in which a nonce stays for
300 seconds (`acceptedNonces`). The in-memory guard holds the set itself (`inMemory_refines`), the store holds it as
rows of timestamp texts (`store_refines`). The clocks of the calls may go back.
-/

namespace AgentVoice.Auth

open AgentVoice.Foundations AgentVoice.Foundations.Machine AgentVoice.Store

/-- A call of `check_and_record` or `consume_replay_nonce`. -/
structure NonceCall where
  nonce : String
  now : Int64
  deriving DecidableEq

/-- The seconds that the replay timestamps can write: from the year 0, and to 300 seconds before the year 10000. -/
def Representable (now : Int64) : Prop := -62167219200 ≤ now.toInt ∧ now.toInt < 253402300800 - replayRetentionSeconds

instance (now : Int64) : Decidable (Representable now) := inferInstanceAs (Decidable (_ ∧ _))

theorem exists_format_utc {n : ℤ} (hfirst : -62167219200 * second ≤ n) (hlast : n < 253402300800 * second) :
    ∃ text, (⟨n, 0⟩ : OffsetDateTime).format = some text := by
  refine ⟨_, if_pos ⟨⟨?_, ?_⟩, (by decide : OffsetWritable 0)⟩⟩
  · simp only [OffsetDateTime.localNanos, second, epochNanos] at hfirst ⊢
    omega
  · simp only [OffsetDateTime.localNanos, second, epochNanos, calendarNanos] at hlast ⊢
    omega

theorem exists_replayTimestamps_iff {now : Int64} :
    (∃ c e, replayTimestamps now = .ok (c, e)) ↔ Representable now := by
  constructor
  · rintro ⟨c, e, h⟩
    obtain ⟨hc, he⟩ := replayTimestamps_eq_ok h
    obtain ⟨⟨hfirst, -⟩, -⟩ := OffsetDateTime.format_eq_some_iff.mp hc
    obtain ⟨⟨-, hlast⟩, -⟩ := OffsetDateTime.format_eq_some_iff.mp he
    simp only [OffsetDateTime.localNanos, second, epochNanos, calendarNanos, replayRetentionSeconds] at hfirst hlast
    constructor
    · omega
    · simp only [replayRetentionSeconds]
      omega
  · rintro ⟨hfirst, hlast⟩
    simp only [replayRetentionSeconds] at hlast
    have hconsumed : OffsetDateTime.fromUnixTimestamp now.toInt = some ⟨now.toInt * second, 0⟩ :=
      OffsetDateTime.fromUnixTimestamp_eq_some_iff.mpr ⟨rfl, by
        simp only [OffsetDateTime.InRange, second]
        omega⟩
    have hexpires : (⟨now.toInt * second, 0⟩ : OffsetDateTime).toUtc.checkedAdd (replayRetentionSeconds * second) =
        some ⟨now.toInt * second + replayRetentionSeconds * second, 0⟩ :=
      OffsetDateTime.checkedAdd_eq_some_iff.mpr ⟨rfl, by
        simp only [OffsetDateTime.InRange, second, replayRetentionSeconds]
        omega⟩
    obtain ⟨c, hc⟩ := exists_format_utc (n := now.toInt * second) (by simp only [second]; omega)
      (by simp only [second]; omega)
    obtain ⟨e, he⟩ := exists_format_utc (n := now.toInt * second + replayRetentionSeconds * second)
      (by simp only [second, replayRetentionSeconds]; omega) (by simp only [second, replayRetentionSeconds]; omega)
    refine ⟨c, e, ?_⟩
    have hc : (⟨now.toInt * second, 0⟩ : OffsetDateTime).toUtc.format = some c := hc
    simp only [replayTimestamps, hconsumed, hexpires, hc, he, okOr_some, ok_bind, pure_eq_ok]

/-! ### The abstract set -/

/-- What was accepted at a second is kept for the retention time. -/
def Kept (now t : Int64) : Prop := now.toInt < t.toInt + replayRetentionSeconds

/-- The answers of the abstract set. -/
noncomputable def abstractAnswers (calls : List NonceCall) (s : Set (String × Int64)) : List Bool :=
  outputs (fun c => ExpiringSet.record Kept c.nonce c.now) (fun c s => [ExpiringSet.check Kept c.nonce c.now s]) calls s

/-! ### The in-memory guard -/

def inMemoryStep (c : NonceCall) (g : InMemoryReplayGuard) : InMemoryReplayGuard := (g.checkAndRecord c.nonce c.now).2

/-- The answers of the in-memory guard. -/
def inMemoryAnswers (calls : List NonceCall) (g : InMemoryReplayGuard) : List Bool :=
  outputs inMemoryStep (fun c g => [(g.checkAndRecord c.nonce c.now).1]) calls g

/-- A call that finds room in the guard, once what has expired is evicted. -/
def HasRoom (c : NonceCall) (g : InMemoryReplayGuard) : Prop := (g.evictExpired c.now).accepted.length < g.capacity

instance (c : NonceCall) (g : InMemoryReplayGuard) : Decidable (HasRoom c g) := inferInstanceAs (Decidable (_ < _))

/-- The set the in-memory guard holds. -/
def InMemoryReplayGuard.acceptedSet (g : InMemoryReplayGuard) : Set (String × Int64) := {e | e ∈ g.accepted}

theorem acceptedSet_evictExpired {g : InMemoryReplayGuard} {now : Int64} (h : Representable now) :
    (g.evictExpired now).acceptedSet = ExpiringSet.unexpired Kept now g.acceptedSet := by
  have hmax : Int64.maxValue.toInt = 9223372036854775807 := by decide
  ext e
  rw [ExpiringSet.mem_unexpired_iff, InMemoryReplayGuard.acceptedSet, Set.mem_ofPred_eq,
    InMemoryReplayGuard.mem_evictExpired, lt_saturatingAdd_iff]
  have hlt := h.2
  simp only [replayRetentionSeconds] at hlt
  exact and_congr_right' (and_iff_left (by omega))

theorem inMemory_refines {c : NonceCall} {g : InMemoryReplayGuard} (hnow : Representable c.now) (hroom : HasRoom c g) :
    (g.checkAndRecord c.nonce c.now).1 = ExpiringSet.check Kept c.nonce c.now g.acceptedSet ∧
      (inMemoryStep c g).acceptedSet = ExpiringSet.record Kept c.nonce c.now g.acceptedSet := by
  have hfresh : ExpiringSet.Fresh c.nonce (g.evictExpired c.now).acceptedSet ↔ c.nonce ∉ (g.evictExpired c.now).keys := by
    simp [ExpiringSet.Fresh, InMemoryReplayGuard.acceptedSet, InMemoryReplayGuard.keys]
  rw [acceptedSet_evictExpired hnow] at hfresh
  by_cases hkey : c.nonce ∈ (g.evictExpired c.now).keys
  · have hseen := fun h => hfresh.mp h hkey
    have hcheck : g.checkAndRecord c.nonce c.now = (false, g.evictExpired c.now) := by
      rw [InMemoryReplayGuard.checkAndRecord, dif_pos (Or.inl hkey)]
    rw [inMemoryStep, hcheck, ExpiringSet.check_of_not_fresh hseen, ExpiringSet.record_of_not_fresh hseen]
    exact ⟨rfl, acceptedSet_evictExpired hnow⟩
  · have hnew := hfresh.mpr hkey
    have hno : ¬ (c.nonce ∈ (g.evictExpired c.now).keys ∨
        (g.evictExpired c.now).capacity ≤ (g.evictExpired c.now).accepted.length) :=
      not_or.mpr ⟨hkey, Nat.not_le.mpr hroom⟩
    have hcheck : g.checkAndRecord c.nonce c.now = (true, (g.evictExpired c.now).insert c.nonce c.now hkey) := by
      rw [InMemoryReplayGuard.checkAndRecord, dif_neg hno]
    rw [inMemoryStep, hcheck, ExpiringSet.check_of_fresh hnew, ExpiringSet.record_of_fresh hnew,
      ← acceptedSet_evictExpired hnow]
    refine ⟨rfl, ?_⟩
    ext e
    simp [InMemoryReplayGuard.acceptedSet, InMemoryReplayGuard.insert]

/-! ### The store -/

def storeStep (c : NonceCall) (rows : List NonceRow) : List NonceRow :=
  ((consumeReplayNonce c.nonce c.now).commit rows).2

/-- The answers of the store. -/
def storeAnswers (calls : List NonceCall) (rows : List NonceRow) : List (StoreResult Bool) :=
  outputs storeStep (fun c rows => [((consumeReplayNonce c.nonce c.now).commit rows).1]) calls rows

/-- The row that writes an accepted nonce. -/
def Writes (row : NonceRow) (e : String × Int64) : Prop :=
  row.nonce = e.1 ∧ replayTimestamps e.2 = .ok (row.consumedAt, row.expiresAt)

/-- The rows write the set. -/
def Holds (rows : List NonceRow) (s : Set (String × Int64)) : Prop :=
  (∀ row ∈ rows, ∃ e ∈ s, Writes row e) ∧ ∀ e ∈ s, ∃ row ∈ rows, Writes row e

theorem holds_unexpired {rows : List NonceRow} {s : Set (String × Int64)} {now : Int64} {c e : String}
    (h : Holds rows s) (hnow : replayTimestamps now = .ok (c, e)) :
    Holds (unexpired c rows) (ExpiringSet.unexpired Kept now s) := by
  constructor
  · intro row hrow
    obtain ⟨hrow, hlive⟩ := mem_unexpired.mp hrow
    obtain ⟨entry, hentry, hwrites⟩ := h.1 row hrow
    exact ⟨entry, ⟨hentry, (replayTimestamps_lt_iff hwrites.2 hnow).mp hlive⟩, hwrites⟩
  · rintro entry ⟨hentry, hkept⟩
    obtain ⟨row, hrow, hwrites⟩ := h.2 entry hentry
    exact ⟨row, mem_unexpired.mpr ⟨hrow, (replayTimestamps_lt_iff hwrites.2 hnow).mpr hkept⟩, hwrites⟩

theorem Holds.fresh_iff {rows : List NonceRow} {s : Set (String × Int64)} (h : Holds rows s) (nonce : String) :
    ExpiringSet.Fresh nonce s ↔ ∀ row ∈ rows, row.nonce ≠ nonce := by
  constructor
  · rintro hfresh row hrow rfl
    obtain ⟨⟨nonce, t⟩, hentry, hwrites⟩ := h.1 row hrow
    exact hfresh t (hwrites.1 ▸ hentry)
  · intro hrows t hentry
    obtain ⟨row, hrow, hwrites⟩ := h.2 _ hentry
    exact hrows row hrow hwrites.1

theorem Holds.insert {rows : List NonceRow} {s : Set (String × Int64)} (h : Holds rows s) {row : NonceRow}
    {e : String × Int64} (hwrites : Writes row e) : Holds (rows ++ [row]) (insert e s) := by
  constructor
  · intro r hr
    rcases List.mem_append.mp hr with hr | hr
    · obtain ⟨entry, hentry, hr⟩ := h.1 r hr
      exact ⟨entry, Set.mem_insert_of_mem _ hentry, hr⟩
    · rw [List.mem_singleton.mp hr]
      exact ⟨e, Set.mem_insert _ _, hwrites⟩
  · rintro entry (rfl | hentry)
    · exact ⟨row, List.mem_append_right _ (List.mem_singleton_self row), hwrites⟩
    · obtain ⟨r, hr, hentry⟩ := h.2 entry hentry
      exact ⟨r, List.mem_append_left _ hr, hentry⟩

theorem store_refines {call : NonceCall} {rows : List NonceRow} {s : Set (String × Int64)}
    (hvalid : validateReplayNonce call.nonce = .ok ()) (hnow : Representable call.now) (h : Holds rows s) :
    ((consumeReplayNonce call.nonce call.now).commit rows).1 = .ok (ExpiringSet.check Kept call.nonce call.now s) ∧
      Holds (storeStep call rows) (ExpiringSet.record Kept call.nonce call.now s) := by
  obtain ⟨c, e, htimes⟩ := exists_replayTimestamps_iff.mpr hnow
  have hlive := holds_unexpired h htimes
  have hfresh := hlive.fresh_iff call.nonce
  by_cases hpresent : (unexpired c rows).any (·.nonce == call.nonce) = true
  · have hrun : (consumeReplayNonce call.nonce call.now).commit rows = (.ok false, unexpired c rows) := by
      refine Tx.commit_of_ok ?_
      rw [consumeReplayNonce, Tx.ofResult_bind_of_ok hvalid, Tx.ofResult_bind_of_ok htimes, Tx.write_bind,
        Tx.read_bind, if_pos hpresent]
      rfl
    obtain ⟨row, hrow, hnonce⟩ := List.any_eq_true.mp hpresent
    have hseen : ¬ ExpiringSet.Fresh call.nonce (ExpiringSet.unexpired Kept call.now s) := fun hnew =>
      hfresh.mp hnew row hrow (by simpa using hnonce)
    rw [storeStep, hrun, ExpiringSet.check_of_not_fresh hseen, ExpiringSet.record_of_not_fresh hseen]
    exact ⟨rfl, hlive⟩
  · have hrun : (consumeReplayNonce call.nonce call.now).commit rows =
        (.ok true, unexpired c rows ++ [⟨call.nonce, c, e⟩]) := by
      refine Tx.commit_of_ok ?_
      rw [consumeReplayNonce, Tx.ofResult_bind_of_ok hvalid, Tx.ofResult_bind_of_ok htimes, Tx.write_bind,
        Tx.read_bind, if_neg hpresent]
      rfl
    have hnew : ExpiringSet.Fresh call.nonce (ExpiringSet.unexpired Kept call.now s) := hfresh.mpr fun row hrow hnonce =>
      hpresent (List.any_eq_true.mpr ⟨row, hrow, by simpa using hnonce⟩)
    rw [storeStep, hrun, ExpiringSet.check_of_fresh hnew, ExpiringSet.record_of_fresh hnew]
    exact ⟨rfl, hlive.insert ⟨rfl, htimes⟩⟩

theorem inMemoryAnswers_eq {calls : List NonceCall} {g : InMemoryReplayGuard}
    (hnow : ∀ c ∈ calls, Representable c.now) (hroom : Along inMemoryStep HasRoom calls g) :
    inMemoryAnswers calls g = abstractAnswers calls g.acceptedSet := by
  have hall : Along inMemoryStep (fun c g => Representable c.now ∧ HasRoom c g) calls g :=
    (Along.of_forall (fun c hc _ => hnow c hc) g).and hroom
  refine outputs_eq_of_simulation (R := fun g s => g.acceptedSet = s) ?_ hall rfl
  rintro c g s ⟨hc, hroom⟩ rfl
  obtain ⟨hanswer, hnext⟩ := inMemory_refines hc hroom
  exact ⟨by rw [hanswer], hnext⟩

theorem storeAnswers_eq {calls : List NonceCall} {rows : List NonceRow} {s : Set (String × Int64)}
    (hvalid : ∀ c ∈ calls, validateReplayNonce c.nonce = .ok ()) (hnow : ∀ c ∈ calls, Representable c.now)
    (h : Holds rows s) : storeAnswers calls rows = (abstractAnswers calls s).map .ok := by
  rw [abstractAnswers, map_outputs]
  have hall : Along storeStep (fun c _ => validateReplayNonce c.nonce = .ok () ∧ Representable c.now) calls rows :=
    Along.of_forall (fun c hc _ => ⟨hvalid c hc, hnow c hc⟩) rows
  refine outputs_eq_of_simulation (R := Holds) ?_ hall h
  rintro c rows s ⟨hvalid, hc⟩ h
  obtain ⟨hanswer, hnext⟩ := store_refines hvalid hc h
  exact ⟨by rw [hanswer]; rfl, hnext⟩

/-- **The replay guards agree.** Over all calls with valid nonces and representable clocks, and as long as the in-memory
guard has room, both guards answer as the abstract set does. -/
theorem replayGuards_agree (capacity : ℕ) (calls : List NonceCall)
    (hvalid : ∀ c ∈ calls, validateReplayNonce c.nonce = .ok ()) (hnow : ∀ c ∈ calls, Representable c.now)
    (hroom : Along inMemoryStep HasRoom calls (.new capacity)) :
    storeAnswers calls [] = (inMemoryAnswers calls (.new capacity)).map .ok ∧
      inMemoryAnswers calls (.new capacity) = abstractAnswers calls ∅ := by
  have hempty : (InMemoryReplayGuard.new capacity).acceptedSet = ∅ := by
    ext e
    simp [InMemoryReplayGuard.acceptedSet, InMemoryReplayGuard.new]
  have hmemory := inMemoryAnswers_eq hnow hroom
  rw [hempty] at hmemory
  rw [hmemory]
  exact ⟨storeAnswers_eq hvalid hnow ⟨by simp, by simp⟩, rfl⟩

/-- A replay within the retention time, one at its end, and calls whose clocks go back. -/
def boundaryCalls : List NonceCall :=
  [⟨"nonce-0123456789", 1000⟩, ⟨"nonce-0123456789", 1299⟩, ⟨"nonce-9876543210", 1300⟩, ⟨"nonce-0123456789", 1300⟩,
    ⟨"nonce-0123456789", 900⟩, ⟨"nonce-9876543210", 1600⟩]

theorem replayGuards_agree_boundary :
    inMemoryAnswers boundaryCalls (.new 3) = [true, false, true, true, false, true] ∧
      storeAnswers boundaryCalls [] = (inMemoryAnswers boundaryCalls (.new 3)).map .ok ∧
      inMemoryAnswers boundaryCalls (.new 3) = abstractAnswers boundaryCalls ∅ :=
  ⟨by decide +kernel,
    replayGuards_agree 3 boundaryCalls (by decide +kernel) (by decide +kernel)
      ⟨by decide +kernel, by decide +kernel, by decide +kernel, by decide +kernel, by decide +kernel,
        by decide +kernel, trivial⟩⟩

end AgentVoice.Auth

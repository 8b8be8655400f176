import AgentVoice.Store.ReplayNonces
import Mathlib.Data.Set.Basic

/-!
# Replay guards

`ReplayGuard` of `src/pa/auth.rs` and its two implementations, the process-local
`InMemoryReplayGuard` and the encrypted store. `LawfulReplayGuard` says what a guard is for: an
accepted nonce stays reserved for the retention time, a reserved nonce is refused, a refusal leaves
later answers as they were, and only accepted nonces are recorded.

The store meets these laws at every time. The in-memory guard computes the end of a reservation with
a saturating addition, so its reservations cannot outlast the largest timestamp: it meets the laws
at every time but `i64::MAX`.
-/

namespace AgentVoice.Auth

open AgentVoice.Foundations AgentVoice.Store

/-- `ReplayGuard`: `check_and_record` as a state transformer. The first argument says whether the
guard's storage answers at all; the in-memory guard has none. -/
structure ReplayGuard (γ : Type) where
  checkAndRecord : Bool → String → Int64 → γ → Bool × γ

/-- What a replay guard promises. `reliable` are the times at which reservations are kept. -/
structure LawfulReplayGuard {γ : Type} (guard : ReplayGuard γ) (reliable : Int64 → Prop) where
  /-- The nonce would be refused at the given time. -/
  Reserved : γ → String → Int64 → Prop
  /-- The nonces the guard holds. -/
  nonces : γ → Set String
  /-- No later call, at the given time or after it, can tell the two states apart. -/
  Same : Int64 → γ → γ → Prop
  refuses : ∀ {g storage nonce now}, Reserved g nonce now →
    (guard.checkAndRecord storage nonce now g).1 = false
  reserves : ∀ {g g' storage nonce now t}, guard.checkAndRecord storage nonce now g = (true, g') →
    now.toInt ≤ t.toInt → t.toInt < now.toInt + replayRetentionSeconds → reliable t → Reserved g' nonce t
  keeps : ∀ {g g' storage nonce now b m t}, guard.checkAndRecord storage nonce now g = (b, g') →
    now.toInt ≤ t.toInt → Reserved g m t → Reserved g' m t
  records : ∀ {g g' storage nonce now b m}, guard.checkAndRecord storage nonce now g = (b, g') →
    m ∈ nonces g' → m ∈ nonces g ∨ b = true ∧ m = nonce
  same_mono : ∀ {now t g h}, Same now g h → now.toInt ≤ t.toInt → Same t g h
  same_check : ∀ {now t g h}, Same now g h → now.toInt ≤ t.toInt → ∀ storage nonce,
    (guard.checkAndRecord storage nonce t g).1 = (guard.checkAndRecord storage nonce t h).1 ∧
      Same t (guard.checkAndRecord storage nonce t g).2 (guard.checkAndRecord storage nonce t h).2
  same_of_refused : ∀ {g g' storage nonce now}, guard.checkAndRecord storage nonce now g = (false, g') →
    Same now g' g

/-! ### The in-memory guard -/

/-- `i64::saturating_add`. -/
def saturatingAdd (a b : Int64) : Int64 := Int64.ofIntClamp (a.toInt + b.toInt)

/-- `REPLAY_RETENTION_SECONDS`, as the in-memory guard adds it. -/
def retention : Int64 := 300

theorem lt_saturatingAdd_iff {t a : Int64} :
    t.toInt < (saturatingAdd a retention).toInt ↔
      t.toInt < a.toInt + replayRetentionSeconds ∧ t.toInt < Int64.maxValue.toInt := by
  have hmax : Int64.maxValue.toInt = 9223372036854775807 := by decide
  have hmin : Int64.minValue.toInt = -9223372036854775808 := by decide
  have hr : retention.toInt = 300 := by decide
  have h1 := a.toInt_lt
  have h2 := a.le_toInt
  rw [saturatingAdd, Int64.ofIntClamp, hr, replayRetentionSeconds]
  by_cases hle : a.toInt + 300 ≤ Int64.maxValue.toInt
  · rw [dif_pos (by omega), dif_pos hle, Int64.toInt_ofIntLE]
    omega
  · rw [dif_pos (by omega), dif_neg hle]
    omega

/-- `InMemoryReplayGuard`: the accepted nonces with the times of their acceptance. -/
@[ext]
structure InMemoryReplayGuard where
  accepted : List (String × Int64)
  capacity : ℕ
  /-- A map holds each key once. -/
  nodup : (accepted.map Prod.fst).Nodup
  capacity_pos : 1 ≤ capacity

namespace InMemoryReplayGuard

/-- `InMemoryReplayGuard::new`. -/
def new (capacity : ℕ) : InMemoryReplayGuard where
  accepted := []
  capacity := max capacity 1
  nodup := List.nodup_nil
  capacity_pos := le_max_right _ _

/-- `evict_expired`. -/
def evictExpired (now : Int64) (g : InMemoryReplayGuard) : InMemoryReplayGuard where
  accepted := g.accepted.filter fun e => decide (now.toInt < (saturatingAdd e.2 retention).toInt)
  capacity := g.capacity
  nodup := g.nodup.sublist (List.filter_sublist.map _)
  capacity_pos := g.capacity_pos

/-- The keys of the map. -/
def keys (g : InMemoryReplayGuard) : List String := g.accepted.map Prod.fst

/-- Inserts a key that is not there. -/
def insert (g : InMemoryReplayGuard) (nonce : String) (now : Int64) (h : nonce ∉ g.keys) : InMemoryReplayGuard where
  accepted := (nonce, now) :: g.accepted
  capacity := g.capacity
  nodup := List.nodup_cons.mpr ⟨h, g.nodup⟩
  capacity_pos := g.capacity_pos

/-- `check_and_record`. -/
def checkAndRecord (nonce : String) (now : Int64) (g : InMemoryReplayGuard) : Bool × InMemoryReplayGuard :=
  let g := g.evictExpired now
  if h : nonce ∈ g.keys ∨ g.capacity ≤ g.accepted.length then (false, g)
  else (true, g.insert nonce now fun hin => h (Or.inl hin))

/-- The in-memory guard as a `ReplayGuard`. -/
def guard : ReplayGuard InMemoryReplayGuard := ⟨fun _ nonce now g => g.checkAndRecord nonce now⟩

theorem mem_evictExpired {g : InMemoryReplayGuard} {now : Int64} {e : String × Int64} :
    e ∈ (g.evictExpired now).accepted ↔ e ∈ g.accepted ∧ now.toInt < (saturatingAdd e.2 retention).toInt := by
  simp [evictExpired]

/-- Evicting early changes nothing for an eviction later on. -/
theorem evictExpired_evictExpired {g : InMemoryReplayGuard} {now t : Int64} (h : now.toInt ≤ t.toInt) :
    (g.evictExpired now).evictExpired t = g.evictExpired t := by
  ext1
  · simp only [evictExpired, List.filter_filter]
    refine List.filter_congr fun e _ => ?_
    rw [← Bool.decide_and]
    exact decide_eq_decide.mpr ⟨fun h' => h'.1, fun h' => ⟨h', by omega⟩⟩
  · rfl

/-- The two outcomes of a call. -/
theorem checkAndRecord_cases {g g' : InMemoryReplayGuard} {nonce : String} {now : Int64} {b : Bool}
    (h : g.checkAndRecord nonce now = (b, g')) :
    (b = false ∧ g' = g.evictExpired now) ∨
      (b = true ∧ g'.accepted = (nonce, now) :: (g.evictExpired now).accepted) := by
  unfold checkAndRecord at h
  dsimp only at h
  split at h
  · cases h
    exact Or.inl ⟨rfl, rfl⟩
  · cases h
    exact Or.inr ⟨rfl, rfl⟩

/-- **The in-memory guard is lawful at every time but the largest.** -/
def lawful : LawfulReplayGuard guard fun t => t.toInt < Int64.maxValue.toInt where
  Reserved g nonce t := ∃ e ∈ g.accepted, e.1 = nonce ∧ t.toInt < (saturatingAdd e.2 retention).toInt
  nonces g := {m | m ∈ g.keys}
  Same now g h := ∀ t : Int64, now.toInt ≤ t.toInt → g.evictExpired t = h.evictExpired t
  refuses := by
    rintro g storage nonce now ⟨e, he, rfl, hlive⟩
    have hin : e.1 ∈ (g.evictExpired now).keys := List.mem_map_of_mem (mem_evictExpired.mpr ⟨he, hlive⟩)
    simp only [guard, checkAndRecord]
    rw [dif_pos (Or.inl hin)]
  reserves := by
    intro g g' storage nonce now t h hle hlt hreliable
    rcases checkAndRecord_cases h with ⟨hb, -⟩ | ⟨-, hg'⟩
    · cases hb
    · exact ⟨(nonce, now), by rw [hg']; exact List.mem_cons_self, rfl, lt_saturatingAdd_iff.mpr ⟨hlt, hreliable⟩⟩
  keeps := by
    rintro g g' storage nonce now b m t h hle ⟨e, he, rfl, hlive⟩
    have hkept : e ∈ (g.evictExpired now).accepted := mem_evictExpired.mpr ⟨he, by omega⟩
    rcases checkAndRecord_cases h with ⟨-, rfl⟩ | ⟨-, hg'⟩
    · exact ⟨e, hkept, rfl, hlive⟩
    · exact ⟨e, by rw [hg']; exact List.mem_cons_of_mem _ hkept, rfl, hlive⟩
  records := by
    intro g g' storage nonce now b m h hm
    have hold : m ∈ (g.evictExpired now).keys → m ∈ g.keys := by
      intro hm
      obtain ⟨e, he, rfl⟩ := List.mem_map.mp hm
      exact List.mem_map_of_mem (mem_evictExpired.mp he).1
    rcases checkAndRecord_cases h with ⟨-, rfl⟩ | ⟨hb, hg'⟩
    · exact Or.inl (hold hm)
    · simp only [keys, hg', Set.mem_ofPred_eq, List.map_cons, List.mem_cons] at hm
      rcases hm with rfl | hm
      · exact Or.inr ⟨hb, rfl⟩
      · exact Or.inl (hold hm)
  same_mono hsame hle u hu := hsame u (hle.trans hu)
  same_check := by
    intro now t g h hsame hle storage nonce
    have heq := hsame t hle
    have hcheck : g.checkAndRecord nonce t = h.checkAndRecord nonce t := by simp only [checkAndRecord, heq]
    exact ⟨congrArg Prod.fst hcheck, fun u _ => congrArg (fun r => r.2.evictExpired u) hcheck⟩
  same_of_refused := by
    intro g g' storage nonce now h t hle
    rcases checkAndRecord_cases h with ⟨-, rfl⟩ | ⟨hb, -⟩
    · exact evictExpired_evictExpired hle
    · cases hb

end InMemoryReplayGuard

/-! ### The store as a guard -/

/-- `impl ReplayGuard for PaStore`: a failed call counts as a refusal. When the database does not
answer, the call fails and nothing changes. -/
def storeGuard : ReplayGuard (List NonceRow) where
  checkAndRecord storage nonce now rows :=
    if storage then
      let (r, rows') := (consumeReplayNonce nonce now).commit rows
      (match r with
        | .ok fresh => fresh
        | .error _ => false, rows')
    else (false, rows)

/-- The outcomes of a call: no change, or the expired rows gone and the nonce refused or added. -/
theorem storeGuard_cases {rows rows' : List NonceRow} {storage : Bool} {nonce : String} {now : Int64} {b : Bool}
    (h : storeGuard.checkAndRecord storage nonce now rows = (b, rows')) :
    (b = false ∧ rows' = rows) ∨
      ∃ c e, replayTimestamps now = .ok (c, e) ∧
        ((b = false ∧ rows' = unexpired c rows) ∨
          (b = true ∧ rows' = unexpired c rows ++ [⟨nonce, c, e⟩] ∧
            ∀ row ∈ unexpired c rows, row.nonce ≠ nonce)) := by
  simp only [storeGuard] at h
  cases storage with
  | false =>
    cases h
    exact Or.inl ⟨rfl, rfl⟩
  | true =>
    rcases hcommit : (consumeReplayNonce nonce now).commit rows with ⟨r, rows₁⟩
    simp only [if_true, hcommit] at h
    rcases consumeReplayNonce_cases hcommit with
      ⟨e, rfl, rfl⟩ | ⟨c, e, htimes, ⟨rfl, rfl, -⟩ | ⟨rfl, rfl, hnew⟩⟩
    · cases h
      exact Or.inl ⟨rfl, rfl⟩
    · cases h
      exact Or.inr ⟨c, e, htimes, Or.inl ⟨rfl, rfl⟩⟩
    · cases h
      exact Or.inr ⟨c, e, htimes, Or.inr ⟨rfl, rfl, hnew⟩⟩

/-- Expired rows deleted early are not missed later. -/
theorem unexpired_unexpired {rows : List NonceRow} {now t : Int64} {c e ct et : String}
    (hnow : replayTimestamps now = .ok (c, e)) (ht : replayTimestamps t = .ok (ct, et)) (hle : now.toInt ≤ t.toInt) :
    unexpired ct (unexpired c rows) = unexpired ct rows := by
  have hct := replayTimestamps_le hnow ht hle
  simp only [unexpired, List.filter_filter]
  refine List.filter_congr fun row _ => ?_
  rw [← Bool.decide_and]
  exact decide_eq_decide.mpr ⟨fun h => h.1, fun h => ⟨h, Std.lt_of_le_of_lt (String.not_lt.mp hct) h⟩⟩

/-- **The store is lawful at every time.** -/
def storeLawful : LawfulReplayGuard storeGuard fun _ => True where
  Reserved rows nonce t := ∀ c e, replayTimestamps t = .ok (c, e) → ∃ row ∈ rows, row.nonce = nonce ∧ c < row.expiresAt
  nonces rows := {m | ∃ row ∈ rows, row.nonce = m}
  Same now rows rows' := ∀ t : Int64, now.toInt ≤ t.toInt → ∀ c e, replayTimestamps t = .ok (c, e) →
    unexpired c rows = unexpired c rows'
  refuses := by
    intro rows storage nonce now hreserved
    rcases hcheck : storeGuard.checkAndRecord storage nonce now rows with ⟨b, rows'⟩
    rcases storeGuard_cases hcheck with ⟨hb, -⟩ | ⟨c, e, htimes, ⟨hb, -⟩ | ⟨-, -, hnew⟩⟩
    · exact hb
    · exact hb
    · obtain ⟨row, hrow, hnonce, hlive⟩ := hreserved c e htimes
      exact absurd hnonce (hnew row (mem_unexpired.mpr ⟨hrow, hlive⟩))
  reserves := by
    intro rows rows' storage nonce now t h hle hlt _ ct et ht
    rcases storeGuard_cases h with ⟨hb, -⟩ | ⟨c, e, htimes, ⟨hb, -⟩ | ⟨-, rfl, -⟩⟩
    · cases hb
    · cases hb
    · exact ⟨⟨nonce, c, e⟩, by simp, rfl, (replayTimestamps_lt_iff htimes ht).mpr hlt⟩
  keeps := by
    intro rows rows' storage nonce now b m t h hle hreserved ct et ht
    obtain ⟨row, hrow, hnonce, hlive⟩ := hreserved ct et ht
    rcases storeGuard_cases h with ⟨-, rfl⟩ | ⟨c, e, htimes, hrows⟩
    · exact ⟨row, hrow, hnonce, hlive⟩
    · have hkept : row ∈ unexpired c rows :=
        mem_unexpired.mpr ⟨hrow, Std.lt_of_le_of_lt (String.not_lt.mp (replayTimestamps_le htimes ht hle)) hlive⟩
      rcases hrows with ⟨-, rfl⟩ | ⟨-, rfl, -⟩
      · exact ⟨row, hkept, hnonce, hlive⟩
      · exact ⟨row, List.mem_append_left _ hkept, hnonce, hlive⟩
  records := by
    rintro rows rows' storage nonce now b m h ⟨row, hrow, rfl⟩
    rcases storeGuard_cases h with ⟨-, rfl⟩ | ⟨c, e, -, ⟨-, rfl⟩ | ⟨hb, rfl, -⟩⟩
    · exact Or.inl ⟨row, hrow, rfl⟩
    · exact Or.inl ⟨row, (mem_unexpired.mp hrow).1, rfl⟩
    · rcases List.mem_append.mp hrow with hrow | hrow
      · exact Or.inl ⟨row, (mem_unexpired.mp hrow).1, rfl⟩
      · exact Or.inr ⟨hb, by rw [List.mem_singleton.mp hrow]⟩
  same_mono hsame hle u hu := hsame u (hle.trans hu)
  same_check := by
    intro now t rows rows' hsame hle storage nonce
    cases storage with
    | false => exact ⟨rfl, fun u hu => hsame u (hle.trans hu)⟩
    | true =>
      have hrun := @consumeReplayNonce_congr nonce t rows rows' (hsame t hle)
      have hlater : ∀ u : Int64, t.toInt ≤ u.toInt → ∀ c e, replayTimestamps u = .ok (c, e) →
          unexpired c rows = unexpired c rows' := fun u hu => hsame u (hle.trans hu)
      simp only [storeGuard, if_true, Tx.commit, ← hrun]
      cases (consumeReplayNonce nonce t).run rows with
      | error e => exact ⟨rfl, hlater⟩
      | ok r => exact ⟨rfl, fun _ _ _ _ _ => rfl⟩
  same_of_refused := by
    intro rows rows' storage nonce now h t hle ct et ht
    rcases storeGuard_cases h with ⟨-, rfl⟩ | ⟨c, e, htimes, ⟨-, rfl⟩ | ⟨hb, -⟩⟩
    · rfl
    · exact unexpired_unexpired htimes ht hle
    · cases hb

end AgentVoice.Auth

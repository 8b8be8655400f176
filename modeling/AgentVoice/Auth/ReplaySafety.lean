import AgentVoice.Auth.Request

/-!
# Replay safety

Runs of `verify_request` against one replay guard. For a lawful guard and a clock that does not run
backwards, a signed request is accepted at most once, a nonce is recorded only by a call whose HMAC
verified, and a rejected call is invisible to the calls after it (`replaySafe_of_lawful`).

An accepted request can only come back while its timestamp is inside the clock-skew window, so at
most 120 seconds after it was accepted; its nonce is reserved for 300. The in-memory guard keeps that
promise at every time but `i64::MAX`, where its saturated expiry has already passed: there the same
request is accepted twice (`inMemory_accepts_twice`).
-/

namespace AgentVoice.Auth

open AgentVoice.Foundations AgentVoice.Store

/-- One call of `verify_request`. -/
structure Call where
  /-- Whether the guard's storage answers. -/
  storage : Bool
  secret : ByteArray
  request : SignedRequest
  now : Int64

section Runs

variable {γ : Type} (crypto : Crypto) (guard : ReplayGuard γ)

/-- The call, from a guard state. -/
def Call.verify (c : Call) (g : γ) : Except AuthError Unit × γ :=
  verifyRequest crypto guard c.storage c.secret c.request c.now g

/-- The guard state after a run. -/
def guardAfter : List Call → γ → γ
  | [], g => g
  | c :: cs, g => guardAfter cs (c.verify crypto guard g).2

/-- The answers of a run. -/
def outcomes : List Call → γ → List (Except AuthError Unit)
  | [], _ => []
  | c :: cs, g => (c.verify crypto guard g).1 :: outcomes cs (c.verify crypto guard g).2

/-- The calls of a run that were accepted. -/
def acceptedCalls : List Call → γ → List Call
  | [], _ => []
  | c :: cs, g =>
    match (c.verify crypto guard g).1 with
    | .ok _ => c :: acceptedCalls cs (c.verify crypto guard g).2
    | .error _ => acceptedCalls cs (c.verify crypto guard g).2

/-- The clock of a run does not run backwards. -/
def ClockForward (calls : List Call) : Prop := calls.Pairwise fun a b => a.now.toInt ≤ b.now.toInt

/-- What replay safety says about a run from the guard state `g`. -/
structure ReplaySafe (nonces : γ → Set String) (calls : List Call) (g : γ) : Prop where
  /-- No signed request is accepted twice. -/
  once : (acceptedCalls crypto guard calls g).Pairwise fun a b => a.request ≠ b.request
  /-- A nonce is consumed only by a call whose HMAC verified. -/
  consumed : ∀ nonce ∈ nonces (guardAfter crypto guard calls g),
    nonce ∈ nonces g ∨ ∃ c ∈ calls, Verified crypto c.secret c.request nonce
  /-- A rejected call leaves the later answers as they were. -/
  rejected : ∀ before c after, calls = before ++ c :: after →
    ∀ e, (c.verify crypto guard (guardAfter crypto guard before g)).1 = .error e →
      outcomes crypto guard after (c.verify crypto guard (guardAfter crypto guard before g)).2 =
        outcomes crypto guard after (guardAfter crypto guard before g)

variable {crypto guard}

/-- A call either stops before the guard, or asks it about the nonce of a verified request. -/
theorem verify_cases (c : Call) (g : γ) :
    (∃ e, c.verify crypto guard g = (.error e, g)) ∨
      ∃ nonce, authenticate crypto c.secret c.request c.now = .ok nonce ∧
        c.verify crypto guard g =
          (if (guard.checkAndRecord c.storage nonce c.now g).1 then .ok () else .error .nonceReplay,
            (guard.checkAndRecord c.storage nonce c.now g).2) := by
  unfold Call.verify verifyRequest
  cases authenticate crypto c.secret c.request c.now with
  | error e => exact Or.inl ⟨e, rfl⟩
  | ok nonce => exact Or.inr ⟨nonce, rfl, rfl⟩

/-- An accepted call, with the calls before it. -/
theorem exists_of_mem_acceptedCalls {c : Call} {cs : List Call} {g : γ}
    (h : c ∈ acceptedCalls crypto guard cs g) :
    ∃ before after, cs = before ++ c :: after ∧
      (c.verify crypto guard (guardAfter crypto guard before g)).1 = .ok () := by
  induction cs generalizing g with
  | nil => simp [acceptedCalls] at h
  | cons d cs ih =>
    rw [acceptedCalls] at h
    cases hd : (d.verify crypto guard g).1 with
    | error e =>
      rw [hd] at h
      obtain ⟨before, after, rfl, hc⟩ := ih h
      exact ⟨d :: before, after, rfl, hc⟩
    | ok u =>
      rw [hd] at h
      rcases List.mem_cons.mp h with rfl | h
      · exact ⟨[], cs, rfl, hd⟩
      · obtain ⟨before, after, rfl, hc⟩ := ih h
        exact ⟨d :: before, after, rfl, hc⟩

/-- Two calls with the same request that both pass the checks before the guard carry the same nonce,
and are less than the retention time apart. -/
theorem same_request {c d : Call} {nonce nonce' : String} (hreq : c.request = d.request)
    (hc : authenticate crypto c.secret c.request c.now = .ok nonce)
    (hd : authenticate crypto d.secret d.request d.now = .ok nonce') :
    nonce = nonce' ∧ d.now.toInt < c.now.toInt + replayRetentionSeconds := by
  obtain ⟨⟨hn, -⟩, ts, hts, hskew⟩ := authenticate_eq_ok hc
  obtain ⟨⟨hn', -⟩, ts', hts', hskew'⟩ := authenticate_eq_ok hd
  rw [hreq] at hn hts
  obtain rfl := Option.some.inj (hts.symm.trans hts')
  refine ⟨Option.some.inj (hn.symm.trans hn'), ?_⟩
  simp only [maxClockSkewSeconds, replayRetentionSeconds] at *
  omega

variable {reliable : Int64 → Prop} (law : LawfulReplayGuard guard reliable)
include law

/-- A reservation survives one call at or before the reserved time. -/
theorem reserved_verify {c : Call} {g : γ} {nonce : String} {t : Int64} (hle : c.now.toInt ≤ t.toInt)
    (h : law.Reserved g nonce t) : law.Reserved (c.verify crypto guard g).2 nonce t := by
  rcases verify_cases c g with ⟨e, he⟩ | ⟨m, -, hm⟩
  · rw [he]
    exact h
  · rw [hm]
    exact law.keeps rfl hle h

/-- A reservation survives a run up to the reserved time. -/
theorem reserved_guardAfter {cs : List Call} {g : γ} {nonce : String} {t : Int64}
    (hle : ∀ c ∈ cs, c.now.toInt ≤ t.toInt) (h : law.Reserved g nonce t) :
    law.Reserved (guardAfter crypto guard cs g) nonce t := by
  induction cs generalizing g with
  | nil => exact h
  | cons c cs ih =>
    exact ih (fun d hd => hle d (List.mem_cons_of_mem _ hd)) (reserved_verify law (hle c (by simp)) h)

/-- An accepted call reserves its nonce for every reliable time at which its request could come
back. -/
theorem reserved_of_accepted {c : Call} {g : γ} (h : (c.verify crypto guard g).1 = .ok ()) :
    ∃ nonce, authenticate crypto c.secret c.request c.now = .ok nonce ∧
      ∀ t : Int64, c.now.toInt ≤ t.toInt → t.toInt < c.now.toInt + replayRetentionSeconds → reliable t →
        law.Reserved (c.verify crypto guard g).2 nonce t := by
  rcases verify_cases c g with ⟨e, he⟩ | ⟨nonce, hauth, hverify⟩
  · rw [he] at h
    cases h
  · refine ⟨nonce, hauth, fun t h1 h2 h3 => ?_⟩
    rw [hverify] at h ⊢
    cases hfresh : (guard.checkAndRecord c.storage nonce c.now g).1 with
    | false => simp [hfresh] at h
    | true => exact law.reserves (Prod.ext hfresh rfl) h1 h2 h3

/-- A request that is reserved is not accepted. -/
theorem not_accepted_of_reserved {c : Call} {g : γ} {nonce : String}
    (hauth : authenticate crypto c.secret c.request c.now = .ok nonce) (h : law.Reserved g nonce c.now) :
    (c.verify crypto guard g).1 ≠ .ok () := by
  rcases @verify_cases γ crypto guard c g with ⟨e, he⟩ | ⟨m, hm, hverify⟩
  · simp [he]
  · obtain rfl := Except.ok.inj (hauth.symm.trans hm)
    simp [hverify, law.refuses h]

/-- **No replay.** With a clock that does not run backwards and shows reliable times only, no signed
request is accepted twice. -/
theorem accepted_once {calls : List Call} (hclock : ClockForward calls) (hreliable : ∀ c ∈ calls, reliable c.now)
    (g : γ) : (acceptedCalls crypto guard calls g).Pairwise fun a b => a.request ≠ b.request := by
  induction calls generalizing g with
  | nil => exact List.Pairwise.nil
  | cons c cs ih =>
    obtain ⟨hc, hcs⟩ := List.pairwise_cons.mp hclock
    have hrest := ih hcs (fun d hd => hreliable d (List.mem_cons_of_mem _ hd)) (c.verify crypto guard g).2
    rw [acceptedCalls]
    cases hok : (c.verify crypto guard g).1 with
    | error e => exact hrest
    | ok u =>
      refine List.pairwise_cons.mpr ⟨fun d hd hreq => ?_, hrest⟩
      -- the repetition finds its nonce reserved by the first acceptance
      obtain ⟨before, after, rfl, hdok⟩ := exists_of_mem_acceptedCalls hd
      obtain ⟨nonce, hauth, hreserve⟩ := reserved_of_accepted law hok
      rcases @verify_cases γ crypto guard d
          (guardAfter crypto guard before (c.verify crypto guard g).2) with ⟨e, he⟩ | ⟨nonce', hauth', -⟩
      · rw [he] at hdok
        cases hdok
      · obtain ⟨rfl, hlt⟩ := same_request hreq hauth hauth'
        have hnow := hreserve d.now (hc d (by simp)) hlt (hreliable d (by simp))
        have hle : ∀ b ∈ before, b.now.toInt ≤ d.now.toInt := fun b hb =>
          (List.pairwise_append.mp hcs).2.2 b hb d (by simp)
        exact not_accepted_of_reserved law hauth' (reserved_guardAfter law hle hnow) hdok

/-- Nonces come from verified calls only. -/
theorem consumed_verified (calls : List Call) (g : γ) :
    ∀ nonce ∈ law.nonces (guardAfter crypto guard calls g),
      nonce ∈ law.nonces g ∨ ∃ c ∈ calls, Verified crypto c.secret c.request nonce := by
  induction calls generalizing g with
  | nil => exact fun nonce h => Or.inl h
  | cons c cs ih =>
    intro nonce h
    rcases ih _ nonce h with h | ⟨d, hd, hverified⟩
    · rcases @verify_cases γ crypto guard c g with ⟨e, he⟩ | ⟨m, hauth, hverify⟩
      · rw [he] at h
        exact Or.inl h
      · rw [hverify] at h
        rcases law.records rfl h with h | ⟨-, rfl⟩
        · exact Or.inl h
        · exact Or.inr ⟨c, by simp, (authenticate_eq_ok hauth).1⟩
    · exact Or.inr ⟨d, List.mem_cons_of_mem _ hd, hverified⟩

/-- States that a guard cannot tell apart give the same answers from then on. -/
theorem outcomes_congr {calls : List Call} {now : Int64} {g h : γ} (hclock : ClockForward calls)
    (hafter : ∀ c ∈ calls, now.toInt ≤ c.now.toInt) (hsame : law.Same now g h) :
    outcomes crypto guard calls g = outcomes crypto guard calls h := by
  induction calls generalizing g h now with
  | nil => rfl
  | cons c cs ih =>
    obtain ⟨hc, hcs⟩ := List.pairwise_cons.mp hclock
    have hstep : (c.verify crypto guard g).1 = (c.verify crypto guard h).1 ∧
        law.Same c.now (c.verify crypto guard g).2 (c.verify crypto guard h).2 := by
      unfold Call.verify verifyRequest
      cases authenticate crypto c.secret c.request c.now with
      | error e => exact ⟨rfl, law.same_mono hsame (hafter c (by simp))⟩
      | ok nonce =>
        obtain ⟨h1, h2⟩ := law.same_check hsame (hafter c (by simp)) c.storage nonce
        exact ⟨by simp only [h1], h2⟩
    rw [outcomes, outcomes, hstep.1, ih hcs hc hstep.2]

/-- **A rejected call is invisible** to the calls after it. -/
theorem rejected_invisible {calls : List Call} (hclock : ClockForward calls) (g : γ) :
    ∀ before c after, calls = before ++ c :: after →
      ∀ e, (c.verify crypto guard (guardAfter crypto guard before g)).1 = .error e →
        outcomes crypto guard after (c.verify crypto guard (guardAfter crypto guard before g)).2 =
          outcomes crypto guard after (guardAfter crypto guard before g) := by
  rintro before c after rfl e he
  obtain ⟨-, htail, -⟩ := List.pairwise_append.mp hclock
  obtain ⟨hc, hafter⟩ := List.pairwise_cons.mp htail
  rcases @verify_cases γ crypto guard c (guardAfter crypto guard before g) with
    ⟨e', he'⟩ | ⟨nonce, -, hverify⟩
  · rw [he']
  · rw [hverify] at he ⊢
    cases hfresh : (guard.checkAndRecord c.storage nonce c.now (guardAfter crypto guard before g)).1 with
    | true => simp [hfresh] at he
    | false => exact outcomes_congr law hafter hc (law.same_of_refused (Prod.ext hfresh rfl))

/-- **Replay safety of a lawful guard.** -/
theorem replaySafe_of_lawful {calls : List Call} (hclock : ClockForward calls)
    (hreliable : ∀ c ∈ calls, reliable c.now) (g : γ) : ReplaySafe crypto guard law.nonces calls g where
  once := accepted_once law hclock hreliable g
  consumed := consumed_verified law calls g
  rejected := rejected_invisible law hclock g

end Runs

/-- **Replay safety of request authentication.** In every run with a clock that does not run
backwards, from any guard state: with the store as guard, and with the in-memory guard as long as no
call is made at the largest timestamp, a signed request is accepted at most once, nonces are
consumed only by verified calls, and rejected calls do not change later answers. -/
theorem replay_safety (crypto : Crypto) {calls : List Call} (hclock : ClockForward calls) :
    (∀ rows, ReplaySafe crypto storeGuard (fun rows => {m | ∃ row ∈ rows, row.nonce = m}) calls rows) ∧
      ((∀ c ∈ calls, c.now.toInt < Int64.maxValue.toInt) →
        ∀ g, ReplaySafe crypto InMemoryReplayGuard.guard (fun g => {m | m ∈ g.keys}) calls g) :=
  ⟨fun rows => replaySafe_of_lawful storeLawful hclock (fun _ _ => trivial) rows,
    fun hmax g => replaySafe_of_lawful InMemoryReplayGuard.lawful hclock hmax g⟩

/-! ### The largest timestamp -/

/-- The primitives on the inputs of `lastCall`: the digest of the empty body, and the tag of its
canonical request under the key `k`. -/
def lastCrypto : Crypto where
  sha256 _ := ⟨((decodeHex "e3b0c44298fc1c149afbf4c8996fb92427ae41e4649b934ca495991b7852b855".toList).getD []).toArray⟩
  hmacVerify key message tag :=
    key == "k".toUTF8 &&
      message == "GET\n/\n9223372036854775807\n0123456789abcdef\ne3b0c44298fc1c149afbf4c8996fb92427ae41e4649b934ca495991b7852b855".toUTF8 &&
      lowerHex tag == "a9956d85e5ab07621a8cdad53c3423fb4660f35d858b74b3b5f0937a177c85a9"

/-- A correctly signed request at the largest timestamp. -/
def lastCall : Call where
  storage := true
  secret := "k".toUTF8
  request :=
    { method := "get"
      pathAndQuery := "/"
      timestampHeader := "9223372036854775807".toUTF8
      nonceHeader := "0123456789abcdef".toUTF8
      signatureHeader := "a9956d85e5ab07621a8cdad53c3423fb4660f35d858b74b3b5f0937a177c85a9".toUTF8
      body := ByteArray.empty }
  now := Int64.maxValue

/-- **At the largest timestamp the in-memory guard accepts a request twice**: the expiry of the first
acceptance saturates at that timestamp and counts as passed. -/
theorem inMemory_accepts_twice :
    ClockForward [lastCall, lastCall] ∧
      ¬ ReplaySafe lastCrypto InMemoryReplayGuard.guard (fun g => {m | m ∈ g.keys}) [lastCall, lastCall]
        (InMemoryReplayGuard.new 4096) := by
  refine ⟨by simp [ClockForward], fun h => ?_⟩
  have honce := h.once
  have hlength : (acceptedCalls lastCrypto InMemoryReplayGuard.guard [lastCall, lastCall]
      (InMemoryReplayGuard.new 4096)).length = 2 := by decide +kernel
  have hlast : ∀ c ∈ acceptedCalls lastCrypto InMemoryReplayGuard.guard [lastCall, lastCall]
      (InMemoryReplayGuard.new 4096), c = lastCall := by
    intro c hc
    obtain ⟨before, after, hsplit, -⟩ := exists_of_mem_acceptedCalls hc
    have hmem : c ∈ [lastCall, lastCall] := hsplit ▸ List.mem_append_right before List.mem_cons_self
    simpa using hmem
  obtain ⟨a, b, heq⟩ := List.length_eq_two.mp hlength
  rw [heq] at honce hlast
  have ha := hlast a List.mem_cons_self
  have hb := hlast b (List.mem_cons_of_mem _ List.mem_cons_self)
  exact (List.pairwise_cons.mp honce).1 b List.mem_cons_self (by rw [ha, hb])

/-- One second earlier the repetition is refused, by either guard. -/
theorem replay_safety_before_last :
    ReplaySafe lastCrypto storeGuard (fun rows => {m | ∃ row ∈ rows, row.nonce = m})
        [⟨true, lastCall.secret, lastCall.request, Int64.maxValue - 1⟩,
          ⟨true, lastCall.secret, lastCall.request, Int64.maxValue - 1⟩] [] ∧
      ReplaySafe lastCrypto InMemoryReplayGuard.guard (fun g => {m | m ∈ g.keys})
        [⟨true, lastCall.secret, lastCall.request, Int64.maxValue - 1⟩,
          ⟨true, lastCall.secret, lastCall.request, Int64.maxValue - 1⟩] (InMemoryReplayGuard.new 4096) :=
  ⟨(replay_safety lastCrypto (by simp [ClockForward])).1 [],
    (replay_safety lastCrypto (by simp [ClockForward])).2 (by simp; decide) (InMemoryReplayGuard.new 4096)⟩

end AgentVoice.Auth

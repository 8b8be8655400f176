import AgentVoice.PaService.Service
import AgentVoice.Store.DraftDeletion
import Mathlib

/-!
# The instant of a submission

A submission is kept with whole seconds. `canonicalize_submission_timestamp` truncates the instant at which a quote was
found valid, and carries it to the next second where the quote was issued within the truncated one. What it returns is
again within the validity of the quote, so that `submit_appointment_quote` accepts it.
-/

namespace AgentVoice.PaService

open AgentVoice.Foundations AgentVoice.Domain AgentVoice.Store

/-- `canonicalize_submission_timestamp`. -/
def canonicalizeSubmissionTimestamp (validationNow issuedAt expiresAt : OffsetDateTime) : ServiceResult OffsetDateTime :=
  let durableNow := canonicalizeUtcSecond validationNow
  if issuedAt.unixNanos ≤ durableNow.unixNanos then .ok durableNow
  else do
    let nextSecond ← okOr (durableNow.checkedAdd second) (.availability .dateTimeOverflow)
    require (¬ expiresAt.unixNanos ≤ nextSecond.unixNanos) (.store (.conflict "appointment quote"))
    return nextSecond

/-- What a submission wants of its instant: a whole UTC second within the validity of the quote, less than a second away
from the instant at which the quote was found valid. -/
structure SubmittableAt (quote : Quote) (now t : OffsetDateTime) : Prop where
  whole : t.nanosecond = 0
  utc : t.offsetSeconds = 0
  valid : quote.ValidAt t
  near : |t.unixNanos - now.unixNanos| < second

section Truncation

variable {quote : Quote} {now : OffsetDateTime}

theorem canonicalizeUtcSecond_le (now : OffsetDateTime) : (canonicalizeUtcSecond now).unixNanos ≤ now.unixNanos :=
  Int.ediv_mul_le now.unixNanos (by decide)

theorem lt_canonicalizeUtcSecond (now : OffsetDateTime) :
    now.unixNanos < (canonicalizeUtcSecond now).unixNanos + second := by
  have hlt := Int.lt_ediv_add_one_mul_self now.unixNanos (show (0 : ℤ) < second by decide)
  rw [add_mul, one_mul] at hlt
  exact hlt

/-- The truncated instant, where the quote was issued before it. -/
theorem submittableAt_truncated (hvalid : quote.ValidAt now)
    (hissued : quote.issuedAt.unixNanos ≤ (canonicalizeUtcSecond now).unixNanos) :
    SubmittableAt quote now (canonicalizeUtcSecond now) := by
  have hle := canonicalizeUtcSecond_le now
  have hlt := lt_canonicalizeUtcSecond now
  refine ⟨canonicalizeUtcSecond_nanosecond now, rfl, ⟨hissued, hle.trans_lt hvalid.2⟩, ?_⟩
  rw [abs_lt]
  omega

/-- The next second, where the quote was issued within the truncated one: the quote is valid for longer than a second. -/
theorem submittableAt_carried (hvalid : quote.ValidAt now)
    (hissued : ¬ quote.issuedAt.unixNanos ≤ (canonicalizeUtcSecond now).unixNanos) :
    SubmittableAt quote now ⟨(canonicalizeUtcSecond now).unixNanos + second, 0⟩ := by
  have hle := canonicalizeUtcSecond_le now
  have hlt := lt_canonicalizeUtcSecond now
  obtain ⟨hfrom, -⟩ := hvalid
  have hwhole : ((canonicalizeUtcSecond now).unixNanos + second) % second = 0 := by
    rw [Int.add_emod_right]
    exact canonicalizeUtcSecond_nanosecond now
  have hlonger : second ≤ Quote.validFor := by decide
  have hexpires : quote.expiresAt.unixNanos = quote.issuedAt.unixNanos + Quote.validFor := rfl
  refine ⟨hwhole, rfl, ⟨?_, ?_⟩, ?_⟩
  · show quote.issuedAt.unixNanos ≤ (canonicalizeUtcSecond now).unixNanos + second
    omega
  · show (canonicalizeUtcSecond now).unixNanos + second < quote.expiresAt.unixNanos
    omega
  · rw [abs_lt]
    dsimp only
    omega

end Truncation

/-- **Every instant within the validity of a quote gives one that can be submitted**, and the check of
`submit_appointment_quote` accepts it. -/
theorem canonicalizeSubmissionTimestamp_submittable (quote : Quote) (now : OffsetDateTime) (hvalid : quote.ValidAt now)
    (hnow : now.toUtc.InRange) (hexpires : quote.expiresAt.toUtc.InRange) :
    ∃ t, canonicalizeSubmissionTimestamp now quote.issuedAt quote.expiresAt = .ok t ∧ SubmittableAt quote now t ∧
      ∀ db, (ensureQuoteValidAt quote t).run db = .ok ((), db) := by
  have haccepts : ∀ t, quote.ValidAt t → ∀ db, (ensureQuoteValidAt quote t).run db = .ok ((), db) := by
    intro t ht db
    rw [ensureQuoteValidAt, Tx.ensure_bind_eq_ok_iff, Tx.run_ensure_eq_ok_iff]
    exact ⟨not_lt.mpr ht.1, not_le.mpr ht.2, rfl⟩
  by_cases hissued : quote.issuedAt.unixNanos ≤ (canonicalizeUtcSecond now).unixNanos
  · have ht := submittableAt_truncated hvalid hissued
    exact ⟨_, if_pos hissued, ht, haccepts _ ht.valid⟩
  · have ht := submittableAt_carried hvalid hissued
    have hadd : (canonicalizeUtcSecond now).checkedAdd second =
        some ⟨(canonicalizeUtcSecond now).unixNanos + second, 0⟩ := by
      refine OffsetDateTime.checkedAdd_eq_some_iff.mpr ⟨rfl, ?_⟩
      have hafter := lt_canonicalizeUtcSecond now
      have hbefore := ht.valid.2
      simp only [OffsetDateTime.InRange, OffsetDateTime.toUtc, zero_mul, add_zero] at hnow hexpires hbefore ⊢
      omega
    refine ⟨_, ?_, ht, haccepts _ ht.valid⟩
    rw [canonicalizeSubmissionTimestamp, if_neg hissued, hadd]
    have hbefore : ¬ quote.expiresAt.unixNanos ≤ (canonicalizeUtcSecond now).unixNanos + second := not_le.mpr ht.valid.2
    simp only [okOr, ok_bind, require_of hbefore]
    rfl

/-- A quote issued half a second after the hour. -/
def fractionalQuote : Quote := ⟨someQuoteId, ⟨3600500000000, 0⟩⟩

/-- Found valid two tenths of a second later, it is submitted at the next second. -/
theorem canonicalizeSubmissionTimestamp_fractional :
    ∃ t, canonicalizeSubmissionTimestamp ⟨3600700000000, 0⟩ fractionalQuote.issuedAt fractionalQuote.expiresAt = .ok t ∧
      SubmittableAt fractionalQuote ⟨3600700000000, 0⟩ t ∧
      ∀ db, (ensureQuoteValidAt fractionalQuote t).run db = .ok ((), db) :=
  canonicalizeSubmissionTimestamp_submittable fractionalQuote ⟨3600700000000, 0⟩ (by decide) (by decide) (by decide)

end AgentVoice.PaService

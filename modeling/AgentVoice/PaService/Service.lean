import AgentVoice.Availability.Policy
import AgentVoice.Foundations.Saga
import AgentVoice.Providers.Values
import AgentVoice.Store.Delivery

/-!
# Services of the personal assistant

The errors of `src/pa/service.rs`, and its operations as sagas on the store. What else changes the store while a saga
runs is a call of the store's own, such as a worker's that delivers notifications.
-/

namespace AgentVoice.PaService

open AgentVoice.Foundations AgentVoice.Domain AgentVoice.Providers AgentVoice.Availability AgentVoice.Store

/-- `ServiceError`. -/
inductive ServiceError where
  | invalidInput (field : String)
  | availability (error : AvailabilityError)
  | outlookCalendar (error : ProviderError)
  | googleCalendar (error : ProviderError)
  | store (error : StoreError)
  | domain (error : DomainError)
  | ownerNotConfigured
  | noAvailability
  deriving DecidableEq, Repr

/-- `ServiceResult`. -/
abbrev ServiceResult := Except ServiceError

theorem mapError_eq_ok_iff {ε δ α : Type} {f : ε → δ} {r : Except ε α} {a : α} : r.mapError f = .ok a ↔ r = .ok a := by
  cases r with
  | ok b =>
    rw [Except.mapError, Except.ok.injEq, Except.ok.injEq]
  | error e =>
    constructor <;> intro h <;> cases h

/-- An operation of the service; its clock is the one the store reads. -/
abbrev Operation (θ ρ α : Type) := Saga SystemTime StoreError Database θ ρ ServiceError α

/-- `canonicalize_utc_second`. -/
def canonicalizeUtcSecond (value : OffsetDateTime) : OffsetDateTime := ⟨value.unixTimestamp * second, 0⟩

theorem canonicalizeUtcSecond_nanosecond (value : OffsetDateTime) : (canonicalizeUtcSecond value).nanosecond = 0 :=
  Int.mul_emod_left _ _

example : canonicalizeUtcSecond ⟨1500000000, 3600⟩ = ⟨1000000000, 0⟩ := by decide +kernel

end AgentVoice.PaService

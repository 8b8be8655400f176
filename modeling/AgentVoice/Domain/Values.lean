import AgentVoice.Foundations.Result
import AgentVoice.Foundations.Rfc3339
import AgentVoice.Foundations.Text

/-!
# Domain values

The values of `src/pa/domain.rs`. A value that its constructor validates carries what was validated:
an idempotency key and a name are trimmed and not blank, an e-mail address has the shape that
`is_valid_email` accepts, a duration is positive. Validating the text of such a value again gives the
value back (`IdempotencyKey.new_text`), which is what reading it from the store relies on.
-/

namespace AgentVoice.Domain

open AgentVoice.Foundations

/-- The `DomainError`s of the modelled constructors. -/
inductive DomainError where
  | blankRequiredField (field : String)
  | invalidEmail
  | zeroDuration (field : String)
  deriving DecidableEq, Repr

/-- `AppointmentKind`. -/
inductive AppointmentKind where
  | callback | meeting
  deriving DecidableEq, Repr

/-- `duration_minutes`. -/
def AppointmentKind.durationMinutes : AppointmentKind → ℕ
  | .callback => 15
  | .meeting => 30

/-- `requester_included_by_default`. -/
def AppointmentKind.requesterIncludedByDefault (k : AppointmentKind) : Bool := k == .meeting

/-- `TaskKind`. -/
inductive TaskKind where
  | bill | callback | reading | emailReply | preparation
  deriving DecidableEq, Repr

/-- `duration_minutes`. -/
def TaskKind.durationMinutes : TaskKind → ℕ
  | .bill | .callback => 15
  | .reading | .emailReply => 30
  | .preparation => 60

/-- `ProposalState`. -/
inductive ProposalState where
  | pending | accepted | declined | expired
  deriving DecidableEq, Repr

namespace ProposalState

/-- `is_terminal`. -/
def isTerminal (s : ProposalState) : Bool := s != .pending

/-- `can_transition_to`. -/
def canTransitionTo : ProposalState → ProposalState → Bool
  | .pending, .accepted | .pending, .declined | .pending, .expired => true
  | _, _ => false

theorem canTransitionTo_iff {s t : ProposalState} :
    s.canTransitionTo t = true ↔ s = .pending ∧ t.isTerminal = true := by
  cases s <;> cases t <;> decide

end ProposalState

/-! ### Idempotency keys -/

/-- `IdempotencyKey`. -/
@[ext]
structure IdempotencyKey where
  text : String
  trimmed : trim text = text
  not_blank : ¬ IsBlank text
  deriving DecidableEq

namespace IdempotencyKey

/-- `IdempotencyKey::new`. -/
def new (value : String) : Except DomainError IdempotencyKey :=
  if h : IsBlank value then .error (.blankRequiredField "idempotency_key")
  else .ok ⟨trim value, trim_trim value, not_isBlank_trim h⟩

theorem new_eq_ok_iff {value : String} {k : IdempotencyKey} :
    new value = .ok k ↔ ¬ IsBlank value ∧ k.text = trim value := by
  unfold new
  by_cases h : IsBlank value
  · simp [h]
  · rw [dif_neg h, Except.ok.injEq, IdempotencyKey.ext_iff, eq_comm]
    simp [h]

@[simp] theorem new_text (k : IdempotencyKey) : new k.text = .ok k :=
  new_eq_ok_iff.mpr ⟨k.not_blank, k.trimmed.symm⟩

end IdempotencyKey

/-! ### E-mail addresses and identities -/

/-- `is_valid_email`. -/
def isValidEmail (value : String) : Bool :=
  let cs := value.toList
  !cs.isEmpty && trim value == value && !cs.any isWhitespace &&
    cs.all (fun c => isAsciiAlphanumeric c || ['@', '.', '_', '-', '+'].contains c) &&
    match cs.splitOn '@' with
    | [localPart, domain] =>
      !localPart.isEmpty && !domain.isEmpty && localPart.head? != some '.' && localPart.getLast? != some '.' &&
        domain.head? != some '.' && domain.getLast? != some '.' && domain.contains '.' &&
        !(domain.splitOn '.').any List.isEmpty
    | _ => false

/-- `ConfirmedEmail`. -/
structure ConfirmedEmail where
  value : String
  valid : isValidEmail value = true
  deriving DecidableEq

/-- `ConfirmedEmail::confirm`. -/
def ConfirmedEmail.confirm (value : String) : Except DomainError ConfirmedEmail :=
  if h : isValidEmail value = true then .ok ⟨value, h⟩ else .error .invalidEmail

theorem ConfirmedEmail.confirm_eq_ok_iff {value : String} {e : ConfirmedEmail} :
    ConfirmedEmail.confirm value = .ok e ↔ e.value = value := by
  unfold ConfirmedEmail.confirm
  constructor
  · intro h
    split at h
    · cases h
      rfl
    · cases h
  · rintro rfl
    exact dif_pos e.valid

/-- `CallerIdentity`. -/
@[ext]
structure CallerIdentity where
  name : String
  email : ConfirmedEmail
  name_trimmed : trim name = name
  name_not_blank : ¬ IsBlank name
  deriving DecidableEq

/-- `CallerIdentity::new`. -/
def CallerIdentity.new (name : String) (email : ConfirmedEmail) : Except DomainError CallerIdentity :=
  if h : IsBlank name then .error (.blankRequiredField "name")
  else .ok ⟨trim name, email, trim_trim name, fun hb => h ((isBlank_trim name).mp hb)⟩

theorem CallerIdentity.new_eq_ok_iff {name : String} {email : ConfirmedEmail} {c : CallerIdentity} :
    CallerIdentity.new name email = .ok c ↔ ¬ IsBlank name ∧ c.name = trim name ∧ c.email = email := by
  unfold CallerIdentity.new
  by_cases h : IsBlank name
  · simp [h]
  · rw [dif_neg h, Except.ok.injEq, CallerIdentity.ext_iff]
    simp [h, eq_comm]

/-! ### Durations -/

/-- Nanoseconds in a minute. -/
def minute : ℤ := 60 * second

/-- `DurationMinutes`: a positive `u32`. -/
@[ext]
structure DurationMinutes where
  minutes : ℕ
  pos : 0 < minutes
  fits : minutes < 2 ^ 32
  deriving DecidableEq

/-- `DurationMinutes::new`. -/
def DurationMinutes.new (minutes : ℕ) (fits : minutes < 2 ^ 32) : Except DomainError DurationMinutes :=
  if h : 0 < minutes then .ok ⟨minutes, h, fits⟩ else .error (.zeroDuration "duration")

/-- `as_duration`, in nanoseconds. -/
def DurationMinutes.asDuration (d : DurationMinutes) : ℤ := d.minutes * minute

end AgentVoice.Domain

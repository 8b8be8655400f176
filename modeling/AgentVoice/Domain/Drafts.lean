import AgentVoice.Domain.Values

/-!
# Quotes and drafts

The quotes, offered slots, appointment drafts and owner task drafts of `src/pa/domain.rs`. The end of a
quote's validity and of an appointment follow from its start. Two drafts are equal when they agree on every
field, instants compared as `OffsetDateTime` compares them (`AppointmentDraft.Same`, `OwnerTaskDraft.Same`).
-/

namespace AgentVoice.Domain

open AgentVoice.Foundations

/-! ### Quotes -/

/-- Whether a text is a UUID as `Uuid::to_string` writes it: lower case, in groups of 8, 4, 4, 4 and 12. -/
def isCanonicalUuid (value : String) : Bool :=
  (value.toList.splitOn '-').map List.length == [8, 4, 4, 4, 12] &&
    value.toList.all fun c => ('0' ≤ c && c ≤ '9') || ('a' ≤ c && c ≤ 'f') || c == '-'

/-- `QuoteId`, by its text. -/
@[ext]
structure QuoteId where
  text : String
  canonical : isCanonicalUuid text = true
  deriving DecidableEq

/-- Parses a UUID that is written as `Uuid::to_string` writes it. -/
def QuoteId.parse {ε : Type} (value : String) (error : ε) : Except ε QuoteId :=
  if h : isCanonicalUuid value = true then .ok ⟨value, h⟩ else .error error

theorem QuoteId.parse_eq_ok_iff {ε : Type} {value : String} {error : ε} {q : QuoteId} :
    QuoteId.parse value error = .ok q ↔ q.text = value := by
  unfold QuoteId.parse
  constructor
  · intro h
    split at h
    · cases h
      rfl
    · cases h
  · rintro rfl
    exact dif_pos q.canonical

/-- `Quote`. -/
structure Quote where
  id : QuoteId
  issuedAt : OffsetDateTime
  deriving DecidableEq

namespace Quote

/-- `VALID_FOR`, in nanoseconds. -/
def validFor : ℤ := 5 * minute

/-- `expires_at`. -/
def expiresAt (q : Quote) : OffsetDateTime := ⟨q.issuedAt.unixNanos + validFor, q.issuedAt.offsetSeconds⟩

/-- Whether an instant lies in the half-open validity interval. -/
def ValidAt (q : Quote) (now : OffsetDateTime) : Prop :=
  q.issuedAt.unixNanos ≤ now.unixNanos ∧ now.unixNanos < q.expiresAt.unixNanos

instance (q : Quote) (now : OffsetDateTime) : Decidable (q.ValidAt now) := inferInstanceAs (Decidable (_ ∧ _))

/-- `==` on quotes. -/
def Same (q r : Quote) : Prop := q.id = r.id ∧ q.issuedAt.Same r.issuedAt

instance (q r : Quote) : Decidable (q.Same r) := inferInstanceAs (Decidable (_ ∧ _))

end Quote

/-- `AppointmentSlot`. -/
structure AppointmentSlot where
  startsAt : OffsetDateTime
  endsAt : OffsetDateTime
  ordered : startsAt.unixNanos < endsAt.unixNanos
  deriving DecidableEq

namespace AppointmentSlot

/-- `AppointmentSlot::new`, with the error of the caller. -/
def new {ε : Type} (startsAt endsAt : OffsetDateTime) (error : ε) : Except ε AppointmentSlot :=
  if h : startsAt.unixNanos < endsAt.unixNanos then .ok ⟨startsAt, endsAt, h⟩ else .error error

/-- `duration`, in nanoseconds. -/
def duration (s : AppointmentSlot) : ℤ := s.endsAt.unixNanos - s.startsAt.unixNanos

/-- The instants of a slot. -/
def interval (s : AppointmentSlot) : ℤ × ℤ := (s.startsAt.unixNanos, s.endsAt.unixNanos)

theorem new_eq_ok_iff {ε : Type} {startsAt endsAt : OffsetDateTime} {error : ε} {s : AppointmentSlot} :
    new startsAt endsAt error = .ok s ↔ s.startsAt = startsAt ∧ s.endsAt = endsAt := by
  unfold new
  constructor
  · intro h
    split at h
    · cases h
      exact ⟨rfl, rfl⟩
    · cases h
  · rintro ⟨rfl, rfl⟩
    exact dif_pos s.ordered

end AppointmentSlot

/-- `duration` of an appointment kind, in nanoseconds. -/
def AppointmentKind.duration (k : AppointmentKind) : ℤ := k.durationMinutes * minute

theorem AppointmentKind.duration_pos (k : AppointmentKind) : 0 < k.duration := by
  cases k <;> decide

/-! ### Drafts -/

/-- `AppointmentDraft`. -/
structure AppointmentDraft where
  quoteId : QuoteId
  caller : CallerIdentity
  kind : AppointmentKind
  startsAt : OffsetDateTime
  requesterIncluded : Bool
  idempotencyKey : IdempotencyKey
  deriving DecidableEq

namespace AppointmentDraft

/-- `ends_at`. -/
def endsAt (d : AppointmentDraft) : OffsetDateTime :=
  ⟨d.startsAt.unixNanos + d.kind.duration, d.startsAt.offsetSeconds⟩

/-- `==` on appointment drafts. -/
def Same (d e : AppointmentDraft) : Prop :=
  d.quoteId = e.quoteId ∧ d.caller = e.caller ∧ d.kind = e.kind ∧ d.startsAt.Same e.startsAt ∧
    d.endsAt.Same e.endsAt ∧ d.requesterIncluded = e.requesterIncluded ∧ d.idempotencyKey = e.idempotencyKey

instance (d e : AppointmentDraft) : Decidable (d.Same e) := inferInstanceAs (Decidable (_ ∧ _))

theorem Same.refl (d : AppointmentDraft) : d.Same d := ⟨rfl, rfl, rfl, rfl, rfl, rfl, rfl⟩

end AppointmentDraft

/-- `OwnerTaskDraft`. -/
@[ext]
structure OwnerTaskDraft where
  kind : TaskKind
  title : String
  duration : DurationMinutes
  dueAt : Option OffsetDateTime
  idempotencyKey : IdempotencyKey
  title_trimmed : trim title = title
  title_not_blank : ¬ IsBlank title

namespace OwnerTaskDraft

instance : DecidableEq OwnerTaskDraft := fun _ _ => decidable_of_iff _ OwnerTaskDraft.ext_iff.symm

/-- `OwnerTaskDraft::with_duration`. -/
def withDuration (kind : TaskKind) (title : String) (durationMinutes : ℕ) (fits : durationMinutes < 2 ^ 32)
    (dueAt : Option OffsetDateTime) (idempotencyKey : IdempotencyKey) : Except DomainError OwnerTaskDraft :=
  if h : IsBlank title then .error (.blankRequiredField "title")
  else do
    let duration ← DurationMinutes.new durationMinutes fits
    return { kind, title := trim title, duration, dueAt, idempotencyKey
             title_trimmed := trim_trim title
             title_not_blank := not_isBlank_trim h }

/-- `==` on owner task drafts. -/
def Same (d e : OwnerTaskDraft) : Prop :=
  d.kind = e.kind ∧ d.title = e.title ∧ d.duration = e.duration ∧
    d.dueAt.map (·.unixNanos) = e.dueAt.map (·.unixNanos) ∧ d.idempotencyKey = e.idempotencyKey

instance (d e : OwnerTaskDraft) : Decidable (d.Same e) := inferInstanceAs (Decidable (_ ∧ _))

theorem Same.refl (d : OwnerTaskDraft) : d.Same d := ⟨rfl, rfl, rfl, rfl, rfl⟩

end OwnerTaskDraft

end AgentVoice.Domain

import AgentVoice.Domain.Values

/-!
# Values at the provider boundary

The values of `src/pa/providers.rs` that services pass to calendar providers and get back from them. Each is built by
a constructor that validates it and carries what was validated.
-/

namespace AgentVoice.Providers

open AgentVoice.Foundations AgentVoice.Domain

/-- `ProviderInputField`. -/
inductive ProviderInputField where
  | accountId | accessToken | sourceId | itemId | nextCursor | timeRange | retryAfter | emailAddress | subject
  | operationKey | label | limit | receivedAt | sentAt | title | taskDuration | dueAt | eventId | timezone
  | lastModifiedAt | changedAt | attendeeRsvp | backupObjectKey | ciphertext | checksum | encryptionMetadata
  | providerVersion | uploadedAt | storedByteCount
  deriving DecidableEq, Repr

/-- `RetryAfter`, in nanoseconds. -/
structure RetryAfter where
  nanos : ℤ
  pos : 0 < nanos
  deriving DecidableEq, Repr

/-- `ProviderError`. -/
inductive ProviderError where
  | invalidInput (field : ProviderInputField)
  | tokenExpired
  | throttled (retryAfter : RetryAfter)
  | cursorExpired
  | notFound
  | conflict
  | unavailable
  deriving DecidableEq, Repr

/-- `ProviderResult`. -/
abbrev ProviderResult := Except ProviderError

/-- `MAX_MAIL_ADDRESS_LENGTH`. -/
def maxMailAddressLength : ℕ := 320

/-- `MailAddress`; `is_valid_mail_address` is the same check as `is_valid_email`. -/
@[ext]
structure MailAddress where
  value : String
  length : byteLength value ≤ maxMailAddressLength
  valid : isValidEmail value = true

instance : DecidableEq MailAddress := fun _ _ => decidable_of_iff _ MailAddress.ext_iff.symm

/-- `MailAddress::new`. -/
def MailAddress.new (value : String) : ProviderResult MailAddress :=
  if h : byteLength value ≤ maxMailAddressLength ∧ isValidEmail value = true then .ok ⟨value, h.1, h.2⟩
  else .error (.invalidInput .emailAddress)

/-! ### Backup object keys -/

/-- `MAX_BACKUP_METADATA_LENGTH`, which is `MAX_PROVIDER_ID_LENGTH`. -/
def maxBackupMetadataLength : ℕ := 256

/-- `validate_backup_text`. -/
def validateBackupText (value : String) (field : ProviderInputField) : ProviderResult String :=
  if IsBlank value ∨ byteLength value > maxBackupMetadataLength ∨ hasControl value then .error (.invalidInput field)
  else .ok value

/-- Whether a part of the text between two slashes is `.` or `..`. -/
def hasDotComponent (value : String) : Bool :=
  (value.toList.splitOn '/').any fun component => component == ['.'] || component == ['.', '.']

/-- `is_valid_backup_object_key`. -/
def isValidBackupObjectKey (value : String) : Bool :=
  !(value.toList.head? == some '/') && (validateBackupText value .backupObjectKey).isOk && !hasDotComponent value

end AgentVoice.Providers

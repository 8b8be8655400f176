import AgentVoice.Auth.Request
import AgentVoice.Callers.Access
import AgentVoice.Callers.Stability
import AgentVoice.PaService.Service

/-!
# Verification of the owner

`OwnerVerified` of `src/pa/service.rs`, the capability that is bound to the key of the caller who has verified. With the
phone book it is what a caller reaches by a caller ID; whether every form of the key reaches the same is decided by the
caller ID that the key was made of (`stable_iff`).
-/

namespace AgentVoice.PaService

open AgentVoice.Foundations AgentVoice.Auth AgentVoice.Callers

/-- `OwnerConfirmation`: an explicit affirmative response of the owner. -/
structure OwnerConfirmation where
  deriving DecidableEq

/-- `OwnerConfirmation::from_explicit_yes`. -/
def OwnerConfirmation.fromExplicitYes (confirmed : Bool) : ServiceResult OwnerConfirmation :=
  okOr (if confirmed then some {} else none) (.invalidInput "owner_confirmation")

/-- `OwnerVerified`. -/
structure OwnerVerified where
  normalizedCaller : String
  fingerprint : String
  verifiedAt : OffsetDateTime
  expiresAt : OffsetDateTime
  deriving DecidableEq

/-- `OWNER_VERIFICATION_VALID_FOR`. -/
def ownerVerificationValidFor : ℤ := 60 * second

/-- `normalize_owner_number`. -/
def normalizeOwnerNumber (raw field : String) : ServiceResult String :=
  okOr (normalizeCallerId raw) (.invalidInput field)

/-- `canonical_owner_time`. -/
def canonicalOwnerTime (value : OffsetDateTime) (field : String) : ServiceResult OffsetDateTime :=
  if value.offsetSeconds ≠ 0 ∨ value.nanosecond ≠ 0 then .error (.invalidInput field) else .ok value

/-- `owner_caller_fingerprint`. -/
def ownerCallerFingerprint (crypto : Crypto) (normalizedCaller : String) : String :=
  lowerHex (crypto.sha256 ("agent_voice_owner_v1\x00".toUTF8 ++ normalizedCaller.toUTF8))

/-- `OwnerVerified::issue`. -/
def OwnerVerified.issue (crypto : Crypto) (configuredOwnerNumber callerNumber : String) (_ : OwnerConfirmation)
    (verifiedAt : OffsetDateTime) : ServiceResult OwnerVerified := do
  let configuredOwnerNumber ← normalizeOwnerNumber configuredOwnerNumber "configured_owner_number"
  let normalizedCaller ← normalizeOwnerNumber callerNumber "caller_number"
  require (configuredOwnerNumber = normalizedCaller) (.invalidInput "owner_binding")
  let verifiedAt ← canonicalOwnerTime verifiedAt "verified_at"
  let expiresAt ← okOr (verifiedAt.checkedAdd ownerVerificationValidFor) (.invalidInput "owner_verification")
  return ⟨normalizedCaller, ownerCallerFingerprint crypto normalizedCaller, verifiedAt, expiresAt⟩

/-- `OwnerVerified::validate_at`. -/
def OwnerVerified.validateAt (verified : OwnerVerified) (callerNumber : String) (now : OffsetDateTime) :
    ServiceResult Unit := do
  let callerNumber ← normalizeOwnerNumber callerNumber "caller_number"
  let now ← canonicalOwnerTime now "now"
  require (callerNumber = verified.normalizedCaller) (.invalidInput "owner_binding")
  require (verified.verifiedAt.unixNanos ≤ now.unixNanos) (.invalidInput "owner_verification")
  require (now.unixNanos < verified.expiresAt.unixNanos) (.invalidInput "owner_verification")

theorem canonicalOwnerTime_eq_ok_iff {value t : OffsetDateTime} {field : String} :
    canonicalOwnerTime value field = .ok t ↔ value.offsetSeconds = 0 ∧ value.nanosecond = 0 ∧ t = value := by
  rw [canonicalOwnerTime]
  split_ifs with h
  · refine iff_of_false nofun ?_
    rintro ⟨hoffset, hnanosecond, -⟩
    exact h.elim (· hoffset) (· hnanosecond)
  · rw [not_or, not_not, not_not] at h
    rw [Except.ok.injEq]
    exact ⟨fun ht => ⟨h.1, h.2, ht.symm⟩, fun ht => ht.2.2.symm⟩

/-! ### The same caller -/

/-- Two caller IDs reach the same: the decision of the phone book, the record that is written, and the capability that
is issued and accepted. -/
structure SameCaller (raw form : String) : Prop where
  key : normalizeCallerId form = normalizeCallerId raw
  decision : ∀ book, inboundAccessDecision book form = inboundAccessDecision book raw
  touched : ∀ now book, step (.touchCaller form now) book = step (.touchCaller raw now) book
  updated : ∀ inserted updated update book,
    step (.mergeUpdate form inserted updated update) book = step (.mergeUpdate raw inserted updated update) book
  configured : ∀ crypto caller confirmation now,
    OwnerVerified.issue crypto form caller confirmation now = OwnerVerified.issue crypto raw caller confirmation now
  issued : ∀ crypto configured confirmation now,
    OwnerVerified.issue crypto configured form confirmation now =
      OwnerVerified.issue crypto configured raw confirmation now
  validated : ∀ (verified : OwnerVerified) now, verified.validateAt form now = verified.validateAt raw now

/-- What a caller ID reaches is reached by its key. -/
theorem SameCaller.of_key {raw form : String} (h : normalizeCallerId form = normalizeCallerId raw) :
    SameCaller raw form where
  key := h
  decision _ := by simp only [inboundAccessDecision, h]
  touched _ _ := by simp only [step, h]
  updated _ _ _ _ := by simp only [step, h]
  configured _ _ _ _ := by simp only [OwnerVerified.issue, normalizeOwnerNumber, h]
  issued _ _ _ _ := by simp only [OwnerVerified.issue, normalizeOwnerNumber, h]
  validated _ _ := by simp only [OwnerVerified.validateAt, normalizeOwnerNumber, h]

/-- The key of a caller ID is its own key, and each of its forms is the same caller. -/
def Stable (raw : String) : Prop :=
  ∀ key, normalizeCallerId raw = some key →
    normalizeCallerId key = some key ∧
      ∀ form, Form key form → normalizeCallerId form = some key ∧ SameCaller raw form

/-- **A key is stable unless it is a word for a withheld number.** -/
theorem stable_iff (raw : String) : Stable raw ↔ ¬ SpellsWithheld raw := by
  constructor
  · intro h hspells
    obtain ⟨hbare, hword⟩ := spellsWithheld_iff.mp hspells
    have hnonempty : String.ofList ((userPart (trimmed raw)).filter isKeyChar) ≠ "" := by
      intro hnil
      exact ne_nil_of_isWithheld hword (String.ofList_injective hnil)
    have hkey := normalizeCallerId_eq_some_iff.mpr ⟨hbare, hnonempty, rfl⟩
    obtain ⟨hne, hchars⟩ := keyChars_of_normalizeCallerId hkey
    have hkept : isWithheld (String.ofList ((userPart (trimmed raw)).filter isKeyChar)).toList = true := by
      rw [String.toList_ofList]
      exact hword
    have hnone := normalizeCallerId_of_isWithheld hne hchars hkept
    exact Option.some_ne_none _ ((h _ hkey).1.symm.trans hnone)
  · intro h key hkey
    obtain ⟨hne, hchars⟩ := keyChars_of_normalizeCallerId hkey
    have hword : ¬ isWithheld key.toList = true := by
      obtain ⟨hbare, -, rfl⟩ := normalizeCallerId_eq_some_iff.mp hkey
      rw [String.toList_ofList]
      exact fun hword => h (spellsWithheld_iff.mpr ⟨hbare, hword⟩)
    refine ⟨normalizeCallerId_of_form .bare hne hchars hword, fun form hform => ?_⟩
    have hform := normalizeCallerId_of_form hform hne hchars hword
    exact ⟨hform, SameCaller.of_key (hform.trans hkey.symm)⟩

/-- An anonymous caller with a URI has a key that is not its own. -/
theorem not_stable : ¬ ∀ raw, Stable raw := by
  intro h
  have hkey : normalizeCallerId "sip:anonymous@host" = some "anonymous" := by decide +kernel
  have hnone : normalizeCallerId "anonymous" = none := by decide +kernel
  have hself := (h _ _ hkey).1
  rw [hnone] at hself
  exact Option.some_ne_none _ hself.symm

end AgentVoice.PaService

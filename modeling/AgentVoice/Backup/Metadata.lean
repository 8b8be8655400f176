import AgentVoice.Backup.Envelope
import AgentVoice.Providers.Values

/-!
# Snapshot metadata

The metadata of an encrypted snapshot (`src/pa/backup/metadata.rs`): `derive_metadata` computes it
from the ciphertext, `to_header` turns it into the header of an envelope, and `verify_header` checks
a header against a ciphertext. The three modules that see a snapshot agree: what is derived can be
encoded, parses as it was and is verified, against this ciphertext alone. SHA-256 is a parameter, a
function to 32 bytes.
-/

namespace AgentVoice.Backup

open AgentVoice.Foundations AgentVoice.Domain AgentVoice.Providers

/-- `ENCRYPTION_FORMAT`. -/
def encryptionFormat : String := "sqlcipher"

/-- `KEY_METADATA`. -/
def keyMetadata : String := "external"

/-- `ENCRYPTION_METADATA`. -/
def encryptionMetadata : String := "sqlcipher-v1"

/-- `SnapshotMetadata`, over the instants of the date library. -/
structure SnapshotMetadata (τ : Type) where
  format : String
  checksum : String
  ciphertextSize : UInt64
  createdAt : τ
  objectKey : String
  encryptionFormat : String
  keyMetadata : String
  encryptionMetadata : String

/-- `MetadataError`. -/
inductive MetadataError where
  | emptyCiphertext
  | invalidTimestamp
  | invalidObjectKey
  | invalidMetadata
  | checksumMismatch
  | sizeMismatch
  deriving DecidableEq, Repr

/-- `valid_object_key`. -/
def validObjectKey (objectKey : String) : Bool :=
  !decide (IsBlank objectKey) && decide (byteLength objectKey ≤ 256) && !hasControl objectKey &&
    !(objectKey.toList.head? == some '/') && !hasDotComponent objectKey

/-- `valid_checksum_shape`. -/
def validChecksumShape (checksum : String) : Bool :=
  byteLength checksum == 64 && checksum.toList.all isLowerHex

section

variable {τ : Type} (chrono : Chrono τ) (sha256 : List UInt8 → List UInt8)

/-- `checksum`. -/
def checksum (ciphertext : List UInt8) : String := lowercaseHex (sha256 ciphertext)

/-- `valid_timestamp`. -/
def validTimestamp (timestamp : String) : Bool :=
  Chrono.endsWithZ timestamp &&
    ((chrono.parseFromRfc3339 timestamp).map fun parsed => chrono.toRfc3339 parsed == timestamp).getD false

/-- `SnapshotMetadata::to_header`. -/
def SnapshotMetadata.toHeader (metadata : SnapshotMetadata τ) : SnapshotHeader where
  format := metadata.format
  checksum := metadata.checksum
  ciphertextSize := metadata.ciphertextSize
  createdAt := chrono.toRfc3339 metadata.createdAt
  objectKey := metadata.objectKey
  encryptionFormat := metadata.encryptionFormat
  keyMetadata := metadata.keyMetadata
  encryptionMetadata := metadata.encryptionMetadata

/-- `derive_metadata`. -/
def deriveMetadata (ciphertext : List UInt8) (createdAt : τ) (objectKey : String) :
    Except MetadataError (SnapshotMetadata τ) := do
  require (ciphertext ≠ []) .emptyCiphertext
  let timestamp := chrono.toRfc3339 createdAt
  require (validTimestamp chrono timestamp) .invalidTimestamp
  require (validObjectKey objectKey) .invalidObjectKey
  let checksum := checksum sha256 ciphertext
  let ciphertextSize ← okOr (u64TryFrom ciphertext.length) .sizeMismatch
  .ok ⟨backupFormat, checksum, ciphertextSize, createdAt, objectKey, encryptionFormat, keyMetadata, encryptionMetadata⟩

/-- `verify_header`. -/
def verifyHeader (header : SnapshotHeader) (ciphertext : List UInt8) : Except MetadataError Unit := do
  require (ciphertext ≠ []) .emptyCiphertext
  let ciphertextSize ← okOr (u64TryFrom ciphertext.length) .sizeMismatch
  require (header.ciphertextSize = ciphertextSize) .sizeMismatch
  require (header.format = backupFormat ∧ header.encryptionFormat = encryptionFormat ∧
    header.keyMetadata = keyMetadata ∧ header.encryptionMetadata = encryptionMetadata ∧
    validChecksumShape header.checksum) .invalidMetadata
  require (validObjectKey header.objectKey) .invalidObjectKey
  require (validTimestamp chrono header.createdAt) .invalidTimestamp
  require (header.checksum = checksum sha256 ciphertext) .checksumMismatch

end

/-! ### The checks of the three modules -/

/-- **The two checks of an object key accept the same texts.** -/
theorem validObjectKey_eq_isValidBackupObjectKey (key : String) : validObjectKey key = isValidBackupObjectKey key := by
  unfold validObjectKey isValidBackupObjectKey validateBackupText maxBackupMetadataLength
  by_cases hblank : IsBlank key
  · simp [hblank, Except.isOk, Except.toBool]
  · by_cases hlength : byteLength key ≤ 256
    · cases hcontrol : hasControl key <;> simp [hblank, hlength, Nat.not_lt.mpr hlength, Except.isOk, Except.toBool]
    · simp [hblank, hlength, Nat.lt_of_not_le hlength, Except.isOk, Except.toBool]

section

variable {τ : Type} {chrono : Chrono τ} {sha256 : List UInt8 → List UInt8}

variable (chrono) in
/-- **The envelope and the metadata mean the same by a canonical timestamp.** -/
theorem validTimestamp_eq_isCanonicalTimestamp (timestamp : String) :
    validTimestamp chrono timestamp = chrono.isCanonicalTimestamp timestamp := by
  unfold validTimestamp Chrono.isCanonicalTimestamp
  cases hz : Chrono.endsWithZ timestamp with
  | false => rfl
  | true => cases hparse : chrono.parseFromRfc3339 timestamp <;> rfl

theorem validObjectKey_text {key : String} (h : validObjectKey key = true) :
    ¬ IsBlank key ∧ byteLength key ≤ 256 ∧ hasControl key = false := by
  simp only [validObjectKey, Bool.and_eq_true, Bool.not_eq_true', decide_eq_false_iff_not, decide_eq_true_eq] at h
  exact ⟨h.1.1.1.1, h.1.1.1.2, h.1.1.2⟩

theorem deriveMetadata_eq_ok_iff {ciphertext : List UInt8} {createdAt : τ} {objectKey : String}
    {metadata : SnapshotMetadata τ} :
    deriveMetadata chrono sha256 ciphertext createdAt objectKey = .ok metadata ↔
      ciphertext ≠ [] ∧ validTimestamp chrono (chrono.toRfc3339 createdAt) = true ∧ validObjectKey objectKey = true ∧
        metadata.ciphertextSize.toNat = ciphertext.length ∧
        metadata = ⟨backupFormat, checksum sha256 ciphertext, metadata.ciphertextSize, createdAt, objectKey,
          encryptionFormat, keyMetadata, encryptionMetadata⟩ := by
  constructor
  · intro h
    obtain ⟨_, hne, h⟩ := bind_eq_ok_iff.mp h
    obtain ⟨_, htimestamp, h⟩ := bind_eq_ok_iff.mp h
    obtain ⟨_, hkey, h⟩ := bind_eq_ok_iff.mp h
    obtain ⟨size, hsize, h⟩ := bind_eq_ok_iff.mp h
    rw [require_eq_ok_iff] at hne htimestamp hkey
    rw [okOr_eq_ok_iff, u64TryFrom_eq_some_iff] at hsize
    cases h
    exact ⟨hne, htimestamp, hkey, hsize, rfl⟩
  · rintro ⟨hne, htimestamp, hkey, hsize, hmetadata⟩
    rw [hmetadata]
    refine bind_eq_ok_iff.mpr ⟨(), require_of hne _, bind_eq_ok_iff.mpr ⟨(), require_of htimestamp _, ?_⟩⟩
    refine bind_eq_ok_iff.mpr ⟨(), require_of hkey _, ?_⟩
    exact bind_eq_ok_iff.mpr ⟨_, okOr_eq_ok_iff.mpr (u64TryFrom_eq_some_iff.mpr hsize), rfl⟩

/-- **What `verify_header` accepts.** -/
theorem verifyHeader_eq_ok_iff {header : SnapshotHeader} {ciphertext : List UInt8} {u : Unit} :
    verifyHeader chrono sha256 header ciphertext = .ok u ↔
      ciphertext ≠ [] ∧ header.ciphertextSize.toNat = ciphertext.length ∧
        (header.format = backupFormat ∧ header.encryptionFormat = encryptionFormat ∧ header.keyMetadata = keyMetadata ∧
          header.encryptionMetadata = encryptionMetadata ∧ validChecksumShape header.checksum = true) ∧
        validObjectKey header.objectKey = true ∧ validTimestamp chrono header.createdAt = true ∧
        header.checksum = checksum sha256 ciphertext := by
  simp only [verifyHeader, bind_eq_ok_iff, require_eq_ok_iff, okOr_eq_ok_iff, u64TryFrom_eq_some_iff, exists_const]
  constructor
  · rintro ⟨hne, size, hsize, rfl, hrest⟩
    exact ⟨hne, hsize, hrest⟩
  · rintro ⟨hne, hsize, hrest⟩
    exact ⟨hne, _, hsize, rfl, hrest⟩

theorem byteLength_checksum (hdigest : ∀ bytes, (sha256 bytes).length = 32) (ciphertext : List UInt8) :
    byteLength (checksum sha256 ciphertext) = 64 := by
  rw [checksum, byteLength_lowercaseHex, hdigest]

/-- The digits of a checksum. -/
theorem mem_checksum {ciphertext : List UInt8} {c : Char} (h : c ∈ (checksum sha256 ciphertext).toList) :
    isLowerHex c = true ∧ isControl c = false ∧ isWhitespace c = false := by
  rw [checksum, lowercaseHex, String.toList_ofList] at h
  obtain ⟨hhex, hcontrol, hspace, -⟩ := isLowerHex_of_mem_hexChars h
  exact ⟨hhex, hcontrol, hspace⟩

theorem validChecksumShape_checksum (hdigest : ∀ bytes, (sha256 bytes).length = 32) (ciphertext : List UInt8) :
    validChecksumShape (checksum sha256 ciphertext) = true := by
  rw [validChecksumShape, Bool.and_eq_true, beq_iff_eq, List.all_eq_true]
  exact ⟨byteLength_checksum hdigest ciphertext, fun c hc => (mem_checksum hc).1⟩

/-- A checksum is a text that headers may carry. -/
theorem checksum_text (hdigest : ∀ bytes, (sha256 bytes).length = 32) (ciphertext : List UInt8) :
    ¬ IsBlank (checksum sha256 ciphertext) ∧ byteLength (checksum sha256 ciphertext) ≤ 256 ∧
      hasControl (checksum sha256 ciphertext) = false := by
  have hlength := byteLength_checksum hdigest ciphertext
  refine ⟨?_, by omega, ?_⟩
  · rw [isBlank_iff]
    intro hall
    have hempty : (checksum sha256 ciphertext).toList = [] := by
      rw [List.eq_nil_iff_forall_not_mem]
      intro c hc
      exact absurd (hall c hc) (by simp [(mem_checksum hc).2.2])
    rw [← String.ofList_toList (s := checksum sha256 ciphertext), hempty] at hlength
    cases hlength
  · rw [hasControl, List.any_eq_false]
    exact fun c hc => by simp [(mem_checksum hc).2.1]

/-! ### The chain from a ciphertext to a verified header -/

/-- **A derived header is a valid header.** -/
theorem validateHeader_toHeader (hdigest : ∀ bytes, (sha256 bytes).length = 32) (hchrono : chrono.WritesPrintable)
    {ciphertext : List UInt8} {createdAt : τ} {objectKey : String} {metadata : SnapshotMetadata τ}
    (h : deriveMetadata chrono sha256 ciphertext createdAt objectKey = .ok metadata) :
    validateHeader chrono (metadata.toHeader chrono) = .ok () := by
  obtain ⟨hne, htimestamp, hkey, hsize, hmetadata⟩ := deriveMetadata_eq_ok_iff.mp h
  have hcanonical := (validTimestamp_eq_isCanonicalTimestamp chrono _).symm.trans htimestamp
  have hshape := validChecksumShape_checksum hdigest ciphertext
  rw [validChecksumShape, Bool.and_eq_true, beq_iff_eq] at hshape
  have hnonzero : metadata.ciphertextSize ≠ 0 := by
    intro hzero
    rw [hzero] at hsize
    exact hne (List.length_eq_zero_iff.mp hsize.symm)
  have hcreated : ¬ IsBlank (chrono.toRfc3339 createdAt) ∧ byteLength (chrono.toRfc3339 createdAt) ≤ 256 ∧
      hasControl (chrono.toRfc3339 createdAt) = false :=
    ⟨Chrono.not_isBlank_of_endsWithZ (chrono.isCanonicalTimestamp_eq_true_iff.mp hcanonical).1, hchrono createdAt⟩
  have hconstants : ∀ value ∈ [backupFormat, encryptionFormat, keyMetadata, encryptionMetadata],
      ¬ IsBlank value ∧ byteLength value ≤ 256 ∧ hasControl value = false := by decide +kernel
  rw [validateHeader_eq_ok_iff, hmetadata]
  refine ⟨?_, rfl, hshape.1, hshape.2, hnonzero, hcanonical⟩
  intro value hvalue
  simp only [SnapshotHeader.texts, SnapshotMetadata.toHeader, List.mem_cons, List.not_mem_nil, or_false] at hvalue
  rcases hvalue with rfl | rfl | rfl | rfl | rfl | rfl | rfl
  · exact hconstants _ (by simp)
  · exact checksum_text hdigest ciphertext
  · exact hcreated
  · exact validObjectKey_text hkey
  · exact hconstants _ (by simp)
  · exact hconstants _ (by simp)
  · exact hconstants _ (by simp)

/-- **The metadata chain**: what is derived from a ciphertext encodes, parses back and is verified; no other
ciphertext passes with it, no header of other values passes with the ciphertext; and the two checks of object keys
are one, which the derived key passes. -/
theorem derived_header_verified (hdigest : ∀ bytes, (sha256 bytes).length = 32) (hchrono : chrono.WritesPrintable)
    {fromSlice : List UInt8 → Option SnapshotHeader} (hserde : ReadsBack fromSlice) {ciphertext : List UInt8}
    (hlength : ciphertext.length ≤ isizeMax)
    (hinjective : ∀ other, sha256 other = sha256 ciphertext → other = ciphertext) {createdAt : τ} {objectKey : String}
    {metadata : SnapshotMetadata τ} (h : deriveMetadata chrono sha256 ciphertext createdAt objectKey = .ok metadata) :
    (∃ bytes, encode chrono (metadata.toHeader chrono) ciphertext = .ok bytes ∧
      parse chrono fromSlice bytes = .ok ⟨metadata.toHeader chrono, ciphertext⟩) ∧
    verifyHeader chrono sha256 (metadata.toHeader chrono) ciphertext = .ok () ∧
    (∀ other, other ≠ ciphertext → verifyHeader chrono sha256 (metadata.toHeader chrono) other ≠ .ok ()) ∧
    (∀ header, verifyHeader chrono sha256 header ciphertext = .ok () →
      header.format = metadata.format ∧ header.encryptionFormat = metadata.encryptionFormat ∧
        header.keyMetadata = metadata.keyMetadata ∧ header.encryptionMetadata = metadata.encryptionMetadata ∧
        header.checksum = metadata.checksum ∧ header.ciphertextSize = metadata.ciphertextSize) ∧
    (validObjectKey metadata.objectKey = true ∧ isValidBackupObjectKey metadata.objectKey = true) ∧
    ∀ key, validObjectKey key = isValidBackupObjectKey key := by
  have hvalid := validateHeader_toHeader hdigest hchrono h
  obtain ⟨hne, htimestamp, hkey, hsize, hmetadata⟩ := deriveMetadata_eq_ok_iff.mp h
  have hkey' : validObjectKey metadata.objectKey = true := by
    rw [hmetadata]
    exact hkey
  have hheaderSize : (metadata.toHeader chrono).ciphertextSize.toNat = ciphertext.length := hsize
  have hheaderLength := length_toVec_le fun t ht => ((validateHeader_eq_ok_iff.mp hvalid).1 t ht).2.1
  refine ⟨⟨frame (metadata.toHeader chrono).toVec ciphertext, ?_, ?_⟩, ?_, ?_, ?_, ⟨hkey', ?_⟩,
    validObjectKey_eq_isValidBackupObjectKey⟩
  · refine encode_eq_ok_iff.mpr ⟨hvalid, hheaderSize, hheaderLength, ?_, rfl⟩
    rw [length_backupMagic]
    simp only [maxHeaderBytes, isizeMax] at hheaderLength hlength
    omega
  · exact parse_eq_ok_iff.mpr ⟨rfl, hheaderLength, hserde _, hvalid, hheaderSize⟩
  · rw [verifyHeader_eq_ok_iff]
    refine ⟨hne, hheaderSize, ?_, hkey', ?_, ?_⟩
    · rw [hmetadata]
      exact ⟨rfl, rfl, rfl, rfl, validChecksumShape_checksum hdigest ciphertext⟩
    · rw [hmetadata]
      exact htimestamp
    · rw [hmetadata]
      rfl
  · intro other hother hverify
    obtain ⟨-, -, -, -, -, hchecksum⟩ := verifyHeader_eq_ok_iff.mp hverify
    rw [hmetadata] at hchecksum
    exact hother (hinjective other (lowercaseHex_inj hchecksum.symm))
  · intro header hverify
    obtain ⟨-, hsize', ⟨hformat, hencryption, hkeyMetadata, hencryptionMetadata, -⟩, -, -, hchecksum⟩ :=
      verifyHeader_eq_ok_iff.mp hverify
    have hsame : header.ciphertextSize = metadata.ciphertextSize := UInt64.toNat_inj.mp (hsize'.trans hsize.symm)
    rw [hmetadata]
    exact ⟨hformat, hencryption, hkeyMetadata, hencryptionMetadata, hchecksum, hsame⟩
  · rw [← validObjectKey_eq_isValidBackupObjectKey]
    exact hkey'

end

/-- The ciphertext of a fixture, `fixture-sqlcipher-ciphertext-v1`. -/
def fixtureCiphertext : List UInt8 := utf8 "fixture-sqlcipher-ciphertext-v1"

/-- SHA-256 at the fixture's ciphertext, and zeros elsewhere. -/
def fixtureSha256 (bytes : List UInt8) : List UInt8 :=
  if bytes = fixtureCiphertext then
    [0x42, 0x2e, 0x69, 0xd7, 0xf0, 0x7a, 0xd3, 0xdf, 0x30, 0x56, 0x42, 0x92, 0x0a, 0x8e, 0x0c, 0xb7,
      0x64, 0x24, 0xfa, 0xb6, 0x9f, 0xc0, 0x60, 0x0d, 0xfa, 0xa4, 0x67, 0x02, 0xb5, 0x7d, 0x98, 0xd4]
  else List.replicate 32 0

/-- The metadata of the fixture, stored on 2026-01-02 under `fixture/snapshot-001`. -/
def fixtureMetadata : SnapshotMetadata OffsetDateTime where
  format := backupFormat
  checksum := checksum fixtureSha256 fixtureCiphertext
  ciphertextSize := 31
  createdAt := ⟨1767323045 * second, 0⟩
  objectKey := "fixture/snapshot-001"
  encryptionFormat := encryptionFormat
  keyMetadata := keyMetadata
  encryptionMetadata := encryptionMetadata

/-- The header of the fixture is verified against the fixture, and not against nothing. -/
theorem derived_header_verified_fixture :
    verifyHeader Chrono.fourDigitYears fixtureSha256 (fixtureMetadata.toHeader Chrono.fourDigitYears) fixtureCiphertext
        = .ok () ∧
      verifyHeader Chrono.fourDigitYears fixtureSha256 (fixtureMetadata.toHeader Chrono.fourDigitYears) []
        ≠ .ok () := by
  have hdigest : ∀ bytes, (fixtureSha256 bytes).length = 32 := by
    intro bytes
    unfold fixtureSha256
    split_ifs <;> rfl
  have hinjective : ∀ other, fixtureSha256 other = fixtureSha256 fixtureCiphertext → other = fixtureCiphertext := by
    intro other hsame
    by_contra hne
    rw [fixtureSha256, if_neg hne, fixtureSha256, if_pos rfl] at hsame
    cases hsame
  have htimestamp : validTimestamp Chrono.fourDigitYears (Chrono.fourDigitYears.toRfc3339 ⟨1767323045 * second, 0⟩) = true := by
    decide +kernel
  have hderive : deriveMetadata Chrono.fourDigitYears fixtureSha256 fixtureCiphertext ⟨1767323045 * second, 0⟩
      "fixture/snapshot-001" = .ok fixtureMetadata :=
    deriveMetadata_eq_ok_iff.mpr ⟨by decide +kernel, htimestamp, by decide +kernel, by decide +kernel, rfl⟩
  obtain ⟨-, hverified, hother, -⟩ := derived_header_verified hdigest Chrono.fourDigitYears_writesPrintable
    compactFromSlice_readsBack (by decide +kernel) hinjective hderive
  exact ⟨hverified, hother [] (by decide +kernel)⟩

end AgentVoice.Backup

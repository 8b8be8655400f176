import AgentVoice.Domain.Chrono
import AgentVoice.Foundations.Bytes
import AgentVoice.Foundations.JsonText

/-!
# The snapshot envelope

The encrypted-backup payload of `src/pa/backup/envelope.rs`: a magic prefix, the length of a JSON
header, the header, and the opaque ciphertext. `encode` writes it and `parse` reads it; both are
partial, and each of them checks the header's values (`validate_header`). What either accepts is
one frame (`encode_eq_ok_iff`, `parse_eq_ok_iff`), from which it follows that they undo each other
and that every envelope has one encoding.

The header is written by the JSON library as a compact object in the order of its fields
(`toVec`); reading a header is the JSON library's own and a parameter (`fromSlice`), of which
only `ReadsBack` is used. The date library is a parameter as well.
-/

namespace AgentVoice.Backup

open AgentVoice.Foundations AgentVoice.Domain

/-- `BACKUP_FORMAT`. -/
def backupFormat : String := "agent_voice_backup_v1"

/-- `BACKUP_MAGIC`. -/
def backupMagic : List UInt8 := utf8 "agent_voice_backup_v1\n"

/-- `MAX_HEADER_BYTES`. -/
def maxHeaderBytes : ℕ := 64 * 1024

/-- `SnapshotHeader`, and `WireHeader`, which has the same fields. -/
structure SnapshotHeader where
  format : String
  checksum : String
  ciphertextSize : UInt64
  createdAt : String
  objectKey : String
  encryptionFormat : String
  keyMetadata : String
  encryptionMetadata : String
  deriving DecidableEq, Repr

/-- `SnapshotEnvelope`. -/
structure SnapshotEnvelope where
  header : SnapshotHeader
  ciphertext : List UInt8
  deriving DecidableEq

/-- `EnvelopeError`. -/
inductive EnvelopeError where
  | truncated
  | badMagic
  | headerTooLarge
  | invalidHeader
  | nonCanonicalHeader
  | invalidValue
  | sizeMismatch
  deriving DecidableEq, Repr

/-! ### The header as JSON -/

namespace SnapshotHeader

/-- The compact JSON object of a header. -/
def json (h : SnapshotHeader) : List Char :=
  objectChars [
    memberChars "format" (quotedChars h.format.toList),
    memberChars "checksum" (quotedChars h.checksum.toList),
    memberChars "ciphertext_size" (Nat.toDigits 10 h.ciphertextSize.toNat),
    memberChars "created_at" (quotedChars h.createdAt.toList),
    memberChars "object_key" (quotedChars h.objectKey.toList),
    memberChars "encryption_format" (quotedChars h.encryptionFormat.toList),
    memberChars "key_metadata" (quotedChars h.keyMetadata.toList),
    memberChars "encryption_metadata" (quotedChars h.encryptionMetadata.toList)]

/-- `serde_json::to_vec`. -/
def toVec (h : SnapshotHeader) : List UInt8 := utf8 (String.ofList h.json)

/-- The texts of a header, in the order in which they are checked. -/
def texts (h : SnapshotHeader) : List String :=
  [h.format, h.checksum, h.createdAt, h.objectKey, h.encryptionFormat, h.keyMetadata, h.encryptionMetadata]

end SnapshotHeader

/-- The JSON library reads back every header it writes. -/
def ReadsBack (fromSlice : List UInt8 → Option SnapshotHeader) : Prop := ∀ h, fromSlice h.toVec = some h

/-! ### Encoding and parsing -/

section

variable {τ : Type} (chrono : Chrono τ)

/-- `validate_header`. -/
def validateHeader (h : SnapshotHeader) : Except EnvelopeError Unit := do
  h.texts.forM fun value => require (¬ IsBlank value ∧ byteLength value ≤ 256 ∧ hasControl value = false) .invalidValue
  require (h.format = backupFormat ∧ byteLength h.checksum = 64 ∧ h.checksum.toList.all isLowerHex ∧
    h.ciphertextSize ≠ 0 ∧ chrono.isCanonicalTimestamp h.createdAt) .invalidValue

/-- `SnapshotEnvelope::encode`. -/
def encode (h : SnapshotHeader) (ciphertext : List UInt8) : Except EnvelopeError (List UInt8) := do
  validateHeader chrono h
  let ciphertextLen ← okOr (u64TryFrom ciphertext.length) .sizeMismatch
  require (¬ (h.ciphertextSize = 0 ∨ h.ciphertextSize ≠ ciphertextLen)) .sizeMismatch
  let headerBytes := h.toVec
  let headerLen ← okOr (u32TryFrom headerBytes.length) .headerTooLarge
  require (headerBytes.length ≤ maxHeaderBytes) .headerTooLarge
  let _totalLen ← okOr (checkedAddUsize backupMagic.length 4
    |>.bind (checkedAddUsize · headerBytes.length)
    |>.bind (checkedAddUsize · ciphertext.length)) .sizeMismatch
  .ok (backupMagic ++ toBeBytes headerLen ++ headerBytes ++ ciphertext)

/-- `SnapshotEnvelope::parse`. -/
def parse (fromSlice : List UInt8 → Option SnapshotHeader) (bytes : List UInt8) :
    Except (Fault EnvelopeError) SnapshotEnvelope := do
  require (backupMagic.length ≤ bytes.length) (.error .truncated)
  let magic ← slice bytes 0 backupMagic.length
  require (magic = backupMagic) (.error .badMagic)
  let lengthStart := backupMagic.length
  let lengthEnd := lengthStart + 4
  require (lengthEnd ≤ bytes.length) (.error .truncated)
  let length ← slice bytes lengthStart lengthEnd
  let headerLen ← okOr (fromBeBytes length) (.error .truncated)
  require (headerLen ≤ maxHeaderBytes) (.error .headerTooLarge)
  let headerEnd ← okOr (checkedAddUsize lengthEnd headerLen) (.error .truncated)
  require (headerEnd ≤ bytes.length) (.error .truncated)
  let headerBytes ← slice bytes lengthEnd headerEnd
  let header ← okOr (fromSlice headerBytes) (.error .invalidHeader)
  require (header.toVec = headerBytes) (.error .nonCanonicalHeader)
  returned (validateHeader chrono header)
  let ciphertext ← slice bytes headerEnd bytes.length
  let ciphertextLen ← okOr (u64TryFrom ciphertext.length) (.error .sizeMismatch)
  require (header.ciphertextSize = ciphertextLen) (.error .sizeMismatch)
  .ok ⟨header, ciphertext⟩

end

/-- `SnapshotEnvelope::encoded_len`. -/
def SnapshotEnvelope.encodedLen (e : SnapshotEnvelope) : ℕ :=
  backupMagic.length + 4 + e.header.toVec.length + e.ciphertext.length

/-! ### One frame for both directions -/

/-- An envelope as bytes. -/
def frame (headerBytes ciphertext : List UInt8) : List UInt8 :=
  backupMagic ++ toBeBytes headerBytes.length ++ headerBytes ++ ciphertext

theorem length_backupMagic : backupMagic.length = 22 := by
  rw [backupMagic, length_utf8]
  decide +kernel

section

variable {τ : Type} {chrono : Chrono τ} {fromSlice : List UInt8 → Option SnapshotHeader}

theorem validateHeader_eq_ok_iff {h : SnapshotHeader} {u : Unit} :
    validateHeader chrono h = .ok u ↔
      (∀ value ∈ h.texts, ¬ IsBlank value ∧ byteLength value ≤ 256 ∧ hasControl value = false) ∧
        h.format = backupFormat ∧ byteLength h.checksum = 64 ∧ h.checksum.toList.all isLowerHex ∧
        h.ciphertextSize ≠ 0 ∧ chrono.isCanonicalTimestamp h.createdAt := by
  simp only [validateHeader, bind_eq_ok_iff, forM_eq_ok_iff, require_eq_ok_iff, exists_const]

/-- **What `encode` accepts, and what it writes.** -/
theorem encode_eq_ok_iff {h : SnapshotHeader} {ciphertext bytes : List UInt8} :
    encode chrono h ciphertext = .ok bytes ↔
      validateHeader chrono h = .ok () ∧ h.ciphertextSize.toNat = ciphertext.length ∧
        h.toVec.length ≤ maxHeaderBytes ∧ backupMagic.length + 4 + h.toVec.length + ciphertext.length < 2 ^ 64 ∧
        bytes = frame h.toVec ciphertext := by
  constructor
  · intro hencode
    obtain ⟨_, hvalid, hencode⟩ := bind_eq_ok_iff.mp hencode
    obtain ⟨size, hsize, hencode⟩ := bind_eq_ok_iff.mp hencode
    obtain ⟨_, hsame, hencode⟩ := bind_eq_ok_iff.mp hencode
    obtain ⟨headerLen, hlength, hencode⟩ := bind_eq_ok_iff.mp hencode
    obtain ⟨_, hmax, hencode⟩ := bind_eq_ok_iff.mp hencode
    obtain ⟨total, htotal, hencode⟩ := bind_eq_ok_iff.mp hencode
    rw [okOr_eq_ok_iff, u64TryFrom_eq_some_iff] at hsize
    rw [okOr_eq_ok_iff, u32TryFrom_eq_some_iff] at hlength
    rw [require_eq_ok_iff] at hsame hmax
    simp only [okOr_eq_ok_iff, Option.bind_eq_some_iff, checkedAddUsize_eq_some_iff] at htotal
    obtain ⟨_, ⟨_, ⟨rfl, -⟩, rfl, -⟩, -, hfits⟩ := htotal
    push Not at hsame
    obtain ⟨rfl, -⟩ := hlength
    cases hencode
    exact ⟨hvalid, hsame.2 ▸ hsize, hmax, hfits, rfl⟩
  · rintro ⟨hvalid, hsize, hmax, hfits, rfl⟩
    have hnonzero : h.ciphertextSize ≠ 0 := (validateHeader_eq_ok_iff.mp hvalid).2.2.2.2.1
    have hsmall : h.toVec.length < 2 ^ 32 := hmax.trans_lt (by decide)
    refine bind_eq_ok_iff.mpr ⟨(), hvalid, ?_⟩
    refine bind_eq_ok_iff.mpr ⟨_, okOr_eq_ok_iff.mpr (u64TryFrom_eq_some_iff.mpr hsize), ?_⟩
    refine bind_eq_ok_iff.mpr ⟨(), require_of (by simp [hnonzero]) _, ?_⟩
    refine bind_eq_ok_iff.mpr ⟨_, okOr_eq_ok_iff.mpr (u32TryFrom_eq_some_iff.mpr ⟨rfl, hsmall⟩), ?_⟩
    refine bind_eq_ok_iff.mpr ⟨(), require_of hmax _, ?_⟩
    refine bind_eq_ok_iff.mpr ⟨backupMagic.length + 4 + h.toVec.length + ciphertext.length, okOr_eq_ok_iff.mpr ?_, rfl⟩
    rw [checkedAddUsize, if_pos (by omega), Option.bind_some, checkedAddUsize, if_pos (by omega), Option.bind_some,
      checkedAddUsize, if_pos hfits]

/-- **What `parse` accepts, and what it returns.** -/
theorem parse_eq_ok_iff {bytes : List UInt8} {e : SnapshotEnvelope} :
    parse chrono fromSlice bytes = .ok e ↔
      bytes = frame e.header.toVec e.ciphertext ∧ e.header.toVec.length ≤ maxHeaderBytes ∧
        fromSlice e.header.toVec = some e.header ∧ validateHeader chrono e.header = .ok () ∧
        e.header.ciphertextSize.toNat = e.ciphertext.length := by
  constructor
  · intro hparse
    obtain ⟨_, -, hparse⟩ := bind_eq_ok_iff.mp hparse
    obtain ⟨magic, hmagicSlice, hparse⟩ := bind_eq_ok_iff.mp hparse
    obtain ⟨_, hmagic, hparse⟩ := bind_eq_ok_iff.mp hparse
    obtain ⟨_, -, hparse⟩ := bind_eq_ok_iff.mp hparse
    obtain ⟨length, hlengthSlice, hparse⟩ := bind_eq_ok_iff.mp hparse
    obtain ⟨headerLen, hlength, hparse⟩ := bind_eq_ok_iff.mp hparse
    obtain ⟨_, hmax, hparse⟩ := bind_eq_ok_iff.mp hparse
    obtain ⟨headerEnd, hend, hparse⟩ := bind_eq_ok_iff.mp hparse
    obtain ⟨_, -, hparse⟩ := bind_eq_ok_iff.mp hparse
    obtain ⟨headerBytes, hheaderSlice, hparse⟩ := bind_eq_ok_iff.mp hparse
    obtain ⟨header, hread, hparse⟩ := bind_eq_ok_iff.mp hparse
    obtain ⟨_, hcanonical, hparse⟩ := bind_eq_ok_iff.mp hparse
    obtain ⟨_, hvalid, hparse⟩ := bind_eq_ok_iff.mp hparse
    obtain ⟨ciphertext, htailSlice, hparse⟩ := bind_eq_ok_iff.mp hparse
    obtain ⟨size, hsize, hparse⟩ := bind_eq_ok_iff.mp hparse
    obtain ⟨_, hsame, hdone⟩ := bind_eq_ok_iff.mp hparse
    cases hdone
    rw [require_eq_ok_iff] at hmagic hmax hcanonical hsame
    rw [okOr_eq_ok_iff] at hlength hend hread hsize
    rw [returned_eq_ok_iff] at hvalid
    rw [u64TryFrom_eq_some_iff] at hsize
    rw [slice_eq_ok_iff] at hmagicSlice hlengthSlice hheaderSlice htailSlice
    obtain ⟨rfl, -⟩ := checkedAddUsize_eq_some_iff.mp hend
    subst hmagic hcanonical hsame
    obtain ⟨a₁, c₁, hbytes, ha₁, -⟩ := hmagicSlice
    obtain ⟨a₂, c₂, hbytes₂, ha₂, hlen₂⟩ := hlengthSlice
    obtain ⟨a₃, c₃, hbytes₃, ha₃, hlen₃⟩ := hheaderSlice
    obtain ⟨a₄, c₄, hbytes₄, ha₄, hlen₄⟩ := htailSlice
    obtain rfl := List.length_eq_zero_iff.mp ha₁
    -- the four parts follow each other
    rw [List.nil_append] at hbytes
    obtain ⟨rfl, rfl⟩ := List.append_inj (hbytes₂.symm.trans hbytes) ha₂
    rw [← List.append_assoc] at hbytes₂
    obtain ⟨rfl, rfl⟩ := List.append_inj (hbytes₃.symm.trans hbytes₂) (by rw [ha₃, List.length_append]; omega)
    rw [← List.append_assoc] at hbytes₃
    obtain ⟨rfl, rfl⟩ := List.append_inj (hbytes₄.symm.trans hbytes₃) (by
      rw [ha₄, List.length_append, List.length_append]
      omega)
    have hrest : c₄ = [] := by
      rw [← List.length_eq_zero_iff]
      have htotal := congrArg List.length hbytes₄
      simp only [List.length_append] at htotal ha₄ hlen₄
      omega
    have hheaderLen : headerLen = header.toVec.length := by omega
    have hlengthBytes := toBeBytes_of_fromBeBytes hlength
    rw [hrest, List.append_nil, ← hlengthBytes, hheaderLen] at hbytes₄
    exact ⟨hbytes₄, hheaderLen ▸ hmax, hread, hvalid, hsize⟩
  · obtain ⟨header, ciphertext⟩ := e
    rintro ⟨rfl, hmax, hread, hvalid, hsize⟩
    dsimp only at hmax hread hvalid hsize ⊢
    have hmagic := length_backupMagic
    have hlengthBytes := length_toBeBytes header.toVec.length
    have htotal : (frame header.toVec ciphertext).length
        = backupMagic.length + 4 + header.toVec.length + ciphertext.length := by
      simp only [frame, List.length_append, hlengthBytes]
    have hsmall : header.toVec.length < 2 ^ 32 := hmax.trans_lt (by decide)
    have hsum : backupMagic.length + 4 + header.toVec.length < 2 ^ 64 := by
      rw [hmagic]
      omega
    refine bind_eq_ok_iff.mpr ⟨(), require_of (by omega) _, ?_⟩
    refine bind_eq_ok_iff.mpr ⟨backupMagic, slice_eq_ok_iff.mpr
      ⟨[], toBeBytes header.toVec.length ++ (header.toVec ++ ciphertext), ?_, rfl, Nat.zero_add _⟩, ?_⟩
    · rw [frame, List.append_assoc, List.append_assoc, List.nil_append]
    refine bind_eq_ok_iff.mpr ⟨(), require_of rfl _, ?_⟩
    refine bind_eq_ok_iff.mpr ⟨(), require_of (by omega) _, ?_⟩
    refine bind_eq_ok_iff.mpr ⟨toBeBytes header.toVec.length, slice_eq_ok_iff.mpr
      ⟨backupMagic, header.toVec ++ ciphertext, ?_, rfl, rfl⟩, ?_⟩
    · rw [frame, List.append_assoc, List.append_assoc]
    refine bind_eq_ok_iff.mpr ⟨_, okOr_eq_ok_iff.mpr (fromBeBytes_toBeBytes hsmall), ?_⟩
    refine bind_eq_ok_iff.mpr ⟨(), require_of hmax _, ?_⟩
    refine bind_eq_ok_iff.mpr ⟨_, okOr_eq_ok_iff.mpr (checkedAddUsize_eq_some_iff.mpr ⟨rfl, hsum⟩), ?_⟩
    refine bind_eq_ok_iff.mpr ⟨(), require_of (by omega) _, ?_⟩
    refine bind_eq_ok_iff.mpr ⟨header.toVec, slice_eq_ok_iff.mpr
      ⟨backupMagic ++ toBeBytes header.toVec.length, ciphertext, ?_, ?_, rfl⟩, ?_⟩
    · rw [frame, List.append_assoc _ header.toVec]
    · rw [List.length_append, hlengthBytes]
    refine bind_eq_ok_iff.mpr ⟨header, okOr_eq_ok_iff.mpr hread, ?_⟩
    refine bind_eq_ok_iff.mpr ⟨(), require_of rfl _, ?_⟩
    refine bind_eq_ok_iff.mpr ⟨(), returned_eq_ok_iff.mpr hvalid, ?_⟩
    refine bind_eq_ok_iff.mpr ⟨ciphertext, slice_eq_ok_iff.mpr
      ⟨backupMagic ++ toBeBytes header.toVec.length ++ header.toVec, [], ?_, ?_, htotal.symm⟩, ?_⟩
    · rw [List.append_nil, frame]
    · rw [List.length_append, List.length_append, hlengthBytes]
    refine bind_eq_ok_iff.mpr ⟨_, okOr_eq_ok_iff.mpr (u64TryFrom_eq_some_iff.mpr hsize), ?_⟩
    exact bind_eq_ok_iff.mpr ⟨(), require_of rfl _, rfl⟩

/-- **Parsing takes no part of its input that is not there.** -/
theorem parse_noPanic (bytes : List UInt8) : NoPanic (parse chrono fromSlice bytes) := by
  refine NoPanic.bind (.require _ _) fun _ hmagic => ?_
  rw [require_eq_ok_iff] at hmagic
  refine NoPanic.bind (.slice (Nat.zero_le _) hmagic) fun _ _ => NoPanic.bind (.require _ _) fun _ _ => ?_
  refine NoPanic.bind (.require _ _) fun _ hlength => ?_
  rw [require_eq_ok_iff] at hlength
  refine NoPanic.bind (.slice (Nat.le_add_right _ _) hlength) fun _ _ => NoPanic.bind (.okOr _ _) fun headerLen _ => ?_
  refine NoPanic.bind (.require _ _) fun _ _ => NoPanic.bind (.okOr _ _) fun headerEnd hend => ?_
  obtain ⟨rfl, -⟩ := checkedAddUsize_eq_some_iff.mp (okOr_eq_ok_iff.mp hend)
  refine NoPanic.bind (.require _ _) fun _ hheader => ?_
  rw [require_eq_ok_iff] at hheader
  refine NoPanic.bind (.slice (Nat.le_add_right _ _) hheader) fun _ _ => NoPanic.bind (.okOr _ _) fun _ _ => ?_
  refine NoPanic.bind (.require _ _) fun _ _ => NoPanic.bind (.returned _) fun _ _ => ?_
  refine NoPanic.bind (.slice hheader le_rfl) fun _ _ => NoPanic.bind (.okOr _ _) fun _ _ => ?_
  exact NoPanic.bind (.require _ _) fun _ _ => .ok _

/-- **No header of bounded texts is too large**: 256 bytes a text leave room for every escape. -/
theorem length_toVec_le {h : SnapshotHeader} (hbytes : ∀ value ∈ h.texts, byteLength value ≤ 256) :
    h.toVec.length ≤ maxHeaderBytes := by
  have hquoted : ∀ name s : String, byteLength name ≤ 19 → byteLength s ≤ 256 →
      byteLength (String.ofList (memberChars name (quotedChars s.toList))) ≤ 1655 := by
    intro name s hname hs
    have hquotedName := byteLength_quotedChars_le name
    have hvalue := byteLength_quotedChars_le s
    rw [byteLength_memberChars]
    omega
  have hdigits : (Nat.toDigits 10 h.ciphertextSize.toNat).length ≤ 20 := by
    rw [Nat.length_toDigits_le_iff (by decide) (by decide)]
    exact h.ciphertextSize.toNat_lt.trans (by decide)
  have hsize : byteLength (String.ofList (memberChars "ciphertext_size" (Nat.toDigits 10 h.ciphertextSize.toNat))) ≤ 1655 := by
    have hname := byteLength_quotedChars_le "ciphertext_size"
    have hvalue := byteLength_ofList_le (Nat.toDigits 10 h.ciphertextSize.toNat)
    have hlength : byteLength "ciphertext_size" ≤ 19 := by decide +kernel
    rw [byteLength_memberChars]
    omega
  simp only [SnapshotHeader.texts, List.mem_cons, List.not_mem_nil, or_false, forall_eq_or_imp, forall_eq] at hbytes
  obtain ⟨hformat, hchecksum, hcreated, hkey, hencryption, hkeyMetadata, hmetadata⟩ := hbytes
  have htotal := byteLength_objectChars_le [
    memberChars "format" (quotedChars h.format.toList),
    memberChars "checksum" (quotedChars h.checksum.toList),
    memberChars "ciphertext_size" (Nat.toDigits 10 h.ciphertextSize.toNat),
    memberChars "created_at" (quotedChars h.createdAt.toList),
    memberChars "object_key" (quotedChars h.objectKey.toList),
    memberChars "encryption_format" (quotedChars h.encryptionFormat.toList),
    memberChars "key_metadata" (quotedChars h.keyMetadata.toList),
    memberChars "encryption_metadata" (quotedChars h.encryptionMetadata.toList)]
  have hformat' := hquoted "format" _ (by decide +kernel) hformat
  have hchecksum' := hquoted "checksum" _ (by decide +kernel) hchecksum
  have hcreated' := hquoted "created_at" _ (by decide +kernel) hcreated
  have hkey' := hquoted "object_key" _ (by decide +kernel) hkey
  have hencryption' := hquoted "encryption_format" _ (by decide +kernel) hencryption
  have hkeyMetadata' := hquoted "key_metadata" _ (by decide +kernel) hkeyMetadata
  have hmetadata' := hquoted "encryption_metadata" _ (by decide +kernel) hmetadata
  simp only [List.map_cons, List.map_nil, List.sum_cons, List.sum_nil] at htotal
  rw [SnapshotHeader.toVec, length_utf8, SnapshotHeader.json, maxHeaderBytes]
  omega

theorem length_frame (headerBytes ciphertext : List UInt8) :
    (frame headerBytes ciphertext).length = backupMagic.length + 4 + headerBytes.length + ciphertext.length := by
  simp only [frame, List.length_append, length_toBeBytes]

/-- **The envelope codec**: parsing undoes encoding and encoding undoes parsing, an encoding has the announced
length, and no byte string makes the parser index outside it. -/
theorem parse_encode_canonical (hserde : ReadsBack fromSlice) :
    (∀ h ciphertext bytes, encode chrono h ciphertext = .ok bytes →
      parse chrono fromSlice bytes = .ok ⟨h, ciphertext⟩ ∧
        bytes.length = SnapshotEnvelope.encodedLen ⟨h, ciphertext⟩) ∧
    (∀ bytes e, bytes.length ≤ isizeMax → parse chrono fromSlice bytes = .ok e →
      encode chrono e.header e.ciphertext = .ok bytes) ∧
    ∀ bytes, NoPanic (parse chrono fromSlice bytes) := by
  refine ⟨fun h ciphertext bytes hencode => ?_, fun bytes e hlength hparse => ?_, parse_noPanic⟩
  · obtain ⟨hvalid, hsize, hmax, -, rfl⟩ := encode_eq_ok_iff.mp hencode
    exact ⟨parse_eq_ok_iff.mpr ⟨rfl, hmax, hserde h, hvalid, hsize⟩, length_frame _ _⟩
  · obtain ⟨rfl, hmax, -, hvalid, hsize⟩ := parse_eq_ok_iff.mp hparse
    have hfits : backupMagic.length + 4 + e.header.toVec.length + e.ciphertext.length < 2 ^ 64 := by
      rw [length_frame, isizeMax] at hlength
      omega
    exact encode_eq_ok_iff.mpr ⟨hvalid, hsize, hmax, hfits, rfl⟩

end

/-! ### A reader of canonical headers -/

/-- A header from its compact JSON object. -/
def readHeader (cs : List Char) : Option SnapshotHeader := do
  let cs ← expect (Char.ofNat 123) cs
  let (format, cs) ← readMember "format" readQuoted ',' cs
  let (checksum, cs) ← readMember "checksum" readQuoted ',' cs
  let (size, cs) ← readMember "ciphertext_size" (some ∘ readNatural) ',' cs
  let (createdAt, cs) ← readMember "created_at" readQuoted ',' cs
  let (objectKey, cs) ← readMember "object_key" readQuoted ',' cs
  let (encryptionFormat, cs) ← readMember "encryption_format" readQuoted ',' cs
  let (keyMetadata, cs) ← readMember "key_metadata" readQuoted ',' cs
  let (encryptionMetadata, cs) ← readMember "encryption_metadata" readQuoted (Char.ofNat 125) cs
  if cs = [] then
    some ⟨.ofList format, .ofList checksum, .ofNat size, .ofList createdAt, .ofList objectKey,
      .ofList encryptionFormat, .ofList keyMetadata, .ofList encryptionMetadata⟩
  else none

/-- A JSON library that reads compact headers only. -/
def compactFromSlice (bytes : List UInt8) : Option SnapshotHeader :=
  (fromUtf8 bytes).bind fun text => readHeader text.toList

theorem readHeader_json (h : SnapshotHeader) : readHeader h.json = some h := by
  have hquoted : ∀ (name : String) (s : String) (stop : Char) (rest : List Char),
      readMember name readQuoted stop (memberChars name (quotedChars s.toList) ++ stop :: rest) = some (s.toList, rest) :=
    fun name s stop rest => readMember_memberChars name (readQuoted_quotedChars _ _)
  have hsize : ∀ rest : List Char, readMember "ciphertext_size" (some ∘ readNatural) ','
      (memberChars "ciphertext_size" (Nat.toDigits 10 h.ciphertextSize.toNat) ++ ',' :: rest)
        = some (h.ciphertextSize.toNat, rest) :=
    fun rest => readMember_memberChars _ (congrArg some (readNatural_toDigits _ (by decide) rest))
  rw [readHeader, SnapshotHeader.json, objectChars, expect_cons, Option.bind_eq_bind, Option.bind_some]
  refine Option.bind_eq_some_iff.mpr ⟨_, hquoted _ h.format ',' _, ?_⟩
  refine Option.bind_eq_some_iff.mpr ⟨_, hquoted _ h.checksum ',' _, ?_⟩
  refine Option.bind_eq_some_iff.mpr ⟨_, hsize _, ?_⟩
  refine Option.bind_eq_some_iff.mpr ⟨_, hquoted _ h.createdAt ',' _, ?_⟩
  refine Option.bind_eq_some_iff.mpr ⟨_, hquoted _ h.objectKey ',' _, ?_⟩
  refine Option.bind_eq_some_iff.mpr ⟨_, hquoted _ h.encryptionFormat ',' _, ?_⟩
  refine Option.bind_eq_some_iff.mpr ⟨_, hquoted _ h.keyMetadata ',' _, ?_⟩
  refine Option.bind_eq_some_iff.mpr ⟨_, hquoted _ h.encryptionMetadata (Char.ofNat 125) [], ?_⟩
  simp only [if_true, String.ofList_toList, UInt64.ofNat_toNat]

theorem compactFromSlice_readsBack : ReadsBack compactFromSlice := by
  intro h
  rw [compactFromSlice, SnapshotHeader.toVec, fromUtf8_utf8, Option.bind_some, String.toList_ofList, readHeader_json]

/-- The header of a snapshot of four bytes. -/
def smallHeader : SnapshotHeader where
  format := backupFormat
  checksum := String.ofList (List.replicate 64 'a')
  ciphertextSize := 4
  createdAt := "2026-08-30T00:00:00Z"
  objectKey := "backups/2026-08-30.snapshot"
  encryptionFormat := "sqlcipher-v4"
  keyMetadata := "key-id-01"
  encryptionMetadata := "aes-256-gcm"

/-- The ciphertext of a small snapshot. -/
def smallCiphertext : List UInt8 := [0xde, 0xad, 0xbe, 0xef]

/-- The envelope of a small snapshot parses, and encodes as it was. -/
theorem parse_encode_smallHeader :
    parse Chrono.fourDigitYears compactFromSlice (frame smallHeader.toVec smallCiphertext)
        = .ok ⟨smallHeader, smallCiphertext⟩ ∧
      encode Chrono.fourDigitYears smallHeader smallCiphertext = .ok (frame smallHeader.toVec smallCiphertext) := by
  obtain ⟨hdecode, hencode, -⟩ := @parse_encode_canonical _ Chrono.fourDigitYears _ compactFromSlice_readsBack
  have hvalid : validateHeader Chrono.fourDigitYears smallHeader = .ok () := by decide +kernel
  have hmax := length_toVec_le fun value hvalue => ((validateHeader_eq_ok_iff.mp hvalid).1 value hvalue).2.1
  have htotal : backupMagic.length + 4 + smallHeader.toVec.length + smallCiphertext.length ≤ isizeMax := by
    rw [length_backupMagic, show smallCiphertext.length = 4 from rfl, isizeMax]
    rw [maxHeaderBytes] at hmax
    omega
  have hfits : backupMagic.length + 4 + smallHeader.toVec.length + smallCiphertext.length < 2 ^ 64 := by
    rw [isizeMax] at htotal
    omega
  have hencoded : encode Chrono.fourDigitYears smallHeader smallCiphertext
      = .ok (frame smallHeader.toVec smallCiphertext) :=
    encode_eq_ok_iff.mpr ⟨hvalid, rfl, hmax, hfits, rfl⟩
  have hlength : (frame smallHeader.toVec smallCiphertext).length ≤ isizeMax := by
    rw [length_frame]
    exact htotal
  obtain ⟨hparse, -⟩ := hdecode _ _ _ hencoded
  exact ⟨hparse, hencode _ ⟨smallHeader, smallCiphertext⟩ hlength hparse⟩

end AgentVoice.Backup

import AgentVoice.Foundations.Base64
import AgentVoice.Realtime.RoundTrip

/-!
# Audio as text

`G711Ulaw::from_base64` accepts what `G711Ulaw` is serialized as and nothing else, given that the base64 library writes
padded standard base64 and reads what it writes (`Base64Standard`). How it reads other texts does not matter, since the
text is compared with what its bytes are written as.
-/

namespace AgentVoice.Realtime

open AgentVoice.Foundations

/-- `BASE64_STANDARD` writes padded standard base64, and decodes what it writes. -/
structure Base64Standard (libs : Libraries) : Prop where
  encode : ∀ bytes, libs.base64Encode bytes = Base64.encode bytes
  decode : ∀ bytes, libs.base64Decode (Base64.encode bytes) = some bytes

/-! ### The bound on the text -/

theorem byteLength_encode_le_iff {bytes : List UInt8} :
    byteLength (Base64.encode bytes) ≤ maxAudioBase64Chars ↔ bytes.length ≤ maxValueBytes + 2 := by
  rw [Base64.byteLength_encode, maxAudioBase64Chars, maxValueBytes]
  omega

theorem encode_ne_empty {bytes : List UInt8} (h : bytes ≠ []) : Base64.encode bytes ≠ "" := by
  intro hempty
  have hlength := Base64.byteLength_encode bytes
  have hpos := List.length_pos_iff.mpr h
  rw [hempty] at hlength
  have hzero : byteLength "" = 0 := rfl
  omega

/-! ### What is accepted -/

section

variable {libs : Libraries} (hlibs : Base64Standard libs)
include hlibs

/-- How the encoding of bytes is read. -/
theorem fromBase64_encode (bytes : List UInt8) (hne : bytes ≠ []) : G711Ulaw.fromBase64 libs (Base64.encode bytes) =
    if hsize : bytes.length ≤ maxValueBytes then .ok ⟨bytes, hne, hsize⟩ else .error .audioTooLarge := by
  have hempty := encode_ne_empty hne
  rw [G711Ulaw.fromBase64, hlibs.decode]
  by_cases hlong : maxAudioBase64Chars < byteLength (Base64.encode bytes)
  · have hsize : ¬ bytes.length ≤ maxValueBytes := by
      have := byteLength_encode_le_iff.not.mp (not_le.mpr hlong)
      omega
    rw [if_pos hlong, dif_neg hsize]
  · rw [if_neg hlong, if_neg (by simp [hempty, Base64.isAscii_encode])]
    by_cases hsize : bytes.length ≤ maxValueBytes
    · dsimp only
      rw [dif_pos hsize, dif_pos hsize, dif_pos ⟨hne, hlibs.encode bytes⟩]
    · dsimp only
      rw [dif_neg hsize, dif_neg hsize]

theorem fromBase64_eq_ok_iff {text : String} {value : G711Ulaw} :
    G711Ulaw.fromBase64 libs text = .ok value ↔ text = Base64.encode value.val := by
  constructor
  · intro h
    rw [← hlibs.encode]
    exact (fromBase64_eq_ok libs h).symm
  · rintro rfl
    rw [fromBase64_encode hlibs value.val value.property.1, dif_pos value.property.2]

end

/-- The bound on the text lets audio through that is longer than the bound on the audio. -/
theorem not_bounded_alike :
    ¬ ∀ bytes : List UInt8, byteLength (Base64.encode bytes) ≤ maxAudioBase64Chars → bytes.length ≤ maxValueBytes := by
  intro h
  have hlength : (List.replicate (maxValueBytes + 1) (0 : UInt8)).length = maxValueBytes + 1 := List.length_replicate
  have hbounded := h (List.replicate (maxValueBytes + 1) 0) (byteLength_encode_le_iff.mpr (by rw [hlength]; omega))
  rw [hlength] at hbounded
  omega

/-- **Audio is accepted in its canonical encoding only.** The accepted texts are the encodings of one byte to the bound,
and reading and writing are inverse to each other on them. The bound on the text refuses none of them; of longer audio it
lets through just two lengths, which the bound on the audio refuses. -/
theorem fromBase64_canonical (libs : Libraries) (hlibs : Base64Standard libs) :
    (∀ text, (∃ value, G711Ulaw.fromBase64 libs text = .ok value) ↔
        ∃ bytes : List UInt8, 1 ≤ bytes.length ∧ bytes.length ≤ maxValueBytes ∧ text = Base64.encode bytes) ∧
      (∀ value : G711Ulaw, G711Ulaw.fromBase64 libs (libs.base64Encode value.val) = .ok value) ∧
      (∀ text value, G711Ulaw.fromBase64 libs text = .ok value → libs.base64Encode value.val = text) ∧
      (∀ bytes : List UInt8, bytes.length ≤ maxValueBytes → byteLength (Base64.encode bytes) ≤ maxAudioBase64Chars) ∧
      (∀ bytes : List UInt8, byteLength (Base64.encode bytes) ≤ maxAudioBase64Chars ↔
        bytes.length ≤ maxValueBytes + 2) ∧
      ∀ bytes : List UInt8, maxValueBytes < bytes.length →
        G711Ulaw.fromBase64 libs (Base64.encode bytes) = .error .audioTooLarge := by
  refine ⟨fun text => ?_, fun value => ?_, fun text value => fromBase64_eq_ok libs, fun bytes h => ?_,
    fun bytes => byteLength_encode_le_iff, fun bytes h => ?_⟩
  · constructor
    · rintro ⟨value, h⟩
      exact ⟨value.val, List.length_pos_iff.mpr value.property.1, value.property.2,
        (fromBase64_eq_ok_iff hlibs).mp h⟩
    · rintro ⟨bytes, hpos, hsize, rfl⟩
      exact ⟨⟨bytes, List.length_pos_iff.mp hpos, hsize⟩, (fromBase64_eq_ok_iff hlibs).mpr rfl⟩
  · rw [hlibs.encode]
    exact (fromBase64_eq_ok_iff hlibs).mpr rfl
  · exact byteLength_encode_le_iff.mpr (by omega)
  · rw [fromBase64_encode hlibs bytes (List.length_pos_iff.mp (by omega)), dif_neg (by omega)]

/-- Standard base64, and no JSON. -/
def standardLibraries : Libraries where
  read := fun _ => none
  base64Decode := Base64.decode
  base64Encode := Base64.encode

theorem base64Standard_standardLibraries : Base64Standard standardLibraries := ⟨fun _ => rfl, Base64.decode_encode⟩

theorem fromBase64_standardLibraries :
    G711Ulaw.fromBase64 standardLibraries (Base64.encode [255, 127]) = .ok ⟨[255, 127], by decide⟩ :=
  (fromBase64_canonical standardLibraries base64Standard_standardLibraries).2.1 ⟨[255, 127], by decide⟩

end AgentVoice.Realtime

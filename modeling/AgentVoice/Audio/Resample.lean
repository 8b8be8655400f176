import AgentVoice.Audio.StreamingWav
import Mathlib

/-!
# Resampling

`resample_linear_mono` of `src/audio.rs` with exact fractions for its floating-point numbers. Each output sample lies on
the line between two neighbouring input samples. The last position stays below the number of input samples, because
the length is rounded to the nearest number (`position_lt`), so no index leaves the input.

The rate comes from the header of the payload, where nothing checks it. A rate of zero is divided by
(`resamplesSafely_iff`); in floating point the quotient is an infinity, and no vector has room for so many samples.
-/

namespace AgentVoice.Audio

open AgentVoice.Foundations

/-- `TELEPHONY_RATE`. -/
def telephonyRate : ℕ := 8000

/-- A division, which a zero divisor stops. -/
def divide (a b : ℚ) : WavResult ℚ := if b = 0 then .error .panic else .ok (a / b)

/-- `f64::round`: to the nearest integer, halves away from zero. -/
def round (q : ℚ) : ℤ := if 0 ≤ q then ⌊q + 1 / 2⌋ else ⌈q - 1 / 2⌉

/-- `as usize`. -/
def asUsize (q : ℚ) : ℕ := min usizeMax ⌊q⌋.toNat

/-- `Vec::with_capacity`, for samples of two bytes each. -/
def withCapacity (len : ℕ) : WavResult Unit := require (2 * len ≤ isizeMax) .panic

/-- The body of the loop. -/
def resampleAt (input : List Int16) (ratio : ℚ) (index : ℕ) : WavResult Int16 := do
  let position ← divide index ratio
  let lower := asUsize position
  let upper := min (min usizeMax (lower + 1)) (input.length - 1)
  let frac := position - lower
  let lowerSample ← indexAt input lower
  let upperSample ← indexAt input upper
  let sample : ℚ := lowerSample.toInt + (upperSample.toInt - lowerSample.toInt) * frac
  return Int16.ofInt (max (-32768) (min 32767 (round sample)))

/-- `resample_linear_mono`. -/
def resampleLinearMono (input : List Int16) (inputRate outputRate : ℕ) : WavResult (List Int16) :=
  if input.isEmpty = true ∨ inputRate = outputRate then .ok input
  else do
    let ratio ← divide outputRate inputRate
    let outputLen := asUsize (max (round (input.length * ratio)) 1 : ℤ)
    withCapacity outputLen
    (List.range outputLen).mapM (resampleAt input ratio)

/-! ### What resampling promises -/

/-- The sample lies between the input samples on both sides of its position. -/
def Between (input : List Int16) (rate index : ℕ) (sample : Int16) : Prop :=
  ∃ a b, input[index * rate / telephonyRate]? = some a ∧
    input[min (index * rate / telephonyRate + 1) (input.length - 1)]? = some b ∧
    min a.toInt b.toInt ≤ sample.toInt ∧ sample.toInt ≤ max a.toInt b.toInt

/-- The number of samples that `input` has at the telephony rate. -/
def outputLen (input : List Int16) (rate : ℕ) : ℤ := max 1 (round (input.length * telephonyRate / rate))

/-- The output of resampling to the telephony rate. -/
structure Resampled (input : List Int16) (rate : ℕ) (output : List Int16) : Prop where
  length_eq : input ≠ [] → (output.length : ℤ) = outputLen input rate
  empty : input = [] → output = []
  between : List.Forall₂ (Between input rate) (List.range output.length) output

/-- Resampling these samples to the telephony rate ends with such an output. -/
def ResamplesSafely (input : List Int16) (rate : ℕ) : Prop :=
  ∃ output, resampleLinearMono input rate telephonyRate = .ok output ∧ Resampled input rate output

/-! ### Rounding -/

theorem round_mono_int {q : ℚ} {m M : ℤ} (hm : (m : ℚ) ≤ q) (hM : q ≤ M) : m ≤ round q ∧ round q ≤ M := by
  unfold round
  split_ifs with h
  · constructor
    · refine Int.le_floor.mpr ?_
      linarith
    · have hlt : ⌊q + 1 / 2⌋ < M + 1 := Int.floor_lt.mpr (by push_cast; linarith)
      omega
  · constructor
    · have hlt : m - 1 < ⌈q - 1 / 2⌉ := Int.lt_ceil.mpr (by push_cast; linarith)
      omega
    · refine Int.ceil_le.mpr ?_
      linarith

theorem round_le {q : ℚ} (h : 0 ≤ q) : (round q : ℚ) ≤ q + 1 / 2 := by
  rw [round, if_pos h]
  exact Int.floor_le _

/-- A point on the line between two values lies between them. -/
theorem line_between {a b : ℤ} {frac : ℚ} (h0 : 0 ≤ frac) (h1 : frac ≤ 1) :
    ((min a b : ℤ) : ℚ) ≤ a + (b - a) * frac ∧ a + (b - a) * frac ≤ ((max a b : ℤ) : ℚ) := by
  rcases le_total a b with hab | hab
  · have hab' : (a : ℚ) ≤ b := by exact_mod_cast hab
    rw [min_eq_left hab, max_eq_right hab]
    constructor <;> nlinarith
  · have hab' : (b : ℚ) ≤ a := by exact_mod_cast hab
    rw [min_eq_right hab, max_eq_left hab]
    constructor <;> nlinarith

/-! ### One output sample -/

section

variable {input : List Int16} {rate index : ℕ}

/-- **No position reaches the end of the input.** -/
theorem position_lt (hinput : input ≠ []) (hrate : rate ≠ 0) (hindex : (index : ℤ) < outputLen input rate) :
    index * rate / telephonyRate < input.length := by
  have hpos : 0 < input.length := List.length_pos_iff.mpr hinput
  have hrate' : (0 : ℚ) < rate := by exact_mod_cast Nat.pos_of_ne_zero hrate
  rw [Nat.div_lt_iff_lt_mul (by decide)]
  rcases Nat.eq_zero_or_pos index with rfl | hindexpos
  · rw [Nat.zero_mul]
    exact Nat.mul_pos hpos (by decide)
  · have hround : (index : ℤ) + 1 ≤ round (input.length * telephonyRate / rate) := by
      rw [outputLen] at hindex
      omega
    have hround' : ((index : ℚ) + 1) ≤ input.length * telephonyRate / rate + 1 / 2 := by
      refine le_trans ?_ (round_le (by positivity))
      exact_mod_cast hround
    have hle : (index : ℚ) + 1 / 2 ≤ input.length * telephonyRate / rate := by linarith
    have hmul : ((index : ℚ) + 1 / 2) * rate ≤ input.length * telephonyRate := (le_div_iff₀ hrate').mp hle
    have hlt : (index : ℚ) * rate < input.length * telephonyRate := by nlinarith
    exact_mod_cast hlt

theorem floor_position (index rate : ℕ) : ⌊(index : ℚ) / (telephonyRate / rate)⌋ = (index * rate / telephonyRate : ℕ) := by
  rw [div_div_eq_mul_div, ← Nat.cast_mul]
  exact Rat.floor_natCast_div_natCast _ _

theorem resampleAt_between (hlength : input.length ≤ isizeMax) (hinput : input ≠ []) (hrate : rate ≠ 0)
    (hindex : (index : ℤ) < outputLen input rate) :
    ∃ sample, resampleAt input (telephonyRate / rate) index = .ok sample ∧ Between input rate index sample := by
  have hlt := position_lt hinput hrate hindex
  have hfloor := floor_position index rate
  set position : ℚ := (index : ℚ) / (telephonyRate / rate) with hposition
  set lower := index * rate / telephonyRate with hlower
  have hratio : ((telephonyRate : ℚ) / rate) ≠ 0 := div_ne_zero (by decide +kernel) (Nat.cast_ne_zero.mpr hrate)
  have hasUsize : asUsize position = lower := by
    rw [asUsize, hfloor, Int.toNat_natCast, usizeMax]
    rw [isizeMax] at hlength
    omega
  have hupper : min (min usizeMax (lower + 1)) (input.length - 1) = min (lower + 1) (input.length - 1) := by
    rw [usizeMax]
    rw [isizeMax] at hlength
    omega
  have hupperlt : min (lower + 1) (input.length - 1) < input.length := by omega
  obtain ⟨a, ha⟩ : ∃ a, input[lower]? = some a := ⟨_, List.getElem?_eq_getElem hlt⟩
  obtain ⟨b, hb⟩ : ∃ b, input[min (lower + 1) (input.length - 1)]? = some b := ⟨_, List.getElem?_eq_getElem hupperlt⟩
  have hfrac0 : 0 ≤ position - lower := by
    have := Int.floor_le position
    rw [hfloor] at this
    push_cast at this
    linarith
  have hfrac1 : position - lower ≤ 1 := by
    have := Int.lt_floor_add_one position
    rw [hfloor] at this
    push_cast at this
    linarith
  obtain ⟨hlow, hhigh⟩ := line_between (a := a.toInt) (b := b.toInt) hfrac0 hfrac1
  obtain ⟨hlow, hhigh⟩ := round_mono_int hlow hhigh
  have ha' := a.le_toInt
  have ha'' := a.toInt_lt
  have hb' := b.le_toInt
  have hb'' := b.toInt_lt
  set sample := round (a.toInt + (b.toInt - a.toInt) * (position - lower)) with hsample
  have hclamp : max (-32768) (min 32767 sample) = sample := by omega
  refine ⟨Int16.ofInt sample, ?_, a, b, ha, hb, ?_⟩
  · simp only [resampleAt, divide, if_neg hratio, ok_bind, ← hposition, hasUsize, hupper, indexAt_of ha, indexAt_of hb,
      ← hsample, hclamp]
    rfl
  · rw [Int16.toInt_ofInt_of_le (by omega) (by omega)]
    exact ⟨hlow, hhigh⟩

end

/-! ### The whole output -/

/-- Samples that can be resampled to the telephony rate: the rate is not zero, and a vector has room for the output. -/
def Resamplable (input : List Int16) (rate : ℕ) : Prop :=
  input = [] ∨ rate = telephonyRate ∨ rate ≠ 0 ∧ 2 * outputLen input rate ≤ isizeMax

theorem outputLen_telephonyRate {input : List Int16} (h : input ≠ []) :
    outputLen input telephonyRate = input.length := by
  have hpos : 0 < input.length := List.length_pos_iff.mpr h
  have hquotient : (input.length : ℚ) * telephonyRate / telephonyRate = ((input.length : ℤ) : ℚ) := by
    rw [mul_div_cancel_right₀ _ (by decide +kernel)]
    rfl
  obtain ⟨hlow, hhigh⟩ := round_mono_int (le_of_eq hquotient.symm) (le_of_eq hquotient)
  rw [outputLen]
  omega

/-- At the telephony rate the samples are kept. -/
theorem resampled_self (input : List Int16) : Resampled input telephonyRate input where
  length_eq h := (outputLen_telephonyRate h).symm
  empty h := h
  between := by
    refine List.forall₂_iff_get.mpr ⟨List.length_range, fun i hi hi' => ?_⟩
    have hindex : (List.range input.length).get ⟨i, hi⟩ * telephonyRate / telephonyRate = i := by
      rw [List.get_eq_getElem, List.getElem_range]
      exact Nat.mul_div_cancel _ (by decide)
    obtain ⟨b, hb⟩ : ∃ b, input[min (i + 1) (input.length - 1)]? = some b :=
      ⟨_, List.getElem?_eq_getElem (by omega)⟩
    rw [Between, hindex]
    exact ⟨input[i], b, List.getElem?_eq_getElem hi', hb, min_le_left _ _, le_max_left _ _⟩

theorem resampleLinearMono_eq {input : List Int16} {rate : ℕ} (hinput : input ≠ []) (hrate : rate ≠ telephonyRate) :
    resampleLinearMono input rate telephonyRate = (do
      let ratio ← divide telephonyRate rate
      let outputLen := asUsize (max (round (input.length * ratio)) 1 : ℤ)
      withCapacity outputLen
      (List.range outputLen).mapM (resampleAt input ratio)) := by
  have hempty : ¬ (input.isEmpty = true ∨ rate = telephonyRate) := by
    rw [List.isEmpty_iff]
    exact not_or.mpr ⟨hinput, hrate⟩
  rw [resampleLinearMono, if_neg hempty]

theorem asUsize_outputLen (input : List Int16) (rate : ℕ) :
    asUsize (max (round (input.length * (telephonyRate / rate))) 1 : ℤ) = min usizeMax (outputLen input rate).toNat := by
  rw [asUsize, Int.floor_intCast, outputLen, max_comm, mul_div_assoc]

theorem resamplesSafely_iff {input : List Int16} {rate : ℕ} (hlength : input.length ≤ isizeMax) :
    ResamplesSafely input rate ↔ Resamplable input rate := by
  by_cases hinput : input = []
  · subst hinput
    exact iff_of_true ⟨[], rfl, fun h => absurd rfl h, fun _ => rfl, List.Forall₂.nil⟩ (Or.inl rfl)
  by_cases hrate : rate = telephonyRate
  · subst hrate
    exact iff_of_true ⟨input, if_pos (Or.inr rfl), resampled_self input⟩ (Or.inr (Or.inl rfl))
  rw [ResamplesSafely, resampleLinearMono_eq hinput hrate, Resamplable]
  constructor
  · rintro ⟨output, hrun, -⟩
    obtain ⟨ratio, hratio, hrun⟩ := bind_eq_ok_iff.mp hrun
    rw [divide] at hratio
    split_ifs at hratio with hzero
    obtain rfl := Except.ok.inj hratio
    obtain ⟨_, hcapacity, -⟩ := bind_eq_ok_iff.mp hrun
    have hcapacity := require_eq_ok_iff.mp hcapacity
    rw [asUsize_outputLen, usizeMax] at hcapacity
    refine Or.inr (Or.inr ⟨fun h => hzero (by rw [h]; rfl), ?_⟩)
    have hpos : 1 ≤ outputLen input rate := le_max_left _ _
    rw [isizeMax] at *
    omega
  · rintro (h | h | ⟨hzero, hfits⟩)
    · exact absurd h hinput
    · exact absurd h hrate
    have hpos : 1 ≤ outputLen input rate := le_max_left _ _
    have hlen : asUsize (max (round (input.length * (telephonyRate / rate))) 1 : ℤ) = (outputLen input rate).toNat := by
      rw [asUsize_outputLen, usizeMax]
      rw [isizeMax] at hfits
      omega
    have hexact : ∀ index ∈ List.range (outputLen input rate).toNat,
        ∃ sample, resampleAt input (telephonyRate / rate) index = .ok sample ∧ Between input rate index sample :=
      fun index hindex => resampleAt_between hlength hinput hzero (by have := List.mem_range.mp hindex; omega)
    obtain ⟨output, hrun, hbetween⟩ := exists_mapM_eq_ok hexact
    have houtput : output.length = (outputLen input rate).toNat := by
      rw [← hbetween.length_eq, List.length_range]
    refine ⟨output, ?_, fun _ => by rw [houtput]; omega, fun h => absurd h hinput, by rw [houtput]; exact hbetween⟩
    have hcapacity : withCapacity (outputLen input rate).toNat = .ok () := require_of (by omega) _
    rw [divide, if_neg (Nat.cast_ne_zero.mpr hzero), ok_bind]
    dsimp only
    rw [hlen, hcapacity, ok_bind, hrun]

/-- **Resampling a payload of the streaming reader is safe exactly when its rate is not zero and a vector has room for
the output**; without samples, or at the telephony rate, nothing is computed. -/
theorem resample_decoded_iff (hound : List UInt8 → Option WavReader) {input : List UInt8} {rate : ℕ}
    {samples : List Int16} (hinput : input.length ≤ isizeMax) (hrefused : hound input = none)
    (hdecode : decodeWavMonoI16 hound input = .ok (rate, samples)) :
    ResamplesSafely samples rate ↔ Resamplable samples rate := by
  rw [decodeWavMonoI16, hrefused] at hdecode
  exact resamplesSafely_iff ((length_le_of_decodeStreamingWavMonoI16 hdecode).trans hinput)

/-- A streamed file of four samples. -/
def streamedFile (rate : UInt32) : WavFile :=
  ⟨[0xff, 0xff, 0xff, 0xff], [fmtChunk 1 rate],
    some ⟨u32Max, [5, 0, 0xff, 0x7f, 0, 0x80, 7, 0], by decide, Or.inl rfl⟩, rfl⟩

theorem decode_streamedFile (rate : UInt32) :
    (streamedFile rate).bytes.length ≤ isizeMax ∧
      decodeWavMonoI16 (fun _ => none) (streamedFile rate).bytes = .ok (rate.toNat, [5, 32767, -32768, 7]) := by
  have hholds : (streamedFile rate).Holds rate (.mono [5, 32767, -32768, 7]) :=
    ⟨⟨fmtChunk 1 rate, rfl, isFmt_fmtBody 1 rate⟩, rfl, by decide⟩
  have hfull : (streamedFile rate).FullChunkLast := by
    intro before c after hsplit hc
    have hmem : c ∈ [fmtChunk 1 rate] := by
      rw [show [fmtChunk 1 rate] = before ++ c :: after from hsplit]
      exact List.mem_append_right _ List.mem_cons_self
    rw [List.mem_singleton.mp hmem] at hc
    exact absurd hc (by rw [Chunk.IsFull]; simp [fmtChunk, fmtBody, u32Max])
  have hlength : (streamedFile rate).bytes.length ≤ isizeMax := by
    have hheader := (streamedFile rate).length_header
    have hchunks : (streamedFile rate).chunks.flatMap Chunk.bytes = (fmtChunk 1 rate).bytes := List.append_nil _
    have hchunk : (fmtChunk 1 rate).bytes.length = 24 := by
      rw [(fmtChunk 1 rate).length_bytes, show (fmtChunk 1 rate).body.length = 16 from rfl]
      rfl
    have htail : (streamedFile rate).tail.length = 16 := rfl
    rw [WavFile.bytes, List.length_append, List.length_append, hheader, hchunks, hchunk, htail]
    decide
  exact ⟨hlength, hholds.decode hfull hlength⟩

theorem resample_decoded_streamedFile :
    ResamplesSafely [5, 32767, -32768, 7] 24000 ↔ Resamplable [5, 32767, -32768, 7] 24000 :=
  resample_decoded_iff (fun _ => none) (decode_streamedFile 24000).1 rfl (decode_streamedFile 24000).2

/-- A payload whose header says that there are no samples in a second. -/
theorem resample_decoded_zeroRate :
    decodeWavMonoI16 (fun _ => none) (streamedFile 0).bytes = .ok (0, [5, 32767, -32768, 7]) ∧
      ¬ ResamplesSafely [5, 32767, -32768, 7] 0 := by
  refine ⟨(decode_streamedFile 0).2, ?_⟩
  rintro ⟨output, hrun, -⟩
  rw [resampleLinearMono_eq (by decide) (by decide), divide, if_pos Nat.cast_zero] at hrun
  cases hrun

end AgentVoice.Audio

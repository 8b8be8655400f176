import Mathlib

/-!
# Mu-law encoding

`encode_mulaw` of `src/audio.rs` writes a 16-bit sample as one byte: a sign, the number of a segment and four bits of
mantissa. G.711 fixes how such a byte is expanded (`expand`): the biased magnitude lies in the middle of one of sixteen
equal steps of its segment, and each segment is twice as long as the one below.

The table of `linear_to_mulaw` numbers the segments from the biased magnitude 32 on, where the standard starts at 256,
so every segment but the last is taken for one that is three higher, and the last one for all from 2048 on. Only the
samples of the true last segment, from 16252 on in magnitude, are encoded as the standard expands them
(`expand_linearToMulaw`); all others come back far too large (`isG711_iff`).
-/

namespace AgentVoice.Audio

/-! ### The standard -/

/-- The bias of G.711. -/
def bias : ℤ := 0x84

/-- The largest magnitude that is encoded. -/
def clip : ℤ := 32635

/-- A sample, limited to the magnitudes that are encoded. -/
def clipped (sample : Int16) : ℤ := max (-clip) (min clip sample.toInt)

/-- The biased magnitude of a sample. -/
def biased (sample : Int16) : ℕ := (|clipped sample| + bias).toNat

/-- The number of the segment of a sample: the biased magnitudes of segment `e` are those from `2 ^ (e + 7)` to
`2 ^ (e + 8)`. -/
def segment (sample : Int16) : ℕ := Nat.log 2 (biased sample) - 7

/-- The quantisation step of a sample, one sixteenth of its segment. -/
def step (sample : Int16) : ℤ := 2 ^ (segment sample + 3)

/-- The magnitude that the mantissa `mantissa` of the segment `exponent` stands for. -/
def magnitude (exponent mantissa : ℕ) : ℤ := (8 * mantissa + bias) * 2 ^ exponent - bias

/-- The expansion of a byte; its bits are sent inverted. -/
def expand (byte : UInt8) : Int16 :=
  let bits := ~~~byte
  let level := magnitude ((bits >>> 4) &&& 0x07).toNat (bits &&& 0x0f).toNat
  Int16.ofInt (if bits &&& 0x80 = 0 then level else -level)

/-! ### The encoder -/

/-- `i16::MAX`. -/
def i16Max : ℤ := 32767

/-- `i16::saturating_neg`. -/
def saturatingNeg (x : ℤ) : ℤ := min i16Max (-x)

/-- `i16::saturating_add`, of two positive values. -/
def saturatingAdd (x y : ℤ) : ℤ := min i16Max (x + y)

/-- The table of `linear_to_mulaw`. -/
def exponent (clipped : ℤ) : ℕ :=
  if clipped ≤ 0x1f then 0
  else if clipped ≤ 0x3f then 1
  else if clipped ≤ 0x7f then 2
  else if clipped ≤ 0xff then 3
  else if clipped ≤ 0x1ff then 4
  else if clipped ≤ 0x3ff then 5
  else if clipped ≤ 0x7ff then 6
  else 7

/-- The last line of `linear_to_mulaw`. -/
def muLawByte (sign : UInt8) (exponent mantissa : ℕ) : UInt8 :=
  sign ^^^ (UInt8.ofNat exponent <<< 4 ||| UInt8.ofNat mantissa)

/-- `linear_to_mulaw`. -/
def linearToMulaw (sample : Int16) : UInt8 :=
  let (pcm, sign) : ℤ × UInt8 := if sample.toInt < 0 then (saturatingNeg sample.toInt, 0x7f) else (sample.toInt, 0xff)
  let clipped := saturatingAdd (min pcm clip) bias
  let mantissa := clipped.toNat >>> (exponent clipped + 3) &&& 0x0f
  muLawByte sign (exponent clipped) mantissa

/-- `encode_mulaw`. -/
def encodeMulaw (samples : List Int16) : List UInt8 := samples.map linearToMulaw

/-! ### What the encoder computes -/

theorem biased_bounds (sample : Int16) : 132 ≤ biased sample ∧ biased sample < 32768 := by
  simp only [biased, clipped, bias, clip, abs_eq_max_neg]
  omega

theorem coe_biased (sample : Int16) : (biased sample : ℤ) = |clipped sample| + bias := by
  simp only [biased, clipped, bias, clip, abs_eq_max_neg]
  omega

theorem biased_eq (sample : Int16) : (biased sample : ℤ) = min clip (max sample.toInt (-sample.toInt)) + bias := by
  rw [coe_biased, abs_eq_max_neg]
  simp only [clipped, bias, clip]
  omega

theorem abs_clipped (sample : Int16) :
    |clipped sample| = min (if sample.toInt < 0 then saturatingNeg sample.toInt else sample.toInt) clip := by
  have := sample.le_toInt
  have := sample.toInt_lt
  simp only [clipped, saturatingNeg, i16Max, clip, abs_eq_max_neg]
  split_ifs <;> omega

theorem linearToMulaw_eq (sample : Int16) :
    linearToMulaw sample = muLawByte (if sample.toInt < 0 then 0x7f else 0xff) (exponent (biased sample))
      (biased sample / 2 ^ (exponent (biased sample) + 3) % 16) := by
  have hbiased : saturatingAdd |clipped sample| bias = biased sample := by
    have := (biased_bounds sample).2
    rw [saturatingAdd, ← coe_biased, i16Max]
    omega
  have hmantissa : ∀ n : ℕ, n &&& 0x0f = n % 16 := fun n => Nat.and_two_pow_sub_one_eq_mod n 4
  rw [abs_clipped] at hbiased
  unfold linearToMulaw
  split_ifs with hneg
  all_goals
    simp only [hneg, if_true, if_false] at hbiased
    simp only [hbiased, Int.toNat_natCast, Nat.shiftRight_eq_div_pow, hmantissa]

/-- The bytes are written as the standard reads them. -/
theorem toInt_expand_muLawByte {e m : ℕ} (he : e < 8) (hm : m < 16) :
    (expand (muLawByte 0xff e m)).toInt = magnitude e m ∧ (expand (muLawByte 0x7f e m)).toInt = -magnitude e m := by
  have hall : ∀ e : Fin 8, ∀ m : Fin 16, (expand (muLawByte 0xff e m)).toInt = magnitude e m ∧
      (expand (muLawByte 0x7f e m)).toInt = -magnitude e m := by decide +kernel
  exact hall ⟨e, he⟩ ⟨m, hm⟩

theorem exponent_lt (b : ℤ) : exponent b < 8 := by
  unfold exponent
  split_ifs <;> decide

/-- The magnitude that the byte of a sample stands for. -/
def written (sample : Int16) : ℤ :=
  magnitude (exponent (biased sample)) (biased sample / 2 ^ (exponent (biased sample) + 3) % 16)

theorem toInt_expand_linearToMulaw (sample : Int16) :
    (expand (linearToMulaw sample)).toInt = if sample.toInt < 0 then -written sample else written sample := by
  have hexpand := toInt_expand_muLawByte (exponent_lt (biased sample))
    (Nat.mod_lt (biased sample / 2 ^ (exponent (biased sample) + 3)) (by decide : 16 > 0))
  rw [linearToMulaw_eq, written]
  split_ifs
  · exact hexpand.2
  · exact hexpand.1

/-! ### The last segment, and the others -/

/-- A sample of the last segment: its biased magnitude is 16384 or more. -/
def InLastSegment (sample : Int16) : Prop := 16252 ≤ |sample.toInt|

instance (sample : Int16) : Decidable (InLastSegment sample) := inferInstanceAs (Decidable (_ ≤ _))

theorem inLastSegment_iff (sample : Int16) : InLastSegment sample ↔ 16384 ≤ biased sample := by
  have := sample.le_toInt
  have := sample.toInt_lt
  simp only [InLastSegment, biased, clipped, bias, clip, abs_eq_max_neg]
  omega

/-- In the last segment the encoder writes the middle of the step of the sample. -/
theorem written_of_inLastSegment {sample : Int16} (h : InLastSegment sample) :
    written sample = 1024 * (biased sample / 1024 : ℕ) + 512 - bias := by
  have hlow := (inLastSegment_iff sample).mp h
  have hhigh := (biased_bounds sample).2
  have he : exponent (biased sample) = 7 := by
    unfold exponent
    split_ifs <;> omega
  simp only [written, he, magnitude, bias]
  omega

/-- Below the last segment it writes a magnitude that is more than half the largest step too large. -/
theorem lt_written_of_not_inLastSegment {sample : Int16} (h : ¬ InLastSegment sample) :
    (biased sample : ℤ) - bias + 512 < written sample := by
  have hhigh := not_le.mp (mt (inLastSegment_iff sample).mpr h)
  have hlow := (biased_bounds sample).1
  generalize hb : biased sample = b at *
  simp only [written, hb, magnitude, bias, exponent]
  split_ifs <;> omega

theorem segment_le (sample : Int16) : segment sample ≤ 7 := by
  have hlog : Nat.log 2 (biased sample) < 15 := Nat.log_lt_of_lt_pow (by have := biased_bounds sample; omega)
    (biased_bounds sample).2
  simp only [segment]
  omega

theorem segment_of_inLastSegment {sample : Int16} (h : InLastSegment sample) : segment sample = 7 := by
  have hle : 14 ≤ Nat.log 2 (biased sample) :=
    Nat.le_log_of_pow_le (by decide) ((inLastSegment_iff sample).mp h)
  have := segment_le sample
  simp only [segment] at *
  omega

/-! ### Lists of samples -/

/-- What the standard promises about a sample and its expansion: they are half a step apart at most, and the sign is
kept. -/
structure Faithful (sample expanded : Int16) : Prop where
  error_le : 2 * |expanded.toInt - clipped sample| ≤ step sample
  nonneg : 0 ≤ sample.toInt → 0 ≤ expanded.toInt
  nonpos : sample.toInt ≤ 0 → expanded.toInt ≤ 0

/-- The expansion of what is encoded. -/
def decoded (samples : List Int16) : List Int16 := (encodeMulaw samples).map expand

/-- `encode_mulaw` is mu-law encoding on these samples. -/
structure IsG711 (samples : List Int16) : Prop where
  length_eq : (decoded samples).length = samples.length
  faithful : List.Forall₂ Faithful samples (decoded samples)
  /-- A larger sample is not expanded to a smaller value. -/
  ordered : ∀ p ∈ samples.zip (decoded samples), ∀ q ∈ samples.zip (decoded samples),
    p.1.toInt ≤ q.1.toInt → p.2.toInt ≤ q.2.toInt
  /-- Encoding the expansion gives the same bytes. -/
  again : encodeMulaw (decoded samples) = encodeMulaw samples

theorem faithful_iff (sample : Int16) : Faithful sample (expand (linearToMulaw sample)) ↔ InLastSegment sample := by
  have hexpand := toInt_expand_linearToMulaw sample
  have hbiased := coe_biased sample
  rw [bias] at hbiased
  have hsign : clipped sample = if sample.toInt < 0 then -|clipped sample| else |clipped sample| := by
    simp only [clipped, clip, abs_eq_max_neg]
    split_ifs <;> omega
  constructor
  · intro h
    by_contra hlow
    have hlt := lt_written_of_not_inLastSegment hlow
    have hstep : step sample ≤ 2 ^ (7 + 3) := pow_le_pow_right₀ (by decide) (Nat.add_le_add_right (segment_le sample) 3)
    have herror := h.error_le
    rw [bias] at hlt
    rw [hexpand, hsign, abs_eq_max_neg] at herror
    split_ifs at herror <;> omega
  · intro h
    have hwritten := written_of_inLastSegment h
    have hstep : step sample = 2 ^ (7 + 3) := by rw [step, segment_of_inLastSegment h]
    have hlow := (inLastSegment_iff sample).mp h
    refine ⟨?_, fun hpos => ?_, fun hneg => ?_⟩
    · rw [bias] at hwritten
      rw [hexpand, hsign, hstep, abs_eq_max_neg]
      split_ifs <;> omega
    · rw [hexpand, if_neg (not_lt.mpr hpos), hwritten, bias]
      omega
    · have hne : sample.toInt < 0 := by
        simp only [InLastSegment, abs_eq_max_neg] at h
        omega
      rw [hexpand, if_pos hne, hwritten, bias]
      omega

theorem expand_mono {s t : Int16} (hs : InLastSegment s) (ht : InLastSegment t) (h : s.toInt ≤ t.toInt) :
    (expand (linearToMulaw s)).toInt ≤ (expand (linearToMulaw t)).toInt := by
  have hs' := written_of_inLastSegment hs
  have ht' := written_of_inLastSegment ht
  have hslow := (inLastSegment_iff s).mp hs
  have htlow := (inLastSegment_iff t).mp ht
  have hsbiased := biased_eq s
  have htbiased := biased_eq t
  simp only [bias, clip] at *
  rw [toInt_expand_linearToMulaw, toInt_expand_linearToMulaw, hs', ht']
  split_ifs <;> omega

theorem linearToMulaw_expand {sample : Int16} (h : InLastSegment sample) :
    linearToMulaw (expand (linearToMulaw sample)) = linearToMulaw sample := by
  have hexpand := toInt_expand_linearToMulaw sample
  have hwritten := written_of_inLastSegment h
  have hlow := (inLastSegment_iff sample).mp h
  have hhigh := (biased_bounds sample).2
  have hsign : (expand (linearToMulaw sample)).toInt < 0 ↔ sample.toInt < 0 := by
    rw [hexpand, hwritten, bias]
    split_ifs <;> omega
  have hbiased : biased (expand (linearToMulaw sample)) = 1024 * (biased sample / 1024) + 512 := by
    have heq := biased_eq (expand (linearToMulaw sample))
    rw [hexpand, hwritten, bias, clip] at heq
    split_ifs at heq <;> omega
  have he : ∀ b : ℤ, 16384 ≤ b → exponent b = 7 := by
    intro b hb
    unfold exponent
    split_ifs <;> omega
  have hmantissa : (1024 * (biased sample / 1024) + 512) / 2 ^ (7 + 3) % 16 = biased sample / 2 ^ (7 + 3) % 16 := by omega
  rw [linearToMulaw_eq (expand (linearToMulaw sample)), hbiased, he _ (by omega), hmantissa]
  simp only [hsign]
  rw [linearToMulaw_eq sample, he _ (by omega)]

/-- **The encoder is mu-law exactly on samples of the last segment.** -/
theorem isG711_iff (samples : List Int16) : IsG711 samples ↔ ∀ s ∈ samples, InLastSegment s := by
  have hdecoded : decoded samples = samples.map fun s => expand (linearToMulaw s) := List.map_map
  constructor
  · intro h s hs
    have hfaithful := h.faithful
    rw [hdecoded, List.forall₂_map_right_iff, List.forall₂_same] at hfaithful
    exact (faithful_iff s).mp (hfaithful s hs)
  · intro h
    refine ⟨by simp [hdecoded], ?_, ?_, ?_⟩
    · rw [hdecoded, List.forall₂_map_right_iff, List.forall₂_same]
      exact fun s hs => (faithful_iff s).mpr (h s hs)
    · intro p hp q hq hle
      rw [hdecoded, ← List.map_prod_left_eq_zip] at hp hq
      obtain ⟨s, hs, rfl⟩ := List.mem_map.mp hp
      obtain ⟨t, ht, rfl⟩ := List.mem_map.mp hq
      exact expand_mono (h s hs) (h t ht) hle
    · rw [hdecoded, encodeMulaw, List.map_map]
      exact List.map_congr_left fun s hs => linearToMulaw_expand (h s hs)

/-- Silence comes back as 1052. -/
theorem not_isG711_silence : (decoded [0]).map Int16.toInt = [1052] ∧ ¬ IsG711 [0] := by
  refine ⟨by decide +kernel, fun h => ?_⟩
  have hfaithful : Faithful 0 (expand (linearToMulaw 0)) := (List.forall₂_cons.mp h.faithful).1
  have hlast := (faithful_iff 0).mp hfaithful
  revert hlast
  decide

end AgentVoice.Audio

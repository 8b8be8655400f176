import AgentVoice.Foundations.LittleEndian

/-!
# Reading WAV payloads

`decode_wav_mono_i16` of `src/audio.rs`: the library reader first, and where that refuses the payload, a walk over the
chunks of the file that also accepts the sizes a streaming writer leaves open. A chunk whose size is the placeholder
`u32::MAX`, or reaches past the end, takes all that is left. The walk moves forward by eight bytes at least, so it ends,
and no index of it leaves the payload (`noPanic_decodeStreamingWavMonoI16`).
-/

namespace AgentVoice.Audio

open AgentVoice.Foundations

/-- The result of a reader, with the text of its error. -/
abbrev WavResult := Except (Fault String)

/-- `u32::MAX`. -/
def u32Max : ℕ := 2 ^ 32 - 1

/-- `usize::MAX`. -/
def usizeMax : ℕ := 2 ^ 64 - 1

/-! ### The chunks -/

/-- What the walk has found. -/
@[ext]
structure Found where
  sampleRate : Option ℕ
  channels : Option ℕ
  bitsPerSample : Option ℕ
  data : Option (List UInt8)

/-- What the walk starts with. -/
def Found.nothing : Found := ⟨none, none, none, none⟩

/-- What a pass of the loop ends with. -/
inductive Pass where
  | stop (found : Found)
  | next (cursor : ℕ) (found : Found)

/-- What is known after a pass. -/
def Pass.found : Pass → Found
  | stop found => found
  | next _ found => found

/-- The arm of `b"fmt "`. -/
def readFmt (chunk : List UInt8) (found : Found) : WavResult Found := do
  require (16 ≤ chunk.length) (.error "invalid WAV fmt chunk")
  let audioFormat := fromLeBytes [← indexAt chunk 0, ← indexAt chunk 1]
  require (audioFormat = 1) (.error s!"unsupported WAV format {audioFormat}")
  let channels := fromLeBytes [← indexAt chunk 2, ← indexAt chunk 3]
  let sampleRate := fromLeBytes [← indexAt chunk 4, ← indexAt chunk 5, ← indexAt chunk 6, ← indexAt chunk 7]
  let bitsPerSample := fromLeBytes [← indexAt chunk 14, ← indexAt chunk 15]
  return { found with sampleRate := some sampleRate, channels := some channels, bitsPerSample := some bitsPerSample }

/-- `b"fmt "`. -/
def fmtId : List UInt8 := utf8 "fmt "

/-- `b"data"`. -/
def dataId : List UInt8 := utf8 "data"

/-- The number of bytes of a chunk that the walk takes. -/
def actualLen (chunkSize remaining : ℕ) : ℕ :=
  if chunkSize = u32Max ∨ remaining < chunkSize then remaining else chunkSize

/-- The length of a chunk with its padding. -/
def paddedLen (actualLen : ℕ) : ℕ := if actualLen % 2 = 0 then actualLen else actualLen + 1

/-- The match on the chunk's name, and the end of the loop's body. -/
def readChunk (chunkId chunk : List UInt8) (chunkSize cursor : ℕ) (found : Found) : WavResult Pass := do
  if chunkId = fmtId then
    let found ← readFmt chunk found
    return .next cursor found
  else if chunkId = dataId then
    let found := { found with data := some chunk }
    return if chunkSize = u32Max then .stop found else .next cursor found
  else return .next cursor found

/-- One pass of the loop, with its condition first. -/
def pass (input : List UInt8) (cursor : ℕ) (found : Found) : WavResult Pass := do
  let headerEnd ← checkedPlus cursor 8
  if input.length < headerEnd then return .stop found
  else
    let chunkId ← slice input cursor (cursor + 4)
    let chunkSize := fromLeBytes (← slice input (cursor + 4) (cursor + 8))
    let chunkStart := headerEnd
    if input.length < chunkStart then return .stop found
    else
      let actualLen := actualLen chunkSize (input.length - chunkStart)
      let chunk ← slice input chunkStart (chunkStart + actualLen)
      readChunk chunkId chunk chunkSize (min usizeMax (chunkStart + paddedLen actualLen)) found

theorem cursor_of_readChunk {chunkId chunk : List UInt8} {chunkSize cursor cursor' : ℕ} {found found' : Found}
    (h : readChunk chunkId chunk chunkSize cursor found = .ok (.next cursor' found')) : cursor' = cursor := by
  unfold readChunk at h
  split_ifs at h with hfmt hdata hplaceholder
  · obtain ⟨_, -, h⟩ := bind_eq_ok_iff.mp h
    cases h
    rfl
  all_goals
    cases h
  all_goals rfl

/-- What a pass that goes on has done. -/
theorem exists_of_pass {input : List UInt8} {cursor cursor' : ℕ} {found found' : Found}
    (h : pass input cursor found = .ok (.next cursor' found')) :
    cursor + 8 ≤ input.length ∧ cursor + 8 < 2 ^ 64 ∧
      ∃ size, cursor' = min usizeMax (cursor + 8 + paddedLen (actualLen size (input.length - (cursor + 8)))) := by
  obtain ⟨headerEnd, hplus, h⟩ := bind_eq_ok_iff.mp h
  obtain ⟨rfl, hfits⟩ := checkedPlus_eq_ok_iff.mp hplus
  split_ifs at h with hend
  · cases h
  obtain ⟨chunkId, -, h⟩ := bind_eq_ok_iff.mp h
  obtain ⟨bytes, -, h⟩ := bind_eq_ok_iff.mp h
  dsimp only at h
  rw [if_neg hend] at h
  obtain ⟨chunk, -, h⟩ := bind_eq_ok_iff.mp h
  exact ⟨not_lt.mp hend, hfits, _, cursor_of_readChunk h⟩

/-- A pass that goes on moves forward. -/
theorem lt_of_pass {input : List UInt8} {cursor cursor' : ℕ} {found found' : Found}
    (h : pass input cursor found = .ok (.next cursor' found')) : cursor < input.length ∧ cursor < cursor' := by
  obtain ⟨hend, hfits, size, hcursor⟩ := exists_of_pass h
  rw [usizeMax] at hcursor
  omega

/-- The loop. -/
def readChunks (input : List UInt8) (cursor : ℕ) (found : Found) : WavResult Found :=
  match _h : pass input cursor found with
  | .error e => .error e
  | .ok (.stop found') => .ok found'
  | .ok (.next cursor' found') => readChunks input cursor' found'
termination_by input.length - cursor
decreasing_by
  have := lt_of_pass _h
  omega

/-! ### The samples -/

/-- `as_chunks::<2>`, without the element that is left over. -/
def asChunks {α : Type} : List α → List (α × α)
  | a :: b :: rest => (a, b) :: asChunks rest
  | _ => []

/-- `stereo_to_mono`; the sum is an `i32`, divided towards zero. -/
def stereoToMono (samples : List Int16) : List Int16 :=
  (asChunks samples).map fun pair => Int16.ofInt ((pair.1.toInt + pair.2.toInt).tdiv 2)

/-- The end of `decode_streaming_wav_mono_i16`, after the loop. -/
def finish (found : Found) : WavResult (ℕ × List Int16) := do
  let sampleRate ← okOr found.sampleRate (.error "missing WAV fmt chunk")
  let channels ← okOr found.channels (.error "missing WAV channel count")
  let bitsPerSample ← okOr found.bitsPerSample (.error "missing WAV bit depth")
  require (bitsPerSample = 16) (.error s!"unsupported WAV bit depth {bitsPerSample}")
  let data ← okOr found.data (.error "missing WAV data chunk")
  let sampleCount := data.length / 2
  let whole ← slice data 0 (sampleCount * 2)
  let samples := (asChunks whole).map fun chunk => i16FromLeBytes chunk.1 chunk.2
  match channels with
  | 1 => return (sampleRate, samples)
  | 2 => return (sampleRate, stereoToMono samples)
  | _ => .error (.error s!"unsupported channel count {channels}")

/-- `decode_streaming_wav_mono_i16`. -/
def decodeStreamingWavMonoI16 (input : List UInt8) : WavResult (ℕ × List Int16) := do
  if input.length < 12 then .error (.error "invalid WAV payload")
  else
    let riff ← slice input 0 4
    let wave ← slice input 8 12
    if riff ≠ utf8 "RIFF" ∨ wave ≠ utf8 "WAVE" then .error (.error "invalid WAV payload")
    else finish (← readChunks input 12 .nothing)

/-! ### With the library reader -/

/-- The sample format of a payload that the library reader accepts. -/
inductive SampleFormat where
  | int
  | float
  deriving DecidableEq, Repr

/-- What the library reader says about a payload that it accepts; a sample that cannot be read as an `i16` fails. -/
structure WavReader where
  channels : ℕ
  sampleRate : ℕ
  bitsPerSample : ℕ
  sampleFormat : SampleFormat
  samples : Option (List Int16)

/-- `decode_wav_mono_i16`, with the library reader as `hound`. -/
def decodeWavMonoI16 (hound : List UInt8 → Option WavReader) (input : List UInt8) : WavResult (ℕ × List Int16) :=
  match hound input with
  | none => decodeStreamingWavMonoI16 input
  | some reader => do
    require (reader.bitsPerSample = 16) (.error s!"unsupported WAV bit depth {reader.bitsPerSample}")
    require (reader.sampleFormat = .int) (.error "unsupported WAV sample format Float")
    let samples ← okOr reader.samples (.error "failed to read WAV samples")
    match reader.channels with
    | 1 => return (reader.sampleRate, samples)
    | 2 => return (reader.sampleRate, stereoToMono samples)
    | _ => .error (.error s!"unsupported channel count {reader.channels}")

/-! ### No index leaves the payload -/

theorem noPanic_readFmt (chunk : List UInt8) (found : Found) : NoPanic (readFmt chunk found) := by
  refine NoPanic.bind (NoPanic.require _ _) fun _ hlen => ?_
  have hlen := require_eq_ok_iff.mp hlen
  refine NoPanic.bind (NoPanic.indexAt (by omega)) fun _ _ => ?_
  refine NoPanic.bind (NoPanic.indexAt (by omega)) fun _ _ => ?_
  refine NoPanic.bind (NoPanic.require _ _) fun _ _ => ?_
  refine NoPanic.bind (NoPanic.indexAt (by omega)) fun _ _ => ?_
  refine NoPanic.bind (NoPanic.indexAt (by omega)) fun _ _ => ?_
  refine NoPanic.bind (NoPanic.indexAt (by omega)) fun _ _ => ?_
  refine NoPanic.bind (NoPanic.indexAt (by omega)) fun _ _ => ?_
  refine NoPanic.bind (NoPanic.indexAt (by omega)) fun _ _ => ?_
  refine NoPanic.bind (NoPanic.indexAt (by omega)) fun _ _ => ?_
  refine NoPanic.bind (NoPanic.indexAt (by omega)) fun _ _ => ?_
  refine NoPanic.bind (NoPanic.indexAt (by omega)) fun _ _ => ?_
  exact NoPanic.ok _

theorem noPanic_readChunk (chunkId chunk : List UInt8) (chunkSize cursor : ℕ) (found : Found) :
    NoPanic (readChunk chunkId chunk chunkSize cursor found) := by
  unfold readChunk
  split_ifs
  · exact NoPanic.bind (noPanic_readFmt chunk found) fun _ _ => NoPanic.ok _
  · exact NoPanic.ok _
  · exact NoPanic.ok _
  · exact NoPanic.ok _

theorem actualLen_le (chunkSize remaining : ℕ) : actualLen chunkSize remaining ≤ remaining := by
  unfold actualLen
  split_ifs with h
  · exact le_rfl
  · omega

theorem noPanic_pass {input : List UInt8} {cursor : ℕ} (hcursor : cursor + 8 < 2 ^ 64) (found : Found) :
    NoPanic (pass input cursor found) := by
  refine NoPanic.bind (NoPanic.checkedPlus hcursor) fun headerEnd hplus => ?_
  obtain ⟨rfl, -⟩ := checkedPlus_eq_ok_iff.mp hplus
  split_ifs with hend
  · exact NoPanic.ok _
  refine NoPanic.bind (NoPanic.slice (by omega) (by omega)) fun _ _ => ?_
  refine NoPanic.bind (NoPanic.slice (by omega) (by omega)) fun bytes _ => ?_
  have hlen := actualLen_le (fromLeBytes bytes) (input.length - (cursor + 8))
  dsimp only
  rw [if_neg hend]
  refine NoPanic.bind (NoPanic.slice (Nat.le_add_right _ _) (by omega)) fun _ _ => ?_
  exact noPanic_readChunk _ _ _ _ _

/-- A pass moves the cursor one byte past the end at most. -/
theorem le_of_pass {input : List UInt8} {cursor cursor' : ℕ} {found found' : Found}
    (h : pass input cursor found = .ok (.next cursor' found')) : cursor' ≤ input.length + 1 := by
  obtain ⟨hend, -, size, hcursor⟩ := exists_of_pass h
  have hlen := actualLen_le size (input.length - (cursor + 8))
  rw [paddedLen] at hcursor
  split_ifs at hcursor <;> omega

theorem noPanic_readChunks {input : List UInt8} (hinput : input.length ≤ isizeMax) (cursor : ℕ) (found : Found)
    (hcursor : cursor ≤ input.length + 1) : NoPanic (readChunks input cursor found) := by
  have hpass : NoPanic (pass input cursor found) := noPanic_pass (by rw [isizeMax] at hinput; omega) found
  fun_induction readChunks input cursor found with
  | case1 cursor found e h =>
    rw [h] at hpass
    exact fun hpanic => hpass (congrArg _ (Except.error.inj hpanic))
  | case2 => exact NoPanic.ok _
  | case3 cursor found cursor' found' h ih =>
    have hcursor' := le_of_pass h
    exact ih hcursor' (noPanic_pass (by rw [isizeMax] at hinput; omega) found')

theorem noPanic_finish (found : Found) : NoPanic (finish found) := by
  refine NoPanic.bind (NoPanic.okOr _ _) fun _ _ => ?_
  refine NoPanic.bind (NoPanic.okOr _ _) fun channels _ => ?_
  refine NoPanic.bind (NoPanic.okOr _ _) fun _ _ => ?_
  refine NoPanic.bind (NoPanic.require _ _) fun _ _ => ?_
  refine NoPanic.bind (NoPanic.okOr _ _) fun _ _ => ?_
  refine NoPanic.bind (NoPanic.slice (Nat.zero_le _) (Nat.div_mul_le_self _ _)) fun _ _ => ?_
  intro h
  split at h <;> cases h

/-- **The walk ends without an index outside the payload.** -/
theorem noPanic_decodeStreamingWavMonoI16 {input : List UInt8} (hinput : input.length ≤ isizeMax) :
    NoPanic (decodeStreamingWavMonoI16 input) := by
  unfold decodeStreamingWavMonoI16
  split_ifs with hlen
  · exact fun h => by cases h
  refine NoPanic.bind (NoPanic.slice (by omega) (by omega)) fun _ _ => ?_
  refine NoPanic.bind (NoPanic.slice (by omega) (by omega)) fun _ _ => ?_
  split_ifs with hmagic
  · exact fun h => by cases h
  refine NoPanic.bind (noPanic_readChunks hinput 12 .nothing (by omega)) fun found _ => ?_
  exact noPanic_finish found

/-! ### There are no more samples than bytes -/

/-- The data that was found is a part of the payload. -/
def Found.Fits (input : List UInt8) (found : Found) : Prop := ∀ d ∈ found.data, d.length ≤ input.length

theorem data_of_readFmt {chunk : List UInt8} {found found' : Found} (h : readFmt chunk found = .ok found') :
    found'.data = found.data := by
  unfold readFmt at h
  simp only [bind_eq_ok_iff] at h
  obtain ⟨_, -, _, -, _, -, _, -, _, -, _, -, _, -, _, -, _, -, _, -, _, -, _, -, h⟩ := h
  cases h
  rfl

theorem Found.Fits.readChunk {input chunkId chunk : List UInt8} {chunkSize cursor : ℕ} {found : Found} {p : Pass}
    (hfound : found.Fits input) (hchunk : chunk.length ≤ input.length)
    (h : readChunk chunkId chunk chunkSize cursor found = .ok p) : p.found.Fits input := by
  have hfits : Found.Fits input { found with data := some chunk } := by
    intro d hd
    cases hd
    exact hchunk
  unfold Audio.readChunk at h
  split_ifs at h with hfmt hdata hplaceholder
  · obtain ⟨found', hread, h⟩ := bind_eq_ok_iff.mp h
    cases h
    intro d hd
    have hkeeps : found'.data = found.data := data_of_readFmt hread
    exact hfound d (hkeeps ▸ hd)
  · cases h
    exact hfits
  · cases h
    exact hfits
  · cases h
    exact hfound

theorem Found.Fits.pass {input : List UInt8} {cursor : ℕ} {found : Found} {p : Pass} (hfound : found.Fits input)
    (h : pass input cursor found = .ok p) : p.found.Fits input := by
  obtain ⟨headerEnd, hplus, h⟩ := bind_eq_ok_iff.mp h
  split_ifs at h with hend
  · cases h
    exact hfound
  obtain ⟨chunkId, -, h⟩ := bind_eq_ok_iff.mp h
  obtain ⟨bytes, -, h⟩ := bind_eq_ok_iff.mp h
  dsimp only at h
  rw [if_neg hend] at h
  obtain ⟨chunk, hslice, h⟩ := bind_eq_ok_iff.mp h
  obtain ⟨a, c, rfl, -, -⟩ := slice_eq_ok_iff.mp hslice
  refine hfound.readChunk ?_ h
  simp only [List.length_append]
  omega

theorem Found.Fits.readChunks {input : List UInt8} {cursor : ℕ} {found found' : Found} (hfound : found.Fits input)
    (h : readChunks input cursor found = .ok found') : found'.Fits input := by
  fun_induction Audio.readChunks input cursor found with
  | case1 => cases h
  | case2 cursor found found'' hpass =>
    cases h
    exact hfound.pass hpass
  | case3 cursor found cursor' found'' hpass ih => exact ih (hfound.pass hpass) h

theorem length_asChunks_le {α : Type} (as : List α) : (asChunks as).length ≤ as.length := by
  fun_induction asChunks as with
  | case1 a b rest ih =>
    simp only [List.length_cons]
    omega
  | case2 => exact Nat.zero_le _

/-- **There are no more samples than bytes.** -/
theorem length_le_of_decodeStreamingWavMonoI16 {input : List UInt8} {rate : ℕ} {samples : List Int16}
    (h : decodeStreamingWavMonoI16 input = .ok (rate, samples)) : samples.length ≤ input.length := by
  unfold decodeStreamingWavMonoI16 at h
  split_ifs at h with hlen
  obtain ⟨_, -, h⟩ := bind_eq_ok_iff.mp h
  obtain ⟨_, -, h⟩ := bind_eq_ok_iff.mp h
  split_ifs at h with hmagic
  obtain ⟨found, hwalk, h⟩ := bind_eq_ok_iff.mp h
  have hfits : found.Fits input := Found.Fits.readChunks (fun d hd => by cases hd) hwalk
  unfold finish at h
  simp only [bind_eq_ok_iff, okOr_eq_ok_iff] at h
  obtain ⟨_, -, channels, -, _, -, _, -, data, hdata, whole, hwhole, h⟩ := h
  obtain ⟨a, c, hsplit, -, -⟩ := slice_eq_ok_iff.mp hwhole
  have hdata := hfits data hdata
  have hpart : whole.length ≤ data.length := by
    rw [hsplit]
    simp only [List.length_append]
    omega
  have hsamples := length_asChunks_le whole
  split at h
  · cases h
    rw [List.length_map]
    omega
  · cases h
    have hmono := length_asChunks_le ((asChunks whole).map fun chunk => i16FromLeBytes chunk.1 chunk.2)
    rw [List.length_map] at hmono
    rw [stereoToMono, List.length_map]
    omega
  · cases h

end AgentVoice.Audio

import AgentVoice.Audio.Wav

/-!
# What the streaming reader accepts

A WAV file is a `RIFF` header and a list of chunks, each padded to an even length. A streaming writer leaves the size
of its last chunk, the data, open: the size field holds `u32::MAX` or reaches past the end (`OpenData`).

The walk reads the chunks one after the other (`readChunks_chunks`) and ends up with the one format and the one data
chunk among them, so it returns the rate and the samples of the file (`decodeStreamingWavMonoI16_bytes`). There is one
exception: the size `u32::MAX` always is the placeholder, also for a chunk that has this length, so what follows such a
chunk is not found (`decodeStreamingWavMonoI16_afterFullChunk`).
-/

namespace AgentVoice.Audio

open AgentVoice.Foundations

/-! ### Files -/

/-- A chunk of a file. -/
structure Chunk where
  id : List UInt8
  body : List UInt8
  /-- The byte that follows a body of odd length. -/
  pad : UInt8
  id_length : id.length = 4
  fits : body.length < 2 ^ 32

namespace Chunk

/-- The padding. -/
def padding (c : Chunk) : List UInt8 := if c.body.length % 2 = 0 then [] else [c.pad]

def bytes (c : Chunk) : List UInt8 := c.id ++ (toLeBytes 4 c.body.length ++ (c.body ++ c.padding))

/-- The chunk's length is the placeholder. -/
def IsFull (c : Chunk) : Prop := c.body.length = u32Max

theorem length_body_padding (c : Chunk) : (c.body ++ c.padding).length = paddedLen c.body.length := by
  rw [List.length_append, padding, paddedLen]
  split_ifs <;> simp

theorem length_bytes (c : Chunk) : c.bytes.length = 8 + paddedLen c.body.length := by
  rw [bytes, List.length_append, List.length_append, length_toLeBytes, c.id_length, length_body_padding]
  omega

end Chunk

/-- A data chunk whose size field does not say its length. -/
structure OpenData where
  size : ℕ
  body : List UInt8
  fits : size < 2 ^ 32
  size_open : size = u32Max ∨ body.length < size

def OpenData.bytes (d : OpenData) : List UInt8 := dataId ++ (toLeBytes 4 d.size ++ d.body)

/-- A RIFF/WAVE file; what it says about its own length is not read. -/
structure WavFile where
  riffSize : List UInt8
  chunks : List Chunk
  openData : Option OpenData
  riffSize_length : riffSize.length = 4

namespace WavFile

/-- The bytes after the last complete chunk. -/
def tail (file : WavFile) : List UInt8 := (file.openData.map OpenData.bytes).getD []

def header (file : WavFile) : List UInt8 := utf8 "RIFF" ++ (file.riffSize ++ utf8 "WAVE")

def bytes (file : WavFile) : List UInt8 := file.header ++ (file.chunks.flatMap Chunk.bytes ++ file.tail)

theorem length_header (file : WavFile) : file.header.length = 12 := by
  rw [header, List.length_append, List.length_append, file.riffSize_length]
  rfl

end WavFile

/-! ### What a file holds -/

/-- The samples of a recording. -/
inductive Recording where
  | mono (samples : List Int16)
  | stereo (frames : List (Int16 × Int16))

namespace Recording

def channels : Recording → ℕ
  | mono _ => 1
  | stereo _ => 2

/-- The samples in the order of the file. -/
def samples : Recording → List Int16
  | mono samples => samples
  | stereo frames => frames.flatMap fun f => [f.1, f.2]

/-- One channel; the two samples of a frame are averaged, towards zero. -/
def downmix : Recording → List Int16
  | mono samples => samples
  | stereo frames => frames.map fun f => Int16.ofInt ((f.1.toInt + f.2.toInt).tdiv 2)

def data (recording : Recording) : List UInt8 := recording.samples.flatMap i16ToLeBytes

end Recording

/-- The body of a format chunk of 16-bit PCM. -/
def IsFmt (channels rate : ℕ) (body : List UInt8) : Prop :=
  ∃ byteRate blockAlign extra, byteRate.length = 4 ∧ blockAlign.length = 2 ∧
    body = toLeBytes 2 1 ++ (toLeBytes 2 channels ++ (toLeBytes 4 rate ++ (byteRate ++ (blockAlign ++
      (toLeBytes 2 16 ++ extra)))))

/-- The file has one format chunk and one data chunk, which hold the recording. -/
structure WavFile.Holds (file : WavFile) (rate : UInt32) (recording : Recording) : Prop where
  fmt : ∃ c, file.chunks.filter (·.id = fmtId) = [c] ∧ IsFmt recording.channels rate.toNat c.body
  data :
    match file.openData with
    | none => ∃ c, file.chunks.filter (·.id = dataId) = [c] ∧ c.body = recording.data
    | some d => file.chunks.filter (·.id = dataId) = [] ∧ d.body = recording.data

/-- Nothing follows a chunk whose length is the placeholder. -/
def WavFile.FullChunkLast (file : WavFile) : Prop :=
  ∀ before c after, file.chunks = before ++ c :: after → c.IsFull → after = [] ∧ file.openData = none

/-! ### The samples -/

theorem asChunks_flatMap {α β : Type} (f g : α → β) (as : List α) :
    asChunks (as.flatMap fun a => [f a, g a]) = as.map fun a => (f a, g a) := by
  induction as with
  | nil => rfl
  | cons a as ih => rw [List.flatMap_cons, List.map_cons, ← ih]; rfl

namespace Recording

theorem length_data (recording : Recording) : recording.data.length = 2 * recording.samples.length := by
  rw [data]
  induction recording.samples with
  | nil => rfl
  | cons s samples ih =>
    rw [List.flatMap_cons, List.length_append, ih, List.length_cons, i16ToLeBytes, length_toLeBytes]
    omega

/-- The reader takes the samples back from the data. -/
theorem samples_data (recording : Recording) :
    ((asChunks recording.data).map fun chunk => i16FromLeBytes chunk.1 chunk.2) = recording.samples := by
  have hbytes : recording.data = recording.samples.flatMap fun s =>
      [UInt8.ofNat s.toUInt16.toNat, UInt8.ofNat (s.toUInt16.toNat / 256)] := rfl
  rw [hbytes, asChunks_flatMap, List.map_map]
  exact (List.map_congr_left fun s _ => i16FromLeBytes_i16ToLeBytes s).trans (List.map_id _)

/-- What the walk has found in a file with a recording. -/
def found (recording : Recording) (rate : ℕ) : Found :=
  ⟨some rate, some recording.channels, some 16, some recording.data⟩

theorem finish_found (recording : Recording) (rate : ℕ) :
    finish (recording.found rate) = .ok (rate, recording.downmix) := by
  have hlength : recording.data.length / 2 * 2 = recording.data.length := by
    rw [length_data]
    omega
  have hwhole : slice (ε := String) recording.data 0 (recording.data.length / 2 * 2) = .ok recording.data := by
    rw [hlength, slice_of (Nat.zero_le _) le_rfl, Nat.sub_zero, List.drop_zero, List.take_length]
  simp only [finish, found, okOr, ok_bind, require, if_true, hwhole, samples_data]
  cases recording with
  | mono samples => rfl
  | stereo frames =>
    simp only [channels, samples, stereoToMono, asChunks_flatMap, List.map_map]
    rfl

end Recording

/-! ### One chunk -/

/-- What the walk knows after a chunk, in a file whose format chunk says `channels` and `rate`. -/
def Found.after (channels rate : ℕ) (found : Found) (c : Chunk) : Found :=
  if c.id = fmtId then { found with sampleRate := some rate, channels := some channels, bitsPerSample := some 16 }
  else if c.id = dataId then { found with data := some c.body }
  else found

theorem readFmt_of {channels rate : ℕ} {body : List UInt8} (h : IsFmt channels rate body) (hchannels : channels < 2 ^ 16)
    (hrate : rate < 2 ^ 32) (found : Found) :
    readFmt body found =
      .ok { found with sampleRate := some rate, channels := some channels, bitsPerSample := some 16 } := by
  obtain ⟨byteRate, blockAlign, extra, hbyteRate, hblockAlign, hbody⟩ := h
  have hlen : 16 ≤ body.length := by
    rw [hbody]
    simp only [List.length_append, length_toLeBytes, hbyteRate, hblockAlign]
    omega
  rw [readFmt, require_of hlen, ok_bind, hbody]
  obtain ⟨_, _, _, _, rfl⟩ := List.length_eq_four.mp hbyteRate
  obtain ⟨_, _, rfl⟩ := List.length_eq_two.mp hblockAlign
  have hchannels' : fromLeBytes [UInt8.ofNat channels, UInt8.ofNat (channels / 256)] = channels :=
    fromLeBytes_toLeBytes (show channels < 256 ^ 2 from hchannels)
  have hrate' : fromLeBytes [UInt8.ofNat rate, UInt8.ofNat (rate / 256), UInt8.ofNat (rate / 256 / 256),
      UInt8.ofNat (rate / 256 / 256 / 256)] = rate :=
    fromLeBytes_toLeBytes (show rate < 256 ^ 4 from hrate)
  have hone : fromLeBytes [UInt8.ofNat 1, UInt8.ofNat (1 / 256)] = 1 := by decide
  have hsixteen : fromLeBytes [UInt8.ofNat 16, UInt8.ofNat (16 / 256)] = 16 := by decide
  simp only [toLeBytes, List.cons_append, List.nil_append, indexAt, List.getElem?_cons_zero, List.getElem?_cons_succ,
    okOr, ok_bind, hone, hchannels', hrate', hsixteen, require, if_true]
  rfl

theorem IsFmt.append {channels rate : ℕ} {body : List UInt8} (h : IsFmt channels rate body) (more : List UInt8) :
    IsFmt channels rate (body ++ more) := by
  obtain ⟨byteRate, blockAlign, extra, hbyteRate, hblockAlign, rfl⟩ := h
  exact ⟨byteRate, blockAlign, extra ++ more, hbyteRate, hblockAlign, by simp only [List.append_assoc]⟩

/-- A pass over a header with a size and what it makes of the bytes behind it. -/
theorem pass_eq {pre id rest : List UInt8} {size : ℕ} (hid : id.length = 4) (hsize : size < 2 ^ 32)
    (hinput : (pre ++ (id ++ (toLeBytes 4 size ++ rest))).length ≤ isizeMax) (found : Found) :
    pass (pre ++ (id ++ (toLeBytes 4 size ++ rest))) pre.length found =
      readChunk id (rest.take (actualLen size rest.length)) size
        (pre.length + (8 + paddedLen (actualLen size rest.length))) found := by
  have hlength : (pre ++ (id ++ (toLeBytes 4 size ++ rest))).length = pre.length + 8 + rest.length := by
    simp only [List.length_append, length_toLeBytes, hid]
    omega
  have hactual := actualLen_le size rest.length
  have hpadded : paddedLen (actualLen size rest.length) ≤ rest.length + 1 := by
    rw [paddedLen]
    split_ifs <;> omega
  rw [hlength, isizeMax] at hinput
  have hchunkId : slice (ε := String) (pre ++ (id ++ (toLeBytes 4 size ++ rest))) pre.length (pre.length + 4) = .ok id :=
    slice_eq_ok_iff.mpr ⟨pre, _, rfl, rfl, by rw [hid]⟩
  have hchunkSize : slice (ε := String) (pre ++ (id ++ (toLeBytes 4 size ++ rest))) (pre.length + 4) (pre.length + 8) =
      .ok (toLeBytes 4 size) :=
    slice_eq_ok_iff.mpr ⟨pre ++ id, rest, by rw [List.append_assoc], by rw [List.length_append, hid],
      by rw [length_toLeBytes]⟩
  have hchunk : slice (ε := String) (pre ++ (id ++ (toLeBytes 4 size ++ rest))) (pre.length + 8)
      (pre.length + 8 + actualLen size rest.length) = .ok (rest.take (actualLen size rest.length)) := by
    refine slice_eq_ok_iff.mpr ⟨pre ++ (id ++ toLeBytes 4 size), rest.drop (actualLen size rest.length), ?_, ?_, ?_⟩
    · rw [List.take_append_drop, List.append_assoc, List.append_assoc]
    · rw [List.length_append, List.length_append, hid, length_toLeBytes]
    · rw [List.length_take, min_eq_left hactual]
  have hremaining : pre.length + 8 + rest.length - (pre.length + 8) = rest.length := Nat.add_sub_cancel_left _ _
  have hcursor : min usizeMax (pre.length + 8 + paddedLen (actualLen size rest.length)) =
      pre.length + (8 + paddedLen (actualLen size rest.length)) := by
    rw [usizeMax]
    omega
  simp only [pass, checkedPlus_of (show pre.length + 8 < 2 ^ 64 by omega), ok_bind, hlength, hchunkId, hchunkSize,
    fromLeBytes_toLeBytes (show size < 256 ^ 4 from hsize), hremaining, hchunk, hcursor]
  rw [if_neg (by omega), if_neg (by omega)]

theorem readChunk_after {channels rate : ℕ} {c : Chunk} {chunk : List UInt8} {size : ℕ} (hchannels : channels < 2 ^ 16)
    (hrate : rate < 2 ^ 32) (hfmt : c.id = fmtId → IsFmt channels rate chunk)
    (hdata : c.id = dataId → size ≠ u32Max ∧ chunk = c.body) (cursor : ℕ) (found : Found) :
    readChunk c.id chunk size cursor found = .ok (.next cursor (found.after channels rate c)) := by
  unfold readChunk Found.after
  by_cases hid : c.id = fmtId
  · rw [if_pos hid, if_pos hid, readFmt_of (hfmt hid) hchannels hrate]
    rfl
  rw [if_neg hid, if_neg hid]
  by_cases hid' : c.id = dataId
  · obtain ⟨hsize, rfl⟩ := hdata hid'
    rw [if_pos hid', if_pos hid']
    dsimp only
    rw [if_neg hsize]
    rfl
  · rw [if_neg hid', if_neg hid']
    rfl

/-- The walk passes a complete chunk. -/
theorem pass_chunk {channels rate : ℕ} {pre rest : List UInt8} {c : Chunk} (hchannels : channels < 2 ^ 16)
    (hrate : rate < 2 ^ 32) (hfmt : c.id = fmtId → IsFmt channels rate c.body)
    (hdata : c.id = dataId → c.body.length % 2 = 0) (hfull : c.IsFull → rest = [])
    (hinput : (pre ++ (c.bytes ++ rest)).length ≤ isizeMax) (found : Found) :
    pass (pre ++ (c.bytes ++ rest)) pre.length found =
      .ok (.next (pre.length + c.bytes.length) (found.after channels rate c)) := by
  have hassoc : c.bytes ++ rest = c.id ++ (toLeBytes 4 c.body.length ++ (c.body ++ (c.padding ++ rest))) := by
    simp only [Chunk.bytes, List.append_assoc]
  have hlength : (c.body ++ (c.padding ++ rest)).length = paddedLen c.body.length + rest.length := by
    rw [← List.append_assoc, List.length_append, c.length_body_padding]
  have hpadded : c.body.length ≤ paddedLen c.body.length := by
    rw [paddedLen]
    split_ifs <;> omega
  rw [hassoc] at hinput ⊢
  rw [pass_eq c.id_length c.fits hinput, hlength, c.length_bytes]
  by_cases hsize : c.IsFull
  · -- the placeholder takes the padding as well
    obtain rfl := hfull hsize
    have hodd : c.body.length % 2 = 1 := by rw [show c.body.length = u32Max from hsize]; decide
    have heven : paddedLen c.body.length % 2 = 0 := by
      rw [paddedLen, if_neg (by omega)]
      omega
    have hactual : actualLen c.body.length (paddedLen c.body.length + ([] : List UInt8).length) =
        paddedLen c.body.length := if_pos (Or.inl hsize)
    have htake : (c.body ++ (c.padding ++ [])).take (paddedLen c.body.length) = c.body ++ c.padding := by
      rw [List.append_nil, ← c.length_body_padding, List.take_length]
    have hcursor : paddedLen (paddedLen c.body.length) = paddedLen c.body.length := if_pos heven
    rw [hactual, htake, hcursor]
    refine readChunk_after hchannels hrate (fun hid => (hfmt hid).append _) (fun hid => ?_) _ _
    have := hdata hid
    omega
  · have hactual : actualLen c.body.length (paddedLen c.body.length + rest.length) = c.body.length :=
      if_neg (not_or.mpr ⟨hsize, by omega⟩)
    rw [hactual, List.take_left]
    exact readChunk_after hchannels hrate hfmt (fun _ => ⟨hsize, rfl⟩) _ _

/-! ### The whole walk -/

theorem readChunks_eq (input : List UInt8) (cursor : ℕ) (found : Found) :
    readChunks input cursor found =
      match pass input cursor found with
      | .error e => .error e
      | .ok (.stop found') => .ok found'
      | .ok (.next cursor' found') => readChunks input cursor' found' := by
  rw [readChunks]
  split <;> rename_i h <;> rw [h]

theorem readChunks_of_next {input : List UInt8} {cursor cursor' : ℕ} {found found' : Found}
    (hpass : pass input cursor found = .ok (.next cursor' found')) :
    readChunks input cursor found = readChunks input cursor' found' := by
  rw [readChunks_eq, hpass]

theorem readChunks_of_stop {input : List UInt8} {cursor : ℕ} {found found' : Found}
    (hpass : pass input cursor found = .ok (.stop found')) : readChunks input cursor found = .ok found' := by
  rw [readChunks_eq, hpass]

/-- The walk stops where no header follows. -/
theorem readChunks_end {input : List UInt8} {cursor : ℕ} (hcursor : cursor + 8 < 2 ^ 64)
    (hend : input.length < cursor + 8) (found : Found) : readChunks input cursor found = .ok found := by
  refine readChunks_of_stop ?_
  rw [pass, checkedPlus_of hcursor, ok_bind, if_pos hend]
  rfl

/-- What the file's format and data chunks have to be for the walk to pass every chunk. -/
structure Passable (channels rate : ℕ) (rest : List UInt8) (chunks : List Chunk) : Prop where
  fmt : ∀ c ∈ chunks, c.id = fmtId → IsFmt channels rate c.body
  data : ∀ c ∈ chunks, c.id = dataId → c.body.length % 2 = 0
  full : ∀ before c after, chunks = before ++ c :: after → c.IsFull → after = [] ∧ rest = []

theorem Passable.tail {channels rate : ℕ} {rest : List UInt8} {c : Chunk} {chunks : List Chunk}
    (h : Passable channels rate rest (c :: chunks)) : Passable channels rate rest chunks where
  fmt d hd := h.fmt d (List.mem_cons_of_mem _ hd)
  data d hd := h.data d (List.mem_cons_of_mem _ hd)
  full before d after hsplit := h.full (c :: before) d after (congrArg _ hsplit)

/-- **The walk over a list of chunks.** -/
theorem readChunks_chunks {channels rate : ℕ} {rest : List UInt8} {chunks : List Chunk} (hchannels : channels < 2 ^ 16)
    (hrate : rate < 2 ^ 32) (h : Passable channels rate rest chunks) {pre : List UInt8}
    (hinput : (pre ++ (chunks.flatMap Chunk.bytes ++ rest)).length ≤ isizeMax) (found : Found) :
    readChunks (pre ++ (chunks.flatMap Chunk.bytes ++ rest)) pre.length found =
      readChunks (pre ++ (chunks.flatMap Chunk.bytes ++ rest)) (pre ++ chunks.flatMap Chunk.bytes).length
        (chunks.foldl (Found.after channels rate) found) := by
  induction chunks generalizing pre found with
  | nil => rw [List.flatMap_nil, List.append_nil, List.foldl_nil]
  | cons c chunks ih =>
    have hsplit : pre ++ ((c :: chunks).flatMap Chunk.bytes ++ rest) =
        pre ++ (c.bytes ++ (chunks.flatMap Chunk.bytes ++ rest)) := by
      rw [List.flatMap_cons, List.append_assoc]
    have hnext : pre ++ (c.bytes ++ (chunks.flatMap Chunk.bytes ++ rest)) =
        (pre ++ c.bytes) ++ (chunks.flatMap Chunk.bytes ++ rest) := (List.append_assoc _ _ _).symm
    have hfull : c.IsFull → chunks.flatMap Chunk.bytes ++ rest = [] := by
      intro hc
      obtain ⟨rfl, rfl⟩ := h.full [] c chunks rfl hc
      rfl
    have hpass := pass_chunk hchannels hrate (h.fmt c List.mem_cons_self) (h.data c List.mem_cons_self) hfull
      (hsplit ▸ hinput) found
    rw [hsplit] at hinput ⊢
    rw [readChunks_of_next hpass, ← List.length_append, hnext, ih h.tail (hnext ▸ hinput), List.flatMap_cons,
      List.foldl_cons, List.append_assoc pre c.bytes (chunks.flatMap Chunk.bytes)]

/-- **The walk over the last, open chunk.** -/
theorem readChunks_openData {pre : List UInt8} (d : OpenData) (hinput : (pre ++ d.bytes).length ≤ isizeMax)
    (found : Found) : readChunks (pre ++ d.bytes) pre.length found = .ok { found with data := some d.body } := by
  have hactual : actualLen d.size d.body.length = d.body.length := if_pos d.size_open
  have hlength : dataId.length = 4 := rfl
  have hpass := pass_eq hlength d.fits hinput found
  have hne : dataId ≠ fmtId := by decide
  rw [hactual, List.take_length, readChunk, if_neg hne, if_pos rfl] at hpass
  dsimp only at hpass
  by_cases hsize : d.size = u32Max
  · rw [if_pos hsize] at hpass
    exact readChunks_of_stop hpass
  · rw [if_neg hsize] at hpass
    refine (readChunks_of_next hpass).trans (readChunks_end ?_ ?_ _)
    all_goals
      simp only [OpenData.bytes, List.length_append, length_toLeBytes, show dataId.length = 4 from rfl, isizeMax,
        paddedLen] at hinput ⊢
      split_ifs <;> omega

/-! ### What the walk has found -/

/-- A component that some steps of a fold write and the others keep holds what was written last. -/
theorem foldl_lastWritten {σ γ δ : Type} {get : σ → δ} {step : σ → γ → σ} {writes : γ → Bool} {value : γ → δ}
    (h : ∀ s c, get (step s c) = if writes c = true then value c else get s) (cs : List γ) (s : σ) :
    get (cs.foldl step s) = ((cs.filter writes).getLast?.map value).getD (get s) := by
  induction cs generalizing s with
  | nil => rfl
  | cons c cs ih =>
    rw [List.foldl_cons, ih, h]
    cases hc : writes c with
    | false => rw [List.filter_cons_of_neg (by rw [hc]; exact Bool.false_ne_true), if_neg Bool.false_ne_true]
    | true =>
      rw [List.filter_cons_of_pos hc, if_pos rfl, List.getLast?_cons]
      cases (cs.filter writes).getLast? <;> rfl

/-- What the format chunk says. -/
def Found.format (found : Found) : Option ℕ × Option ℕ × Option ℕ :=
  (found.sampleRate, found.channels, found.bitsPerSample)

theorem format_after (channels rate : ℕ) (found : Found) (c : Chunk) :
    (found.after channels rate c).format =
      if decide (c.id = fmtId) = true then (some rate, some channels, some 16) else found.format := by
  simp only [Found.after, decide_eq_true_eq]
  split_ifs <;> rfl

theorem data_after (channels rate : ℕ) (found : Found) (c : Chunk) :
    (found.after channels rate c).data = if decide (c.id = dataId) = true then some c.body else found.data := by
  simp only [Found.after, decide_eq_true_eq]
  split_ifs with hfmt hdata
  · exact absurd (hfmt.symm.trans hdata) (by decide)
  all_goals rfl

theorem Found.eq_found {recording : Recording} {rate : ℕ} {found : Found}
    (hformat : found.format = (some rate, some recording.channels, some 16)) (hdata : found.data = some recording.data) :
    found = recording.found rate := by
  simp only [Found.format, Prod.mk.injEq] at hformat
  exact Found.ext hformat.1 hformat.2.1 hformat.2.2 hdata

namespace WavFile

/-- The header of a file is accepted. -/
theorem decode_bytes (file : WavFile) :
    decodeStreamingWavMonoI16 file.bytes = readChunks file.bytes 12 .nothing >>= finish := by
  have hriff : slice (ε := String) file.bytes 0 4 = .ok (utf8 "RIFF") := slice_eq_ok_iff.mpr
    ⟨[], (file.riffSize ++ utf8 "WAVE") ++ (file.chunks.flatMap Chunk.bytes ++ file.tail),
      by rw [bytes, header, List.append_assoc, List.nil_append], rfl, rfl⟩
  have hwave : slice (ε := String) file.bytes 8 12 = .ok (utf8 "WAVE") := slice_eq_ok_iff.mpr
    ⟨utf8 "RIFF" ++ file.riffSize, file.chunks.flatMap Chunk.bytes ++ file.tail,
      by simp only [bytes, header, List.append_assoc], by rw [List.length_append, file.riffSize_length]; rfl, rfl⟩
  have hlength : ¬ file.bytes.length < 12 := by
    rw [bytes, List.length_append, length_header]
    omega
  rw [decodeStreamingWavMonoI16, if_neg hlength, hriff, ok_bind, hwave, ok_bind, if_neg (by simp)]

variable {file : WavFile} {rate : UInt32} {recording : Recording}

theorem Holds.passable (h : file.Holds rate recording) (hfull : file.FullChunkLast) :
    Passable recording.channels rate.toNat file.tail file.chunks where
  fmt c hc hid := by
    obtain ⟨d, hfilter, hfmt⟩ := h.fmt
    have hmem : c ∈ file.chunks.filter (·.id = fmtId) := List.mem_filter.mpr ⟨hc, decide_eq_true hid⟩
    rw [hfilter, List.mem_singleton] at hmem
    rwa [hmem]
  data c hc hid := by
    have hmem : c ∈ file.chunks.filter (·.id = dataId) := List.mem_filter.mpr ⟨hc, decide_eq_true hid⟩
    have hdata := h.data
    cases hopen : file.openData with
    | none =>
      rw [hopen] at hdata
      obtain ⟨d, hfilter, hbody⟩ := hdata
      rw [hfilter, List.mem_singleton] at hmem
      rw [hmem, hbody, recording.length_data]
      omega
    | some d =>
      rw [hopen] at hdata
      rw [hdata.1] at hmem
      exact absurd hmem List.not_mem_nil
  full before c after hsplit hc := by
    obtain ⟨hafter, hopen⟩ := hfull before c after hsplit hc
    exact ⟨hafter, by rw [tail, hopen]; rfl⟩

/-- The format and, where no chunk is open, the data that the complete chunks hold. -/
theorem Holds.found (h : file.Holds rate recording) :
    let found := file.chunks.foldl (Found.after recording.channels rate.toNat) .nothing
    found.format = (some rate.toNat, some recording.channels, some 16) ∧
      (file.openData = none → found.data = some recording.data) := by
  obtain ⟨c, hfmt, -⟩ := h.fmt
  refine ⟨?_, fun hopen => ?_⟩
  · rw [foldl_lastWritten (format_after recording.channels rate.toNat), hfmt]
    rfl
  · have hdata := h.data
    rw [hopen] at hdata
    obtain ⟨d, hfilter, hbody⟩ := hdata
    rw [foldl_lastWritten (data_after recording.channels rate.toNat), hfilter, ← hbody]
    rfl

theorem channels_lt (recording : Recording) : recording.channels < 2 ^ 16 := by
  cases recording with
  | mono samples => exact (by decide : 1 < 2 ^ 16)
  | stereo frames => exact (by decide : 2 < 2 ^ 16)

/-- **The streaming reader decodes every file.** -/
theorem Holds.decode (h : file.Holds rate recording) (hfull : file.FullChunkLast) (hinput : file.bytes.length ≤ isizeMax) :
    decodeStreamingWavMonoI16 file.bytes = .ok (rate.toNat, recording.downmix) := by
  have hbytes : file.bytes = file.header ++ (file.chunks.flatMap Chunk.bytes ++ file.tail) := rfl
  have hwalk : readChunks file.bytes 12 .nothing = .ok (recording.found rate.toNat) := by
    obtain ⟨hformat, hdata⟩ := h.found
    rw [hbytes] at hinput ⊢
    rw [← file.length_header, readChunks_chunks (channels_lt recording) rate.toNat_lt (h.passable hfull) hinput]
    rw [← List.append_assoc] at hinput ⊢
    cases hopen : file.openData with
    | none =>
      have htail : file.tail = [] := by rw [tail, hopen]; rfl
      rw [htail, List.append_nil] at hinput ⊢
      rw [isizeMax] at hinput
      rw [readChunks_end (by omega) (by omega), Found.eq_found hformat (hdata hopen)]
    | some d =>
      have htail : file.tail = d.bytes := by rw [tail, hopen]; rfl
      have hopenData := h.data
      rw [hopen] at hopenData
      rw [htail] at hinput ⊢
      rw [readChunks_openData d hinput, hopenData.2]
      exact congrArg _ (Found.eq_found hformat rfl)
  rw [decode_bytes, hwalk, ok_bind, recording.finish_found]

end WavFile

/-- The body of a format chunk. -/
def fmtBody (channels : ℕ) (rate : UInt32) : List UInt8 :=
  toLeBytes 2 1 ++ (toLeBytes 2 channels ++
    (toLeBytes 4 rate.toNat ++ ([0, 0, 0, 0] ++ ([0, 0] ++ (toLeBytes 2 16 ++ [])))))

theorem length_fmtBody (channels : ℕ) (rate : UInt32) : (fmtBody channels rate).length < 2 ^ 32 := by
  simp only [fmtBody, List.length_append, length_toLeBytes, List.length_cons, List.length_nil]
  decide

theorem isFmt_fmtBody (channels : ℕ) (rate : UInt32) : IsFmt channels rate.toNat (fmtBody channels rate) :=
  ⟨[0, 0, 0, 0], [0, 0], [], rfl, rfl, rfl⟩

/-- A format chunk. -/
def fmtChunk (channels : ℕ) (rate : UInt32) : Chunk :=
  ⟨fmtId, fmtBody channels rate, 0, by decide, length_fmtBody channels rate⟩

/-- A chunk of two samples for each of two channels. -/
def stereoDataChunk : Chunk := ⟨dataId, [1, 0, 3, 0, 0xff, 0xff, 0xff, 0xff], 0, by decide, by decide⟩

/-- A chunk of one byte, and its padding. -/
def listChunk : Chunk := ⟨utf8 "LIST", [97], 0, by decide, by decide⟩

/-- A complete file with a chunk behind its data chunk. -/
def stereoFile : WavFile := ⟨[0, 0, 0, 0], [fmtChunk 2 8000, stereoDataChunk, listChunk], none, rfl⟩

theorem stereoFile_holds : stereoFile.Holds 8000 (.stereo [(1, 3), (-1, -1)]) :=
  ⟨⟨fmtChunk 2 8000, rfl, isFmt_fmtBody 2 8000⟩, stereoDataChunk, rfl, by decide⟩

theorem stereoFile_fullChunkLast : stereoFile.FullChunkLast := by
  intro before c after hsplit hfull
  have hmem : c ∈ [fmtChunk 2 8000, stereoDataChunk, listChunk] := by
    rw [show [fmtChunk 2 8000, stereoDataChunk, listChunk] = before ++ c :: after from hsplit]
    exact List.mem_append_right _ List.mem_cons_self
  have hshort : ∀ c ∈ [fmtChunk 2 8000, stereoDataChunk, listChunk], c.body.length ≤ 16 := by decide
  have hlength := hshort c hmem
  rw [show c.body.length = u32Max from hfull, u32Max] at hlength
  omega

/-- The walk finds nothing after a first chunk whose length is the placeholder. -/
theorem decodeStreamingWavMonoI16_afterFullChunk {file : WavFile} {c : Chunk} {chunks : List Chunk}
    (hchunks : file.chunks = c :: chunks) (hfull : c.IsFull) (hfmt : c.id ≠ fmtId) (hdata : c.id ≠ dataId)
    (hinput : file.bytes.length ≤ isizeMax) :
    decodeStreamingWavMonoI16 file.bytes = .error (.error "missing WAV fmt chunk") := by
  set rest := c.body ++ (c.padding ++ (chunks.flatMap Chunk.bytes ++ file.tail)) with hrest
  have hbytes : file.bytes = file.header ++ (c.id ++ (toLeBytes 4 u32Max ++ rest)) := by
    rw [WavFile.bytes, hchunks, List.flatMap_cons, Chunk.bytes, show c.body.length = u32Max from hfull, hrest]
    simp only [List.append_assoc]
  have hlength : file.bytes.length = 12 + (4 + (4 + rest.length)) := by
    rw [hbytes, List.length_append, file.length_header, List.length_append, c.id_length, List.length_append,
      length_toLeBytes]
  have hpass : pass file.bytes 12 .nothing = .ok (.next (12 + (8 + paddedLen rest.length)) .nothing) := by
    rw [hbytes] at hinput ⊢
    rw [← file.length_header, pass_eq c.id_length (by decide) hinput, show actualLen u32Max rest.length = rest.length from
      if_pos (Or.inl rfl), readChunk, if_neg hfmt, if_neg hdata]
    rfl
  have hpadded : rest.length ≤ paddedLen rest.length ∧ paddedLen rest.length ≤ rest.length + 1 := by
    rw [paddedLen]
    split_ifs <;> omega
  rw [isizeMax] at hinput
  rw [file.decode_bytes, readChunks_of_next hpass, readChunks_end (by omega) (by omega), ok_bind]
  rfl

/-- A data chunk of one sample. -/
def dataChunk : Chunk := ⟨dataId, [5, 0], 0, by decide, by decide⟩

theorem length_replicate_u32Max : (List.replicate u32Max (0 : UInt8)).length < 2 ^ 32 := by
  rw [List.length_replicate]
  decide

/-- A chunk as long as the placeholder. -/
def junkChunk : Chunk := ⟨utf8 "JUNK", List.replicate u32Max 0, 0, by decide, length_replicate_u32Max⟩

/-- A complete file whose first chunk is as long as the placeholder. -/
def junkFile : WavFile := ⟨[0, 0, 0, 0], [junkChunk, fmtChunk 1 8000, dataChunk], none, rfl⟩

theorem junkChunk_isFull : junkChunk.IsFull := List.length_replicate

theorem bytes_junkFile : junkFile.bytes = junkFile.header ++ (junkChunk.bytes ++
    ([fmtChunk 1 8000, dataChunk].flatMap Chunk.bytes ++ junkFile.tail)) := by
  rw [WavFile.bytes, show junkFile.chunks = [junkChunk, fmtChunk 1 8000, dataChunk] from rfl, List.flatMap_cons,
    List.append_assoc]

theorem length_bytes_junkFile : junkFile.bytes.length ≤ isizeMax := by
  have hjunk : junkChunk.bytes.length = 8 + paddedLen u32Max := by
    rw [junkChunk.length_bytes, show junkChunk.body.length = u32Max from junkChunk_isFull]
  have hrest : ([fmtChunk 1 8000, dataChunk].flatMap Chunk.bytes ++ junkFile.tail).length = 34 := by decide
  rw [bytes_junkFile, List.length_append, junkFile.length_header, List.length_append, hjunk, hrest, paddedLen, isizeMax,
    u32Max]
  split_ifs <;> omega

theorem filter_junkFile {id : List UInt8} (h : id ≠ utf8 "JUNK") :
    junkFile.chunks.filter (·.id = id) = [fmtChunk 1 8000, dataChunk].filter (·.id = id) :=
  List.filter_cons_of_neg fun hjunk => h (of_decide_eq_true hjunk).symm

theorem junkFile_holds : junkFile.Holds 8000 (.mono [5]) := by
  refine ⟨⟨fmtChunk 1 8000, ?_, isFmt_fmtBody 1 8000⟩, dataChunk, ?_, by decide⟩
  · rw [filter_junkFile (by decide)]
    rfl
  · rw [filter_junkFile (by decide)]
    rfl

theorem decode_junkFile :
    decodeStreamingWavMonoI16 junkFile.bytes = .error (.error "missing WAV fmt chunk") :=
  decodeStreamingWavMonoI16_afterFullChunk rfl junkChunk_isFull (by decide) (by decide) length_bytes_junkFile

end AgentVoice.Audio

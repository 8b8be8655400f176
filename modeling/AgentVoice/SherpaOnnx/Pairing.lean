import AgentVoice.SherpaOnnx.BridgeProcess
import Mathlib.Data.List.Induction

/-!
# Requests and responses of the speech worker

Requests and responses carry no identifiers: a request takes the next response line for its own. As long as no
request was abandoned after a part of its line was accepted and before its response line was read, the streams hold
nothing but the current request's line or its response (`InStep`), and what a request returns is the worker's answer
to it (`paired_of_noneAfterAbandoned`). A request that is abandoned leaves its response to the next one
(`lateResponse_mispaired`).
-/

namespace AgentVoice.SherpaOnnx

open AgentVoice.Foundations Lines

variable {Req Res : Type}

/-- What the libraries and the worker promise: a request is encoded as one line that is not blank, and a response is
one line. -/
structure OneLine (codec : Codec Req Res) (worker : Worker) : Prop where
  request : ∀ request text, codec.encode request = some text → newline ∉ text ∧ worker.blank text = false
  response : ∀ line, newline ∉ worker.answer line

namespace Bridge

variable (codec : Codec Req Res) (worker : Worker)

/-- The worker's answer to a request, as the request returns it. -/
def answerTo (request : Req) : Option Res := do
  let text ← codec.encode request
  let envelope ← codec.decode (worker.answer text)
  envelope.value

/-- Every request that returns a result returns the worker's answer to it. -/
def Paired (results : List (Returned Req Res)) : Prop :=
  ∀ r ∈ results, ∀ value, r.result = some value → answerTo codec worker r.request = some value

/-- A request is abandoned here when it is aborted: a part of its line was accepted, and its response was not read. -/
def Abandons (s : Bridge Req) : Prop :=
  match s.phase with
  | .idle => False
  | .writing request rest => codec.encode request ≠ some rest
  | .terminating _ | .flushing _ | .reading _ _ => True

/-- No request begins after one was abandoned. -/
def NoneAfterAbandoned (steps : List (Step Req)) : Prop :=
  ∀ before after, steps = before ++ .abort :: after → (run codec worker before).Abandons codec →
    ∀ request, .begin request ∉ after

/-- The streams hold the current request's line, or its response, and nothing else. -/
def InStep (s : Bridge Req) : Prop :=
  match s.phase with
  | .idle => s.buffer = [] ∧ s.input = [] ∧ s.pending = [] ∧ s.output = []
  | .writing request rest =>
    codec.encode request = some (s.input ++ s.buffer ++ rest) ∧ s.pending = [] ∧ s.output = []
  | .terminating request => codec.encode request = some (s.input ++ s.buffer) ∧ s.pending = [] ∧ s.output = []
  | .flushing request => ∃ text, codec.encode request = some text ∧
    (s.input ++ s.buffer = text ++ [newline] ∧ s.pending = [] ∧ s.output = [] ∨
      s.input = [] ∧ s.buffer = [] ∧ s.output ++ s.pending = worker.answer text ++ [newline])
  | .reading request line => ∃ text, codec.encode request = some text ∧ newline ∉ line ∧ s.buffer = [] ∧
    (s.input = text ++ [newline] ∧ s.pending = [] ∧ s.output = [] ∧ line = [] ∨
      s.input = [] ∧ line ++ s.output ++ s.pending = worker.answer text ++ [newline])

variable {codec worker}

/-- **One step keeps the streams in step**, unless it abandons a request. -/
theorem InStep.step (hone : OneLine codec worker) {s : Bridge Req} (h : s.InStep codec worker) {step' : Step Req}
    (habort : step' = .abort → ¬ s.Abandons codec) : (step codec worker step' s).InStep codec worker := by
  obtain ⟨phase, buffer, input, pending, output⟩ := s
  cases step' with
  | begin request =>
    cases phase with
    | idle =>
      obtain ⟨rfl, rfl, rfl, rfl⟩ := h
      cases hencode : codec.encode request with
      | none => simp [Bridge.step, hencode, InStep]
      | some text => simp [Bridge.step, hencode, InStep]
    | writing | terminating | flushing | reading => exact h
  | accept n =>
    cases phase with
    | writing request rest =>
      obtain ⟨hencode, hpending, houtput⟩ := h
      exact ⟨by simpa [Bridge.step] using hencode, hpending, houtput⟩
    | idle | terminating | flushing | reading => exact h
  | drain n =>
    cases phase with
    | writing request rest =>
      obtain ⟨hencode, hpending, houtput⟩ := h
      refine ⟨?_, hpending, houtput⟩
      show codec.encode request = some (input ++ buffer.take n ++ buffer.drop n ++ rest)
      rw [List.append_assoc input, List.take_append_drop]
      exact hencode
    | terminating request =>
      obtain ⟨hencode, hpending, houtput⟩ := h
      refine ⟨?_, hpending, houtput⟩
      show codec.encode request = some (input ++ buffer.take n ++ buffer.drop n)
      rw [List.append_assoc input, List.take_append_drop]
      exact hencode
    | flushing request =>
      obtain ⟨text, hencode, ⟨hline, hpending, houtput⟩ | ⟨hinput, hbuffer, hanswer⟩⟩ := h
      · refine ⟨text, hencode, Or.inl ⟨?_, hpending, houtput⟩⟩
        show input ++ buffer.take n ++ buffer.drop n = _
        rw [List.append_assoc, List.take_append_drop]
        exact hline
      · obtain rfl := hinput
        obtain rfl := hbuffer
        exact ⟨text, hencode, Or.inr ⟨by simp [Bridge.step], by simp [Bridge.step], hanswer⟩⟩
    | idle | reading => exact h
  | advance =>
    cases phase with
    | writing request rest =>
      cases rest with
      | cons => exact h
      | nil => exact ⟨by simpa [Bridge.step] using h.1, h.2⟩
    | terminating request =>
      obtain ⟨hencode, hpending, houtput⟩ := h
      exact ⟨_, hencode, Or.inl ⟨by simp [Bridge.step], hpending, houtput⟩⟩
    | flushing request =>
      by_cases hbuffer : buffer = []
      · obtain rfl := hbuffer
        simp only [Bridge.step, if_true]
        obtain ⟨text, hencode, ⟨hline, hpending, houtput⟩ | ⟨hinput, -, hanswer⟩⟩ := h
        · exact ⟨text, hencode, List.not_mem_nil, rfl, Or.inl ⟨by simpa using hline, hpending, houtput, rfl⟩⟩
        · exact ⟨text, hencode, List.not_mem_nil, rfl, Or.inr ⟨hinput, hanswer⟩⟩
      · simp only [Bridge.step, if_neg hbuffer]
        exact h
    | idle | reading => exact h
  | read n =>
    cases phase with
    | reading request line =>
      by_cases hmem : newline ∈ output.take n
      · simp only [Bridge.step, if_pos hmem]
        exact h
      · simp only [Bridge.step, if_neg hmem]
        obtain ⟨text, hencode, hline, hbuffer, ⟨hinput, hpending, houtput, hnil⟩ | ⟨hinput, hanswer⟩⟩ := h
        · obtain rfl := houtput
          obtain rfl := hnil
          exact ⟨text, hencode, by simp, hbuffer, Or.inl ⟨hinput, hpending, by simp, by simp⟩⟩
        · refine ⟨text, hencode, ?_, hbuffer, Or.inr ⟨hinput, ?_⟩⟩
          · exact fun h => (List.mem_append.mp h).elim hline hmem
          · show line ++ output.take n ++ output.drop n ++ pending = _
            rw [List.append_assoc line, List.take_append_drop]
            exact hanswer
    | idle | writing | terminating | flushing => exact h
  | finish =>
    cases phase with
    | reading request line =>
      cases htake : takeLine newline output with
      | none =>
        simp only [Bridge.step, htake]
        exact h
      | some taken =>
        obtain ⟨chunk, rest⟩ := taken
        simp only [Bridge.step, htake]
        obtain ⟨rfl, hchunk⟩ := takeLine_eq_some htake
        obtain ⟨text, hencode, hline, hbuffer, ⟨hinput, hpending, houtput, hnil⟩ | ⟨hinput, hanswer⟩⟩ := h
        · simp at houtput
        · have hboth : newline ∉ line ++ chunk := fun hmem => (List.mem_append.mp hmem).elim hline hchunk
          rw [← List.append_assoc] at hanswer
          obtain ⟨-, hrest, hpending⟩ := eq_of_append hboth (hone.response text) hanswer
          exact ⟨hbuffer, hinput, hpending, hrest⟩
    | idle | writing | terminating | flushing => exact h
  | abort =>
    have hkept := habort rfl
    cases phase with
    | idle => exact h
    | writing request rest =>
      obtain ⟨hencode, hpending, houtput⟩ := h
      have hsame : codec.encode request = some rest := not_not.mp hkept
      rw [hsame] at hencode
      obtain ⟨hinput, hbuffer⟩ := List.append_eq_nil_iff.mp (List.self_eq_append_left.mp (Option.some.inj hencode))
      exact ⟨hbuffer, hinput, hpending, houtput⟩
    | terminating | flushing | reading => exact absurd trivial hkept
  | workerReads =>
    cases htake : takeLine newline input with
    | none =>
      simp only [Bridge.step, htake]
      exact h
    | some taken =>
      obtain ⟨line, rest⟩ := taken
      simp only [Bridge.step, htake]
      obtain ⟨rfl, hline⟩ := takeLine_eq_some htake
      cases phase with
      | idle =>
        obtain ⟨-, hinput, -⟩ := h
        simp at hinput
      | writing request rest' =>
        obtain ⟨hencode, -⟩ := h
        exact absurd (by simp) (hone.request request _ hencode).1
      | terminating request =>
        obtain ⟨hencode, -⟩ := h
        exact absurd (by simp) (hone.request request _ hencode).1
      | flushing request =>
        obtain ⟨text, hencode, ⟨hinput, hpending, houtput⟩ | ⟨hinput, -⟩⟩ := h
        · obtain ⟨htext, hblank⟩ := hone.request request text hencode
          obtain ⟨rfl, hrest, hbuffer⟩ := eq_of_append hline htext hinput
          refine ⟨line, hencode, Or.inr ⟨hrest, hbuffer, ?_⟩⟩
          obtain rfl := hpending
          obtain rfl := houtput
          simp [hblank]
        · simp at hinput
      | reading request line' =>
        obtain ⟨text, hencode, hnone, hbuffer, ⟨hinput, hpending, houtput, hnil⟩ | ⟨hinput, -⟩⟩ := h
        · obtain ⟨htext, hblank⟩ := hone.request request text hencode
          have hline' : line ++ newline :: rest ++ [] = text ++ [newline] := by rw [List.append_nil]; exact hinput
          obtain ⟨rfl, hrest, -⟩ := eq_of_append hline htext hline'
          refine ⟨line, hencode, hnone, hbuffer, Or.inr ⟨hrest, ?_⟩⟩
          obtain rfl := hpending
          obtain rfl := houtput
          obtain rfl := hnil
          simp [hblank]
        · simp at hinput
  | workerWrites n =>
    have hsplit : output ++ pending.take n ++ pending.drop n = output ++ pending := by
      rw [List.append_assoc, List.take_append_drop]
    cases phase with
    | idle =>
      obtain ⟨hbuffer, hinput, rfl, rfl⟩ := h
      exact ⟨hbuffer, hinput, by simp [Bridge.step], by simp [Bridge.step]⟩
    | writing request rest =>
      obtain ⟨hencode, rfl, rfl⟩ := h
      exact ⟨hencode, by simp [Bridge.step], by simp [Bridge.step]⟩
    | terminating request =>
      obtain ⟨hencode, rfl, rfl⟩ := h
      exact ⟨hencode, by simp [Bridge.step], by simp [Bridge.step]⟩
    | flushing request =>
      obtain ⟨text, hencode, ⟨hline, rfl, rfl⟩ | ⟨hinput, hbuffer, hanswer⟩⟩ := h
      · exact ⟨text, hencode, Or.inl ⟨hline, by simp [Bridge.step], by simp [Bridge.step]⟩⟩
      · exact ⟨text, hencode, Or.inr ⟨hinput, hbuffer, hsplit.trans hanswer⟩⟩
    | reading request line =>
      obtain ⟨text, hencode, hline, hbuffer, ⟨hinput, rfl, rfl, hnil⟩ | ⟨hinput, hanswer⟩⟩ := h
      · exact ⟨text, hencode, hline, hbuffer, Or.inl ⟨hinput, by simp [Bridge.step], by simp [Bridge.step], hnil⟩⟩
      · refine ⟨text, hencode, hline, hbuffer, Or.inr ⟨hinput, ?_⟩⟩
        show line ++ (output ++ pending.take n) ++ pending.drop n = _
        rw [List.append_assoc line, hsplit, ← List.append_assoc]
        exact hanswer

theorem inStep_new : (new : Bridge Req).InStep codec worker := ⟨rfl, rfl, rfl, rfl⟩

/-- Without a request that begins, an idle bridge stays idle. -/
theorem step_idle {s : Bridge Req} (h : s.phase = .idle) {step' : Step Req} (hbegin : ∀ request, step' ≠ .begin request) :
    (step codec worker step' s).phase = .idle := by
  cases step' with
  | begin request => exact absurd rfl (hbegin request)
  | accept | drain | advance | read | finish => simp [Bridge.step, h]
  | abort => rfl
  | workerReads =>
    cases htake : takeLine newline s.input with
    | none => simp only [Bridge.step, htake, h]
    | some taken => simp only [Bridge.step, htake, h]
  | workerWrites => exact h

/-- The streams are in step in every state of a run, or the bridge is idle for the rest of it. -/
theorem inStep_or_idle (hone : OneLine codec worker) {before after : List (Step Req)}
    (hnone : NoneAfterAbandoned codec worker (before ++ after)) :
    (run codec worker before).InStep codec worker ∨
      (run codec worker before).phase = .idle ∧ ∀ request, .begin request ∉ after := by
  induction before using List.reverseRecOn generalizing after with
  | nil => exact Or.inl inStep_new
  | append_singleton before step' ih =>
    have hrun : run codec worker (before ++ [step']) = step codec worker step' (run codec worker before) :=
      Machine.run_concat _ _ _
    rw [hrun]
    have hsplit : before ++ [step'] ++ after = before ++ step' :: after := by simp
    have hbefore := ih (hsplit ▸ hnone)
    rcases hbefore with hinStep | ⟨hidle, hbegin⟩
    · by_cases habandons : step' = .abort ∧ (run codec worker before).Abandons codec
      · obtain ⟨rfl, habandons⟩ := habandons
        exact Or.inr ⟨rfl, hnone before after (by simp) habandons⟩
      · exact Or.inl (hinStep.step hone fun habort habandons' => habandons ⟨habort, habandons'⟩)
    · refine Or.inr ⟨step_idle hidle fun request heq => hbegin request (by simp [heq]), fun request hmem => ?_⟩
      exact hbegin request (by simp [hmem])

/-- What a request returns in a state that is in step, or idle, is the answer to it. -/
theorem paired_step (hone : OneLine codec worker) {s : Bridge Req}
    (h : s.InStep codec worker ∨ s.phase = .idle) (step' : Step Req) : Paired codec worker (returned codec step' s) := by
  obtain ⟨phase, buffer, input, pending, output⟩ := s
  intro r hr value hvalue
  cases step' with
  | begin request =>
    cases phase with
    | idle =>
      cases hencode : codec.encode request with
      | none =>
        simp only [returned, hencode, List.mem_singleton] at hr
        subst hr
        cases hvalue
      | some text => simp [returned, hencode] at hr
    | writing | terminating | flushing | reading => simp [returned] at hr
  | abort =>
    cases phase with
    | idle => simp [returned] at hr
    | writing | terminating | flushing | reading =>
      simp only [returned, List.mem_singleton] at hr
      subst hr
      cases hvalue
  | finish =>
    cases phase with
    | reading request line =>
      cases htake : takeLine newline output with
      | none => simp [returned, htake] at hr
      | some taken =>
        obtain ⟨chunk, rest⟩ := taken
        simp only [returned, htake, List.mem_singleton] at hr
        subst hr
        obtain ⟨rfl, hchunk⟩ := takeLine_eq_some htake
        rcases h with h | h
        · obtain ⟨text, hencode, hline, -, ⟨-, -, houtput, -⟩ | ⟨-, hanswer⟩⟩ := h
          · simp at houtput
          · have hboth : newline ∉ line ++ chunk := fun hmem => (List.mem_append.mp hmem).elim hline hchunk
            rw [← List.append_assoc] at hanswer
            obtain ⟨heq, -, -⟩ := eq_of_append hboth (hone.response text) hanswer
            rw [heq] at hvalue
            simp only [answerTo, hencode]
            exact hvalue
        · cases h
    | idle | writing | terminating | flushing => simp [returned] at hr
  | accept | drain | advance | read | workerReads | workerWrites => simp [returned] at hr

/-- **Requests and responses are paired**, in every run in which no request begins after one was abandoned. -/
theorem paired_of_noneAfterAbandoned (hone : OneLine codec worker) {steps : List (Step Req)}
    (hnone : NoneAfterAbandoned codec worker steps) : Paired codec worker (results codec worker steps) := by
  intro r hr
  obtain ⟨before, step', after, rfl, hreturned⟩ := Machine.mem_outputs_iff.mp hr
  have hstate := (inStep_or_idle hone hnone).imp_right And.left
  exact paired_step hone hstate step' r hreturned

/-! A speech worker that speaks two texts. -/

/-- `TtsRequest`. -/
structure TtsRequest where
  text : String
  speakerId : UInt32
deriving DecidableEq

/-- `TtsPayload`. -/
structure TtsPayload where
  sampleRate : UInt32
  sampleCount : ℕ
  pcmS16leB64 : String
deriving DecidableEq

/-- The bytes of an ASCII text. -/
def ascii (text : String) : List UInt8 := text.toList.map fun c => UInt8.ofNat c.toNat

def yesLine : List UInt8 := ascii "\x7b\"text\":\"Yes\",\"speaker_id\":0\x7d"
def noLine : List UInt8 := ascii "\x7b\"text\":\"No\",\"speaker_id\":0\x7d"

def yesResponse : List UInt8 := ascii ("\x7b\"ok\": true, \"result\": \x7b\"sample_rate\": 16000, " ++
  "\"sample_count\": 2, \"pcm_s16le_b64\": \"AQACAA==\"\x7d\x7d")
def noResponse : List UInt8 := ascii ("\x7b\"ok\": true, \"result\": \x7b\"sample_rate\": 16000, " ++
  "\"sample_count\": 1, \"pcm_s16le_b64\": \"AwA=\"\x7d\x7d")
def errorResponse : List UInt8 := ascii "\x7b\"ok\": false, \"error\": \"Expecting value\"\x7d"

def ttsCodec : Codec TtsRequest TtsPayload where
  encode request :=
    if request = ⟨"Yes", 0⟩ then some yesLine else if request = ⟨"No", 0⟩ then some noLine else none
  decode line :=
    if line = yesResponse then some ⟨true, some ⟨16000, 2, "AQACAA=="⟩, none⟩
    else if line = noResponse then some ⟨true, some ⟨16000, 1, "AwA="⟩, none⟩
    else if line = errorResponse then some ⟨false, none, some "Expecting value"⟩
    else none

def ttsWorker : Worker where
  blank line := line.all (· = 32)
  answer line := if line = yesLine then yesResponse else if line = noLine then noResponse else errorResponse

theorem oneLine_tts : OneLine ttsCodec ttsWorker where
  request request text h := by
    simp only [ttsCodec] at h
    split at h
    · cases h
      decide +kernel
    split at h
    · cases h
      decide +kernel
    · cases h
  response line := by
    simp only [ttsWorker]
    split
    · decide +kernel
    split
    · decide +kernel
    · decide +kernel

/-- A request for a text, as far as the end of the flush. -/
def speak (text : String) : List (Step TtsRequest) :=
  [.begin ⟨text, 0⟩, .accept 64, .advance, .advance, .drain 64, .advance]

/-- The worker answers, and the request reads its response. -/
def respond : List (Step TtsRequest) := [.workerReads, .workerWrites 128, .finish]

/-- A request that is aborted before a byte of it is accepted, and two that are answered. -/
def speakTwice : List (Step TtsRequest) := .begin ⟨"No", 0⟩ :: .abort :: (speak "Yes" ++ respond ++ speak "No" ++ respond)

theorem paired_speak : Paired ttsCodec ttsWorker (results ttsCodec ttsWorker speakTwice) := by
  refine paired_of_noneAfterAbandoned oneLine_tts fun before after hsteps habandons => ?_
  match before with
  | [] => cases (List.cons.inj hsteps).1
  | [first] =>
    -- nothing of the line was accepted, so the request is not abandoned
    obtain ⟨rfl, -⟩ := List.cons.inj hsteps
    exact absurd rfl habandons
  | first :: second :: before =>
    have hmem : Step.abort ∈ speak "Yes" ++ respond ++ speak "No" ++ respond := by
      rw [(List.cons.inj (List.cons.inj hsteps).2).2]
      exact List.mem_append_right before List.mem_cons_self
    exact absurd hmem (by decide)

/-- A request times out before the worker has answered it, and its response is returned for the next one. -/
def lateResponse : List (Step TtsRequest) := speak "Yes" ++ [.abort] ++ speak "No" ++ respond

theorem lateResponse_mispaired : OneLine ttsCodec ttsWorker ∧
    results ttsCodec ttsWorker lateResponse = [⟨⟨"Yes", 0⟩, none⟩, ⟨⟨"No", 0⟩, some ⟨16000, 2, "AQACAA=="⟩⟩] ∧
    ¬ Paired ttsCodec ttsWorker (results ttsCodec ttsWorker lateResponse) := by
  have hresults : results ttsCodec ttsWorker lateResponse =
      [⟨⟨"Yes", 0⟩, none⟩, ⟨⟨"No", 0⟩, some ⟨16000, 2, "AQACAA=="⟩⟩] := by decide +kernel
  refine ⟨oneLine_tts, hresults, fun hpaired => ?_⟩
  have hanswer := hpaired ⟨⟨"No", 0⟩, some ⟨16000, 2, "AQACAA=="⟩⟩ (by rw [hresults]; simp) _ rfl
  exact absurd hanswer (by decide +kernel)

end Bridge

end AgentVoice.SherpaOnnx

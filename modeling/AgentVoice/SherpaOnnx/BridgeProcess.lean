import AgentVoice.Foundations.Lines
import AgentVoice.Foundations.Machine

/-!
# The bridge to the speech worker

A speech worker is a process that reads request lines from its standard input and writes a response line for each
that is not blank. `BridgeProcess::request` writes a line through a buffer, flushes it, and reads a line; each of
these operations can time out or fail, and then the request returns an error with whatever was written and read so
far. A `Bridge` is the state of one request and of the two streams between it and the worker.
-/

namespace AgentVoice.SherpaOnnx

open AgentVoice.Foundations Lines

/-- The byte that ends a line. -/
def newline : UInt8 := 10

/-- `BridgeEnvelope`. -/
structure Envelope (Res : Type) where
  ok : Bool
  result : Option Res
  error : Option String

/-- What a request returns for a response; none where it returns an error. -/
def Envelope.value {Res : Type} (e : Envelope Res) : Option Res := if e.ok = true then e.result else none

/-- The JSON library: the text of a request, and the envelope in a response line. -/
structure Codec (Req Res : Type) where
  encode : Req → Option (List UInt8)
  decode : List UInt8 → Option (Envelope Res)

/-- The worker: which lines it skips, and its response to any other line. -/
structure Worker where
  blank : List UInt8 → Bool
  answer : List UInt8 → List UInt8

/-- How far the request has come. -/
inductive Phase (Req : Type) where
  | idle
  /-- `stdin.write_all` of the request text, of which `rest` is not accepted yet. -/
  | writing (request : Req) (rest : List UInt8)
  /-- `stdin.write_all` of the end of the line. -/
  | terminating (request : Req)
  /-- `stdin.flush`. -/
  | flushing (request : Req)
  /-- `stdout.read_line`, which has taken `line` off the stream. -/
  | reading (request : Req) (line : List UInt8)

/-- The process, the buffer of its input, and the streams to and from the worker. -/
structure Bridge (Req : Type) where
  phase : Phase Req
  /-- Accepted and not yet written to the worker. -/
  buffer : List UInt8
  /-- Written to the worker and not yet read by it. -/
  input : List UInt8
  /-- Responses the worker has not written yet. -/
  pending : List UInt8
  /-- Written by the worker and not yet read. -/
  output : List UInt8

/-- What happens next. -/
inductive Step (Req : Type) where
  | begin (request : Req)
  /-- The input accepts `n` more bytes. -/
  | accept (n : ℕ)
  /-- The buffer writes `n` bytes to the worker. -/
  | drain (n : ℕ)
  /-- The write or the flush completes. -/
  | advance
  /-- `n` bytes of the response line are read. -/
  | read (n : ℕ)
  /-- The response line is complete. -/
  | finish
  /-- The operation times out or fails, or the caller gives up. -/
  | abort
  | workerReads
  | workerWrites (n : ℕ)
deriving DecidableEq

/-- What a request returned; none for an error. -/
structure Returned (Req Res : Type) where
  request : Req
  result : Option Res
deriving DecidableEq

namespace Bridge

variable {Req Res : Type} (codec : Codec Req Res) (worker : Worker)

/-- A bridge to a worker that is ready. -/
def new : Bridge Req := ⟨.idle, [], [], [], []⟩

/-- The state after a step; a step that cannot happen changes nothing. -/
def step : Step Req → Bridge Req → Bridge Req
  | .begin request, s =>
    match s.phase, codec.encode request with
    | .idle, some text => { s with phase := .writing request text }
    | _, _ => s
  | .accept n, s =>
    match s.phase with
    | .writing request rest => { s with phase := .writing request (rest.drop n), buffer := s.buffer ++ rest.take n }
    | _ => s
  | .drain n, s =>
    match s.phase with
    | .writing _ _ | .terminating _ | .flushing _ =>
      { s with input := s.input ++ s.buffer.take n, buffer := s.buffer.drop n }
    | _ => s
  | .advance, s =>
    match s.phase with
    | .writing request [] => { s with phase := .terminating request }
    | .terminating request => { s with phase := .flushing request, buffer := s.buffer ++ [newline] }
    | .flushing request => if s.buffer = [] then { s with phase := .reading request [] } else s
    | _ => s
  | .read n, s =>
    match s.phase with
    | .reading request line =>
      if newline ∈ s.output.take n then s
      else { s with phase := .reading request (line ++ s.output.take n), output := s.output.drop n }
    | _ => s
  | .finish, s =>
    match s.phase, takeLine newline s.output with
    | .reading _ _, some (_, rest) => { s with phase := .idle, output := rest }
    | _, _ => s
  | .abort, s => { s with phase := .idle }
  | .workerReads, s =>
    match takeLine newline s.input with
    | some (line, rest) =>
      { s with
        input := rest
        pending := s.pending ++ if worker.blank line = true then [] else worker.answer line ++ [newline] }
    | none => s
  | .workerWrites n, s => { s with output := s.output ++ s.pending.take n, pending := s.pending.drop n }

/-- What requests return in a step. -/
def returned : Step Req → Bridge Req → List (Returned Req Res)
  | .begin request, s =>
    match s.phase, codec.encode request with
    | .idle, none => [⟨request, none⟩]
    | _, _ => []
  | .finish, s =>
    match s.phase, takeLine newline s.output with
    | .reading request line, some (chunk, _) => [⟨request, (codec.decode (line ++ chunk)).bind Envelope.value⟩]
    | _, _ => []
  | .abort, s =>
    match s.phase with
    | .idle => []
    | .writing request _ | .terminating request | .flushing request | .reading request _ => [⟨request, none⟩]
  | _, _ => []

/-- The bridge after a run. -/
def run (steps : List (Step Req)) : Bridge Req := Machine.run (step codec worker) steps new

/-- What the requests of a run returned. -/
def results (steps : List (Step Req)) : List (Returned Req Res) :=
  Machine.outputs (step codec worker) (returned codec) steps new

end Bridge

end AgentVoice.SherpaOnnx

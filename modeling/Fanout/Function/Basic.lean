import Fanout.Fault
import Fanout.Worker.Message

/-!
# Work functions

A work function is known by its name. It has a state, given once, and maps one input to one output;
all three can be brought into transfer form. Calling it may fail or panic, and so may the codecs of
a type with a transfer form of its own.
-/

namespace Fanout

/-- A named function that can be carried out in another process. -/
structure WorkFunction where
  /-- The name the function is registered under. -/
  name : String
  State : Type
  Input : Type
  Output : Type
  stateCodec : Codec State
  inputCodec : Codec Input
  outputCodec : Codec Output
  /-- Carry out one computation. -/
  call : State → Input → Attempt Output

/-- Why an operation on a list of computations did not yield a list of outputs. -/
inductive Failure where
  | error (error : BackendError)
  /-- The operation stopped for good. -/
  | fault (fault : Fault)
  /-- The operation never comes to an end: it waits for a worker that does nothing any more. -/
  | stalled
deriving DecidableEq, Repr

/-- A failed attempt as the failure of a transfer: a panic is not caught. -/
def Mishap.toFailure (subject : String) : Mishap → Failure
  | error message => .error (.transfer subject message)
  | panic cause => .fault (.raised cause.message)

namespace WorkFunction

/-- The text that reports a panic of a work function. -/
def panicText (name : String) (cause : Panic) : String :=
  s!"work function '{name}' panicked: {cause.message}"

/-- Carry out one computation; an error and a panic are both reported by a text. -/
def callCaught (f : WorkFunction) (state : f.State) (input : f.Input) : Except String f.Output :=
  (f.call state input).mapError fun
    | .error message => message
    | .panic cause => panicText f.name cause

/-- Why a stage of a remote call failed: a transfer error, unless the stage panicked. -/
def stageFailure (f : WorkFunction) (stage : String) : Mishap → FailureKind × String
  | .error message => (.transfer, s!"cannot {stage} work function '{f.name}': {message}")
  | .panic cause => (.execution, panicText f.name cause)

/-- Rebuild the function and its input from payloads, call it and hand back the output's payload. -/
def handle (f : WorkFunction) (state input : Payload) : Except (FailureKind × String) Payload := do
  let state ← (f.stateCodec.decode state).mapError (f.stageFailure "decode state of")
  let input ← (f.inputCodec.decode input).mapError (f.stageFailure "decode input for")
  let output ← (f.callCaught state input).mapError fun message => (.execution, message)
  (f.outputCodec.encode output).mapError (f.stageFailure "encode output of")

/-- One envelope for each computation, in order. The state is brought into transfer form first. -/
def encodeTasks (f : WorkFunction) (state : f.State) (inputs : List f.Input) :
    Except Failure (List Envelope) := do
  let state ← (f.stateCodec.encode state).mapError (Mishap.toFailure s!"work function '{f.name}'")
  inputs.zipIdx.mapM fun (input, index) => do
    let input ← (f.inputCodec.encode input).mapError (Mishap.toFailure s!"computation {index}")
    return ⟨UInt64.ofNat index, f.name, state, input⟩

/-- The outputs that payloads in the order of the computations stand for. -/
def decodeOutputs (f : WorkFunction) (outputs : List Payload) :
    Except Failure (List f.Output) :=
  outputs.zipIdx.mapM fun (output, index) =>
    (f.outputCodec.decode output).mapError (Mishap.toFailure s!"result of computation {index}")

end WorkFunction

end Fanout

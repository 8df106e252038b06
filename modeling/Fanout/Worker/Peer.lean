import Fanout.Error
import Fanout.Text.Characters
import Fanout.Worker.Serve

/-!
# Peers

A worker process, seen from the other end of its pipes: whether it takes a request line, what it
writes then, whether more can come from it, and how it exits. A process need not do any of these: it
may leave a line in the pipe, write nothing in answer to one, and stay when nothing more is sent to
it, and whoever waits for it then waits for ever. Any behaviour is possible; two are given here, a
worker that serves a registry and one that plays a fixed part.
-/

namespace Fanout

/-! ## Commands -/

/-- A program to run as a worker, with its arguments. -/
structure WorkerCommand where
  program : String
  args : List String
deriving DecidableEq, Repr

namespace WorkerCommand

/-- The argument that puts this program into its worker mode. -/
def workerMode : String := "worker"

/-- A program in its worker mode. -/
def own (program : String) : WorkerCommand := ⟨program, [workerMode]⟩

/-- The command given, or else the running program in its worker mode. -/
def resolve (running : Except IoError String) :
    Option WorkerCommand → Except BackendError WorkerCommand
  | some command => .ok command
  | none =>
    match running with
    | .ok program => .ok (own program)
    | .error cause => .error (.workerSpawn "<current executable>" cause)

/-- A command described for a diagnostic. -/
def describe (command : WorkerCommand) : String :=
  "WorkerCommand \x7b program: " ++ Text.quoted command.program ++ ", args: [" ++
    String.intercalate ", " (command.args.map Text.quoted) ++ "] \x7d"

end WorkerCommand

/-! ## Processes -/

/-- How a process has exited. -/
inductive ExitStatus where
  | code (number : UInt8)
  /-- A signal has ended it. -/
  | signal (number : Nat) (coreDumped : Bool)
deriving DecidableEq, Repr

namespace ExitStatus

/-- Whether the process has exited with success. -/
def success (status : ExitStatus) : Bool := status = code 0

/-- The names of signals, from number 1 on. -/
def signalNames : List String := [
  "SIGHUP", "SIGINT", "SIGQUIT", "SIGILL", "SIGTRAP", "SIGABRT", "SIGBUS", "SIGFPE", "SIGKILL",
  "SIGUSR1", "SIGSEGV", "SIGUSR2", "SIGPIPE", "SIGALRM", "SIGTERM", "SIGSTKFLT", "SIGCHLD",
  "SIGCONT", "SIGSTOP", "SIGTSTP", "SIGTTIN", "SIGTTOU", "SIGURG", "SIGXCPU", "SIGXFSZ",
  "SIGVTALRM", "SIGPROF", "SIGWINCH", "SIGIO", "SIGPWR", "SIGSYS"]

/-- The name of a signal behind its number, if it has one. -/
def signalSuffix : Nat → String
  | 0 => ""
  | number + 1 => (signalNames[number]?.map fun name => s!" ({name})").getD ""

/-- The text of an exit status. -/
def describe : ExitStatus → String
  | code number => s!"exit status: {number.toNat}"
  | signal number false => s!"signal: {number}{signalSuffix number}"
  | signal number true => s!"signal: {number}{signalSuffix number} (core dumped)"

end ExitStatus

/-- What becomes of a line that is written to a process. -/
inductive Inlet where
  /-- The pipe takes it. -/
  | taken
  /-- The process has closed its input, and the write fails. -/
  | closed
  /-- The pipe is full and nobody reads from it, so the write never returns. -/
  | full
deriving DecidableEq, Repr

/-- The behaviour of a process on its pipes. -/
structure Peer where
  /-- What the process remembers. -/
  State : Type
  /-- What the worker of a number remembers at its start. -/
  initial : Nat → State
  /-- What becomes of the next line. -/
  inlet : State → Inlet
  /-- What it does with a line that is taken, and what it writes by the time anyone reads on. -/
  receive : State → List UInt8 → State × List UInt8
  /-- Whether it writes nothing more because its output is closed. -/
  outputEnded : State → Bool
  /-- How it has exited, if it has. -/
  exited : State → Option ExitStatus
  /-- How it exits once its input ends; `none` if it stays. -/
  exitStatus : State → Option ExitStatus

namespace Peer

/-- What a worker does with a line: it goes on, or exits with a code, and what it writes. -/
def serveLine (registry : Registry) (line : List UInt8) : Option UInt8 × List UInt8 :=
  match Reading.ofLine line with
  | .blank => (none, [])
  | .call envelope => (none, Utf8.encode (registry.invoke envelope).encode)
  | .shutdown => (some 0, [])
  | .error _ => (some 1, [])

/-- A worker that serves a registry. It exits with code 1 at a line it cannot make sense of, and at
the end of its input with code 0. -/
def serving (registry : Registry) : Peer where
  State := Option UInt8
  initial _ := none
  inlet
    | some _ => .closed
    | none => .taken
  receive
    | some code, _ => (some code, [])
    | none, line => serveLine registry ((Service.lines line).headD [])
  outputEnded := Option.isSome
  exited := Option.map .code
  exitStatus := fun code => some (.code (code.getD 0))

/-- What a process with a fixed part does with a line. -/
inductive Step where
  | reply (bytes : List UInt8)
  | leave (code : UInt8)
  /-- It closes its output and stays. -/
  | closeOutput
  /-- It closes its input, writes something and stays. -/
  | replyThenDeaf (bytes : List UInt8)
deriving DecidableEq, Repr

/-- Where a process with a fixed part stands. -/
structure Part where
  /-- The steps it has left. -/
  steps : List Step
  /-- The code it exits with. -/
  code : UInt8
  inlet : Inlet
  outputEnded : Bool
  /-- Whether it has exited. -/
  gone : Bool
deriving DecidableEq, Repr

namespace Part

/-- The process exits. -/
def leave (part : Part) (code : UInt8) : Part := ⟨part.steps, code, .closed, true, true⟩

/-- What the process does with a line, and what it writes. -/
def receive (part : Part) : Part × List UInt8 :=
  match part.steps with
  | [] => (part.leave part.code, [])
  | .reply bytes :: rest => ({ part with steps := rest }, bytes)
  | .leave code :: _ => (part.leave code, [])
  | .closeOutput :: rest => ({ part with steps := rest, outputEnded := true }, [])
  | .replyThenDeaf bytes :: rest => ({ part with steps := rest, inlet := .closed }, bytes)

end Part

/-- A process that takes one step for each line and exits at the line after the last step, or at the
end of its input. -/
def scripted (steps : List Step) (code : UInt8) : Peer where
  State := Part
  initial _ := ⟨steps, code, .taken, false, false⟩
  inlet := Part.inlet
  receive part _ := part.receive
  outputEnded := Part.outputEnded
  exited part := if part.gone then some (.code part.code) else none
  exitStatus part := some (.code part.code)

end Peer

/-- What comes of starting a program. -/
structure Program where
  /-- Why the worker of a number cannot be started, if it cannot. -/
  refusal : Nat → Option IoError
  /-- How its processes behave. -/
  peer : Peer

namespace Program

/-- A program whose processes behave in a given way. -/
def ofPeer (peer : Peer) : Program := ⟨fun _ => none, peer⟩

/-- A program that cannot be started. -/
def refused (cause : IoError) : Program := ⟨fun _ => some cause, .scripted [] 0⟩

/-- A program that does not exist. -/
def missing : Program := refused .missing

end Program

end Fanout

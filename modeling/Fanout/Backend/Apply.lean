import Fanout.Backend.Basic
import Fanout.Schedule.Evaluate
import Fanout.TaskGraph
import Fanout.Worker.Link

/-!
# Applying functions

`Backend.apply` applies a work function to a list of computations and returns the outputs in the
order of the computations. The serial backend calls the function itself; the other two bring state
and computations into transfer form, have worker processes carry them out, and read the outputs
back. What cannot be transferred is found before any worker is started: `Backend.plan` says what is
left to do by then, and `Backend.Plan.carryOut` does it.
-/

namespace Fanout

/-- What a backend meets on the machine it runs on. -/
structure Host where
  /-- Where the running program is. -/
  running : Except IoError String
  /-- What comes of starting a command. -/
  program : WorkerCommand → Program
  /-- The process number of a worker. -/
  pid : Nat → Nat
  elapsed : Duration
  /-- Whether the caller is itself part of a running evaluation. -/
  nested : Bool

namespace Strategy

/-- The command that starts the workers, if one is set. -/
def command : Strategy → Option WorkerCommand
  | serial => none
  | processPool _ command | taskGraph _ command => command

end Strategy

namespace Backend

/-- Call a function on one computation after the other, up to the first failure. -/
def applySerially (f : WorkFunction) (state : f.State) (inputs : List f.Input) :
    Except Failure (List f.Output) :=
  inputs.zipIdx.mapM fun (input, index) =>
    (f.callCaught state input).mapError fun message => .error (.workerExecution index message)

/-- The settings of an evaluation of `tasks` tasks. -/
def options (backend : Backend) (tasks : Nat) : Except Fault Schedule.Options := do
  let chunkSize ← backend.chunkSizeFor tasks
  return ⟨backend.workerCount, chunkSize, backend.kind = .processPool⟩

/-- What is left of an application once its computations are in transfer form. -/
inductive Plan (f : WorkFunction) where
  /-- Nothing is left; this is what came of it. -/
  | settled (result : Except Failure (List f.Output))
  /-- Workers that a command starts have to carry out tasks. -/
  | dispatch (command : WorkerCommand) (options : Schedule.Options) (tasks : List Envelope)

/-- What is left once there are tasks. Without any, no command and no settings are looked for. -/
def planTasks (host : Host) (backend : Backend) (f : WorkFunction) (tasks : List Envelope) :
    Plan f :=
  if tasks.isEmpty then .settled (.ok [])
  else
    match WorkerCommand.resolve host.running backend.strategy.command with
    | .error e => .settled (.error (.error e))
    | .ok command =>
      match backend.options tasks.length with
      | .error fault => .settled (.error (.fault fault))
      | .ok options => .dispatch command options tasks

/-- Bring an application as far as it goes without workers. -/
def plan (host : Host) (backend : Backend) (f : WorkFunction) (state : f.State)
    (inputs : List f.Input) : Logged (Plan f) :=
  match backend.strategy with
  | .serial => .silent (.settled (applySerially f state inputs))
  | .processPool .. =>
    -- what cannot be transferred is found here, before a worker is started
    match f.encodeTasks state inputs with
    | .error e => .silent (.settled (.error e))
    | .ok tasks => .silent (backend.planTasks host f tasks)
  | .taskGraph .. =>
    match TaskGraph.ofComputations f state inputs with
    | .error e => .silent (.settled (.error e))
    | .ok graph => ⟨[.notice graph.notice], backend.planTasks host f graph.envelopes⟩

/-- The workers that a command starts. -/
def Plan.crew (host : Host) (command : WorkerCommand) :
    Schedule.Crew (Link (host.program command).peer) :=
  (host.program command).crew command host.pid

/-- Do what is left of an application. -/
def Plan.carryOut (host : Host) {f : WorkFunction} :
    Plan f → Logged (Except Failure (List f.Output))
  | settled result => .silent result
  | dispatch command options tasks =>
    let outcome := Schedule.evaluateBlocking host.nested (crew host command) tasks options
    ⟨outcome.log, outcome.result.bind f.decodeOutputs⟩

/-- What is reported about the end of an application. A fault leaves no time for it, and an
application that waits for ever has no end. -/
def conclusion {α : Type} (host : Host) (backend : Backend) (function : String)
    (computations : Nat) : Except Failure α → List LogEntry
  | .ok _ => [.notice (.applyCompleted backend.name function computations host.elapsed)]
  | .error (.error e) => [.notice (.applyFailed backend.name function e.message)]
  | .error (.fault _) | .error .stalled => []

/-- Apply a function to a list of computations. -/
def apply (host : Host) (backend : Backend) (f : WorkFunction) (state : f.State)
    (inputs : List f.Input) : Logged (Except Failure (List f.Output)) :=
  let started : Notice :=
    .applyStarted backend.name f.name inputs.length backend.workerCount
  (Logged.mk [.activity "apply" started, .notice started] ()).andThen fun _ =>
    ((backend.plan host f state inputs).andThen (Plan.carryOut host)).andThen fun result =>
      ⟨backend.conclusion host f.name inputs.length result, result⟩

end Backend

end Fanout

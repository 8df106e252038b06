import Fanout.Backend.Kind
import Fanout.Backend.Rules
import Fanout.Partition
import Fanout.Worker.Peer

/-!
# Backends

A backend is a strategy together with a worker count that its rules accept. Building one reports the
warnings of the rules and then the backend itself; a refused count is reported once.

`Strategy.positive_of_validate` is why the worker count of a backend is positive.
-/

namespace Fanout

/-- How a backend goes about its work. -/
inductive Strategy where
  | serial
  /-- Chunks of a fixed size, or of one that suits the list, over worker processes. -/
  | processPool (chunkSize : Option Nat) (command : Option WorkerCommand)
  /-- One deferred task for each computation, if the engine for that is there. -/
  | taskGraph (engineAvailable : Bool) (command : Option WorkerCommand)
deriving DecidableEq, Repr

namespace Strategy

/-- The kind of backend a strategy makes. -/
def kind : Strategy → BackendKind
  | serial => .serial
  | processPool .. => .processPool
  | taskGraph .. => .taskGraph

/-- What a task graph needs from the build. -/
def engineCapability : String := "task-graph engine"

/-- How to come by it. -/
def engineGuidance : String :=
  "rebuild analysis-backends with the `task-graph` cargo feature enabled"

/-- Whether this build has the engine. -/
def engineBuiltIn : Bool := true

/-- The chunk size to remember for a setting: a chunk holds at least one computation. -/
def chunkSizeSetting (size : Nat) : Nat := max size 1

/-- The strategy of a kind, with settings that apply to it. -/
def ofKind (kind : BackendKind) (chunkSize : Option Nat) (command : Option WorkerCommand) :
    Strategy :=
  match kind with
  | .serial => serial
  | .processPool => processPool (chunkSize.map chunkSizeSetting) command
  | .taskGraph => taskGraph engineBuiltIn command

/-- What a strategy demands of a worker count. -/
def rules (strategy : Strategy) (workers : Int64) : Rules :=
  match strategy with
  | serial =>
    (Rules.base workers).warnUnless (decide (workers ≤ 1))
      "n_workers is ignored when executing with backend='serial'"
  | processPool .. =>
    (Rules.base workers).warnUnless (decide (workers ≠ 1))
      ("n_workers=1 runs every computation in a single worker process; " ++
        "use backend='serial' to avoid the process overhead")
  | taskGraph available _ =>
    ((Rules.base workers).require available engineCapability engineGuidance).warnUnless
      (decide (workers ≠ 1))
      ("n_workers=1 evaluates every task in a single worker process; " ++
        "use backend='serial' to avoid the process overhead")

/-- Apply the rules of a strategy. -/
def validate (strategy : Strategy) (workers : Int64) :
    Logged (Except BackendError (List ConfigurationWarning)) :=
  (strategy.rules workers).evaluate strategy.kind.name

/-- Only positive worker counts are accepted. -/
theorem positive_of_validate {strategy : Strategy} {workers : Int64}
    {warnings : List ConfigurationWarning}
    (h : (strategy.validate workers).value = .ok warnings) : 0 < workers := by
  -- otherwise the rule that every backend has is the first one violated
  refine Decidable.byContradiction fun hn => ?_
  cases strategy <;>
    simp [validate, Rules.evaluate, Rules.violation?, rules, Rules.base, Rules.check, Rules.empty,
      Rules.require, Rules.warnUnless, hn] at h

end Strategy

/-- A validated way to apply functions to lists of computations. -/
structure Backend where
  strategy : Strategy
  /-- How many workers it was asked to use. -/
  workers : Int64
  warnings : List ConfigurationWarning
  /-- The rules accept its configuration with these remarks. -/
  validated : (strategy.validate workers).value = .ok warnings

namespace Backend

def kind (backend : Backend) : BackendKind := backend.strategy.kind

def name (backend : Backend) : String := backend.kind.name

/-- The worker count as a number. -/
def workerCount (backend : Backend) : Nat := backend.workers.toInt.toNat

theorem workers_pos (backend : Backend) : 0 < backend.workers :=
  Strategy.positive_of_validate backend.validated

/-- What is reported when a backend has been built. -/
def notice (backend : Backend) : Notice :=
  .backendConstructed backend.name backend.workerCount backend.warnings.length

/-- Build a backend, if its rules accept it. -/
def construct (strategy : Strategy) (workers : Int64) : Logged (Except BackendError Backend) :=
  let validation := strategy.validate workers
  match h : validation.value with
  | .error e => ⟨validation.log, .error e⟩
  | .ok warnings =>
    let backend : Backend := ⟨strategy, workers, warnings, h⟩
    ⟨validation.log ++ [.notice backend.notice], .ok backend⟩

/-- How many computations go into each chunk of a list of `computations`: a pool cuts by its setting
or by the default rule, any other backend hands computations out one at a time. -/
def chunkSizeFor (backend : Backend) (computations : Nat) : Except Fault Nat :=
  match backend.strategy with
  | .processPool (some size) _ => .ok size
  | .processPool none _ => Partition.defaultChunkSize computations backend.workerCount
  | .serial | .taskGraph .. => .ok 1

/-- An optional value described for a diagnostic. -/
def describeOption {α : Type} (describe : α → String) : Option α → String
  | none => "None"
  | some value => "Some(" ++ describe value ++ ")"

/-- A backend described for a diagnostic. -/
def describe (backend : Backend) : String :=
  let warnings := backend.warnings.map fun w =>
    "ConfigurationWarning \x7b backend: " ++ Text.quoted w.backend ++ ", message: " ++
      Text.quoted w.message ++ " \x7d"
  let (type, settings) := match backend.strategy with
    | .serial => ("SerialBackend", "")
    | .processPool chunkSize command =>
      ("ProcessPoolBackend", "chunksize: " ++ describeOption toString chunkSize ++
        ", worker_command: " ++ describeOption WorkerCommand.describe command ++ ", ")
    | .taskGraph _ command =>
      ("TaskGraphBackend",
        "worker_command: " ++ describeOption WorkerCommand.describe command ++ ", ")
  type ++ " \x7b n_workers: " ++ toString backend.workers.toInt ++ ", " ++ settings ++
    "warnings: [" ++ String.intercalate ", " warnings ++ "] \x7d"

end Backend

end Fanout

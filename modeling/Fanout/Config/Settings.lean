import Fanout.Backend.Basic
import Fanout.Json.Value

/-!
# Configurations

What a configuration file says: the kind of backend, how many workers it should use, how it cuts
work, how workers are started, and what is logged. A worker count that is not an integer is kept as
it was written, so that the refusal can show it.
-/

namespace Fanout

/-- A worker count as it was written. -/
inductive WorkerCount where
  | integer (n : Int64)
  /-- Anything else. -/
  | other (value : Json.Value)
deriving Repr

/-- The worker count meant, in the name of a backend. -/
def WorkerCount.resolve (backend : BackendKind) : WorkerCount → Except BackendError Int64
  | integer n => .ok n
  | other value => .error (.configuration backend.name (Rules.countReason value.compact))

/-- What is logged, and where. -/
structure LoggingSettings where
  /-- The filter that says what is logged. -/
  level : String
  /-- A file that receives the log, too. -/
  file : Option String
deriving DecidableEq, Repr

namespace LoggingSettings

/-- The filter used when none is given. -/
def defaultLevel : String := "info"

/-- The settings used when none are given. -/
def standard : LoggingSettings := ⟨defaultLevel, none⟩

end LoggingSettings

/-- A configuration. -/
structure Config where
  backend : BackendKind
  /-- The worker count asked for. -/
  workers : Option WorkerCount
  /-- How many computations make a chunk. -/
  chunkSize : Option Nat
  worker : Option WorkerCommand
  logging : LoggingSettings
deriving Repr

namespace Config

/-- The configuration that says no more than the kind of backend. -/
def ofKind (backend : BackendKind) : Config := ⟨backend, none, none, none, .standard⟩

/-- The worker count a configuration fixes; `none` leaves it to the machine. -/
def fixedWorkers (config : Config) : Except BackendError (Option Int64) :=
  match config.workers with
  | some count => (count.resolve config.backend).map some
  | none => .ok config.backend.fixedWorkers

/-- The worker count to build the backend with, on a machine that runs `parallelism` at once. -/
def requestedWorkers (parallelism : Option Int64) (config : Config) : Except BackendError Int64 :=
  match config.workers with
  | some count => count.resolve config.backend
  | none => .ok (config.backend.defaultWorkers parallelism)

/-- The strategy a configuration describes. -/
def strategy (config : Config) : Strategy := .ofKind config.backend config.chunkSize config.worker

/-- Build the backend a configuration describes. -/
def construct (parallelism : Option Int64) (config : Config) :
    Logged (Except BackendError Backend) :=
  match config.requestedWorkers parallelism with
  | .error e => .silent (.error e)
  | .ok workers => Backend.construct config.strategy workers

end Config

end Fanout

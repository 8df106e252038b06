import Fanout.CommandLine.Operand
import Fanout.Error
import Fanout.Function.Basic
import Fanout.Worker.Serve

/-!
# Failed commands

Why a command ended early, and what is said about it: the texts of the error and of the errors
behind it, from the outside in. An error that quotes the one behind it still has that one follow.
-/

namespace Fanout.CommandLine

/-- Why a command ended early. -/
inductive CommandError where
  | loading (path : String) (cause : ConfigError)
  | logging (cause : ConfigError)
  | backend (cause : BackendError)
  | notAnInteger (operand : String) (cause : Operand.Problem)
  | notACount (operand : String) (cause : Operand.Problem)
  | operandCount
  | unknownFunction (name : String)
  /-- The sum of all results leaves the word. -/
  | totalOverflow
  /-- A worker cannot go on. -/
  | serving (cause : ServeError)
  /-- A step left the machine word. -/
  | fault (cause : Fault)
  /-- The command waits for a worker that does nothing any more, so it does not end at all. -/
  | stalled
deriving DecidableEq, Repr

namespace CommandError

/-- What applying a function failed with. -/
def ofFailure : Failure → CommandError
  | .error e => backend e
  | .fault f => fault f
  | .stalled => stalled

/-- The texts of an error and of those behind it. -/
def chain : CommandError → List String
  | loading path cause =>
    s!"failed to load configuration '{path}'" :: cause.message :: cause.source.toList
  | logging cause => cause.message :: cause.source.toList
  | backend cause => cause.message :: (cause.source.map IoError.message).toList
  | notAnInteger operand cause => [s!"'{operand}' is not an integer", cause.message]
  | notACount operand cause => [s!"'{operand}' is not a frame count", cause.message]
  | operandCount => ["sum-of-squares takes exactly one argument: <n_frames>"]
  | unknownFunction name =>
    [s!"unknown function '{name}', expected 'square' or 'sum-of-squares'"]
  | totalOverflow => ["total sum of squares overflows u64"]
  | serving (.malformed e) => ["worker protocol failed", e.message]
  | serving (.io e) => ["worker protocol failed", e.message]
  | fault cause => [cause.message]
  | stalled => []

/-- The line an error is reported with, if the program gets as far as that. -/
def line? : CommandError → Option String
  | stalled => none
  | fault cause => some cause.message
  | e => some ("❌ " ++ String.intercalate ": " e.chain)

/-- The status the program exits with, if it does. -/
def status? : CommandError → Option Nat
  | stalled => none
  | fault _ => some 101
  | _ => some 1

end CommandError

end Fanout.CommandLine

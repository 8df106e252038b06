import Fanout.Error
import Fanout.Text.Characters

/-!
# Kinds of backend

The three ways to apply a function: in this process, over a fixed pool of worker processes, or as a
graph of deferred tasks. Two of them answer to a second name.
-/

namespace Fanout

/-- A way to apply a function to a list of computations. -/
inductive BackendKind where
  /-- One computation after the other, in this process. -/
  | serial
  /-- Chunks of computations over a fixed set of worker processes. -/
  | processPool
  /-- One deferred task for each computation, over as many worker processes as there is work for. -/
  | taskGraph
deriving DecidableEq, Repr

namespace BackendKind

def name : BackendKind → String
  | serial => "serial"
  | processPool => "process_pool"
  | taskGraph => "task_graph"

/-- The names a kind answers to, in alphabetical order. -/
def aliases : BackendKind → List String
  | serial => ["serial"]
  | processPool => ["multiprocessing", "process_pool"]
  | taskGraph => ["dask", "task_graph"]

def all : List BackendKind := [serial, processPool, taskGraph]

def names : List String := all.flatMap aliases

/-- The kind that answers to exactly this name. -/
def named? (name : String) : Option BackendKind := all.find? fun kind => kind.aliases.contains name

/-- The kind a user means: blanks around the name and the case of ASCII letters do not matter. -/
def parse (text : String) : Except ConfigError BackendKind :=
  match named? (Text.lowerAscii (Text.trim text)) with
  | some kind => .ok kind
  | none => .error (.unknownBackend text)

/-- The worker count of a kind that does not depend on the machine. -/
def fixedWorkers : BackendKind → Option Int64
  | serial => some 1
  | processPool | taskGraph => none

/-- Workers of a parallel kind when the machine cannot say how many it can run at once. -/
def fallbackWorkers : Int64 := 4

/-- The worker count used when none is asked for, on a machine that runs `parallelism` at once. -/
def defaultWorkers (parallelism : Option Int64) (kind : BackendKind) : Int64 :=
  kind.fixedWorkers.getD (parallelism.getD fallbackWorkers)

end BackendKind

end Fanout

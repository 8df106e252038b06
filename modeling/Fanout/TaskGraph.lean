import Fanout.Function.Basic
import Fanout.Report

/-!
# Task graphs

A deferred task describes one computation without carrying it out. A task graph holds one for each
computation of a work function; there are no edges, so every task can run at any time.
-/

namespace Fanout

/-- A computation that has been described but not carried out. -/
structure DeferredTask where
  key : String
  envelope : Envelope
deriving DecidableEq, Repr

namespace DeferredTask

/-- Describe one computation. Its key is the function's name and the position. -/
def delayed (function : String) (state : Payload) (index : UInt64) (input : Payload) :
    DeferredTask :=
  ⟨s!"{function}-{index.toNat}", ⟨index, function, state, input⟩⟩

/-- The position of the computation in the caller's list. -/
def index (task : DeferredTask) : UInt64 := task.envelope.index

end DeferredTask

/-- The deferred tasks of one work function. -/
structure TaskGraph where
  function : String
  /-- One task for each computation, in order. -/
  tasks : List DeferredTask
deriving DecidableEq, Repr

namespace TaskGraph

/-- The graph of a function and a list of computations. -/
def ofComputations (f : WorkFunction) (state : f.State) (inputs : List f.Input) :
    Except Failure TaskGraph := do
  let envelopes ← f.encodeTasks state inputs
  return ⟨f.name, envelopes.map fun e => .delayed f.name e.state e.index e.input⟩

/-- What is reported about a graph that has been built. -/
def notice (graph : TaskGraph) : Notice := .taskGraphBuilt graph.function graph.tasks.length

def keys (graph : TaskGraph) : List String := graph.tasks.map DeferredTask.key

def envelopes (graph : TaskGraph) : List Envelope := graph.tasks.map DeferredTask.envelope

end TaskGraph

end Fanout

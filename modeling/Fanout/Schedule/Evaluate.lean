import Fanout.Schedule.Crew

/-!
# Evaluating tasks

`evaluate` carries out a list of tasks with a crew of workers and returns their outputs in the order
of the tasks, or the failure met first; it does not return if it waits for a worker that never
answers. Tasks are handed out in units of consecutive positions.
-/

namespace Fanout.Schedule

/-- What came of an evaluation. -/
structure Outcome where
  /-- The outputs in the order of the tasks, or why there are none. -/
  result : Except Failure (List Payload)
  /-- What was done with the workers, in order. -/
  acts : List Act
  /-- What was reported, in order. -/
  log : List LogEntry
deriving Repr

namespace Outcome

/-- Nothing was done. -/
def idle (result : Except Failure (List Payload)) : Outcome := ⟨result, [], []⟩

/-- How many workers were started. -/
def spawned (outcome : Outcome) : Nat :=
  outcome.acts.countP fun act => match act with
    | .spawned _ => true
    | _ => false

/-- How many tasks were given to workers. -/
def runs (outcome : Outcome) : Nat :=
  outcome.acts.countP fun act => match act with
    | .run .. => true
    | _ => false

/-- How many workers were asked to shut down. -/
def shutDown (outcome : Outcome) : Nat :=
  outcome.acts.countP fun act => match act with
    | .shutdown _ => true
    | _ => false

/-- How many workers were terminated. -/
def terminated (outcome : Outcome) : Nat :=
  outcome.acts.countP fun act => match act with
    | .terminate _ => true
    | _ => false

end Outcome

/-- What a state says about an evaluation that has ended in it. -/
def State.outcome (state : State) : Outcome := ⟨state.result, state.shared.acts, state.shared.log⟩

namespace Evaluation

variable {W : Type}

/-- An evaluation of tasks, before anything has happened. -/
def start (tasks : List Envelope) (options : Options) : Except Fault (Evaluation W) := do
  let state ← State.start tasks.length options
  return ⟨tasks, state, List.replicate state.drivers.length none⟩

/-- What came of an evaluation in which nothing more can be done. If it has not ended, it waits for
its workers for ever. -/
def outcome (evaluation : Evaluation W) : Outcome :=
  let outcome := evaluation.state.outcome
  if evaluation.state.isFinal then outcome else { outcome with result := .error .stalled }

/-- Carry out an evaluation that has not begun. -/
def carryOut (crew : Crew W) (evaluation : Evaluation W) : Outcome :=
  let drivers := evaluation.state.drivers.length
  let started : Notice :=
    .evaluationStarted evaluation.tasks.length evaluation.state.shared.queue.length drivers
  let outcome := (evaluation.complete crew (List.replicate drivers 0)).outcome
  { outcome with log := [.activity "evaluate" started, .notice started] ++ outcome.log }

end Evaluation

variable {W : Type}

/-- Carry out tasks with a crew of workers; no tasks need no workers. -/
def evaluate (crew : Crew W) (tasks : List Envelope) (options : Options) : Outcome :=
  if tasks.isEmpty then .idle (.ok [])
  else
    match Evaluation.start tasks options with
    | .ok evaluation => evaluation.carryOut crew
    | .error fault => .idle (.error (.fault fault))

/-- Why a caller that is itself part of a running evaluation cannot wait for another one. -/
def nestingError : BackendError :=
  .engine "cannot block on worker tasks from inside an async runtime"

/-- Carry out tasks and wait for the end; `nested` says that the caller is itself part of a running
evaluation, which must not wait for another one. -/
def evaluateBlocking (nested : Bool) (crew : Crew W) (tasks : List Envelope) (options : Options) :
    Outcome :=
  if nested then .idle (.error (.error nestingError)) else evaluate crew tasks options

end Fanout.Schedule

import Fanout.Registry
import Fanout.Schedule.Crew

/-!
# Workers without processes

A crew whose workers answer from a registry, in the process of the scheduler. What may go wrong with
a real worker can be put in: a start or a shutdown that fails, a task that is lost, takes time, is
answered under another position, or makes the worker panic.
-/

namespace Fanout.Schedule

/-- What goes wrong with workers, by worker, and with tasks, by their positions. -/
structure Disturbance where
  /-- Why a worker does not start. -/
  spawn : Nat → Option BackendError
  /-- Why a worker does not shut down. -/
  shutdown : Nat → Option BackendError
  /-- Why a worker is lost over a task. -/
  lost : Nat → Option String
  /-- The panic a task leads to. -/
  panic : Nat → Option String
  /-- The position a task is answered under, if not its own. -/
  answerAs : Nat → Option Nat
  /-- How long a task takes. -/
  delay : Nat → Nat

/-- An answer under another position. -/
def relabel (index : Nat) : Response → Response
  | .completed _ output => .completed (UInt64.ofNat index) output
  | .failed _ kind message => .failed (UInt64.ofNat index) kind message

/-- What a worker makes of a task. -/
def Disturbance.answer (disturbance : Disturbance) (registry : Registry) (worker : Nat)
    (task : Envelope) : Answer Response :=
  let index := task.index.toNat
  match disturbance.panic index, disturbance.lost index with
  | some message, _ => .panic message
  | none, some reason => .error (.workerLost worker reason)
  | none, none =>
    let response := registry.invoke task
    .value <| match disturbance.answerAs index with
      | some other => relabel other response
      | none => response

/-- An answer, unless something goes wrong. -/
def Answer.unless {α : Type} (a : α) : Option BackendError → Answer α
  | some cause => .error cause
  | none => .value a

/-- Workers that answer from a registry; a worker's state is its number. -/
def Crew.inProcess (registry : Registry) (disturbance : Disturbance) : Crew Nat where
  spawn worker := .unless worker (disturbance.spawn worker)
  run worker task := (worker, disturbance.answer registry worker task)
  shutdown worker := .unless () (disturbance.shutdown worker)
  arrival _ := []
  departure _ _ := []
  delay task := disturbance.delay task.index.toNat

end Fanout.Schedule

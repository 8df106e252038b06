import Fanout.Partition
import Fanout.Report
import Fanout.Worker.Message

/-!
# Drivers

Each worker of an evaluation has a driver, which starts the worker, takes units of work from a
shared queue, has the worker run their tasks one by one, and in the end shuts the worker down or
terminates it. The first failure of all drivers is recorded and cancels the evaluation; every
driver looks at the cancellation between units, and may give up what it waits for once it is set.

`Driver.step?` is one step of one driver. What the worker does is part of the event, so every
behaviour of a worker is some sequence of events, and every interleaving of drivers some sequence of
their steps. `Driver.weight_step?_lt` says that no driver can go on for ever: each step lowers the
weight of the driver together with the queue.
-/

namespace Fanout.Schedule

/-- What is done with a worker. -/
inductive Act where
  | spawn (worker : Nat)
  | spawned (worker : Nat)
  /-- It is given the task at a position. -/
  | run (worker position : Nat)
  | shutdown (worker : Nat)
  | terminate (worker : Nat)
deriving DecidableEq, Repr

/-- What all drivers share. -/
structure Shared where
  tasks : Nat
  /-- The units of work nobody has taken yet, in order. -/
  queue : List Span
  cancelled : Bool
  /-- The failure recorded first. -/
  firstError : Option BackendError
  /-- How many tasks have been completed. -/
  completed : Nat
  /-- What has been done with the workers, in order. -/
  acts : List Act
  /-- What has been reported, in order. -/
  log : List LogEntry
deriving Repr

namespace Shared

/-- Note down what is done with a worker. -/
def noting (shared : Shared) (act : Act) : Shared := { shared with acts := shared.acts ++ [act] }

/-- Report something. -/
def reporting (shared : Shared) (entries : List LogEntry) : Shared :=
  { shared with log := shared.log ++ entries }

/-- Cancel the evaluation, and report how far it came. -/
def cancel (shared : Shared) : Shared :=
  { shared with cancelled := true }.reporting
    [.notice (.evaluationCancelled shared.completed shared.tasks)]

/-- What the queued units weigh: each of their tasks takes two steps, and each unit two more. -/
def weight (shared : Shared) : Nat :=
  shared.queue.foldr (fun unit total => 2 * unit.length + 2 + total) 0

end Shared

/-- How a driver goes on once its failure has been dealt with. -/
inductive Aftermath where
  /-- It is done. -/
  | leave
  /-- It terminates its worker. -/
  | terminate
deriving DecidableEq, Repr

/-- Where a driver stands. -/
inductive Phase where
  /-- It has not begun. -/
  | starting
  /-- Its worker is being started. -/
  | spawning
  /-- It is about to look at the cancellation. -/
  | ready
  /-- It is about to take a unit. -/
  | pulling
  /-- It has a unit and is about to give its worker the next task. -/
  | holding
  /-- Its worker runs the task at a position. -/
  | running (position : Nat)
  /-- It has left the loop over units. -/
  | leaving
  /-- Its worker is shutting down. -/
  | closing
  /-- It met a failure and is about to record it. -/
  | recording (error : BackendError) (next : Aftermath)
  /-- Its failure is the first one, and it is about to cancel the evaluation. -/
  | cancelling (next : Aftermath)
  /-- Its worker is being terminated. -/
  | terminating
  /-- It is done, and its outputs wait to be collected. -/
  | returned
  /-- A panic ended it. -/
  | panicked (message : String)
  /-- It has been collected. -/
  | joined
deriving DecidableEq, Repr

/-- How many steps are at most left to a driver in a phase that takes no further unit, when `rest`
tasks of its unit are left; collecting its outputs and what a panic leads to are counted in. -/
def Phase.weight (rest : Nat) : Phase → Nat
  | starting => 14
  | spawning => 13
  | running _ => 12 + 2 * rest
  | holding => 11 + 2 * rest
  | ready => 11
  | pulling => 10
  | leaving => 9
  | closing => 8
  | recording .. => 7
  | cancelling _ => 6
  | terminating => 5
  | panicked _ => 4
  | returned => 1
  | joined => 0

/-- The driver of one worker. -/
structure Driver where
  phase : Phase
  /-- The positions of the unit in hand that its worker has not been given. -/
  rest : Span
  /-- The outputs it has received, each with the position it belongs to. -/
  outputs : List (UInt64 × Payload)
deriving Repr

/-- Something a driver does, or its worker does to it. -/
inductive Event where
  | launch
  | launched
  | refused (error : BackendError)
  /-- The driver sees the cancellation before its worker has started. -/
  | skip
  /-- The driver looks at the cancellation between units. -/
  | look
  /-- The driver takes the next unit, if there is one. -/
  | take
  /-- The driver gives its worker the next task. -/
  | start
  /-- The driver sees the cancellation in the middle of a unit. -/
  | abandon
  /-- The worker has answered, or failed to. -/
  | answer (result : Except BackendError Response)
  /-- The driver looks at the cancellation for the last time and dismisses its worker. -/
  | dismiss
  /-- The worker has shut down, or failed to. -/
  | closed (result : Except BackendError Unit)
  | terminated
  /-- The driver records its failure, unless there was one before. -/
  | record
  /-- The driver cancels the evaluation. -/
  | cancel
  | crash (message : String)
deriving Repr

namespace Driver

/-- A driver that has not begun. -/
def initial : Driver := ⟨.starting, ⟨0, 0⟩, []⟩

/-- A driver that goes over to a phase. -/
def enter (driver : Driver) (phase : Phase) : Driver := { driver with phase }

/-- A driver that goes on with its unit, or with the next one. -/
def resume (driver : Driver) : Driver :=
  driver.enter (if driver.rest.length = 0 then .ready else .holding)

/-- A driver that takes a unit. -/
def hold (driver : Driver) (unit : Span) : Driver := { driver with rest := unit }.resume

/-- How a driver goes on once its failure has been dealt with. -/
def conclude (id : Nat) (shared : Shared) (driver : Driver) : Aftermath → Shared × Driver
  | .leave => (shared, driver.enter .returned)
  | .terminate => (shared.noting (.terminate id), driver.enter .terminating)

/-- What a driver makes of an answer. -/
def receive (shared : Shared) (driver : Driver) (result : Except BackendError Response) :
    Shared × Driver :=
  match result.bind Response.output with
  | .ok output =>
    ({ shared with completed := shared.completed + 1 },
      { driver with outputs := driver.outputs ++ [output] }.resume)
  | .error error => (shared, driver.enter (.recording error .terminate))

/-- One step of the driver with number `id`; `none` if it cannot take that step. -/
def step? (id : Nat) (shared : Shared) (driver : Driver) (event : Event) :
    Option (Shared × Driver) :=
  match driver.phase, event with
  | .starting, .launch => some (shared.noting (.spawn id), driver.enter .spawning)
  | .starting, .skip | .spawning, .skip =>
    if shared.cancelled then some (shared, driver.enter .returned) else none
  | .spawning, .launched => some (shared.noting (.spawned id), driver.enter .ready)
  | .spawning, .refused error => some (shared, driver.enter (.recording error .leave))
  | .ready, .look => some (shared, driver.enter (if shared.cancelled then .leaving else .pulling))
  | .pulling, .take =>
    match shared.queue with
    | [] => some (shared, driver.enter .leaving)
    | unit :: queue => some ({ shared with queue }, driver.hold unit)
  | .holding, .start =>
    if driver.rest.length = 0 then none
    else
      let position := driver.rest.start
      some (shared.noting (.run id position),
        { driver with rest := ⟨position + 1, driver.rest.stop⟩ }.enter (.running position))
  | .holding, .abandon | .running _, .abandon =>
    if shared.cancelled then some (shared, driver.enter .leaving) else none
  | .running _, .answer result => some (driver.receive shared result)
  | .leaving, .dismiss =>
    if shared.cancelled then some (shared.noting (.terminate id), driver.enter .terminating)
    else some (shared.noting (.shutdown id), driver.enter .closing)
  | .closing, .closed (.ok ()) => some (shared, driver.enter .returned)
  | .closing, .closed (.error error) => some (shared, driver.enter (.recording error .leave))
  | .terminating, .terminated => some (shared, driver.enter .returned)
  | .recording error next, .record =>
    match shared.firstError with
    | none => some ({ shared with firstError := some error }, driver.enter (.cancelling next))
    | some _ => some (driver.conclude id shared next)
  | .cancelling next, .cancel => some (driver.conclude id shared.cancel next)
  | .spawning, .crash message | .running _, .crash message | .closing, .crash message
  | .terminating, .crash message => some (shared, driver.enter (.panicked message))
  | _, _ => none

/-- How many steps are at most left to a driver that takes no further unit. -/
def weight (driver : Driver) : Nat := driver.phase.weight driver.rest.length

theorem weight_resume_le (driver : Driver) :
    driver.resume.weight ≤ 11 + 2 * driver.rest.length := by
  unfold resume
  split <;> simp_all [enter, weight, Phase.weight]

/-- After its failure has been dealt with, a driver weighs at most 5. -/
theorem weight_conclude_le (id : Nat) (shared : Shared) (driver : Driver) (next : Aftermath) :
    (conclude id shared driver next).2.weight ≤ 5 := by
  cases next <;> simp [conclude, enter, weight, Phase.weight]

theorem queue_conclude (id : Nat) (shared : Shared) (driver : Driver) (next : Aftermath) :
    (conclude id shared driver next).1.weight = shared.weight := by
  cases next <;> rfl

/-- An answer leaves the queue alone and lowers the weight of a driver whose worker runs a task. -/
theorem weight_receive_lt (shared : Shared) (driver : Driver)
    (result : Except BackendError Response) :
    (receive shared driver result).1.weight = shared.weight ∧
      (receive shared driver result).2.weight < 12 + 2 * driver.rest.length := by
  unfold receive
  split
  · refine ⟨rfl, Nat.lt_of_le_of_lt (weight_resume_le _) ?_⟩
    simp
  · exact ⟨rfl, by simp [enter, weight, Phase.weight]; omega⟩

/-- Every step lowers the weight of the driver together with the queue. -/
theorem weight_step?_lt {id : Nat} {shared shared' : Shared} {driver driver' : Driver}
    {event : Event} (h : driver.step? id shared event = some (shared', driver')) :
    shared'.weight + driver'.weight < shared.weight + driver.weight := by
  have hp : driver.weight = driver.phase.weight driver.rest.length := rfl
  unfold step? at h
  split at h
  -- the step cannot be taken
  case h_22 => cases h
  all_goals (rename_i hphase; rw [hp, hphase]; clear hp)
  -- a unit is taken: its tasks move from the queue to the driver, for two steps less
  case h_7 =>
    split at h <;> rename_i hq <;> cases h
    · simp [enter, weight, Phase.weight]
    · rename_i unit queue
      have := weight_resume_le { driver with rest := unit }
      simp [hold, Phase.weight, Shared.weight, hq] at this ⊢
      omega
  -- a task is given to the worker
  case h_8 =>
    split at h <;> cases h
    simp [enter, weight, Phase.weight, Shared.weight, Shared.noting, Span.length] at *
    omega
  -- an answer arrives
  case h_11 =>
    have := weight_receive_lt shared driver ‹_›
    rw [Option.some.inj h] at this
    simp [Phase.weight] at this ⊢; omega
  -- a failure is recorded, and a later one is dropped
  case h_16 =>
    rename_i next
    split at h
    · cases h
      simp [enter, weight, Phase.weight, Shared.weight]
    · have hw := weight_conclude_le id shared driver next
      have hq := queue_conclude id shared driver next
      rw [Option.some.inj h] at hw hq
      simp [Phase.weight] at hw hq ⊢; omega
  -- the evaluation is cancelled, which leaves the queue as it is
  case h_17 =>
    rename_i next
    have hw := weight_conclude_le id shared.cancel driver next
    have hq := queue_conclude id shared.cancel driver next
    rw [Option.some.inj h] at hw hq
    have : shared.cancel.weight = shared.weight := rfl
    simp [Phase.weight] at hw hq ⊢; omega
  -- in all other steps only the phase changes
  all_goals (first | cases h | (split at h <;> cases h)) <;>
    (try split) <;> simp [enter, weight, Phase.weight, Shared.weight, Shared.noting] <;> omega

end Driver

end Fanout.Schedule

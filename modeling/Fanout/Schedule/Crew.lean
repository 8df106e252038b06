import Fanout.Schedule.State

/-!
# Evaluations with workers

A `Crew` says how the workers of an evaluation behave. With it an evaluation needs only be told, at
each step, who moves: what a driver does next follows from its phase and its worker. A driver whose
worker is busy may also give up, if the evaluation is cancelled. A driver that calls a worker which
never answers has nothing to do next. Every list of choices is one interleaving;
`Evaluation.complete` follows the one in which, of the drivers that can move, the one whose clock
shows the least time does, where giving a task to a worker lets the driver's clock advance.
-/

namespace Fanout.Schedule

/-- What calling a worker's code came to. -/
inductive Answer (α : Type) where
  | value (a : α)
  | error (error : BackendError)
  | panic (message : String)
  /-- The call never returns. -/
  | pending
deriving Repr

/-- The behaviour of the workers of an evaluation, whose states have type `W`. -/
structure Crew (W : Type) where
  /-- Start the worker of a number. -/
  spawn : Nat → Answer W
  run : W → Envelope → W × Answer Response
  shutdown : W → Answer Unit
  /-- What is reported about a worker that has started. -/
  arrival : W → List LogEntry
  /-- What is reported about a worker that has ended, by force or not. -/
  departure : W → Bool → List LogEntry
  /-- How long a worker takes over a task. -/
  delay : Envelope → Nat

/-- An evaluation together with its workers. -/
structure Evaluation (W : Type) where
  tasks : List Envelope
  /-- Where drivers and collector stand. -/
  state : State
  /-- The workers that have started, by number. -/
  workers : List (Option W)

/-- Who moves next. -/
inductive Choice where
  /-- A driver does what comes next. -/
  | advance (id : Nat)
  /-- A driver gives up what it waits for, because the evaluation is cancelled. -/
  | giveUp (id : Nat)
  /-- The collector takes what a driver leaves behind. -/
  | collect (id : Nat)
  /-- The collector goes on dealing with a panic. -/
  | collector
deriving DecidableEq, Repr

/-- What a collector that deals with a panic does next. -/
def Collector.next? : Collector → Option Move
  | .recording _ => some .record
  | .cancelling => some .cancel
  | .idle | .faulted _ => none

/-- What a driver does next: an event, the new state of its worker, and what is reported. -/
structure Turn (W : Type) where
  event : Event
  /-- The worker afterwards. -/
  worker : Option W
  entries : List LogEntry

namespace Turn

variable {W : Type}

/-- The turn of a driver whose worker is being started. -/
def ofSpawn (crew : Crew W) : Answer W → Option (Turn W)
  | .value worker => some ⟨.launched, some worker, crew.arrival worker⟩
  | .error error => some ⟨.refused error, none, []⟩
  | .panic message => some ⟨.crash message, none, []⟩
  | .pending => none

/-- The turn of a driver whose worker has been given a task. -/
def ofRun (worker : W) : Answer Response → Option (Turn W)
  | .value response => some ⟨.answer (.ok response), some worker, []⟩
  | .error error => some ⟨.answer (.error error), some worker, []⟩
  | .panic message => some ⟨.crash message, some worker, []⟩
  | .pending => none

/-- The turn of a driver whose worker is shutting down. -/
def ofShutdown (crew : Crew W) (worker : W) : Answer Unit → Option (Turn W)
  | .value () => some ⟨.closed (.ok ()), some worker, crew.departure worker false⟩
  | .error error => some ⟨.closed (.error error), some worker, crew.departure worker false⟩
  | .panic message => some ⟨.crash message, some worker, []⟩
  | .pending => none

end Turn

namespace Evaluation

variable {W : Type}

/-- What the driver with number `id` does next. -/
def turn? (crew : Crew W) (evaluation : Evaluation W) (id : Nat) : Option (Turn W) := do
  let driver ← evaluation.state.drivers[id]?
  let worker := (evaluation.workers[id]?).join
  let alone (event : Event) : Option (Turn W) := some ⟨event, worker, []⟩
  match driver.phase with
  | .starting => alone .launch
  | .spawning => Turn.ofSpawn crew (crew.spawn id)
  | .ready => alone .look
  | .pulling => alone .take
  | .holding => alone .start
  | .running position =>
    let (worker, answer) := crew.run (← worker) (← evaluation.tasks[position]?)
    Turn.ofRun worker answer
  | .leaving => alone .dismiss
  | .closing =>
    let worker ← worker
    Turn.ofShutdown crew worker (crew.shutdown worker)
  | .recording .. => alone .record
  | .cancelling _ => alone .cancel
  | .terminating => return ⟨.terminated, worker, crew.departure (← worker) true⟩
  | .returned | .panicked _ | .joined => none

/-- How the driver with number `id` gives up. -/
def giveUp? (evaluation : Evaluation W) (id : Nat) : Option Event := do
  let driver ← evaluation.state.drivers[id]?
  match driver.phase with
  | .starting | .spawning => some .skip
  | .holding | .running _ => some .abandon
  | _ => none

/-- One step; `none` if nobody can move as chosen. -/
def step? (crew : Crew W) (evaluation : Evaluation W) (choice : Choice) :
    Option (Evaluation W) :=
  match choice with
  | .advance id => do
    let turn ← evaluation.turn? crew id
    let state ← evaluation.state.step? (.driver id turn.event)
    return { evaluation with
      state := { state with shared := state.shared.reporting turn.entries }
      workers := evaluation.workers.set id turn.worker }
  | .giveUp id => do
    let event ← evaluation.giveUp? id
    let state ← evaluation.state.step? (.driver id event)
    return { evaluation with state }
  | .collect id => do
    let state ← evaluation.state.step? (.collect id)
    return { evaluation with state }
  | .collector => do
    let move ← evaluation.state.collector.next?
    let state ← evaluation.state.step? move
    return { evaluation with state }

/-- The evaluation after some choices; `none` if one of them cannot be made. -/
def run? (crew : Crew W) (evaluation : Evaluation W) : List Choice → Option (Evaluation W)
  | [] => some evaluation
  | choice :: rest => (evaluation.step? crew choice).bind fun next => next.run? crew rest

/-- Every step lowers the measure, so every interleaving ends. -/
theorem measure_step?_lt {crew : Crew W} {evaluation next : Evaluation W} {choice : Choice}
    (h : evaluation.step? crew choice = some next) :
    next.state.measure < evaluation.state.measure := by
  cases choice <;> obtain ⟨_, _, h⟩ := Option.bind_eq_some_iff.mp h
  case advance =>
    obtain ⟨state, hs, h⟩ := Option.bind_eq_some_iff.mp h
    cases h
    have hlt := State.measure_step?_lt hs
    exact hlt
  case giveUp =>
    obtain ⟨state, hs, h⟩ := Option.bind_eq_some_iff.mp h
    cases h
    exact State.measure_step?_lt hs
  case collect hs =>
    cases h
    exact State.measure_step?_lt hs
  case collector =>
    obtain ⟨state, hs, h⟩ := Option.bind_eq_some_iff.mp h
    cases h
    exact State.measure_step?_lt hs

/-- Whether a driver waits to be collected. -/
def collectable (driver : Driver) : Bool :=
  match driver.phase with
  | .returned | .panicked _ => true
  | _ => false

/-- Entries in the order of their times with one more entry, which comes behind its equals. -/
def insertByTime (entry : Nat × Nat) : List (Nat × Nat) → List (Nat × Nat)
  | [] => [entry]
  | first :: rest =>
    if entry.1 < first.1 then entry :: first :: rest else first :: insertByTime entry rest

/-- The drivers that are not done, each as the time its clock shows with its number. -/
def waiting (drivers : List Driver) (clocks : List Nat) : List (Nat × Nat) :=
  ((drivers.zip clocks).zipIdx.filter fun entry => entry.1.1.phase ≠ .joined).map
    fun entry => (entry.1.2, entry.2)

/-- The numbers of the drivers that are not done, in the order of their clocks; equals in the order
of their numbers. -/
def byTime (drivers : List Driver) (clocks : List Nat) : List Nat :=
  ((waiting drivers clocks).foldl (fun sorted entry => insertByTime entry sorted) []).map Prod.snd

/-- What a driver chooses when it is its turn: it gives up as soon as it can. -/
def choiceOf (evaluation : Evaluation W) (id : Nat) : Choice :=
  if evaluation.state.shared.cancelled && (evaluation.giveUp? id).isSome then .giveUp id
  else .advance id

/-- What may be chosen next when drivers take turns by their clocks, first things first. -/
def candidates (evaluation : Evaluation W) (clocks : List Nat) : List Choice :=
  match evaluation.state.collector with
  | .faulted _ => []
  | .recording _ | .cancelling => [.collector]
  | .idle =>
    -- what is done is collected before anyone else moves
    match evaluation.state.drivers.findIdx? collectable with
    | some id => [.collect id]
    | none => (byTime evaluation.state.drivers clocks).map evaluation.choiceOf

/-- What is chosen next, and what it leads to: the first thing that can be done. -/
def next? (crew : Crew W) (evaluation : Evaluation W) (clocks : List Nat) :
    Option (Choice × Evaluation W) :=
  (evaluation.candidates clocks).findSome? fun choice =>
    (evaluation.step? crew choice).map (choice, ·)

/-- What is chosen next can be done. -/
theorem step?_of_next? {crew : Crew W} {evaluation next : Evaluation W} {clocks : List Nat}
    {choice : Choice} (h : evaluation.next? crew clocks = some (choice, next)) :
    evaluation.step? crew choice = some next := by
  obtain ⟨other, -, h⟩ := List.exists_of_findSome?_eq_some h
  obtain ⟨_, hstep, heq⟩ := Option.map_eq_some_iff.mp h
  cases heq
  exact hstep

/-- The clocks after a choice: giving a worker a task takes the time the worker needs. -/
def elapse (crew : Crew W) (evaluation : Evaluation W) (clocks : List Nat) : Choice → List Nat
  | .advance id =>
    match evaluation.state.drivers[id]? with
    | some driver =>
      match driver.phase, evaluation.tasks[driver.rest.start]? with
      -- the task about to be given away
      | .holding, some task => clocks.modify id (· + crew.delay task)
      | _, _ => clocks
    | none => clocks
  | _ => clocks

/-- The end of the evaluation in which drivers take turns by their clocks. Nothing more can be done
in it, but drivers may still be waiting for workers that never answer. -/
def complete (crew : Crew W) (evaluation : Evaluation W) (clocks : List Nat) : Evaluation W :=
  match _h : evaluation.next? crew clocks with
  | none => evaluation
  | some (choice, next) => next.complete crew (evaluation.elapse crew clocks choice)
termination_by evaluation.state.measure
decreasing_by exact measure_step?_lt (step?_of_next? _h)

end Evaluation

end Fanout.Schedule

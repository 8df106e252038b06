import Fanout.Function.Basic
import Fanout.Schedule.Driver

/-!
# Interleavings

An evaluation is a list of drivers over what they share, and a collector, which takes the outputs of
finished drivers and puts each into the slot of its position. A `Move` is a step of one driver or of
the collector; an interleaving of an evaluation is a list of moves that `State.run?` accepts from
the state where the evaluation begins, `State.start`.

`State.measure_step?_lt` says that every interleaving is finite, and `State.result` is what comes of
an evaluation that has ended: the failure recorded first, or all outputs in the order of the tasks.
-/

namespace Fanout.Schedule

/-- Settings of an evaluation. -/
structure Options where
  /-- How many workers run at once, at most. -/
  workers : Nat
  /-- How many tasks make a unit. -/
  chunkSize : Nat
  /-- Whether all workers are started even if there are fewer units. -/
  fixedPool : Bool
deriving DecidableEq, Repr

namespace Options

/-- One worker, one task at a time. -/
def standard : Options := ⟨1, 1, false⟩

/-- How many workers are started for a number of units. -/
def driverCount (options : Options) (units : Nat) : Nat :=
  let workers := max options.workers 1
  if options.fixedPool then workers else min workers units

end Options

/-- What the collector is doing. -/
inductive Collector where
  /-- It waits for a driver to finish. -/
  | idle
  /-- It found a driver that panicked, and is about to record that. -/
  | recording (error : BackendError)
  /-- It recorded the first failure, and is about to cancel the evaluation. -/
  | cancelling
  /-- It met a position that has no slot. -/
  | faulted (fault : Fault)
deriving DecidableEq, Repr

/-- How many steps are at most left to the collector. -/
def Collector.weight : Collector → Nat
  | recording _ => 2
  | cancelling => 1
  | idle | faulted _ => 0

/-- An evaluation at some point. -/
structure State where
  /-- What the drivers share. -/
  shared : Shared
  /-- The drivers, by the numbers of their workers. -/
  drivers : List Driver
  /-- The outputs collected so far, by position. -/
  slots : List (Option Payload)
  /-- What the collector is doing. -/
  collector : Collector
deriving Repr

/-- A step of an evaluation. -/
inductive Move where
  /-- A step of a driver. -/
  | driver (id : Nat) (event : Event)
  /-- The collector takes the outputs of a driver that has finished, or finds that it panicked. -/
  | collect (id : Nat)
  /-- The collector records a panic, unless there was a failure before. -/
  | record
  /-- The collector cancels the evaluation. -/
  | cancel
deriving Repr

namespace State

/-- The evaluation of `tasks` tasks, cut into units, by a number of drivers. -/
def initial (tasks : Nat) (units : List Span) (drivers : Nat) : State where
  shared := ⟨tasks, units, false, none, 0, [], []⟩
  drivers := List.replicate drivers .initial
  slots := List.replicate tasks none
  collector := .idle

/-- Where an evaluation of `tasks` tasks begins. The tasks are cut into units, for as many drivers
as the settings ask for; no tasks need no drivers. -/
def start (tasks : Nat) (options : Options) : Except Fault State :=
  if tasks = 0 then .ok (initial 0 [] 0)
  else do
    let units ← Partition.chunkRanges tasks options.chunkSize
    return initial tasks units (options.driverCount units.length)

/-- Put outputs into the slots of their positions, the later of two for one position. -/
def place (slots : List (Option Payload)) :
    List (UInt64 × Payload) → Except Fault (List (Option Payload))
  | [] => .ok slots
  | (index, output) :: rest =>
    if index.toNat < slots.length then place (slots.set index.toNat (some output)) rest
    else .error (.indexOutOfBounds slots.length index.toNat)

/-- A state in which one driver is replaced. -/
def withDriver (state : State) (id : Nat) (driver : Driver) : State :=
  { state with drivers := state.drivers.set id driver }

/-- What is reported about a driver that panicked. -/
def panicError (message : String) : BackendError := .engine s!"worker driver failed: {message}"

/-- The collector takes what a driver leaves behind. -/
def collect (state : State) (id : Nat) (driver : Driver) : Option State :=
  match driver.phase with
  | .returned =>
    match place state.slots driver.outputs with
    | .ok slots => some { state.withDriver id (driver.enter .joined) with slots }
    | .error fault =>
      some { state.withDriver id (driver.enter .joined) with collector := .faulted fault }
  | .panicked message =>
    some { state.withDriver id (driver.enter .joined) with
      collector := .recording (panicError message) }
  | _ => none

/-- One step; `none` if it cannot be taken. -/
def step? (state : State) (move : Move) : Option State :=
  match state.collector, move with
  -- a fault ends the whole operation, whatever the drivers are doing
  | .faulted _, _ => none
  | _, .driver id event => do
    let driver ← state.drivers[id]?
    let (shared, driver) ← driver.step? id state.shared event
    return { state.withDriver id driver with shared }
  | .idle, .collect id => do
    let driver ← state.drivers[id]?
    state.collect id driver
  | .recording error, .record =>
    match state.shared.firstError with
    | none =>
      some { state with
        shared := { state.shared with firstError := some error }, collector := .cancelling }
    | some _ => some { state with collector := .idle }
  | .cancelling, .cancel => some { state with shared := state.shared.cancel, collector := .idle }
  | _, _ => none

/-- The state after some moves; `none` if one of them cannot be made. -/
def run? (state : State) : List Move → Option State
  | [] => some state
  | move :: rest => (state.step? move).bind fun next => next.run? rest

/-- Whether the evaluation has ended. -/
def isFinal (state : State) : Bool :=
  match state.collector with
  | .faulted _ => true
  | .idle => state.drivers.all fun driver => driver.phase = .joined
  | _ => false

/-- The outputs in the slots from a position on, or the first slot that is empty. -/
def outputsFrom (position : Nat) : List (Option Payload) → Except BackendError (List Payload)
  | [] => .ok []
  | none :: _ => .error (.engine s!"task {position} produced no result")
  | some output :: rest => do return output :: (← outputsFrom (position + 1) rest)

/-- What comes of an evaluation that has ended. -/
def result (state : State) : Except Failure (List Payload) :=
  match state.collector with
  | .faulted fault => .error (.fault fault)
  | _ =>
    if state.shared.cancelled then
      .error (.error (state.shared.firstError.getD
        (.engine "evaluation was cancelled without a recorded failure")))
    else (outputsFrom 0 state.slots).mapError .error

/-- What some drivers weigh. -/
def totalWeight (drivers : List Driver) : Nat :=
  drivers.foldr (fun driver total => driver.weight + total) 0

/-- How many steps are at most left. -/
def measure (state : State) : Nat :=
  state.shared.weight + totalWeight state.drivers + state.collector.weight

/-- Replacing a driver changes the weight of all drivers by the difference. -/
theorem totalWeight_set {l : List Driver} {i : Nat} {d e : Driver} (h : l[i]? = some d) :
    totalWeight (l.set i e) + d.weight = totalWeight l + e.weight := by
  induction l generalizing i with
  | nil => simp at h
  | cons x xs ih =>
    cases i with
    | zero =>
      -- the replaced driver is the first one
      simp at h
      subst h
      simp [totalWeight]
      omega
    | succ i =>
      have := ih (i := i) (by simpa using h)
      simp only [totalWeight, List.set_cons_succ, List.foldr_cons] at this ⊢
      omega

/-- Collecting a driver lowers the measure. -/
theorem measure_collect_lt {state state' : State} {id : Nat} {driver : Driver}
    (hd : state.drivers[id]? = some driver) (hc : state.collector = .idle)
    (h : state.collect id driver = some state') : state'.measure < state.measure := by
  have hs := totalWeight_set (e := driver.enter .joined) hd
  unfold collect at h
  split at h
  · rename_i hp
    split at h <;> cases h <;>
      simp [measure, withDriver, hc, Collector.weight, Driver.weight, Driver.enter,
        Phase.weight, hp] at hs ⊢ <;> omega
  · rename_i hp
    cases h
    simp [measure, withDriver, hc, Collector.weight, Driver.weight, Driver.enter,
      Phase.weight, hp] at hs ⊢
    omega
  · cases h

/-- Every step lowers the measure, so every interleaving ends. -/
theorem measure_step?_lt {state state' : State} {move : Move} (h : state.step? move = some state') :
    state'.measure < state.measure := by
  unfold step? at h
  split at h
  · cases h
  -- a driver moves: the queue and this driver together weigh less, the others the same
  · rename_i id event _
    obtain ⟨driver, hd, h⟩ := Option.bind_eq_some_iff.mp h
    obtain ⟨⟨shared, driver'⟩, hstep, h⟩ := Option.bind_eq_some_iff.mp h
    cases h
    have hw := Driver.weight_step?_lt hstep
    have hs := totalWeight_set (e := driver') hd
    simp only [measure, withDriver]
    omega
  · rename_i hc
    obtain ⟨driver, hd, h⟩ := Option.bind_eq_some_iff.mp h
    exact measure_collect_lt hd hc h
  -- the collector deals with a panic: only its own weight changes
  · rename_i hc
    split at h <;> cases h <;> simp [measure, hc, Collector.weight, Shared.weight]
  · rename_i hc
    cases h
    have : state.shared.cancel.weight = state.shared.weight := rfl
    simp [measure, hc, Collector.weight, this]
  · cases h

end State

end Fanout.Schedule

import Fanout.Proofs.Partition
import Fanout.Proofs.Schedule.Step

/-!
# Courses of an evaluation

A `Course` is an interleaving with a predicate `permits` that restricts what drivers see from their
workers. Without restrictions, courses are runs of `State.run?` (`course_iff_run?_eq_some`).

The module also defines what is read off a course: the failures met, the errors reported, and the
units taken from the queue.
-/

namespace Fanout.Schedule

/-- The failure that an event of a driver brings about, if any. -/
def Event.failure? : Event → Option BackendError
  | .refused error | .closed (.error error) => some error
  | .answer result =>
    match result.bind Response.output with
    | .ok _ => none
    | .error error => some error
  | .crash message => some (State.panicError message)
  | _ => none

/-- The failure that a move brings about, if any. -/
def Move.failure? : Move → Option BackendError
  | .driver _ event => event.failure?
  | _ => none

/-- The failures met in `moves`, in order. -/
def failures (moves : List Move) : List BackendError := moves.filterMap Move.failure?

@[simp]
theorem failures_concat (moves : List Move) (move : Move) :
    failures (moves ++ [move]) = failures moves ++ move.failure?.toList := by
  rw [failures, List.filterMap_append]
  congr 1

/-- The error that a `record` of `driver` hands over, if any. -/
def Driver.report? (driver : Driver) : Event → Option BackendError
  | .record =>
    match driver.phase with
    | .recording error _ => some error
    | _ => none
  | _ => none

namespace State

/-- The error that a move hands over to be recorded, if any. -/
def report? (state : State) : Move → Option BackendError
  | .driver id event => state.drivers[id]?.bind fun driver => driver.report? event
  | .record =>
    match state.collector with
    | .recording error => some error
    | _ => none
  | _ => none

/-- The unit that a move takes from the queue, if any. -/
def taken? (state : State) : Move → Option Span
  | .driver _ .take => state.shared.queue.head?
  | _ => none

/-- What `observe` says of each of some moves, in the state the move is made in. -/
def gather {α : Type} (observe : State → Move → Option α) (state : State) : List Move → List α
  | [] => []
  | move :: rest =>
    (observe state move).toList ++
      ((state.step? move).elim [] fun next => next.gather observe rest)

/-- The errors that `moves` hand over to be recorded, in order. -/
def reports (state : State) (moves : List Move) : List BackendError :=
  state.gather report? moves

/-- The units that `moves` take from the queue, in order. -/
def takenUnits (state : State) (moves : List Move) : List Span := state.gather taken? moves

/-- `permits` allows the event of a move in the phase of its driver; moves of the collector are
always allowed. -/
def Permits (permits : Nat → Phase → Event → Prop) (state : State) : Move → Prop
  | .driver id event => ∀ driver, state.drivers[id]? = some driver → permits id driver.phase event
  | _ => True

/-- `State.start` is the `initial` state over the chunks of the tasks, with `options.driverCount`
drivers. -/
theorem start_eq_ok_iff {tasks : Nat} {options : Options} {state : State} (htasks : tasks ≠ 0) :
    start tasks options = .ok state ↔
      ∃ units, Partition.chunkRanges tasks options.chunkSize = .ok units ∧
        initial tasks units (options.driverCount units.length) = state := by
  rw [start, if_neg htasks, Traversal.bind_eq_ok_iff]
  exact exists_congr fun units => and_congr_right fun _ => ⟨Except.ok.inj, congrArg Except.ok⟩

/-- `State.start` succeeds for fewer than `listLimit` tasks. -/
theorem exists_start {tasks : Nat} {options : Options} (htasks : tasks < listLimit)
    (hchunk : options.chunkSize < wordLimit) : ∃ state, start tasks options = .ok state := by
  by_cases hzero : tasks = 0
  · rw [hzero]
    exact ⟨_, rfl⟩
  · obtain ⟨units, hunits⟩ := Partition.exists_chunkRanges htasks hchunk
    exact ⟨_, (start_eq_ok_iff hzero).mpr ⟨units, hunits, rfl⟩⟩

/-- `State.start` makes units that cover all tasks, and at least one driver if there are any. -/
theorem start_eq_ok {tasks : Nat} {options : Options} {state : State}
    (h : start tasks options = .ok state) :
    ∃ units drivers, state = initial tasks units drivers ∧ Consecutive 0 units tasks ∧
      (0 < tasks → 0 < drivers) := by
  by_cases htasks : tasks = 0
  · subst htasks
    cases h
    exact ⟨[], 0, rfl, .nil 0, fun h => h⟩
  · obtain ⟨units, hunits, rfl⟩ := (start_eq_ok_iff htasks).mp h
    have hne := Partition.chunkRanges_ne_nil hunits (Nat.pos_of_ne_zero htasks)
    have hlen := List.length_pos_iff.mpr hne
    refine ⟨units, _, rfl, Partition.consecutive_chunkRanges hunits, fun _ => ?_⟩
    simp only [Options.driverCount]
    split <;> omega

variable {state next : State} {moves rest : List Move} {move : Move}

theorem run?_append : state.run? (moves ++ rest) = (state.run? moves).bind (·.run? rest) := by
  induction moves generalizing state with
  | nil => rfl
  | cons move moves ih =>
    rw [List.cons_append, run?, run?, Option.bind_assoc]
    congr 1
    funext next
    exact ih

/-- `gather` over a run and one more move. -/
theorem gather_concat {α : Type} {observe : State → Move → Option α}
    (h : state.run? moves = some next) :
    state.gather observe (moves ++ [move]) =
      state.gather observe moves ++ (observe next move).toList := by
  induction moves generalizing state with
  | nil =>
    obtain rfl := Option.some.inj h
    cases hstep : state.step? move <;> simp [gather, hstep]
  | cons first moves ih =>
    obtain ⟨middle, hfirst, h⟩ := Option.bind_eq_some_iff.mp h
    rw [List.cons_append, gather, gather, hfirst, Option.elim_some, Option.elim_some, ih h,
      List.append_assoc]

end State

/-- `Course permits start moves state`: `moves` lead from `start` to `state`, and `permits` allows
each of them where it is made. -/
inductive Course (permits : Nat → Phase → Event → Prop) (start : State) : List Move → State → Prop
  | nil : Course permits start [] start
  | concat {moves : List Move} {state next : State} {move : Move}
      (before : Course permits start moves state) (hstep : state.step? move = some next)
      (hpermits : state.Permits permits move) : Course permits start (moves ++ [move]) next

namespace Course

variable {permits : Nat → Phase → Event → Prop} {start state : State} {moves : List Move}

theorem run?_eq_some (h : Course permits start moves state) : start.run? moves = some state := by
  induction h with
  | nil => rfl
  | concat _ hstep _ ih => rw [State.run?_append, ih, Option.bind_some, State.run?, hstep]; rfl

/-- A `Course` keeps the number of drivers. -/
theorem length_drivers (h : Course permits start moves state) :
    state.drivers.length = start.drivers.length := by
  induction h with
  | nil => rfl
  | concat _ hstep _ ih =>
    rw [← ih]
    cases State.step_of_step? hstep <;> simp [State.withDriver]

/-- Two courses one after the other are a course. -/
theorem append {rest : List Move} {last : State} (h : Course permits start moves state)
    (hrest : Course permits state rest last) : Course permits start (moves ++ rest) last := by
  induction hrest with
  | nil => simpa using h
  | concat _ hstep hpermits ih =>
    rw [← List.append_assoc]
    exact ih.concat hstep hpermits

/-- `Course` is monotone in `permits`. -/
theorem mono {permits' : Nat → Phase → Event → Prop}
    (hmono : ∀ id phase event, permits id phase event → permits' id phase event)
    (h : Course permits start moves state) : Course permits' start moves state := by
  induction h with
  | nil => exact .nil
  | @concat _ _ _ move _ hstep hpermits ih =>
    refine ih.concat hstep ?_
    cases move with
    | driver id event => exact fun driver hget => hmono id _ event (hpermits driver hget)
    | collect | record | cancel => trivial

/-- An allowed move in front of a course. -/
theorem cons {move : Move} {next : State} (hstep : start.step? move = some next)
    (hpermits : start.Permits permits move) (h : Course permits next moves state) :
    Course permits start (move :: moves) state :=
  append (Course.nil.concat hstep hpermits) h

end Course

/-- A run is a `Course` if each of its moves is allowed in every state. -/
theorem course_of_run?_eq_some {permits : Nat → Phase → Event → Prop} {start state : State}
    {moves : List Move} (h : start.run? moves = some state)
    (hpermits : ∀ move ∈ moves, ∀ state : State, state.Permits permits move) :
    Course permits start moves state := by
  induction moves generalizing start with
  | nil => cases h; exact .nil
  | cons move moves ih =>
    obtain ⟨next, hstep, h⟩ := Option.bind_eq_some_iff.mp h
    exact .cons hstep (hpermits move List.mem_cons_self start)
      (ih h fun other hmem => hpermits other (List.mem_cons_of_mem _ hmem))

/-- A `Course` that allows everything is a run of `State.run?`. -/
theorem course_iff_run?_eq_some {start state : State} {moves : List Move} :
    Course (fun _ _ _ => True) start moves state ↔ start.run? moves = some state := by
  refine ⟨Course.run?_eq_some, fun h => course_of_run?_eq_some h fun move _ _ => ?_⟩
  cases move <;> simp [State.Permits]

end Fanout.Schedule

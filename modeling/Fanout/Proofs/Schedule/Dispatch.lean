import Fanout.Proofs.Schedule.Course

/-!
# Where the tasks are

`State.Placed` says that every position is in exactly one of three places (a queued unit, the rest
of the unit that a driver has taken last, or the positions given to workers), and that what is given
out later comes later in the list. `Course.placed` shows that it holds in every reachable state.
-/

namespace Fanout.Schedule

open Traversal

/-- Whether a driver in a phase may still take units or start tasks. -/
def Phase.isLive : Phase → Bool
  | starting | spawning | ready | pulling | holding | running _ => true
  | _ => false

/-- Whether a driver in a phase is live and has no unit. -/
def Phase.isBetween : Phase → Bool
  | starting | spawning | ready | pulling => true
  | _ => false

/-- The worker and the position of a `run`. -/
def Act.run? : Act → Option (Nat × Nat)
  | run worker position => some (worker, position)
  | _ => none

namespace Shared

/-- The positions of the units in the queue. -/
def queued (shared : Shared) : List Nat := shared.queue.flatMap Span.toList

/-- The worker and the position of each task that was started, in order. -/
def runs (shared : Shared) : List (Nat × Nat) := shared.acts.filterMap Act.run?

/-- The positions that were started, in order. -/
def started (shared : Shared) : List Nat := shared.runs.map Prod.snd

/-- The positions that worker `id` was given, in order. -/
def startedBy (shared : Shared) (id : Nat) : List Nat :=
  (shared.runs.filter fun run => run.1 = id).map Prod.snd

end Shared

namespace State

/-- The positions left in the units of drivers whose phases are `among` some. -/
def leftOver (state : State) (among : Phase → Bool) : List Nat :=
  (state.drivers.filter fun driver => among driver.phase).flatMap fun driver => driver.rest.toList

/-- The positions left in the units of live drivers. -/
def held (state : State) : List Nat := state.leftOver Phase.isLive

/-- The positions left in the units of drivers that are no longer live. -/
def abandoned (state : State) : List Nat := state.leftOver fun phase => !phase.isLive

end State

namespace Driver

/-- A driver has no task left between two units, and one left while it is `holding`. -/
structure Tidy (driver : Driver) : Prop where
  between : driver.phase.isBetween → driver.rest.length = 0
  holding : driver.phase = .holding → driver.rest.length ≠ 0

variable {id : Nat} {shared shared' : Shared} {driver driver' : Driver} {event : Event}

@[simp]
theorem rest_resume (driver : Driver) : driver.resume.rest = driver.rest := rfl

theorem runs_conclude (next : Aftermath) :
    (driver.conclude id shared next).1.runs = shared.runs := by
  cases next with
  | leave => rfl
  | terminate => simp [conclude, Shared.runs, Shared.noting, Act.run?]

theorem tidy_resume (driver : Driver) : driver.resume.Tidy := by
  rw [resume]
  split
  · rename_i hrest
    exact ⟨fun _ => hrest, fun h => by cases h⟩
  · rename_i hrest
    exact ⟨(fun h => by cases h), fun _ => hrest⟩

/-- A driver that is neither between two units nor `holding` is `Tidy`. -/
theorem tidy_of_phase (hbetween : driver.phase.isBetween = false)
    (hholding : driver.phase ≠ .holding) : driver.Tidy := by
  refine ⟨fun h => ?_, fun h => absurd h hholding⟩
  rw [hbetween] at h
  cases h

/-- `Driver.Step` keeps `Driver.Tidy`. -/
theorem Step.tidy (h : Step id shared driver event shared' driver') (hd : driver.Tidy) :
    driver'.Tidy := by
  cases h with
  | launch hphase | launched hphase | lookOn hphase =>
    exact ⟨fun _ => hd.between (by rw [hphase]; rfl), fun h => by cases h⟩
  | take unit => exact tidy_resume _
  | completed => exact tidy_resume _
  | recordLater error next | cancel next =>
    cases next <;> exact tidy_of_phase rfl (by simp [conclude, enter])
  | _ => exact tidy_of_phase rfl (by simp [enter])

/-- A step moves no position, or the first unit of the queue to its driver, or the first position of
the unit to the worker. -/
inductive Handover (id : Nat) (shared : Shared) (driver : Driver) (event : Event)
    (shared' : Shared) (driver' : Driver) : Prop
  | none (hqueue : shared'.queue = shared.queue) (hrest : driver'.rest = driver.rest)
      (hruns : shared'.runs = shared.runs) (htaken : event = .take → shared.queue = [])
  | taken (hphase : driver.phase = .pulling) (hevent : event = .take)
      (hqueue : shared.queue = driver'.rest :: shared'.queue) (hruns : shared'.runs = shared.runs)
  | started (hevent : event = .start) (hqueue : shared'.queue = shared.queue)
      (hrest : driver.rest.length ≠ 0)
      (hrest' : driver'.rest = ⟨driver.rest.start + 1, driver.rest.stop⟩)
      (hphase' : driver'.phase = .running driver.rest.start)
      (hruns : shared'.runs = shared.runs ++ [(id, driver.rest.start)])

/-- Every `Driver.Step` is a `Handover`. -/
theorem Step.handover (h : Step id shared driver event shared' driver') :
    Handover id shared driver event shared' driver' := by
  cases h with
  | exhausted hphase hqueue => exact .none rfl rfl rfl fun _ => hqueue
  | take unit queue hphase hqueue =>
    refine .taken hphase rfl ?_ rfl
    rw [hqueue, hold, rest_resume]
  | start hphase hrest =>
    exact .started rfl rfl hrest rfl rfl (by simp [Shared.runs, Shared.noting, Act.run?])
  | completed position result output => exact .none rfl (rest_resume _) rfl fun h => by cases h
  | recordLater error next =>
    exact .none (queue_conclude_eq ..) (rest_conclude ..) (runs_conclude ..) fun h => by cases h
  | cancel next =>
    exact .none (queue_conclude_eq ..) (rest_conclude ..) (runs_conclude ..) fun h => by cases h
  | launch | launched | dismiss | expel =>
    exact .none rfl rfl (by simp [Shared.runs, Shared.noting, Act.run?]) fun h => by cases h
  | _ => exact .none rfl rfl rfl fun h => by cases h

end Driver

/-- Each position below `tasks` is in `queue`, in `rests` or in `runs`, and their order is the one
in which they are handed over. -/
structure Placed (tasks : Nat) (queue rests : List Span) (runs : List (Nat × Nat)) : Prop where
  /-- It is in one of these, once. -/
  count (position : Nat) :
    (queue.flatMap Span.toList).count position +
      tally (fun rest => rest.toList.count position) rests +
      (runs.map Prod.snd).count position = (List.range tasks).count position
  /-- The queue is in ascending order. -/
  ascending : queue.Pairwise fun a b => a.stop ≤ b.start
  /-- A rest comes before the units of the queue. -/
  rest_le : ∀ rest ∈ rests, ∀ unit ∈ queue, rest.stop ≤ unit.start
  /-- A started position comes before the units of the queue. -/
  run_lt : ∀ run ∈ runs, ∀ unit ∈ queue, run.2 < unit.start
  /-- A started position comes before the rest of the unit of its driver. -/
  own_lt : ∀ run ∈ runs, ∀ rest, rests[run.1]? = some rest → run.2 < rest.start
  /-- Each worker has started its positions in ascending order. -/
  own_ascending : runs.Pairwise fun a b => a.1 = b.1 → a.2 < b.2

/-- The positions of a span begin with its `start`. -/
theorem toList_eq_cons {rest : Span} (h : rest.length ≠ 0) :
    rest.toList = rest.start :: Span.toList ⟨rest.start + 1, rest.stop⟩ := by
  have hlen : rest.length = Span.length ⟨rest.start + 1, rest.stop⟩ + 1 := by
    simp only [Span.length] at h ⊢
    omega
  rw [Span.toList, hlen, List.range'_succ]
  rfl

theorem toList_eq_nil {rest : Span} (h : rest.length = 0) : rest.toList = [] := by
  rw [Span.toList, h]
  rfl

namespace Placed

variable {tasks id : Nat} {queue rests : List Span} {runs : List (Nat × Nat)} {unit rest : Span}

/-- At first every position is in the queue. -/
theorem initial {drivers : Nat} (hunits : Consecutive 0 queue tasks) :
    Placed tasks queue (List.replicate drivers ⟨0, 0⟩) [] where
  count position := by
    have hzero : tally (fun rest : Span => rest.toList.count position)
        (List.replicate drivers ⟨0, 0⟩) = 0 := by
      refine (tally_eq_zero_iff _).mpr fun rest hmem => ?_
      rw [List.eq_of_mem_replicate hmem]
      rfl
    rw [hunits.flatMap_toList, hzero, List.range_eq_range']
    simp
  ascending := hunits.pairwise
  rest_le rest hrest unit _ := by
    rw [List.eq_of_mem_replicate hrest]
    exact Nat.zero_le _
  run_lt _ h := absurd h List.not_mem_nil
  own_lt _ h := absurd h List.not_mem_nil
  own_ascending := List.Pairwise.nil

/-- `Placed` holds after a driver without a rest takes the first unit of the queue. -/
theorem take (h : Placed tasks (unit :: queue) rests runs) (hget : rests[id]? = some rest)
    (hrest : rest.length = 0) : Placed tasks queue (rests.set id unit) runs where
  count position := by
    have hset := tally_set (fun rest : Span => rest.toList.count position) (b := unit) hget
    have hcount := h.count position
    rw [toList_eq_nil hrest, List.count_nil] at hset
    rw [List.flatMap_cons, List.count_append] at hcount
    -- what the queue loses, the hand gains
    omega
  ascending := (List.pairwise_cons.mp h.ascending).2
  rest_le other hother next hnext := by
    rcases List.mem_or_eq_of_mem_set hother with hother | rfl
    · exact h.rest_le other hother next (List.mem_cons_of_mem _ hnext)
    · exact (List.pairwise_cons.mp h.ascending).1 next hnext
  run_lt run hrun next hnext := h.run_lt run hrun next (List.mem_cons_of_mem _ hnext)
  own_lt run hrun other hother := by
    rw [List.getElem?_set] at hother
    split at hother
    · split at hother <;> cases hother
      exact h.run_lt run hrun unit List.mem_cons_self
    · exact h.own_lt run hrun other hother
  own_ascending := h.own_ascending

/-- `Placed` holds after a driver gives the first position of its rest to its worker. -/
theorem start (h : Placed tasks queue rests runs) (hget : rests[id]? = some rest)
    (hrest : rest.length ≠ 0) :
    Placed tasks queue (rests.set id ⟨rest.start + 1, rest.stop⟩)
      (runs ++ [(id, rest.start)]) where
  count position := by
    have hset := tally_set (fun rest : Span => rest.toList.count position)
      (b := ⟨rest.start + 1, rest.stop⟩) hget
    have hcount := h.count position
    rw [toList_eq_cons hrest, List.count_cons] at hset
    rw [List.map_append, List.count_append, List.map_singleton, List.count_singleton]
    dsimp only
    -- what the hand loses, the worker gains
    omega
  ascending := h.ascending
  rest_le other hother unit hunit := by
    rcases List.mem_or_eq_of_mem_set hother with hother | rfl
    · exact h.rest_le other hother unit hunit
    · exact h.rest_le rest (List.mem_of_getElem? hget) unit hunit
  run_lt run hrun unit hunit := by
    rcases List.mem_append.mp hrun with hrun | hrun
    · exact h.run_lt run hrun unit hunit
    · rw [List.mem_singleton.mp hrun]
      have hle := h.rest_le rest (List.mem_of_getElem? hget) unit hunit
      rw [Span.length] at hrest
      exact Nat.lt_of_lt_of_le (by omega : rest.start < rest.stop) hle
  own_lt run hrun other hother := by
    rw [List.getElem?_set] at hother
    split at hother
    · rename_i hid
      split at hother <;> cases hother
      rcases List.mem_append.mp hrun with hrun | hrun
      · exact Nat.lt_succ_of_lt (h.own_lt run hrun rest (hid ▸ hget))
      · rw [List.mem_singleton.mp hrun]
        exact Nat.lt_succ_self _
    · rename_i hid
      rcases List.mem_append.mp hrun with hrun | hrun
      · exact h.own_lt run hrun other hother
      · rw [List.mem_singleton.mp hrun] at hid
        exact absurd rfl hid
  own_ascending := by
    refine List.pairwise_append.mpr ⟨h.own_ascending, List.pairwise_singleton _ _, ?_⟩
    intro run hrun last hlast hid
    rw [List.mem_singleton.mp hlast] at hid ⊢
    exact h.own_lt run hrun rest (hid ▸ hget)

end Placed

namespace State

/-- What is left of the unit of each driver. -/
def rests (state : State) : List Span := state.drivers.map Driver.rest

/-- `rests` does not change when a driver is replaced by one with the same rest. -/
theorem set_rests_eq {state : State} {id : Nat} {driver : Driver}
    (hget : state.drivers[id]? = some driver) : state.rests.set id driver.rest = state.rests := by
  obtain ⟨hlt, rfl⟩ := List.getElem?_eq_some_iff.mp hget
  rw [rests, ← List.map_set, List.set_getElem_self]

/-- Every driver is `Tidy`, and every position is `Placed`. -/
structure Accounted (tasks : Nat) (state : State) : Prop where
  tidy : ∀ driver ∈ state.drivers, driver.Tidy
  placed : Placed tasks state.shared.queue state.rests state.shared.runs

variable {state next : State} {move : Move} {tasks : Nat}

/-- `State.Step` keeps `State.Accounted`. -/
theorem Step.accounted (h : Step state move next) (hs : state.Accounted tasks) :
    next.Accounted tasks := by
  cases h with
  | driver id event driver driver' shared' _ hget hstep =>
    have hmem := List.mem_of_getElem? hget
    have hrests : state.rests[id]? = some driver.rest := by rw [rests, List.getElem?_map, hget]; rfl
    refine ⟨fun other hother => ?_, ?_⟩
    · rcases List.mem_or_eq_of_mem_set hother with hother | rfl
      · exact hs.tidy other hother
      · exact hstep.tidy (hs.tidy driver hmem)
    · simp only [rests, withDriver, List.map_set]
      have hplaced := hs.placed
      -- a step moves nothing, a unit from the queue, or a position from the hand
      cases hstep.handover with
      | none hqueue hrest hruns =>
        rw [hqueue, hruns, hrest]
        rwa [← set_rests_eq hget] at hplaced
      | taken hphase _ hqueue hruns =>
        rw [hqueue] at hplaced
        rw [hruns]
        exact hplaced.take hrests ((hs.tidy driver hmem).between (by rw [hphase]; rfl))
      | started _ hqueue hrest hrest' _ hruns =>
        rw [hqueue, hruns, hrest']
        exact hplaced.start hrests hrest
  | collect id driver _ _ hget | overrun id driver _ _ hget | lose id driver _ _ hget =>
    refine ⟨fun other hother => ?_, ?_⟩
    · rcases List.mem_or_eq_of_mem_set hother with hother | rfl
      · exact hs.tidy other hother
      · exact Driver.tidy_of_phase rfl fun h => by cases h
    · simp only [rests, withDriver, List.map_set]
      have hplaced := hs.placed
      rwa [← set_rests_eq hget] at hplaced
  | recordFirst | recordLater | cancel => exact ⟨hs.tidy, hs.placed⟩

/-- What a step takes from the queue was at the front of it. -/
theorem Step.taken_append_queue (h : Step state move next) :
    (state.taken? move).toList ++ next.shared.queue = state.shared.queue := by
  cases h with
  | driver id event driver driver' shared' _ hget hstep =>
    cases hstep.handover with
    | none hqueue _ _ htaken =>
      rw [hqueue]
      cases event with
      | take => simp [taken?, htaken rfl]
      | _ => rfl
    | taken _ hevent hqueue =>
      subst hevent
      rw [taken?, hqueue]
      rfl
    | started hevent hqueue =>
      subst hevent
      rw [hqueue]
      rfl
  | _ => rfl

/-- `State.start` is `Accounted`. -/
theorem accounted_of_start {options : Options} (h : start tasks options = .ok state) :
    state.Accounted tasks := by
  obtain ⟨units, drivers, rfl, hunits, -⟩ := start_eq_ok h
  refine ⟨fun driver hmem => ?_, ?_⟩
  · rw [List.eq_of_mem_replicate hmem]
    exact ⟨fun _ => rfl, fun h => by cases h⟩
  · rw [rests, initial, List.map_replicate]
    exact Placed.initial hunits

end State

namespace Course

variable {permits : Nat → Phase → Event → Prop} {start state : State} {moves : List Move}
  {tasks : Nat}

/-- A course keeps `State.Accounted`. -/
theorem accounted (h : Course permits start moves state) (hstart : start.Accounted tasks) :
    state.Accounted tasks := by
  induction h with
  | nil => exact hstart
  | concat _ hstep _ ih => exact (State.step_of_step? hstep).accounted ih

/-- The units taken in a course and the queue after it make up the queue before it. -/
theorem takenUnits_append_queue (h : Course permits start moves state) :
    start.takenUnits moves ++ state.shared.queue = start.shared.queue := by
  induction h with
  | nil => rfl
  | concat before hstep _ ih =>
    rw [State.takenUnits, State.gather_concat before.run?_eq_some, List.append_assoc,
      (State.step_of_step? hstep).taken_append_queue]
    exact ih

end Course

end Fanout.Schedule

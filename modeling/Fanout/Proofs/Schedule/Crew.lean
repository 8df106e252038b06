import Fanout.Proofs.Schedule.Conduct
import Fanout.Schedule.Evaluate

/-!
# Evaluations with workers as courses

A run of an evaluation with a crew is a course of its state, except for what workers report about
themselves (`Evaluation.Tracks`). An active driver has a turn unless it `Waits` for a worker that
never answers (`Evaluation.waits_or_exists_turn`). If the crew follows a `Conduct`, the conduct
permits the course (`Evaluation.permits_of_follows`).
-/

namespace Fanout.Schedule

/-- Shared data with another log. -/
def Shared.withLog (shared : Shared) (log : List LogEntry) : Shared := { shared with log }

/-- A state with another log. -/
def State.withLog (state : State) (log : List LogEntry) : State :=
  { state with shared := state.shared.withLog log }

/-- A `Driver.Step` can be taken over any log. -/
theorem Driver.Step.withLog {id : Nat} {shared shared' : Shared} {driver driver' : Driver}
    {event : Event} (h : Step id shared driver event shared' driver') (log : List LogEntry) :
    ∃ log', Step id (shared.withLog log) driver event (shared'.withLog log') driver' := by
  cases h with
  | launch hphase => exact ⟨log, .launch hphase⟩
  | skip hphase hcancelled => exact ⟨log, .skip hphase hcancelled⟩
  | launched hphase => exact ⟨log, .launched hphase⟩
  | refused error hphase => exact ⟨log, .refused error hphase⟩
  | lookOn hphase hcancelled => exact ⟨log, .lookOn hphase hcancelled⟩
  | lookAway hphase hcancelled => exact ⟨log, .lookAway hphase hcancelled⟩
  | exhausted hphase hqueue => exact ⟨log, .exhausted hphase hqueue⟩
  | take unit queue hphase hqueue => exact ⟨log, .take unit queue hphase hqueue⟩
  | start hphase hrest => exact ⟨log, .start hphase hrest⟩
  | abandon hphase hcancelled => exact ⟨log, .abandon hphase hcancelled⟩
  | completed position result output hphase hresult =>
    exact ⟨log, .completed position result output hphase hresult⟩
  | failed position result error hphase hresult =>
    exact ⟨log, .failed position result error hphase hresult⟩
  | dismiss hphase hcancelled => exact ⟨log, .dismiss hphase hcancelled⟩
  | expel hphase hcancelled => exact ⟨log, .expel hphase hcancelled⟩
  | closed hphase => exact ⟨log, .closed hphase⟩
  | unclosed error hphase => exact ⟨log, .unclosed error hphase⟩
  | terminated hphase => exact ⟨log, .terminated hphase⟩
  | recordFirst error next hphase hfirst => exact ⟨log, .recordFirst error next hphase hfirst⟩
  | recordLater error next hphase hfirst =>
    have hlater := @Step.recordLater id (shared.withLog log) driver error next hphase hfirst
    cases next <;> exact ⟨log, hlater⟩
  | cancel next hphase =>
    have hcancel := @Step.cancel id (shared.withLog log) driver next hphase
    cases next <;> exact ⟨_, hcancel⟩
  | crash message hphase => exact ⟨log, .crash message hphase⟩

/-- A `State.step?` can be taken over any log. -/
theorem State.step?_withLog {state next : State} {move : Move} {log : List LogEntry}
    (h : (state.withLog log).step? move = some next) :
    ∃ next', state.step? move = some next' ∧ next = next'.withLog next.shared.log := by
  cases step_of_step? h with
  | driver id event driver driver' shared' hcollector hget hstep =>
    obtain ⟨log', hstep⟩ := hstep.withLog state.shared.log
    exact ⟨_, step?_of_step (.driver id event driver driver' _ hcollector hget hstep), rfl⟩
  | collect id driver slots hcollector hget hphase hplace =>
    exact ⟨_, step?_of_step (.collect id driver slots hcollector hget hphase hplace), rfl⟩
  | overrun id driver fault hcollector hget hphase hplace =>
    exact ⟨_, step?_of_step (.overrun id driver fault hcollector hget hphase hplace), rfl⟩
  | lose id driver message hcollector hget hphase =>
    exact ⟨_, step?_of_step (.lose id driver message hcollector hget hphase), rfl⟩
  | recordFirst error hcollector hfirst =>
    exact ⟨_, step?_of_step (.recordFirst error hcollector hfirst), rfl⟩
  | recordLater error hcollector hfirst =>
    exact ⟨_, step?_of_step (.recordLater error hcollector hfirst), rfl⟩
  | cancel hcollector => exact ⟨_, step?_of_step (.cancel hcollector), rfl⟩

variable {W : Type}

/-- A crew does what `conduct` says, with workers in states that `owns` gives to their numbers. -/
structure Crew.Follows (crew : Crew W) (conduct : Conduct) (owns : Nat → W → Prop) : Prop where
  /-- A worker without a `refusal` starts. -/
  starts : ∀ id, conduct.refusal id = none →
    ∃ worker, crew.spawn id = .value worker ∧ owns id worker
  /-- A worker with a `refusal` does not start, for that error. -/
  refuses : ∀ id error, conduct.refusal id = some error → crew.spawn id = .error error
  /-- A worker answers each task by `conduct.respond`. -/
  runs : ∀ id worker task, owns id worker →
    ∃ worker', crew.run worker task = (worker', .value (conduct.respond task)) ∧ owns id worker'
  /-- A worker without a `defect` shuts down. -/
  closes : ∀ id worker, owns id worker → conduct.defect id = none →
    crew.shutdown worker = .value ()
  /-- A worker with a `defect` fails to shut down, for that error. -/
  sticks : ∀ id worker error, owns id worker → conduct.defect id = some error →
    crew.shutdown worker = .error error

/-- A crew keeps its workers in states that `owns` gives to their numbers. -/
structure Crew.Keeps (crew : Crew W) (owns : Nat → W → Prop) : Prop where
  /-- A worker that starts is in such a state. -/
  spawn : ∀ id worker, crew.spawn id = .value worker → owns id worker
  /-- A run leaves it in one. -/
  run : ∀ id worker task, owns id worker → owns id (crew.run worker task).1

theorem Crew.Follows.keeps {crew : Crew W} {conduct : Conduct} {owns : Nat → W → Prop}
    (h : crew.Follows conduct owns) : crew.Keeps owns where
  spawn id worker hspawn := by
    cases hrefusal : conduct.refusal id with
    | none =>
      obtain ⟨worker', hspawn', howns⟩ := h.starts id hrefusal
      rw [hspawn] at hspawn'
      cases hspawn'
      exact howns
    | some error =>
      rw [h.refuses id error hrefusal] at hspawn
      cases hspawn
  run id worker task howns := by
    obtain ⟨worker', hrun, howns'⟩ := h.runs id worker task howns
    rw [hrun]
    exact howns'

/-- Every crew keeps its workers somewhere. -/
theorem Crew.keeps_true (crew : Crew W) : crew.Keeps fun _ _ => True :=
  ⟨fun _ _ _ => trivial, fun _ _ _ _ => trivial⟩

/-- Whether a driver in a phase holds a worker. -/
def Phase.isStaffed : Phase → Bool
  | ready | pulling | holding | running _ | leaving | closing | terminating => true
  | recording _ .terminate | cancelling .terminate => true
  | _ => false

/-- Whether a driver in a phase has an event of its own to come. -/
def Phase.isActive : Phase → Bool
  | returned | panicked _ | joined => false
  | _ => true

/-- The event of a driver in a phase in which no worker is called. -/
def Phase.event? : Phase → Option Event
  | starting => some .launch
  | ready => some .look
  | pulling => some .take
  | holding => some .start
  | leaving => some .dismiss
  | recording .. => some .record
  | cancelling _ => some .cancel
  | _ => none

namespace Evaluation

/-- Every driver in a staffed phase has its worker. -/
structure Staffed (owns : Nat → W → Prop) (evaluation : Evaluation W) : Prop where
  /-- There is a slot for the worker of each driver. -/
  length : evaluation.workers.length = evaluation.state.drivers.length
  /-- The slot of a driver in a staffed phase holds a worker in a state that `owns` gives to it. -/
  worker : ∀ id driver, evaluation.state.drivers[id]? = some driver → driver.phase.isStaffed →
    ∃ worker, evaluation.workers[id]? = some (some worker) ∧ owns id worker

variable {crew : Crew W} {conduct : Conduct} {owns : Nat → W → Prop}
  {evaluation next : Evaluation W} {id : Nat} {driver : Driver}

/-- Driver `id` has called a worker that never answers, so that its `turn?` is `none`. -/
inductive Waits (crew : Crew W) (evaluation : Evaluation W) (id : Nat) : Prop
  | spawn (driver : Driver) (hget : evaluation.state.drivers[id]? = some driver)
      (hphase : driver.phase = .spawning) (hpending : crew.spawn id = .pending)
  | run (driver : Driver) (position : Nat) (worker : W) (task : Envelope)
      (hget : evaluation.state.drivers[id]? = some driver)
      (hphase : driver.phase = .running position)
      (hworker : evaluation.workers[id]? = some (some worker))
      (htask : evaluation.tasks[position]? = some task)
      (hpending : (crew.run worker task).2 = .pending)
  | shutdown (driver : Driver) (worker : W) (hget : evaluation.state.drivers[id]? = some driver)
      (hphase : driver.phase = .closing) (hworker : evaluation.workers[id]? = some (some worker))
      (hpending : crew.shutdown worker = .pending)

section Turn

variable {worker : W} {task : Envelope} {position : Nat}

/-- The turn of a driver in a phase with an `event?` is that event. -/
theorem turn?_of_event? {event : Event} (hget : evaluation.state.drivers[id]? = some driver)
    (hevent : driver.phase.event? = some event) :
    evaluation.turn? crew id = some ⟨event, evaluation.workers[id]?.join, []⟩ := by
  cases hphase : driver.phase <;> rw [hphase] at hevent <;> cases hevent <;>
    simp [turn?, hget, hphase]

/-- The turn of a `spawning` driver is made by `Turn.ofSpawn`. -/
theorem turn?_of_spawning (hget : evaluation.state.drivers[id]? = some driver)
    (hphase : driver.phase = .spawning) :
    evaluation.turn? crew id = Turn.ofSpawn crew (crew.spawn id) := by
  simp [turn?, hget, hphase]

/-- The turn of a `running` driver is made by `Turn.ofRun`. -/
theorem turn?_of_running (hget : evaluation.state.drivers[id]? = some driver)
    (hphase : driver.phase = .running position)
    (hworker : evaluation.workers[id]? = some (some worker))
    (htask : evaluation.tasks[position]? = some task) :
    evaluation.turn? crew id = Turn.ofRun (crew.run worker task).1 (crew.run worker task).2 := by
  simp [turn?, hget, hphase, hworker, htask]

/-- The turn of a `closing` driver is made by `Turn.ofShutdown`. -/
theorem turn?_of_closing (hget : evaluation.state.drivers[id]? = some driver)
    (hphase : driver.phase = .closing) (hworker : evaluation.workers[id]? = some (some worker)) :
    evaluation.turn? crew id = Turn.ofShutdown crew worker (crew.shutdown worker) := by
  simp [turn?, hget, hphase, hworker]

/-- The turn of a `terminating` driver is `Event.terminated`. -/
theorem turn?_of_terminating (hget : evaluation.state.drivers[id]? = some driver)
    (hphase : driver.phase = .terminating)
    (hworker : evaluation.workers[id]? = some (some worker)) :
    evaluation.turn? crew id =
      some ⟨.terminated, some worker, crew.departure worker true⟩ := by
  simp [turn?, hget, hphase, hworker]

end Turn

/-- A driver that `Waits` has no turn. -/
theorem turn?_of_waits (h : evaluation.Waits crew id) : evaluation.turn? crew id = none := by
  cases h with
  | spawn driver hget hphase hpending =>
    rw [turn?_of_spawning hget hphase, hpending]
    rfl
  | run driver position worker task hget hphase hworker htask hpending =>
    rw [turn?_of_running hget hphase hworker htask, hpending]
    rfl
  | shutdown driver worker hget hphase hworker hpending =>
    rw [turn?_of_closing hget hphase hworker, hpending]
    rfl

/-- An active driver `Waits`, or has a turn whose event is a `Driver.Step` after which it holds a
worker if its phase is staffed. -/
theorem waits_or_exists_turn (hkeeps : crew.Keeps owns) (hstaffed : evaluation.Staffed owns)
    (hget : evaluation.state.drivers[id]? = some driver) (hactive : driver.phase.isActive)
    (htidy : driver.Tidy) (hrunning : ∀ position, driver.phase = .running position →
      position < evaluation.tasks.length) :
    evaluation.Waits crew id ∨ ∃ turn, evaluation.turn? crew id = some turn ∧
      ∃ shared' driver', Driver.Step id evaluation.state.shared driver turn.event shared' driver' ∧
        (driver'.phase.isStaffed → ∃ worker, turn.worker = some worker ∧ owns id worker) := by
  have hworker := hstaffed.worker id driver hget
  have hevent (event : Event) (h : driver.phase.event? = some event) :
      evaluation.turn? crew id = _ := turn?_of_event? hget h
  -- a driver that keeps its worker without calling it
  have hkeep (h : driver.phase.isStaffed) :
      ∃ worker, evaluation.workers[id]?.join = some worker ∧ owns id worker := by
    obtain ⟨worker, hin, howns⟩ := hworker h
    exact ⟨worker, by rw [hin]; rfl, howns⟩
  -- by phase: what happens is up to the worker, or else to what drivers share
  cases hphase : driver.phase with
  | starting =>
    exact .inr ⟨_, hevent .launch (by rw [hphase]; rfl), _, _, .launch hphase, fun h => by cases h⟩
  | spawning =>
    have hturn : evaluation.turn? crew id = _ := turn?_of_spawning hget hphase
    cases hspawn : crew.spawn id with
    | value worker =>
      rw [hspawn] at hturn
      exact .inr ⟨_, hturn, _, _, .launched hphase,
        fun _ => ⟨worker, rfl, hkeeps.spawn id worker hspawn⟩⟩
    | error error =>
      rw [hspawn] at hturn
      exact .inr ⟨_, hturn, _, _, .refused error hphase, fun h => by cases h⟩
    | panic message =>
      rw [hspawn] at hturn
      exact .inr ⟨_, hturn, _, _, .crash message (.inl hphase), fun h => by cases h⟩
    | pending => exact .inl (.spawn driver hget hphase hspawn)
  | ready =>
    have hturn := hevent .look (by rw [hphase]; rfl)
    have hkeep := hkeep (by rw [hphase]; rfl)
    cases hcancelled : evaluation.state.shared.cancelled with
    | false => exact .inr ⟨_, hturn, _, _, .lookOn hphase hcancelled, fun _ => hkeep⟩
    | true => exact .inr ⟨_, hturn, _, _, .lookAway hphase hcancelled, fun _ => hkeep⟩
  | pulling =>
    have hturn := hevent .take (by rw [hphase]; rfl)
    have hkeep := hkeep (by rw [hphase]; rfl)
    cases hqueue : evaluation.state.shared.queue with
    | nil => exact .inr ⟨_, hturn, _, _, .exhausted hphase hqueue, fun _ => hkeep⟩
    | cons unit queue => exact .inr ⟨_, hturn, _, _, .take unit queue hphase hqueue, fun _ => hkeep⟩
  | holding =>
    exact .inr ⟨_, hevent .start (by rw [hphase]; rfl), _, _, .start hphase (htidy.holding hphase),
      fun _ => hkeep (by rw [hphase]; rfl)⟩
  | running position =>
    obtain ⟨worker, hin, howns⟩ := hworker (by rw [hphase]; rfl)
    have hlt := hrunning position hphase
    have htask := List.getElem?_eq_getElem hlt
    have hturn : evaluation.turn? crew id = _ := turn?_of_running hget hphase hin htask
    have howns' := hkeeps.run id worker evaluation.tasks[position] howns
    cases hanswer : (crew.run worker evaluation.tasks[position]).2 with
    | value response =>
      rw [hanswer] at hturn
      cases houtput : response.output with
      | ok output =>
        exact .inr ⟨_, hturn, _, _, .completed position (.ok response) output hphase houtput,
          fun _ => ⟨_, rfl, howns'⟩⟩
      | error error =>
        exact .inr ⟨_, hturn, _, _, .failed position (.ok response) error hphase houtput,
          fun _ => ⟨_, rfl, howns'⟩⟩
    | error error =>
      rw [hanswer] at hturn
      exact .inr ⟨_, hturn, _, _, .failed position _ error hphase rfl, fun _ => ⟨_, rfl, howns'⟩⟩
    | panic message =>
      rw [hanswer] at hturn
      exact .inr ⟨_, hturn, _, _, .crash message (.inr (.inl ⟨position, hphase⟩)),
        fun h => by cases h⟩
    | pending => exact .inl (.run driver position worker _ hget hphase hin htask hanswer)
  | leaving =>
    have hturn := hevent .dismiss (by rw [hphase]; rfl)
    have hkeep := hkeep (by rw [hphase]; rfl)
    cases hcancelled : evaluation.state.shared.cancelled with
    | false => exact .inr ⟨_, hturn, _, _, .dismiss hphase hcancelled, fun _ => hkeep⟩
    | true => exact .inr ⟨_, hturn, _, _, .expel hphase hcancelled, fun _ => hkeep⟩
  | closing =>
    obtain ⟨worker, hin, -⟩ := hworker (by rw [hphase]; rfl)
    have hturn : evaluation.turn? crew id = _ := turn?_of_closing hget hphase hin
    cases hshutdown : crew.shutdown worker with
    | value =>
      rw [hshutdown] at hturn
      exact .inr ⟨_, hturn, _, _, .closed hphase, fun h => by cases h⟩
    | error error =>
      rw [hshutdown] at hturn
      exact .inr ⟨_, hturn, _, _, .unclosed error hphase, fun h => by cases h⟩
    | panic message =>
      rw [hshutdown] at hturn
      exact .inr ⟨_, hturn, _, _, .crash message (.inr (.inr (.inl hphase))), fun h => by cases h⟩
    | pending => exact .inl (.shutdown driver worker hget hphase hin hshutdown)
  | recording error after =>
    have hturn := hevent .record (by rw [hphase]; rfl)
    -- only a driver that goes on to terminate its worker still has one
    have hkeep (h : after = .terminate) := hkeep (by rw [hphase, h]; rfl)
    cases hfirst : evaluation.state.shared.firstError with
    | none =>
      refine .inr ⟨_, hturn, _, _, .recordFirst error after hphase hfirst, fun h => hkeep ?_⟩
      cases after with
      | leave => cases h
      | terminate => rfl
    | some first =>
      have hlater : evaluation.state.shared.firstError ≠ none := by simp [hfirst]
      refine .inr ⟨_, hturn, _, _, .recordLater error after hphase hlater, fun h => hkeep ?_⟩
      cases after with
      | leave => cases h
      | terminate => rfl
  | cancelling after =>
    refine .inr ⟨_, hevent .cancel (by rw [hphase]; rfl), _, _, .cancel after hphase, fun h => ?_⟩
    cases after with
    | leave => cases h
    | terminate => exact hkeep (by rw [hphase]; rfl)
  | terminating =>
    obtain ⟨worker, hin, -⟩ := hworker (by rw [hphase]; rfl)
    exact .inr ⟨_, turn?_of_terminating hget hphase hin, _, _, .terminated hphase,
      fun h => by cases h⟩
  | returned | panicked | joined =>
    rw [hphase] at hactive
    cases hactive

/-- A driver with a turn is active. -/
theorem isActive_of_turn? {turn : Turn W} (h : evaluation.turn? crew id = some turn)
    (hget : evaluation.state.drivers[id]? = some driver) : driver.phase.isActive := by
  unfold turn? at h
  rw [hget] at h
  cases hphase : driver.phase <;> simp_all [Phase.isActive]

/-- A turn of a `running` driver is made by `Turn.ofRun` from what its worker answers. -/
theorem exists_of_turn?_running {turn : Turn W} {position : Nat}
    (h : evaluation.turn? crew id = some turn) (hget : evaluation.state.drivers[id]? = some driver)
    (hphase : driver.phase = .running position) :
    ∃ worker task, evaluation.workers[id]? = some (some worker) ∧
      evaluation.tasks[position]? = some task ∧
      Turn.ofRun (crew.run worker task).1 (crew.run worker task).2 = some turn := by
  rw [turn?, hget, Option.bind_eq_bind, Option.bind_some, hphase] at h
  obtain ⟨worker, hworker, h⟩ := Option.bind_eq_some_iff.mp h
  obtain ⟨task, htask, h⟩ := Option.bind_eq_some_iff.mp h
  exact ⟨worker, task, Option.join_eq_some_iff.mp hworker, htask, h⟩

/-- A turn of a `closing` driver is made by `Turn.ofShutdown` from what its worker answers. -/
theorem exists_of_turn?_closing {turn : Turn W} (h : evaluation.turn? crew id = some turn)
    (hget : evaluation.state.drivers[id]? = some driver) (hphase : driver.phase = .closing) :
    ∃ worker, evaluation.workers[id]? = some (some worker) ∧
      Turn.ofShutdown crew worker (crew.shutdown worker) = some turn := by
  rw [turn?, hget, Option.bind_eq_bind, Option.bind_some, hphase] at h
  obtain ⟨worker, hworker, h⟩ := Option.bind_eq_some_iff.mp h
  exact ⟨worker, Option.join_eq_some_iff.mp hworker, h⟩

/-- `giveUp?` gives only `Event.skip` and `Event.abandon`. -/
theorem eq_of_giveUp? {event : Event} (h : evaluation.giveUp? id = some event) :
    event = .skip ∨ event = .abandon := by
  obtain ⟨driver, -, h⟩ := Option.bind_eq_some_iff.mp h
  split at h <;> cases h
  · exact .inl rfl
  · exact .inl rfl
  · exact .inr rfl
  · exact .inr rfl

/-- The move that a choice stands for. -/
def move? (crew : Crew W) (evaluation : Evaluation W) : Choice → Option Move
  | .advance id => (evaluation.turn? crew id).map fun turn => .driver id turn.event
  | .giveUp id => (evaluation.giveUp? id).map fun event => .driver id event
  | .collect id => some (.collect id)
  | .collector => evaluation.state.collector.next?

/-- A crew that follows `conduct` shows its drivers only events that `conduct.Permits`. -/
theorem permits_of_follows {choice : Choice} {event : Event} (hfollows : crew.Follows conduct owns)
    (hstaffed : evaluation.Staffed owns)
    (hmove : evaluation.move? crew choice = some (.driver id event))
    (hget : evaluation.state.drivers[id]? = some driver) :
    conduct.Permits evaluation.tasks id driver.phase event := by
  cases choice with
  | advance j =>
    obtain ⟨turn, hturn, heq⟩ := Option.map_eq_some_iff.mp hmove
    cases heq
    have hworker := hstaffed.worker id driver hget
    cases hphase : driver.phase with
    | spawning =>
      rw [turn?, hget, Option.bind_eq_bind, Option.bind_some, hphase] at hturn
      cases hrefusal : conduct.refusal id with
      | none =>
        obtain ⟨worker, hspawn, -⟩ := hfollows.starts id hrefusal
        rw [hspawn] at hturn
        cases hturn
        exact hrefusal
      | some error =>
        rw [hfollows.refuses id error hrefusal] at hturn
        cases hturn
        exact hrefusal
    | running position =>
      obtain ⟨worker, hin, howns⟩ := hworker (by rw [hphase]; rfl)
      obtain ⟨worker', task, hin', htask, hof⟩ := exists_of_turn?_running hturn hget hphase
      rw [hin] at hin'
      cases hin'
      obtain ⟨worker', hrun, -⟩ := hfollows.runs id worker task howns
      rw [hrun] at hof
      cases hof
      exact ⟨task, htask, rfl⟩
    | closing =>
      obtain ⟨worker, hin, howns⟩ := hworker (by rw [hphase]; rfl)
      obtain ⟨worker', hin', hof⟩ := exists_of_turn?_closing hturn hget hphase
      rw [hin] at hin'
      cases hin'
      cases hdefect : conduct.defect id with
      | none =>
        rw [hfollows.closes id worker howns hdefect] at hof
        cases hof
        exact hdefect
      | some error =>
        rw [hfollows.sticks id worker error howns hdefect] at hof
        cases hof
        exact hdefect
    | terminating =>
      rw [turn?, hget, Option.bind_eq_bind, Option.bind_some, hphase] at hturn
      obtain ⟨worker, -, hturn⟩ := Option.bind_eq_some_iff.mp hturn
      cases hturn
      trivial
    | _ =>
      rw [turn?, hget, Option.bind_eq_bind, Option.bind_some, hphase] at hturn
      cases hturn
      all_goals trivial
  | giveUp j =>
    obtain ⟨event', hevent, heq⟩ := Option.map_eq_some_iff.mp hmove
    cases heq
    rcases eq_of_giveUp? hevent with rfl | rfl <;> trivial
  | collect => cases hmove
  | collector =>
    rw [move?] at hmove
    cases hcollector : evaluation.state.collector <;> rw [hcollector] at hmove <;> cases hmove

/-- `Staffed` holds after a driver and its worker are replaced, if the new driver has the worker it
needs. -/
theorem Staffed.set {driver' : Driver} {worker' : Option W} (h : evaluation.Staffed owns)
    (hdrivers : next.state.drivers = evaluation.state.drivers.set id driver')
    (hworkers : next.workers = evaluation.workers.set id worker')
    (hworker : driver'.phase.isStaffed → ∃ worker, worker' = some worker ∧ owns id worker) :
    next.Staffed owns := by
  constructor
  · rw [hdrivers, hworkers, List.length_set, List.length_set, h.length]
  · intro j other hother hstaffed
    rw [hdrivers] at hother
    rcases getElem?_set_eq_some hother with ⟨rfl, rfl⟩ | ⟨hne, hother⟩
    · obtain ⟨worker, rfl, howns⟩ := hworker hstaffed
      have hlt := (List.getElem?_eq_some_iff.mp hother).1
      rw [List.length_set, ← h.length] at hlt
      exact ⟨worker, by rw [hworkers, List.getElem?_set_self hlt], howns⟩
    · obtain ⟨worker, hin, howns⟩ := h.worker j other hother hstaffed
      exact ⟨worker, by rw [hworkers, List.getElem?_set_ne (Ne.symm hne), hin], howns⟩

/-- `Staffed` holds after a driver is replaced by one that is not staffed, or by one in place of a
staffed driver. -/
theorem Staffed.setDriver {driver' : Driver} (h : evaluation.Staffed owns)
    (hget : evaluation.state.drivers[id]? = some driver)
    (hdrivers : next.state.drivers = evaluation.state.drivers.set id driver')
    (hworkers : next.workers = evaluation.workers)
    (hstaffed : driver'.phase.isStaffed → driver.phase.isStaffed) : next.Staffed owns := by
  constructor
  · rw [hdrivers, hworkers, List.length_set, h.length]
  · intro j other hother hother'
    rw [hdrivers] at hother
    rw [hworkers]
    rcases getElem?_set_eq_some hother with ⟨rfl, rfl⟩ | ⟨-, hother⟩
    · exact h.worker j driver hget (hstaffed hother')
    · exact h.worker j other hother hother'

/-- `evaluation` is reached from `start` by a course that `permits` allows, apart from what workers
have added to its log. -/
structure Tracks (permits : Nat → Phase → Event → Prop) (owns : Nat → W → Prop)
    (tasks : List Envelope) (start : State) (evaluation : Evaluation W) : Prop where
  /-- It has these tasks. -/
  tasks_eq : evaluation.tasks = tasks
  /-- Without its log, its state is reached by a permitted course. -/
  course : ∃ moves state, Course permits start moves state ∧
    evaluation.state = state.withLog evaluation.state.shared.log
  /-- Its drivers have their workers. -/
  staffed : evaluation.Staffed owns

variable {permits : Nat → Phase → Event → Prop} {tasks : List Envelope} {options : Options}
  {start : State} {choice : Choice}

/-- A move that `permits` allows extends the course of a tracked evaluation. -/
theorem Tracks.move {move : Move} {state' : State} {log : List LogEntry}
    (h : evaluation.Tracks permits owns tasks start)
    (hstep : evaluation.state.step? move = some state')
    (hpermits : evaluation.state.Permits permits move) :
    ∃ moves state, Course permits start moves state ∧
      state'.withLog log = state.withLog log := by
  obtain ⟨moves, state, hcourse, heq⟩ := h.course
  rw [heq] at hstep hpermits
  obtain ⟨next, hnext, hlog⟩ := State.step?_withLog hstep
  refine ⟨moves ++ [move], next, hcourse.concat hnext ?_, by rw [hlog]; rfl⟩
  cases move <;> exact hpermits

theorem Tracks.mono {permits' : Nat → Phase → Event → Prop}
    (h : evaluation.Tracks permits owns tasks start)
    (hmono : ∀ id phase event, permits id phase event → permits' id phase event) :
    evaluation.Tracks permits' owns tasks start := by
  obtain ⟨moves, state, hcourse, heq⟩ := h.course
  exact ⟨h.tasks_eq, ⟨moves, state, hcourse.mono hmono, heq⟩, h.staffed⟩

/-- Drivers of a tracked evaluation are `Tidy`, and the positions they run are positions of its
tasks. -/
theorem Tracks.sound (h : evaluation.Tracks permits owns tasks start)
    (hstart : State.start tasks.length options = .ok start) :
    (∀ driver ∈ evaluation.state.drivers, driver.Tidy) ∧
      ∀ driver ∈ evaluation.state.drivers, ∀ position, driver.phase = .running position →
        position < evaluation.tasks.length := by
  obtain ⟨moves, state, hcourse, heq⟩ := h.course
  rw [heq, h.tasks_eq]
  refine ⟨?_, (hcourse.sourced hstart).running⟩
  exact (hcourse.accounted (State.accounted_of_start hstart)).tidy

/-- An active driver of a tracked evaluation `Waits`, or it has a turn. -/
theorem Tracks.waits_or_exists_turn (h : evaluation.Tracks permits owns tasks start)
    (hkeeps : crew.Keeps owns) (hstart : State.start tasks.length options = .ok start)
    (hget : evaluation.state.drivers[id]? = some driver) (hactive : driver.phase.isActive) :
    evaluation.Waits crew id ∨ ∃ turn, evaluation.turn? crew id = some turn ∧
      ∃ shared' driver', Driver.Step id evaluation.state.shared driver turn.event shared' driver' ∧
        (driver'.phase.isStaffed → ∃ worker, turn.worker = some worker ∧ owns id worker) := by
  obtain ⟨htidy, hrunning⟩ := h.sound hstart
  have hmem := List.mem_of_getElem? hget
  exact Evaluation.waits_or_exists_turn hkeeps h.staffed hget hactive (htidy driver hmem)
    (hrunning driver hmem)

/-- The turn of a driver in a tracked evaluation is a `Driver.Step` after which the driver holds a
worker if its phase is staffed. -/
theorem Tracks.step_of_turn? {turn : Turn W} (h : evaluation.Tracks permits owns tasks start)
    (hkeeps : crew.Keeps owns) (hstart : State.start tasks.length options = .ok start)
    (hget : evaluation.state.drivers[id]? = some driver)
    (hturn : evaluation.turn? crew id = some turn) :
    ∃ shared' driver', Driver.Step id evaluation.state.shared driver turn.event shared' driver' ∧
      (driver'.phase.isStaffed → ∃ worker, turn.worker = some worker ∧ owns id worker) := by
  rcases h.waits_or_exists_turn hkeeps hstart hget (isActive_of_turn? hturn hget) with
    hwaits | ⟨turn', hturn', hstep⟩
  · cases hturn.symm.trans (turn?_of_waits hwaits)
  · obtain rfl : turn = turn' := Option.some.inj (hturn.symm.trans hturn')
    exact hstep

/-- A step of a tracked evaluation is tracked if `permits` allows the event of its driver. -/
theorem Tracks.step (h : evaluation.Tracks permits owns tasks start) (hkeeps : crew.Keeps owns)
    (hstart : State.start tasks.length options = .ok start)
    (hpermits : ∀ id event driver, evaluation.move? crew choice = some (.driver id event) →
      evaluation.state.drivers[id]? = some driver → permits id driver.phase event)
    (hstep : evaluation.step? crew choice = some next) : next.Tracks permits owns tasks start := by
  cases choice with
  | advance id =>
    obtain ⟨turn, hturn, hstep⟩ := Option.bind_eq_some_iff.mp hstep
    obtain ⟨state', hstate, hstep⟩ := Option.bind_eq_some_iff.mp hstep
    cases hstep
    have hmove : evaluation.move? crew (.advance id) = some (.driver id turn.event) := by
      rw [move?, hturn]
      rfl
    cases State.step_of_step? hstate with
    | driver _ _ driver driver' shared' _ hget hdriver =>
      obtain ⟨shared'', driver'', hdriver', hworker⟩ :=
        h.step_of_turn? hkeeps hstart hget hturn
      -- there is only one step for the event of the turn
      obtain ⟨rfl, rfl⟩ : shared' = shared'' ∧ driver' = driver'' := by
        have := (Driver.step?_of_step hdriver).symm.trans (Driver.step?_of_step hdriver')
        exact Prod.mk.inj (Option.some.inj this)
      refine ⟨h.tasks_eq, ?_, h.staffed.set rfl rfl hworker⟩
      exact h.move hstate fun other hother => hpermits id _ other hmove hother
  | giveUp id =>
    obtain ⟨event, hevent, hstep⟩ := Option.bind_eq_some_iff.mp hstep
    obtain ⟨state', hstate, hstep⟩ := Option.bind_eq_some_iff.mp hstep
    cases hstep
    have hmove : evaluation.move? crew (.giveUp id) = some (.driver id event) := by
      rw [move?, hevent]
      rfl
    refine ⟨h.tasks_eq, h.move hstate fun other hother => hpermits id _ other hmove hother, ?_⟩
    cases State.step_of_step? hstate with
    | driver _ _ driver driver' shared' _ hget hdriver =>
      rcases eq_of_giveUp? hevent with rfl | rfl
      · refine h.staffed.setDriver hget rfl rfl ?_
        cases hdriver
        intro h
        cases h
      -- a driver that gives a unit up keeps its worker
      · refine h.staffed.setDriver hget rfl rfl ?_
        cases hdriver with
        | abandon hphase =>
          rcases hphase with hphase | ⟨position, hphase⟩ <;> simp [hphase, Phase.isStaffed]
  | collect id =>
    obtain ⟨state', hstate, hstep⟩ := Option.bind_eq_some_iff.mp hstep
    cases hstep
    refine ⟨h.tasks_eq, h.move hstate trivial, ?_⟩
    cases State.step_of_step? hstate with
    | collect _ driver _ _ hget | overrun _ driver _ _ hget | lose _ driver _ _ hget =>
      exact h.staffed.setDriver hget rfl rfl fun h => by cases h
  | collector =>
    obtain ⟨move, hmove, hstep⟩ := Option.bind_eq_some_iff.mp hstep
    obtain ⟨state', hstate, hstep⟩ := Option.bind_eq_some_iff.mp hstep
    cases hstep
    cases hcollector : evaluation.state.collector with
    | recording error =>
      rw [hcollector] at hmove
      cases hmove
      refine ⟨h.tasks_eq, h.move hstate trivial, ?_⟩
      cases State.step_of_step? hstate <;> exact ⟨h.staffed.length, h.staffed.worker⟩
    | cancelling =>
      rw [hcollector] at hmove
      cases hmove
      refine ⟨h.tasks_eq, h.move hstate trivial, ?_⟩
      cases State.step_of_step? hstate
      exact ⟨h.staffed.length, h.staffed.worker⟩
    | idle | faulted =>
      rw [hcollector] at hmove
      cases hmove

/-- A run of a tracked evaluation is tracked if `permits` allows the events of all staffed
evaluations. -/
theorem Tracks.run {choices : List Choice} (h : evaluation.Tracks permits owns tasks start)
    (hkeeps : crew.Keeps owns) (hstart : State.start tasks.length options = .ok start)
    (hpermits : ∀ evaluation : Evaluation W, evaluation.Staffed owns → evaluation.tasks = tasks →
      ∀ choice id event driver, evaluation.move? crew choice = some (.driver id event) →
        evaluation.state.drivers[id]? = some driver → permits id driver.phase event)
    (hrun : evaluation.run? crew choices = some next) : next.Tracks permits owns tasks start := by
  induction choices generalizing evaluation with
  | nil =>
    cases hrun
    exact h
  | cons choice choices ih =>
    obtain ⟨middle, hstep, hrun⟩ := Option.bind_eq_some_iff.mp hrun
    exact ih (h.step hkeeps hstart (hpermits _ h.staffed h.tasks_eq choice) hstep) hrun

/-- Each choice of a run lowers `State.measure`. -/
theorem length_add_measure_le {choices : List Choice}
    (hrun : evaluation.run? crew choices = some next) :
    choices.length + next.state.measure ≤ evaluation.state.measure := by
  induction choices generalizing evaluation with
  | nil =>
    cases hrun
    simp
  | cons choice choices ih =>
    obtain ⟨middle, hstep, hrun⟩ := Option.bind_eq_some_iff.mp hrun
    have hlt := measure_step?_lt hstep
    have hle := ih hrun
    rw [List.length_cons]
    omega

/-- A tracked evaluation has as many drivers as its start. -/
theorem Tracks.length_drivers (h : evaluation.Tracks permits owns tasks start) :
    evaluation.state.drivers.length = start.drivers.length := by
  obtain ⟨moves, state, hcourse, heq⟩ := h.course
  rw [heq]
  exact hcourse.length_drivers

/-- `Evaluation.start` succeeds for fewer than `listLimit` tasks. -/
theorem exists_start (hlength : tasks.length < listLimit)
    (hchunk : options.chunkSize < wordLimit) :
    ∃ evaluation : Evaluation W, Evaluation.start tasks options = .ok evaluation := by
  obtain ⟨start, hstart⟩ := State.exists_start hlength hchunk
  rw [Evaluation.start, hstart]
  exact ⟨_, rfl⟩

/-- The state of `Evaluation.start` is `State.start`. -/
theorem state_of_start (h : Evaluation.start tasks options = .ok evaluation) :
    State.start tasks.length options = .ok evaluation.state := by
  obtain ⟨start, hstart, h⟩ := Traversal.bind_eq_ok_iff.mp h
  cases h
  exact hstart

/-- `Evaluation.start` is tracked. -/
theorem tracks_of_start (permits : Nat → Phase → Event → Prop) (owns : Nat → W → Prop)
    (h : Evaluation.start tasks options = .ok evaluation) :
    State.start tasks.length options = .ok evaluation.state ∧
      evaluation.Tracks permits owns tasks evaluation.state := by
  refine ⟨state_of_start h, ?_⟩
  obtain ⟨start, hstart, h⟩ := Traversal.bind_eq_ok_iff.mp h
  cases h
  refine ⟨rfl, ⟨[], start, .nil, rfl⟩, ?_, ?_⟩
  · exact List.length_replicate
  · intro id driver hget hphase
    obtain ⟨units, drivers, rfl, -⟩ := State.start_eq_ok hstart
    rw [List.eq_of_mem_replicate (List.mem_of_getElem? hget)] at hphase
    cases hphase

end Evaluation

end Fanout.Schedule

import Fanout.Proofs.Schedule.Crew

/-!
# Evaluations with a single driver

`Solo` describes the states of an evaluation with a single driver. Every step is one of the driver
or of the collector (`Solo.exists_moves`). While the driver is active, it takes the next step of its
loop unless it is cancelled between units (`Moves.exists_turn`); once it is done, only the collector
moves (`Moves.collects`).
-/

namespace Fanout.Schedule

theorem Phase.isActive_of_isLive {phase : Phase} (h : phase.isLive) : phase.isActive := by
  cases phase <;> first | rfl | cases h

/-- The state of an evaluation with a single driver. -/
structure Solo (W : Type) where
  shared : Shared
  driver : Driver
  worker : Option W
  slots : List (Option Payload)
  collector : Collector

namespace Solo

variable {W : Type}

/-- The evaluation of `tasks` in the state of `solo`. -/
def evaluation (solo : Solo W) (tasks : List Envelope) : Evaluation W :=
  ⟨tasks, ⟨solo.shared, [solo.driver], solo.slots, solo.collector⟩, [solo.worker]⟩

/-- The outputs of the driver, without their indices. -/
def payloads (solo : Solo W) : List Payload := solo.driver.outputs.map Prod.snd

/-- The steps of the collector. -/
inductive Collects (solo : Solo W) : Solo W → Prop
  | collect (slots : List (Option Payload)) (hcollector : solo.collector = .idle)
      (hphase : solo.driver.phase = .returned)
      (hplace : State.place solo.slots solo.driver.outputs = .ok slots) :
      Collects solo { solo with driver := solo.driver.enter .joined, slots }
  | overrun (fault : Fault) (hcollector : solo.collector = .idle)
      (hphase : solo.driver.phase = .returned)
      (hplace : State.place solo.slots solo.driver.outputs = .error fault) :
      Collects solo { solo with driver := solo.driver.enter .joined, collector := .faulted fault }
  | lose (message : String) (hcollector : solo.collector = .idle)
      (hphase : solo.driver.phase = .panicked message) :
      Collects solo { solo with
        driver := solo.driver.enter .joined
        collector := .recording (State.panicError message) }
  | recordFirst (error : BackendError) (hcollector : solo.collector = .recording error)
      (hfirst : solo.shared.firstError = none) :
      Collects solo { solo with
        shared := { solo.shared with firstError := some error }, collector := .cancelling }
  | recordLater (error : BackendError) (hcollector : solo.collector = .recording error)
      (hfirst : solo.shared.firstError ≠ none) :
      Collects solo { solo with collector := .idle }
  | cancel (hcollector : solo.collector = .cancelling) :
      Collects solo { solo with shared := solo.shared.cancel, collector := .idle }

/-- The steps of an evaluation with a single driver. -/
inductive Moves (crew : Crew W) (tasks : List Envelope) (solo : Solo W) : Solo W → Prop
  /-- The driver takes its turn. -/
  | advance (turn : Turn W) (shared : Shared) (driver : Driver)
      (hturn : (solo.evaluation tasks).turn? crew 0 = some turn)
      (hstep : Driver.Step 0 solo.shared solo.driver turn.event shared driver) :
      Moves crew tasks solo
        { solo with shared := shared.reporting turn.entries, driver, worker := turn.worker }
  /-- The driver gives up, after the cancellation. -/
  | giveUp (shared : Shared) (driver : Driver) (hcancelled : solo.shared.cancelled = true)
      (hphase : solo.driver.phase.isLive) : Moves crew tasks solo { solo with shared, driver }
  /-- The collector takes a step. -/
  | collector (solo' : Solo W) (h : Collects solo solo') : Moves crew tasks solo solo'

variable {crew : Crew W} {tasks : List Envelope} {solo solo' : Solo W} {next : Evaluation W}
  {choice : Choice} {id : Nat} {event : Event} {state : State}

/-- The single driver has number 0. -/
theorem eq_of_getElem?_drivers {driver : Driver}
    (h : (solo.evaluation tasks).state.drivers[id]? = some driver) :
    id = 0 ∧ driver = solo.driver := by
  obtain ⟨hid, heq⟩ := List.getElem?_eq_some_iff.mp h
  obtain rfl : id = 0 := by simpa [evaluation] using hid
  exact ⟨rfl, heq.symm⟩

/-- A `State.Step` of a driver is a `Driver.Step` of the single driver. -/
theorem eq_of_step_driver
    (h : State.Step (solo.evaluation tasks).state (.driver id event) state) :
    id = 0 ∧ ∃ shared driver, Driver.Step 0 solo.shared solo.driver event shared driver ∧
      state = ({ solo with shared, driver }.evaluation tasks).state := by
  cases h with
  | driver _ _ driver driver' shared' _ hget hstep =>
    obtain ⟨rfl, rfl⟩ := eq_of_getElem?_drivers hget
    exact ⟨rfl, shared', driver', hstep, rfl⟩

/-- Every `step?` is one of `Moves`. -/
theorem exists_moves (h : (solo.evaluation tasks).step? crew choice = some next) :
    ∃ solo', next = solo'.evaluation tasks ∧ solo.Moves crew tasks solo' := by
  cases choice with
  | advance id =>
    obtain ⟨turn, hturn, h⟩ := Option.bind_eq_some_iff.mp h
    obtain ⟨state, hstate, h⟩ := Option.bind_eq_some_iff.mp h
    obtain ⟨rfl, shared, driver, hstep, rfl⟩ := eq_of_step_driver (State.step_of_step? hstate)
    cases h
    exact ⟨_, rfl, .advance turn shared driver hturn hstep⟩
  | giveUp id =>
    obtain ⟨event, hevent, h⟩ := Option.bind_eq_some_iff.mp h
    obtain ⟨state, hstate, h⟩ := Option.bind_eq_some_iff.mp h
    obtain ⟨rfl, shared, driver, hstep, rfl⟩ := eq_of_step_driver (State.step_of_step? hstate)
    cases h
    refine ⟨{ solo with shared, driver }, rfl, ?_⟩
    -- only a cancellation lets a driver give up
    rcases Evaluation.eq_of_giveUp? hevent with rfl | rfl
    · cases hstep with
      | skip hphase hcancelled =>
        refine .giveUp _ _ hcancelled ?_
        rcases hphase with hphase | hphase <;> rw [hphase] <;> rfl
    · cases hstep with
      | abandon hphase hcancelled =>
        refine .giveUp _ _ hcancelled ?_
        rcases hphase with hphase | ⟨position, hphase⟩ <;> rw [hphase] <;> rfl
  | collect id =>
    obtain ⟨state, hstate, h⟩ := Option.bind_eq_some_iff.mp h
    cases h
    cases State.step_of_step? hstate with
    | collect _ driver slots hcollector hget hphase hplace =>
      obtain ⟨rfl, rfl⟩ := eq_of_getElem?_drivers hget
      exact ⟨_, rfl, .collector _ (.collect slots hcollector hphase hplace)⟩
    | overrun _ driver fault hcollector hget hphase hplace =>
      obtain ⟨rfl, rfl⟩ := eq_of_getElem?_drivers hget
      exact ⟨_, rfl, .collector _ (.overrun fault hcollector hphase hplace)⟩
    | lose _ driver message hcollector hget hphase =>
      obtain ⟨rfl, rfl⟩ := eq_of_getElem?_drivers hget
      exact ⟨_, rfl, .collector _ (.lose message hcollector hphase)⟩
  | collector =>
    obtain ⟨move, hmove, h⟩ := Option.bind_eq_some_iff.mp h
    obtain ⟨state, hstate, h⟩ := Option.bind_eq_some_iff.mp h
    cases h
    cases State.step_of_step? hstate with
    | driver | collect | overrun | lose =>
      -- none of these is a step the collector takes by itself
      cases hcollector : (solo.evaluation tasks).state.collector <;>
        simp [hcollector, Collector.next?] at hmove
    | recordFirst error hcollector hfirst =>
      exact ⟨_, rfl, .collector _ (.recordFirst error hcollector hfirst)⟩
    | recordLater error hcollector hfirst =>
      exact ⟨_, rfl, .collector _ (.recordLater error hcollector hfirst)⟩
    | cancel hcollector => exact ⟨_, rfl, .collector _ (.cancel hcollector)⟩

/-- An active driver takes its `turn?`, unless it is live in a cancelled evaluation. -/
theorem Moves.exists_turn (h : Moves crew tasks solo solo') (hactive : solo.driver.phase.isActive)
    (hcollector : solo.collector = .idle)
    (hstays : solo.shared.cancelled = false ∨ solo.driver.phase.isLive = false) :
    ∃ turn shared driver, (solo.evaluation tasks).turn? crew 0 = some turn ∧
      Driver.Step 0 solo.shared solo.driver turn.event shared driver ∧
      solo' =
        { solo with shared := shared.reporting turn.entries, driver, worker := turn.worker } := by
  cases h with
  | advance turn shared driver hturn hstep => exact ⟨turn, shared, driver, hturn, hstep, rfl⟩
  | giveUp shared driver hcancelled hphase =>
    rcases hstays with hstays | hstays
    · rw [hcancelled] at hstays
      cases hstays
    · rw [hphase] at hstays
      cases hstays
  | collector _ h =>
    -- a driver that is collected is not active
    cases h with
    | collect _ _ hphase | overrun _ _ hphase | lose _ _ hphase =>
      rw [hphase] at hactive
      cases hactive
    | recordFirst _ h | recordLater _ h | cancel h => cases hcollector.symm.trans h

/-- When the driver is not active, only the collector takes steps. -/
theorem Moves.collects (h : Moves crew tasks solo solo')
    (hdone : solo.driver.phase.isActive = false) : Collects solo solo' := by
  cases h with
  | advance turn _ _ hturn =>
    have hactive : solo.driver.phase.isActive := Evaluation.isActive_of_turn? hturn rfl
    rw [hdone] at hactive
    cases hactive
  | giveUp _ _ _ hphase =>
    rw [Phase.isActive_of_isLive hphase] at hdone
    cases hdone
  | collector _ h => exact h

/-- The turn of a driver with an `event?` is this event. -/
theorem turn?_of_event? (h : solo.driver.phase.event? = some event) :
    (solo.evaluation tasks).turn? crew 0 = some ⟨event, solo.worker, []⟩ :=
  Evaluation.turn?_of_event? rfl h

/-- A driver with an `event?` takes its step. -/
theorem Moves.exists_step (h : Moves crew tasks solo solo') (event : Event)
    (hevent : solo.driver.phase.event? = some event) (hcollector : solo.collector = .idle)
    (hstays : solo.shared.cancelled = false ∨ solo.driver.phase.isLive = false) :
    ∃ shared driver, Driver.Step 0 solo.shared solo.driver event shared driver ∧
      solo' = { solo with shared, driver } := by
  have hnext : (solo.evaluation tasks).turn? crew 0 = _ := turn?_of_event? hevent
  have hactive : solo.driver.phase.isActive := Evaluation.isActive_of_turn? hnext rfl
  obtain ⟨turn, shared, driver, hturn, hstep, rfl⟩ := h.exists_turn hactive hcollector hstays
  obtain rfl := Option.some.inj (hturn.symm.trans hnext)
  refine ⟨shared, driver, hstep, ?_⟩
  simp [Shared.reporting]

end Solo

end Fanout.Schedule

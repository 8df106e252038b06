import Fanout.Proofs.Schedule.Independence
import Fanout.Proofs.Schedule.InTurn
import Fanout.Proofs.Schedule.Solo

/-!
# A single driver is a loop

In an evaluation with a single driver, every step preserves the calls and the result that the
remaining tasks lead to (`Solo.LeadsTo.moves`). So for all units, the calls of the worker and the
result are those of `Crew.inTurn` (`single_driver_in_turn`).
-/

namespace Fanout.Schedule

namespace Solo

variable {W : Type} {crew : Crew W} {tasks : List Envelope} {solo solo' : Solo W}
  {worker : W} {outcome : Outcome}

/-- The driver has received the outputs of the first positions, in order, and all slots are
empty. -/
structure InOrder (tasks : List Envelope) (solo : Solo W) : Prop where
  total : solo.shared.tasks = tasks.length
  collector : solo.collector = .idle
  slots : solo.slots = List.replicate tasks.length none
  indices : solo.driver.outputs.map (fun output => output.1.toNat) =
    List.range solo.shared.completed
  le : solo.shared.completed ≤ tasks.length

/-- There is no first error and no cancellation. -/
structure Unharmed (tasks : List Envelope) (solo : Solo W) : Prop extends InOrder tasks solo where
  cancelled : solo.shared.cancelled = false
  firstError : solo.shared.firstError = none

/-- The first `given` tasks were started, and nothing has failed. -/
structure Ahead (tasks : List Envelope) (given : Nat) (solo : Solo W) : Prop extends
    Unharmed tasks solo where
  /-- The positions left are those from `given` on. -/
  ahead : solo.driver.rest.toList ++ solo.shared.queued = List.range' given (tasks.length - given)

/-- `outcome`, with the acts and the log of `solo` in front. -/
def following (solo : Solo W) (outcome : Outcome) : Outcome :=
  outcome.after solo.shared.acts solo.shared.log

/-- The outcome of a failure, by the `Aftermath` the driver goes on with. -/
inductive FailsWith (crew : Crew W) (tasks : List Envelope) (solo : Solo W) (error : BackendError)
    (outcome : Outcome) : Aftermath → Prop
  | leave (houtcome : outcome =
      solo.following (.cancelled error solo.shared.completed tasks.length)) :
      FailsWith crew tasks solo error outcome .leave
  | terminate (worker : W) (hworker : solo.worker = some worker)
      (houtcome : outcome =
        solo.following (crew.expel worker error solo.shared.completed tasks.length)) :
      FailsWith crew tasks solo error outcome .terminate

/-- `LeadsTo crew tasks outcome solo`: `outcome` consists of the acts and the log of `solo` and of
the outcome of `Crew.inTurnFrom` for the tasks left, by the phase of the driver and the
collector. -/
inductive LeadsTo (crew : Crew W) (tasks : List Envelope) (outcome : Outcome) (solo : Solo W) :
    Prop
  | starting (hphase : solo.driver.phase = .starting) (hahead : Ahead tasks 0 solo)
      (htidy : solo.driver.Tidy) (houtputs : solo.driver.outputs = [])
      (hacts : solo.shared.acts = []) (hlog : solo.shared.log = [])
      (houtcome : outcome = crew.inTurn tasks)
  | spawning (hphase : solo.driver.phase = .spawning) (hahead : Ahead tasks 0 solo)
      (htidy : solo.driver.Tidy) (houtputs : solo.driver.outputs = [])
      (hacts : solo.shared.acts = [.spawn 0]) (hlog : solo.shared.log = [])
      (houtcome : outcome = crew.inTurn tasks)
  | looping (worker : W)
      (hphase : solo.driver.phase = .ready ∨ solo.driver.phase = .pulling ∨
        solo.driver.phase = .holding)
      (hahead : Ahead tasks solo.shared.completed solo) (htidy : solo.driver.Tidy)
      (hworker : solo.worker = some worker)
      (houtcome : outcome = solo.following (crew.inTurnFrom tasks.length worker solo.payloads
        (tasks.drop solo.shared.completed)))
  /-- The run of the task is in the acts of both. -/
  | running (worker : W) (acts : List Act)
      (hphase : solo.driver.phase = .running solo.shared.completed)
      (hahead : Ahead tasks (solo.shared.completed + 1) solo) (hworker : solo.worker = some worker)
      (hlt : solo.shared.completed < tasks.length)
      (hacts : solo.shared.acts = acts ++ [.run 0 solo.shared.completed])
      (houtcome : outcome = (crew.inTurnFrom tasks.length worker solo.payloads
        (tasks.drop solo.shared.completed)).after acts solo.shared.log)
  | leaving (worker : W) (hphase : solo.driver.phase = .leaving)
      (hunharmed : solo.Unharmed tasks) (hworker : solo.worker = some worker)
      (hall : solo.shared.completed = tasks.length)
      (houtcome : outcome = solo.following (crew.dismiss worker solo.payloads))
  /-- The shutdown is in the acts of both. -/
  | closing (worker : W) (acts : List Act) (hphase : solo.driver.phase = .closing)
      (hunharmed : solo.Unharmed tasks) (hworker : solo.worker = some worker)
      (hall : solo.shared.completed = tasks.length)
      (hacts : solo.shared.acts = acts ++ [.shutdown 0])
      (houtcome : outcome = (crew.dismiss worker solo.payloads).after acts solo.shared.log)
  | recording (error : BackendError) (next : Aftermath)
      (hphase : solo.driver.phase = .recording error next) (hunharmed : solo.Unharmed tasks)
      (hfails : solo.FailsWith crew tasks error outcome next)
  | cancelling (error : BackendError) (next : Aftermath)
      (hphase : solo.driver.phase = .cancelling next) (hinOrder : solo.InOrder tasks)
      (hfirst : solo.shared.firstError = some error)
      (hfails : solo.FailsWith crew tasks error outcome next)
  | terminating (worker : W) (error : BackendError)
      (hphase : solo.driver.phase = .terminating) (hinOrder : solo.InOrder tasks)
      (hworker : solo.worker = some worker) (hcancelled : solo.shared.cancelled = true)
      (hfirst : solo.shared.firstError = some error)
      (houtcome : outcome = solo.following ⟨.error (.error error), [], crew.departure worker true⟩)
  /-- The outputs are yet to be placed. -/
  | returned (slots : List (Option Payload)) (hphase : solo.driver.phase = .returned)
      (hcollector : solo.collector = .idle)
      (hplace : State.place solo.slots solo.driver.outputs = .ok slots)
      (houtcome : outcome = ({ solo with slots }.evaluation tasks).state.outcome)
  | panicked (message : String) (hphase : solo.driver.phase = .panicked message)
      (hunharmed : solo.Unharmed tasks)
      (houtcome : outcome = solo.following
        (.cancelled (State.panicError message) solo.shared.completed tasks.length))
  | recordingPanic (error : BackendError) (hphase : solo.driver.phase = .joined)
      (hcollector : solo.collector = .recording error) (hfirst : solo.shared.firstError = none)
      (htotal : solo.shared.tasks = tasks.length)
      (houtcome : outcome =
        solo.following (.cancelled error solo.shared.completed tasks.length))
  | cancellingPanic (error : BackendError) (hphase : solo.driver.phase = .joined)
      (hcollector : solo.collector = .cancelling) (hfirst : solo.shared.firstError = some error)
      (htotal : solo.shared.tasks = tasks.length)
      (houtcome : outcome =
        solo.following (.cancelled error solo.shared.completed tasks.length))
  | ended (hphase : solo.driver.phase = .joined) (hcollector : solo.collector = .idle)
      (houtcome : outcome = (solo.evaluation tasks).state.outcome)

/-- `InOrder` does not depend on the other fields. -/
theorem InOrder.frame {queue : List Span} {cancelled : Bool} {firstError : Option BackendError}
    {acts : List Act} {log : List LogEntry} {phase : Phase} {rest : Span} {worker : Option W}
    (h : solo.InOrder tasks) :
    InOrder tasks { solo with
      shared := { solo.shared with queue, cancelled, firstError, acts, log }
      driver := { solo.driver with phase, rest }
      worker } :=
  ⟨h.total, h.collector, h.slots, h.indices, h.le⟩

/-- `Unharmed` does not depend on the other fields. -/
theorem Unharmed.frame {queue : List Span} {acts : List Act} {log : List LogEntry} {phase : Phase}
    {rest : Span} {worker : Option W} (h : solo.Unharmed tasks) :
    Unharmed tasks { solo with
      shared := { solo.shared with queue, acts, log }
      driver := { solo.driver with phase, rest }
      worker } :=
  ⟨h.toInOrder.frame, h.cancelled, h.firstError⟩

/-- There are as many payloads as tasks completed. -/
theorem InOrder.length_payloads (h : solo.InOrder tasks) :
    solo.payloads.length = solo.shared.completed := by
  have hlength := congrArg List.length h.indices
  rwa [List.length_map, List.length_range, ← List.length_map (f := Prod.snd)] at hlength

/-- A step from `spawning` keeps `LeadsTo`. -/
theorem leadsTo_of_spawning (hmoves : Moves crew tasks solo solo')
    (hphase : solo.driver.phase = .spawning) (hahead : Ahead tasks 0 solo)
    (htidy : solo.driver.Tidy) (houtputs : solo.driver.outputs = [])
    (hacts : solo.shared.acts = [.spawn 0]) (hlog : solo.shared.log = []) :
    LeadsTo crew tasks (crew.inTurn tasks) solo' := by
  obtain ⟨turn, shared, driver, hturn, hstep, rfl⟩ :=
    hmoves.exists_turn (by rw [hphase]; rfl) hahead.collector (.inl hahead.cancelled)
  have hof : Turn.ofSpawn crew (crew.spawn 0) = some turn :=
    (Evaluation.turn?_of_spawning rfl hphase).symm.trans hturn
  have hpayloads : solo.payloads = [] := by
    rw [payloads, houtputs, List.map_nil]
  have hcompleted : solo.shared.completed = 0 := by
    rw [← hahead.length_payloads, hpayloads, List.length_nil]
  rw [Crew.inTurn]
  cases hspawn : crew.spawn 0 with
  | value worker =>
    rw [hspawn] at hof
    cases hof
    cases hstep with
    | launched =>
      -- the loop begins, with no outputs and all tasks ahead
      refine .looping worker (.inl rfl) ⟨hahead.frame, ?_⟩ ?_ rfl ?_
      · show _ = List.range' solo.shared.completed (tasks.length - solo.shared.completed)
        rw [hcompleted]
        exact hahead.ahead
      · refine ⟨fun _ => htidy.between ?_, fun h => ?_⟩
        · rw [hphase]
          rfl
        · cases h
      · show _ = (crew.inTurnFrom tasks.length worker solo.payloads
          (tasks.drop solo.shared.completed)).after (solo.shared.acts ++ [.spawned 0])
            (solo.shared.log ++ crew.arrival worker)
        rw [hpayloads, hcompleted, hacts, hlog]
        exact Outcome.after_after _ _ _ _ _
  | error error =>
    rw [hspawn] at hof
    cases hof
    cases hstep with
    | refused =>
      refine .recording error .leave rfl hahead.frame (.leave ?_)
      show _ = (Outcome.cancelled error solo.shared.completed tasks.length).after solo.shared.acts
        (solo.shared.log ++ [])
      rw [hcompleted, hacts, hlog, List.append_nil]
  | panic message =>
    rw [hspawn] at hof
    cases hof
    cases hstep with
    | crash =>
      refine .panicked message rfl hahead.frame ?_
      show _ = (Outcome.cancelled (State.panicError message) solo.shared.completed
        tasks.length).after solo.shared.acts (solo.shared.log ++ [])
      rw [hcompleted, hacts, hlog, List.append_nil]
  | pending =>
    rw [hspawn] at hof
    cases hof

/-- A step between two tasks keeps `LeadsTo`, whatever the units are. -/
theorem leadsTo_of_looping (hmoves : Moves crew tasks solo solo')
    (hphase : solo.driver.phase = .ready ∨ solo.driver.phase = .pulling ∨
      solo.driver.phase = .holding)
    (hahead : Ahead tasks solo.shared.completed solo) (htidy : solo.driver.Tidy)
    (hworker : solo.worker = some worker) :
    LeadsTo crew tasks (solo.following (crew.inTurnFrom tasks.length worker solo.payloads
      (tasks.drop solo.shared.completed))) solo' := by
  have hsteps (event : Event) (hevent : solo.driver.phase.event? = some event) :=
    hmoves.exists_step event hevent hahead.collector (.inl hahead.cancelled)
  have hbetween (h : solo.driver.phase.isBetween) : solo.driver.rest.toList = [] :=
    toList_eq_nil (htidy.between h)
  rcases hphase with hphase | hphase | hphase
  · obtain ⟨shared, driver, hstep, rfl⟩ := hsteps .look (by rw [hphase]; rfl)
    cases hstep with
    | lookOn =>
      refine .looping worker (.inr (.inl rfl)) ⟨hahead.frame, hahead.ahead⟩ ?_ hworker rfl
      exact ⟨fun _ => htidy.between (by rw [hphase]; rfl), fun h => by cases h⟩
    | lookAway _ hcancelled =>
      rw [hahead.cancelled] at hcancelled
      cases hcancelled
  · obtain ⟨shared, driver, hstep, rfl⟩ := hsteps .take (by rw [hphase]; rfl)
    have hqueue := hahead.ahead
    rw [hbetween (by rw [hphase]; rfl), List.nil_append, Shared.queued] at hqueue
    cases hstep with
    | exhausted _ hnone =>
      -- nothing is left over and nothing queued, so no task is left
      rw [hnone, List.flatMap_nil] at hqueue
      have hall : tasks.length ≤ solo.shared.completed := by
        have hlength := congrArg List.length hqueue
        rw [List.length_range', List.length_nil] at hlength
        omega
      refine .leaving worker rfl hahead.frame hworker (Nat.le_antisymm hahead.le hall) ?_
      rw [List.drop_eq_nil_of_le hall]
      rfl
    | take unit queue _ hsome =>
      -- a unit goes from the queue to the driver, which leaves the list of what is ahead as it is
      rw [hsome, List.flatMap_cons] at hqueue
      refine .looping worker ?_ ⟨hahead.frame, hqueue⟩ (Driver.tidy_resume _) hworker rfl
      by_cases hunit : unit.length = 0
      · exact .inl (if_pos hunit)
      · exact .inr (.inr (if_neg hunit))
  · obtain ⟨shared, driver, hstep, rfl⟩ := hsteps .start (by rw [hphase]; rfl)
    cases hstep with
    | start _ hrest =>
      -- the position in hand is the first one ahead, which is that of the next task in turn
      have hlist := hahead.ahead
      rw [toList_eq_cons hrest, List.cons_append] at hlist
      have hlt : solo.shared.completed < tasks.length := by
        have hlength := congrArg List.length hlist
        rw [List.length_cons, List.length_range'] at hlength
        omega
      rw [← Nat.sub_add_cancel (Nat.sub_pos_of_lt hlt), List.range'_succ] at hlist
      obtain ⟨hfirst, hothers⟩ := List.cons.inj hlist
      refine .running worker solo.shared.acts ?_ ⟨hahead.frame, hothers⟩ hworker hlt ?_ rfl
      · exact congrArg Phase.running hfirst
      · exact congrArg (fun position => solo.shared.acts ++ [.run 0 position]) hfirst

/-- A step that answers the task keeps `LeadsTo`. -/
theorem leadsTo_of_running {acts : List Act}
    (hindices : ∀ i (h : i < tasks.length), tasks[i].index.toNat = i)
    (hown : ∀ worker, ∀ task ∈ tasks, ∀ response,
      (crew.run worker task).2 = .value response → response.index = task.index)
    (hmoves : Moves crew tasks solo solo')
    (hphase : solo.driver.phase = .running solo.shared.completed)
    (hahead : Ahead tasks (solo.shared.completed + 1) solo) (hworker : solo.worker = some worker)
    (hlt : solo.shared.completed < tasks.length)
    (hacts : solo.shared.acts = acts ++ [.run 0 solo.shared.completed]) :
    LeadsTo crew tasks ((crew.inTurnFrom tasks.length worker solo.payloads
      (tasks.drop solo.shared.completed)).after acts solo.shared.log) solo' := by
  obtain ⟨turn, shared, driver, hturn, hstep, rfl⟩ :=
    hmoves.exists_turn (by rw [hphase]; rfl) hahead.collector (.inl hahead.cancelled)
  have hof : Turn.ofRun (crew.run worker tasks[solo.shared.completed]).1
      (crew.run worker tasks[solo.shared.completed]).2 = some turn :=
    (Evaluation.turn?_of_running rfl hphase (congrArg some hworker)
      (List.getElem?_eq_getElem hlt)).symm.trans hturn
  have hown := hown worker tasks[solo.shared.completed] (List.getElem_mem hlt)
  rw [List.drop_eq_getElem_cons hlt, Crew.inTurnFrom_cons, hahead.length_payloads,
    Outcome.after_after, List.append_nil, ← hacts]
  generalize crew.run worker tasks[solo.shared.completed] = result at hof hown ⊢
  obtain ⟨worker', answer⟩ := result
  dsimp only at hof hown ⊢
  cases houtput : answer.output with
  | value payload =>
    obtain ⟨index, rfl⟩ := Answer.exists_of_output_eq_value houtput
    cases hof
    cases hstep with
    | failed _ _ _ _ hresult => cases hresult
    | completed _ _ _ _ hresult =>
      cases hresult
      -- the output is filed under the position of the task, and the driver goes on with its unit
      have hindex : index.toNat = solo.shared.completed := by
        rw [show index = _ from hown _ rfl, hindices _ hlt]
      refine .looping worker' ?_ ⟨⟨⟨hahead.total, hahead.collector, hahead.slots, ?_, hlt⟩,
        hahead.cancelled, hahead.firstError⟩, hahead.ahead⟩ (Driver.tidy_resume _) rfl ?_
      · by_cases hrest : solo.driver.rest.length = 0
        · exact .inl (if_pos hrest)
        · exact .inr (.inr (if_neg hrest))
      · show (solo.driver.outputs ++ [(index, payload)]).map _ =
          List.range (solo.shared.completed + 1)
        rw [List.map_append, hahead.indices, List.range_succ, List.map_singleton, hindex]
      · simp [following, payloads, Shared.reporting, Driver.resume, Driver.enter]
  | error error =>
    obtain ⟨result, hof', hresult⟩ := Answer.exists_of_output_eq_error worker' houtput
    cases hof.symm.trans hof'
    cases hstep with
    | completed _ _ _ _ houtput =>
      rw [hresult] at houtput
      cases houtput
    | failed _ _ _ _ herror =>
      cases hresult.symm.trans herror
      refine .recording error .terminate rfl hahead.frame (.terminate worker' rfl ?_)
      simp [following, Shared.reporting]
  | panic message =>
    obtain rfl := Answer.eq_panic_of_output houtput
    cases hof
    cases hstep with
    | crash =>
      refine .panicked message rfl hahead.frame ?_
      simp [following, Shared.reporting]
  | pending =>
    obtain rfl := Answer.eq_pending_of_output houtput
    cases hof

/-- The outputs are placed in the slots of the first positions. -/
theorem InOrder.place (h : solo.InOrder tasks) :
    State.place solo.slots solo.driver.outputs = .ok (solo.payloads.map some ++
      List.replicate (tasks.length - solo.shared.completed) none) := by
  have hlength : solo.driver.outputs.length = solo.shared.completed := by
    rw [← h.length_payloads, payloads, List.length_map]
  have hplace := State.place_inOrder [] tasks.length h.slots
    (by rw [h.indices, hlength]; exact List.range_eq_range') (hlength ▸ h.le)
  rw [hplace, hlength]
  rfl

/-- The outcome of a state with all slots filled. -/
theorem outcome_of_slots {outputs : List Payload} (hcollector : solo.collector = .idle)
    (hcancelled : solo.shared.cancelled = false) (hslots : solo.slots = outputs.map some) :
    (solo.evaluation tasks).state.outcome = ⟨.ok outputs, solo.shared.acts, solo.shared.log⟩ := by
  have houtputs := (State.outputsFrom_eq_ok_iff 0).mpr hslots
  have hresult : (solo.evaluation tasks).state.result = .ok outputs := by
    simp [State.result, evaluation, hcollector, hcancelled, houtputs, Traversal.mapError_ok]
  rw [State.outcome, hresult]
  rfl

/-- The outcome of a cancelled state with a first error. -/
theorem outcome_of_firstError (error : BackendError) (hcollector : solo.collector = .idle)
    (hcancelled : solo.shared.cancelled = true) (hfirst : solo.shared.firstError = some error) :
    (solo.evaluation tasks).state.outcome =
      ⟨.error (.error error), solo.shared.acts, solo.shared.log⟩ := by
  have hresult : (solo.evaluation tasks).state.result = .error (.error error) := by
    simp [State.result, evaluation, hcollector, hcancelled, hfirst]
  rw [State.outcome, hresult]
  rfl

/-- A step that answers the shutdown keeps `LeadsTo`. -/
theorem leadsTo_of_closing {acts : List Act} (hmoves : Moves crew tasks solo solo')
    (hphase : solo.driver.phase = .closing) (hunharmed : solo.Unharmed tasks)
    (hworker : solo.worker = some worker) (hall : solo.shared.completed = tasks.length)
    (hacts : solo.shared.acts = acts ++ [.shutdown 0]) :
    LeadsTo crew tasks ((crew.dismiss worker solo.payloads).after acts solo.shared.log) solo' := by
  obtain ⟨turn, shared, driver, hturn, hstep, rfl⟩ :=
    hmoves.exists_turn (by rw [hphase]; rfl) hunharmed.collector (.inl hunharmed.cancelled)
  have hof : Turn.ofShutdown crew worker (crew.shutdown worker) = some turn :=
    (Evaluation.turn?_of_closing rfl hphase (congrArg some hworker)).symm.trans hturn
  have hlength : solo.payloads.length = tasks.length := hunharmed.length_payloads.trans hall
  rw [Crew.dismiss, Outcome.after_after, List.append_nil, ← hacts, hlength]
  cases hshutdown : crew.shutdown worker with
  | value =>
    rw [hshutdown] at hof
    cases hof
    cases hstep with
    | closed =>
      -- every task has been completed, so the outputs fill all slots
      have hplace := hunharmed.place
      rw [hall, Nat.sub_self, List.replicate_zero, List.append_nil] at hplace
      refine .returned (solo.payloads.map some) rfl hunharmed.collector hplace ?_
      refine Eq.trans ?_ (outcome_of_slots ?_ ?_ rfl).symm
      · simp [Outcome.after, Shared.reporting]
      · exact hunharmed.collector
      · exact hunharmed.cancelled
  | error error =>
    rw [hshutdown] at hof
    cases hof
    cases hstep with
    | unclosed =>
      refine .recording error .leave rfl hunharmed.frame (.leave ?_)
      simp [following, Shared.reporting, hall]
  | panic message =>
    rw [hshutdown] at hof
    cases hof
    cases hstep with
    | crash =>
      refine .panicked message rfl hunharmed.frame ?_
      simp [following, Shared.reporting, hall]
  | pending =>
    rw [hshutdown] at hof
    cases hof

/-- A step from `cancelling` keeps `LeadsTo`. -/
theorem leadsTo_of_cancelling {error : BackendError} {next : Aftermath}
    (hmoves : Moves crew tasks solo solo') (hphase : solo.driver.phase = .cancelling next)
    (hinOrder : solo.InOrder tasks) (hfirst : solo.shared.firstError = some error)
    (hfails : solo.FailsWith crew tasks error outcome next) :
    LeadsTo crew tasks outcome solo' := by
  obtain ⟨shared, driver, hstep, rfl⟩ := hmoves.exists_step .cancel (by rw [hphase]; rfl)
    hinOrder.collector (.inr (by rw [hphase]; rfl))
  cases hstep with
  | cancel next' hphase' =>
    cases hphase.symm.trans hphase'
    cases hfails with
    | leave houtcome =>
      -- some slots may stay empty, but the result is the failure
      refine .returned _ rfl hinOrder.collector hinOrder.place ?_
      refine houtcome.trans (Eq.trans ?_ (outcome_of_firstError error ?_ ?_ ?_).symm)
      · simp [following, Outcome.after, Outcome.cancelled, Driver.conclude, Shared.cancel,
          Shared.reporting, hinOrder.total]
      · exact hinOrder.collector
      · rfl
      · exact hfirst
    | terminate worker hworker houtcome =>
      refine .terminating worker error rfl hinOrder.frame hworker rfl hfirst ?_
      rw [houtcome]
      simp [following, Outcome.after, Crew.expel, Driver.conclude, Shared.noting, Shared.cancel,
        Shared.reporting, hinOrder.total]

/-- Every step keeps `LeadsTo`. -/
theorem LeadsTo.moves
    (hindices : ∀ i (h : i < tasks.length), tasks[i].index.toNat = i)
    (hown : ∀ worker, ∀ task ∈ tasks, ∀ response,
      (crew.run worker task).2 = .value response → response.index = task.index)
    (h : LeadsTo crew tasks outcome solo) (hmoves : Moves crew tasks solo solo') :
    LeadsTo crew tasks outcome solo' := by
  -- each phase has one step to take, and the next phase leads to the same outcome
  cases h with
  | starting hphase hahead htidy houtputs hacts hlog houtcome =>
    obtain ⟨shared, driver, hstep, rfl⟩ := hmoves.exists_step .launch (by rw [hphase]; rfl)
      hahead.collector (.inl hahead.cancelled)
    cases hstep with
    | launch =>
      refine .spawning rfl ⟨hahead.frame, hahead.ahead⟩ ?_ houtputs ?_ hlog houtcome
      · exact ⟨fun _ => htidy.between (by rw [hphase]; rfl), fun h => by cases h⟩
      · exact congrArg (fun acts => acts ++ [Act.spawn 0]) hacts
  | spawning hphase hahead htidy houtputs hacts hlog houtcome =>
    rw [houtcome]
    exact leadsTo_of_spawning hmoves hphase hahead htidy houtputs hacts hlog
  | looping worker hphase hahead htidy hworker houtcome =>
    rw [houtcome]
    exact leadsTo_of_looping hmoves hphase hahead htidy hworker
  | running worker acts hphase hahead hworker hlt hacts houtcome =>
    rw [houtcome]
    exact leadsTo_of_running hindices hown hmoves hphase hahead hworker hlt hacts
  | leaving worker hphase hunharmed hworker hall houtcome =>
    obtain ⟨shared, driver, hstep, rfl⟩ := hmoves.exists_step .dismiss (by rw [hphase]; rfl)
      hunharmed.collector (.inl hunharmed.cancelled)
    cases hstep with
    | dismiss => exact .closing worker _ rfl hunharmed.frame hworker hall rfl houtcome
    | expel _ hcancelled =>
      rw [hunharmed.cancelled] at hcancelled
      cases hcancelled
  | closing worker acts hphase hunharmed hworker hall hacts houtcome =>
    rw [houtcome]
    exact leadsTo_of_closing hmoves hphase hunharmed hworker hall hacts
  | recording error next hphase hunharmed hfails =>
    obtain ⟨shared, driver, hstep, rfl⟩ := hmoves.exists_step .record (by rw [hphase]; rfl)
      hunharmed.collector (.inl hunharmed.cancelled)
    cases hstep with
    | recordFirst error' next' hphase' =>
      cases hphase.symm.trans hphase'
      refine .cancelling error next rfl hunharmed.toInOrder.frame rfl ?_
      cases hfails with
      | leave houtcome => exact .leave houtcome
      | terminate worker hworker houtcome => exact .terminate worker hworker houtcome
    | recordLater _ _ _ hfirst => exact absurd hunharmed.firstError hfirst
  | cancelling error next hphase hinOrder hfirst hfails =>
    exact leadsTo_of_cancelling hmoves hphase hinOrder hfirst hfails
  | terminating worker error hphase hinOrder hworker hcancelled hfirst houtcome =>
    obtain ⟨turn, shared, driver, hturn, hstep, rfl⟩ := hmoves.exists_turn
      (by rw [hphase]; rfl) hinOrder.collector (.inr (by rw [hphase]; rfl))
    obtain rfl : turn = ⟨.terminated, some worker, crew.departure worker true⟩ :=
      Option.some.inj (hturn.symm.trans
        (Evaluation.turn?_of_terminating rfl hphase (congrArg some hworker)))
    cases hstep with
    | terminated =>
      refine .returned _ rfl hinOrder.collector hinOrder.place ?_
      refine houtcome.trans (Eq.trans ?_ (outcome_of_firstError error ?_ ?_ ?_).symm)
      · simp [following, Outcome.after, Shared.reporting]
      · exact hinOrder.collector
      · exact hcancelled
      · exact hfirst
  | returned slots hphase hcollector hplace houtcome =>
    cases hmoves.collects (by rw [hphase]; rfl) with
    | collect slots' _ _ hplace' =>
      cases hplace.symm.trans hplace'
      exact .ended rfl hcollector houtcome
    | overrun _ _ _ hfault => cases hplace.symm.trans hfault
    | lose _ _ hphase' => cases hphase.symm.trans hphase'
    | recordFirst _ h | recordLater _ h | cancel h => cases hcollector.symm.trans h
  | panicked message hphase hunharmed houtcome =>
    cases hmoves.collects (by rw [hphase]; rfl) with
    | collect _ _ hphase' | overrun _ _ hphase' => cases hphase.symm.trans hphase'
    | lose message' _ hphase' =>
      cases hphase.symm.trans hphase'
      exact .recordingPanic _ rfl rfl hunharmed.firstError hunharmed.total houtcome
    | recordFirst _ h | recordLater _ h | cancel h => cases hunharmed.collector.symm.trans h
  | recordingPanic error hphase hcollector hfirst htotal houtcome =>
    cases hmoves.collects (by rw [hphase]; rfl) with
    | collect _ h | overrun _ h | lose _ h | cancel h => cases hcollector.symm.trans h
    | recordLater _ _ hlater => exact absurd hfirst hlater
    | recordFirst error' hcollector' =>
      cases hcollector.symm.trans hcollector'
      exact .cancellingPanic error hphase rfl rfl htotal houtcome
  | cancellingPanic error hphase hcollector hfirst htotal houtcome =>
    cases hmoves.collects (by rw [hphase]; rfl) with
    | collect _ h | overrun _ h | lose _ h | recordFirst _ h | recordLater _ h =>
      cases hcollector.symm.trans h
    | cancel =>
      refine .ended hphase rfl (houtcome.trans (Eq.trans ?_
        (outcome_of_firstError error ?_ ?_ ?_).symm))
      · simp [following, Outcome.after, Outcome.cancelled, Shared.cancel, Shared.reporting, htotal]
      · rfl
      · rfl
      · exact hfirst
  | ended hphase hcollector houtcome =>
    cases hmoves.collects (by rw [hphase]; rfl) with
    | collect _ _ hphase' | overrun _ _ hphase' | lose _ _ hphase' =>
      cases hphase.symm.trans hphase'
    | recordFirst _ h | recordLater _ h | cancel h => cases hcollector.symm.trans h

/-- Every run keeps `LeadsTo`. -/
theorem LeadsTo.run {choices : List Choice} {last : Evaluation W}
    (hindices : ∀ i (h : i < tasks.length), tasks[i].index.toNat = i)
    (hown : ∀ worker, ∀ task ∈ tasks, ∀ response,
      (crew.run worker task).2 = .value response → response.index = task.index)
    (h : LeadsTo crew tasks outcome solo)
    (hrun : (solo.evaluation tasks).run? crew choices = some last) :
    ∃ solo', last = solo'.evaluation tasks ∧ LeadsTo crew tasks outcome solo' := by
  induction choices generalizing solo with
  | nil =>
    cases hrun
    exact ⟨solo, rfl, h⟩
  | cons choice rest ih =>
    obtain ⟨next, hstep, hrun⟩ := Option.bind_eq_some_iff.mp hrun
    obtain ⟨solo', rfl, hmoves⟩ := exists_moves hstep
    exact ih (h.moves hindices hown hmoves) hrun

/-- A final state with an idle collector has its driver joined. -/
theorem joined_of_isFinal (hfinal : (solo.evaluation tasks).state.isFinal)
    (hcollector : solo.collector = .idle) : solo.driver.phase = .joined := by
  simpa [State.isFinal, evaluation, hcollector] using hfinal

/-- `LeadsTo` a final state gives its outcome. -/
theorem LeadsTo.outcome_of_isFinal (h : LeadsTo crew tasks outcome solo)
    (hfinal : (solo.evaluation tasks).state.isFinal) :
    (solo.evaluation tasks).state.outcome = outcome := by
  have hjoined := joined_of_isFinal hfinal
  cases h with
  | starting hphase hahead | spawning hphase hahead =>
    cases hphase.symm.trans (hjoined hahead.collector)
  | looping _ hphase hahead =>
    rcases hphase with hphase | hphase | hphase <;>
      cases hphase.symm.trans (hjoined hahead.collector)
  | running _ _ hphase hahead => cases hphase.symm.trans (hjoined hahead.collector)
  | leaving _ hphase hunharmed | closing _ _ hphase hunharmed | recording _ _ hphase hunharmed
  | panicked _ hphase hunharmed =>
    cases hphase.symm.trans (hjoined hunharmed.collector)
  | cancelling _ _ hphase hinOrder | terminating _ _ hphase hinOrder =>
    cases hphase.symm.trans (hjoined hinOrder.collector)
  | returned _ hphase hcollector => cases hphase.symm.trans (hjoined hcollector)
  | recordingPanic _ _ hcollector | cancellingPanic _ _ hcollector =>
    simp [State.isFinal, evaluation, hcollector] at hfinal
  | ended _ _ houtcome => exact houtcome.symm

/-- An evaluation whose driver `Waits` leads to what has been done so far and `Failure.stalled`. -/
theorem LeadsTo.outcome_of_waits (h : LeadsTo crew tasks outcome solo) {id : Nat}
    (hwaits : (solo.evaluation tasks).Waits crew id) :
    { (solo.evaluation tasks).state.outcome with result := .error .stalled } = outcome := by
  have hthere {id : Nat} {worker : W}
      (hin : (solo.evaluation tasks).workers[id]? = some (some worker)) :
      solo.worker = some worker := by
    obtain ⟨hid, heq⟩ := List.getElem?_eq_some_iff.mp hin
    obtain rfl : id = 0 := by simpa [evaluation] using hid
    exact heq
  -- the phase in which the driver waits leaves one case each
  cases hwaits with
  | spawn driver hget hwaiting hpending =>
    obtain ⟨rfl, rfl⟩ := eq_of_getElem?_drivers hget
    cases h
    case spawning hphase hahead htidy houtputs hacts hlog houtcome =>
      rw [houtcome, Crew.inTurn, hpending]
      simp [State.outcome, evaluation, Outcome.after, Outcome.idle, hacts, hlog]
    all_goals simp_all
  | run driver position worker task hget hwaiting hin htask hpending =>
    obtain ⟨rfl, rfl⟩ := eq_of_getElem?_drivers hget
    cases h
    case running worker' acts hphase hahead hworker hlt hacts houtcome =>
      cases hphase.symm.trans hwaiting
      cases hworker.symm.trans (hthere hin)
      obtain rfl : tasks[solo.shared.completed] = task :=
        Option.some.inj ((List.getElem?_eq_getElem hlt).symm.trans htask)
      have houtput : (crew.run worker tasks[solo.shared.completed]).2.output = .pending :=
        congrArg Answer.output hpending
      rw [houtcome, List.drop_eq_getElem_cons hlt, Crew.inTurnFrom_cons, houtput,
        hahead.length_payloads]
      simp [State.outcome, evaluation, Outcome.after, Outcome.idle, hacts]
    all_goals simp_all
  | shutdown driver worker hget hwaiting hin hpending =>
    obtain ⟨rfl, rfl⟩ := eq_of_getElem?_drivers hget
    cases h
    case closing worker' acts hphase hunharmed hworker hall hacts houtcome =>
      cases hworker.symm.trans (hthere hin)
      rw [houtcome, Crew.dismiss, hpending]
      simp [State.outcome, evaluation, Outcome.after, Outcome.idle, hacts]
    all_goals simp_all

/-- `State.start` with a single driver leads to the outcome of `Crew.inTurn`. -/
theorem exists_start (crew : Crew W) {options : Options} {start : Evaluation W}
    (hstart : Evaluation.start tasks options = .ok start)
    (hone : start.state.drivers.length = 1) :
    ∃ solo : Solo W, start = solo.evaluation tasks ∧
      LeadsTo crew tasks (crew.inTurn tasks) solo := by
  obtain ⟨state, hstate, h⟩ := Traversal.bind_eq_ok_iff.mp hstart
  cases h
  obtain ⟨units, drivers, rfl, hunits, -⟩ := State.start_eq_ok hstate
  obtain rfl : drivers = 1 := by simpa [State.initial] using hone
  refine ⟨⟨⟨tasks.length, units, false, none, 0, [], []⟩, .initial, none,
    List.replicate tasks.length none, .idle⟩, rfl, ?_⟩
  refine .starting rfl ⟨⟨⟨rfl, rfl, rfl, rfl, Nat.zero_le _⟩, rfl, rfl⟩, ?_⟩ ?_ rfl rfl rfl rfl
  · exact hunits.flatMap_toList
  · exact ⟨fun _ => rfl, fun h => by cases h⟩

end Solo

/-- Let the tasks of an evaluation be indexed by their positions and answered under their own
indices. It has a single driver iff `options.workers` is at most one, or the pool is not fixed and
all tasks are in one unit. Then every interleaving that has ended has the outcome of `Crew.inTurn`,
and so does `evaluate`, with the entry about the start in front of its log. If the worker completes
all tasks, `inTurn` runs them in order and shuts the worker down, which decides between an error and
all outputs. If the worker fails on one, `inTurn` runs no other one after it, the error is the
result, and the cancellation reports the number of tasks before it. -/
theorem single_driver_in_turn {W : Type} {crew : Crew W} {tasks : List Envelope}
    {options : Options} (hne : tasks ≠ [])
    (hindices : ∀ i (h : i < tasks.length), tasks[i].index.toNat = i)
    (hown : ∀ worker, ∀ task ∈ tasks, ∀ response,
      (crew.run worker task).2 = .value response → response.index = task.index)
    (hlength : tasks.length < listLimit) (hchunk : options.chunkSize < wordLimit) :
    (∃ start : Evaluation W, Evaluation.start tasks options = .ok start ∧
      (start.state.drivers.length = 1 ↔ options.workers ≤ 1 ∨
        options.fixedPool = false ∧ tasks.length ≤ max options.chunkSize 1) ∧
      (start.state.drivers.length = 1 →
        (∀ choices last, start.run? crew choices = some last → last.state.isFinal →
          last.outcome = crew.inTurn tasks) ∧
        let started : Notice :=
          .evaluationStarted tasks.length start.state.shared.queue.length 1
        evaluate crew tasks options =
          (crew.inTurn tasks).after [] [.activity "evaluate" started, .notice started])) ∧
      ∀ worker last done outputs, crew.spawn 0 = .value worker →
        crew.Completes worker done outputs last →
          (tasks = done → crew.inTurn tasks = (crew.dismiss last outputs).after
            ([.spawn 0, .spawned 0] ++ (List.range tasks.length).map (.run 0))
            (crew.arrival worker)) ∧
          ∀ task rest error, tasks = done ++ task :: rest →
            (crew.run last task).2.output = .error error →
              crew.inTurn tasks = ⟨.error (.error error),
                [.spawn 0, .spawned 0] ++ (List.range (done.length + 1)).map (.run 0) ++
                  [.terminate 0],
                crew.arrival worker ++
                  [.notice (.evaluationCancelled done.length tasks.length)] ++
                  crew.departure (crew.run last task).1 true⟩ := by
  constructor
  · obtain ⟨start, hstart⟩ := Evaluation.exists_start (W := W) hlength hchunk
    have hpos := List.length_pos_iff.mpr hne
    refine ⟨start, hstart,
      State.length_drivers_eq_one_iff (Evaluation.state_of_start hstart) hpos, ?_⟩
    intro hone
    obtain ⟨solo, rfl, hleads⟩ := Solo.exists_start crew hstart hone
    have hruns {choices : List Choice} {last : Evaluation W}
        (hrun : (solo.evaluation tasks).run? crew choices = some last)
        (hfinal : last.state.isFinal) : last.outcome = crew.inTurn tasks := by
      obtain ⟨solo', rfl, hleads'⟩ := hleads.run hindices hown hrun
      rw [Evaluation.outcome, if_pos hfinal]
      exact hleads'.outcome_of_isFinal hfinal
    refine ⟨fun choices last => hruns, ?_⟩
    obtain ⟨choices, hrun, hrest⟩ := Evaluation.exists_run_complete hstart crew
    rw [evaluate, if_neg (by simpa using hne), hstart]
    show Outcome.after (Evaluation.outcome _) [] _ = _
    cases hfinal : ((solo.evaluation tasks).complete crew
        (List.replicate (solo.evaluation tasks).state.drivers.length 0)).state.isFinal with
    | true =>
      rw [hruns hrun hfinal]
      rfl
    | false =>
      -- nothing more can be done, so the driver waits for its worker
      obtain ⟨solo', heq, hleads'⟩ := hleads.run hindices hown hrun
      rcases (Evaluation.progress_of_run hstart hrun).2 hfinal with
        ⟨id, hwaits⟩ | ⟨choice, next, hnext⟩
      · rw [Evaluation.outcome, hfinal, if_neg Bool.false_ne_true]
        rw [heq] at hwaits ⊢
        rw [hleads'.outcome_of_waits hwaits]
        rfl
      · cases (hrest choice).symm.trans hnext
  · intro worker last done outputs hspawn hcompletes
    constructor
    · rintro rfl
      exact Crew.inTurn_of_completes hspawn hcompletes
    · rintro task rest error rfl herror
      exact Crew.inTurn_of_error hspawn hcompletes herror

/-- A worker that counts its tasks fails on the second one, at the end of a unit. -/
theorem single_driver_in_turn_failing :
    let crew : Crew Nat :=
      { spawn := fun _ => .value 0
        run := fun count task =>
          (count + 1, .value (if count = 1 then .failed task.index .execution "tired"
            else .completed task.index task.input))
        shutdown := fun _ => .value ()
        arrival := fun _ => []
        departure := fun _ _ => []
        delay := fun _ => 0 }
    let tasks : List Envelope :=
      [⟨0, "echo", ⟨[]⟩, ⟨[5]⟩⟩, ⟨1, "echo", ⟨[]⟩, ⟨[6]⟩⟩, ⟨2, "echo", ⟨[]⟩, ⟨[7]⟩⟩]
    ∃ start : Evaluation Nat, Evaluation.start tasks ⟨1, 2, true⟩ = .ok start ∧
      ∀ choices last, start.run? crew choices = some last → last.state.isFinal →
        last.outcome = ⟨.error (.error (.workerExecution 1 "tired")),
          [.spawn 0, .spawned 0, .run 0 0, .run 0 1, .terminate 0],
          [.notice (.evaluationCancelled 1 3)]⟩ := by
  intro crew tasks
  have hown (worker : Nat) (task : Envelope) (_ : task ∈ tasks) (response : Response)
      (h : (crew.run worker task).2 = .value response) : response.index = task.index := by
    cases h
    by_cases hcount : worker = 1 <;> simp [hcount, Response.index]
  obtain ⟨⟨start, hstart, hsingle, hruns⟩, -⟩ := single_driver_in_turn
    (List.cons_ne_nil _ _ : tasks ≠ []) (by decide) hown (by decide)
    (by decide : Options.chunkSize ⟨1, 2, true⟩ < wordLimit)
  refine ⟨start, hstart, ?_⟩
  exact (hruns (hsingle.mpr (.inl (by decide)))).1

end Fanout.Schedule

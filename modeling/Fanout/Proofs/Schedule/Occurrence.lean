import Fanout.Proofs.Schedule.Conduct
import Fanout.Proofs.Schedule.Crew
import Mathlib.Data.List.Induction

/-!
# What occurs in a run

A run of an evaluation with a crew is a course in which drivers see what occurs in this very run
(`Evaluation.tracks_occurs`). So an output in a slot goes back to an answer of a worker at some
moment of the run (`Evaluation.exists_moment_of_slot`), and a result with outputs to a successful
shutdown of every worker (`Evaluation.result_of_moments`).
-/

namespace Fanout.Schedule

namespace Evaluation

variable {W : Type}

/-- In the run of `choices`, driver `id` sees `event` in `phase`. -/
def Occurs (crew : Crew W) (start : Evaluation W) (choices : List Choice) (id : Nat)
    (phase : Phase) (event : Event) : Prop :=
  ∃ before choice after evaluation driver, choices = before ++ choice :: after ∧
    start.run? crew before = some evaluation ∧
    evaluation.move? crew choice = some (.driver id event) ∧
    evaluation.state.drivers[id]? = some driver ∧ driver.phase = phase

/-- In the run of `choices`, driver `id` goes on from `phase` with `worker`. -/
def Moment (crew : Crew W) (start : Evaluation W) (choices : List Choice) (id : Nat)
    (phase : Phase) (worker : W) : Prop :=
  ∃ before after evaluation driver, choices = before ++ .advance id :: after ∧
    start.run? crew before = some evaluation ∧
    evaluation.state.drivers[id]? = some driver ∧ driver.phase = phase ∧
    evaluation.workers[id]? = some (some worker)

variable {crew : Crew W} {start last : Evaluation W} {choices : List Choice} {tasks : List Envelope}
  {options : Options} {id : Nat}

theorem run?_concat (choice : Choice) :
    start.run? crew (choices ++ [choice]) =
      (start.run? crew choices).bind (·.step? crew choice) := by
  induction choices generalizing start with
  | nil =>
    rw [List.nil_append, run?, run?, Option.bind_some]
    exact Option.bind_fun_some _
  | cons first choices ih =>
    rw [List.cons_append, run?, run?, Option.bind_assoc]
    congr 1
    funext next
    exact ih

/-- What `Occurs` in a run occurs in any longer one. -/
theorem Occurs.concat {phase : Phase} {event : Event}
    (h : start.Occurs crew choices id phase event) (choice : Choice) :
    start.Occurs crew (choices ++ [choice]) id phase event := by
  obtain ⟨before, first, after, evaluation, driver, rfl, hrest⟩ := h
  exact ⟨before, first, after ++ [choice], evaluation, driver, by simp, hrest⟩

/-- A run is tracked with `Occurs` as the events that are allowed. -/
theorem tracks_occurs (hstart : Evaluation.start tasks options = .ok start)
    (hrun : start.run? crew choices = some last) :
    last.Tracks (start.Occurs crew choices) (fun _ _ => True) tasks start.state := by
  induction choices using List.reverseRecOn generalizing last with
  | nil =>
    cases hrun
    exact (tracks_of_start _ _ hstart).2
  | append_singleton choices choice ih =>
    rw [run?_concat] at hrun
    obtain ⟨middle, hbefore, hstep⟩ := Option.bind_eq_some_iff.mp hrun
    have htracks := (ih hbefore).mono fun _ _ _ h => h.concat choice
    refine htracks.step crew.keeps_true (state_of_start hstart) ?_ hstep
    -- what the last choice shows to a driver occurs after all other choices
    intro id event driver hmove hget
    exact ⟨choices, choice, [], middle, driver, rfl, hbefore, hmove, hget, rfl⟩

/-- A driver with a `Moment` is one of the drivers of the start. -/
theorem Moment.lt_length {phase : Phase} {worker : W}
    (h : start.Moment crew choices id phase worker)
    (hstart : Evaluation.start tasks options = .ok start) : id < start.state.drivers.length := by
  obtain ⟨before, after, evaluation, driver, -, hrun, hget, -⟩ := h
  rw [← (tracks_occurs hstart hrun).length_drivers]
  exact (List.getElem?_eq_some_iff.mp hget).1

/-- An event other than `skip` and `abandon` comes from the `turn?` of its driver. -/
theorem Occurs.exists_turn {phase : Phase} {event : Event}
    (h : start.Occurs crew choices id phase event) (hskip : event ≠ .skip)
    (habandon : event ≠ .abandon) :
    ∃ before after evaluation driver turn, choices = before ++ .advance id :: after ∧
      start.run? crew before = some evaluation ∧
      evaluation.state.drivers[id]? = some driver ∧ driver.phase = phase ∧
      evaluation.turn? crew id = some turn ∧ turn.event = event := by
  obtain ⟨before, choice, after, evaluation, driver, hchoices, hrun, hmove, hget, hphase⟩ := h
  cases choice with
  | advance j =>
    obtain ⟨turn, hturn, heq⟩ := Option.map_eq_some_iff.mp hmove
    injection heq with hid hevent
    subst hid
    exact ⟨before, after, evaluation, driver, turn, hchoices, hrun, hget, hphase, hturn, hevent⟩
  | giveUp j =>
    obtain ⟨given, hgive, heq⟩ := Option.map_eq_some_iff.mp hmove
    injection heq with hid hevent
    rcases eq_of_giveUp? hgive with rfl | rfl
    · exact absurd hevent.symm hskip
    · exact absurd hevent.symm habandon
  | collect => cases hmove
  | collector =>
    rw [move?] at hmove
    cases hcollector : evaluation.state.collector <;> rw [hcollector] at hmove <;> cases hmove

/-- A driver that sees a response while it is running `position` has a `Moment` whose worker answers
that task by it. -/
theorem Occurs.exists_moment_of_answer {position : Nat} {response : Response}
    (h : start.Occurs crew choices id (.running position) (.answer (.ok response)))
    (hstart : Evaluation.start tasks options = .ok start) :
    ∃ worker task, start.Moment crew choices id (.running position) worker ∧
      tasks[position]? = some task ∧ (crew.run worker task).2 = .value response := by
  obtain ⟨before, after, evaluation, driver, turn, hchoices, hrun, hget, hphase, hturn, hevent⟩ :=
    h.exists_turn (by simp) (by simp)
  obtain ⟨worker, task, hworker, htask, hof⟩ := exists_of_turn?_running hturn hget hphase
  rw [(tracks_occurs hstart hrun).tasks_eq] at htask
  refine ⟨worker, task, ?_, htask, ?_⟩
  · exact ⟨before, after, evaluation, driver, hchoices, hrun, hget, hphase, hworker⟩
  · cases hanswer : (crew.run worker task).2 with
    | value =>
      rw [hanswer] at hof
      cases hof
      cases hevent
      rfl
    | error | panic =>
      rw [hanswer] at hof
      cases hof
      cases hevent
    | pending =>
      rw [hanswer] at hof
      cases hof

/-- A driver that sees `closed` has a `Moment` whose worker shuts down with success. -/
theorem Occurs.exists_moment_of_closed
    (h : start.Occurs crew choices id .closing (.closed (.ok ()))) :
    ∃ worker, start.Moment crew choices id .closing worker ∧
      crew.shutdown worker = .value () := by
  obtain ⟨before, after, evaluation, driver, turn, hchoices, hrun, hget, hphase, hturn, hevent⟩ :=
    h.exists_turn (by simp) (by simp)
  obtain ⟨worker, hworker, hof⟩ := exists_of_turn?_closing hturn hget hphase
  refine ⟨worker, ⟨before, after, evaluation, driver, hchoices, hrun, hget, hphase, hworker⟩, ?_⟩
  cases hanswer : crew.shutdown worker with
  | value => rfl
  | error | panic =>
    rw [hanswer] at hof
    cases hof
    cases hevent
  | pending =>
    rw [hanswer] at hof
    cases hof

section Run

variable (hindices : ∀ i (h : i < tasks.length), tasks[i].index.toNat = i)
  (hown : ∀ worker task response, (crew.run worker task).2 = .value response →
    response.index = task.index)
  (hstart : Evaluation.start tasks options = .ok start)

include hindices hown hstart

/-- `Occurs` is `Indexed` if workers answer each task under its index, which is its position. -/
theorem indexed_occurs : Indexed (start.Occurs crew choices) tasks.length := by
  intro id position response hlt h
  obtain ⟨worker, task, -, htask, hanswer⟩ := h.exists_moment_of_answer hstart
  rw [List.getElem?_eq_getElem hlt] at htask
  cases htask
  rw [hown worker _ response hanswer]
  exact hindices position hlt

variable (hrun : start.run? crew choices = some last)

include hrun

/-- What is in the slot of `position` is the answer of a worker to the task at this position. -/
theorem exists_moment_of_slot {position : Nat} {payload : Payload}
    (hslot : last.state.slots[position]? = some (some payload)) :
    ∃ id worker task, start.Moment crew choices id (.running position) worker ∧
      tasks[position]? = some task ∧
      (crew.run worker task).2 = .value (.completed task.index payload) := by
  obtain ⟨moves, state, hcourse, heq⟩ := (tracks_occurs hstart hrun).course
  rw [heq] at hslot
  -- the slot is that of the index answered, which is the position of the task
  obtain ⟨index, rfl, id, position, hlt, hanswer⟩ :=
    (hcourse.sourced (state_of_start hstart)).slots position payload hslot
  obtain rfl : index.toNat = position :=
    indexed_occurs hindices hown hstart id position _ hlt hanswer
  obtain ⟨worker, task, hmoment, htask, hrun⟩ := hanswer.exists_moment_of_answer hstart
  refine ⟨id, worker, task, hmoment, htask, ?_⟩
  rw [← hown worker task _ hrun]
  exact hrun

variable (hfinal : last.state.isFinal)

include hfinal

/-- A run that has ended has an error, or its outputs are those in the slots and every worker has
shut down. -/
theorem result_of_moments :
    (∃ error, last.state.result = .error (.error error)) ∨
      ∃ payloads, last.state.result = .ok payloads ∧ last.state.slots = payloads.map some ∧
        payloads.length = tasks.length ∧
        ∀ id < start.state.drivers.length, ∃ worker, start.Moment crew choices id .closing worker ∧
          crew.shutdown worker = .value () := by
  have hstate := state_of_start hstart
  have hindexed : Indexed (start.Occurs crew choices) tasks.length :=
    indexed_occurs hindices hown hstart
  obtain ⟨moves, state, hcourse, heq⟩ := (tracks_occurs hstart hrun).course
  rw [heq] at hfinal ⊢
  obtain ⟨hcollector, hjoined⟩ := hcourse.joined_of_isFinal hstate hindexed hfinal
  by_cases hnone : failures moves = []
  -- nothing has failed, so no slot is empty, and no driver has got past its worker's shutdown
  · obtain ⟨payloads, hslots, hresult, hlength⟩ :=
      hcourse.exists_outputs hstate hindexed hnone hfinal
    refine .inr ⟨payloads, hresult, hslots, hlength, fun id hid => ?_⟩
    have hattested := hcourse.attested hstate hnone
    rw [← hcourse.length_drivers] at hid
    have hclosed := hattested.closed id _ (List.getElem?_eq_getElem hid)
      (.inr (hjoined _ (List.getElem_mem hid)))
    exact hclosed.exists_moment_of_closed
  · obtain ⟨error, hresult, -⟩ := hcourse.result_of_failures hstate hcollector hjoined hnone
    exact .inl ⟨error, hresult⟩

end Run

end Evaluation

end Fanout.Schedule

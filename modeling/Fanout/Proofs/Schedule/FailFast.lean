import Fanout.Proofs.Schedule.Delivery

/-!
# The first failure decides

`first_failure_decides` describes every run whose answers carry the index of their task, including
runs in which workers panic: the result is the outputs iff no failure was met, and otherwise the
error that was reported first.
-/

namespace Fanout.Schedule

/-- `permits` for workers that answer each task under the index of the task. -/
def AnswersOwn (tasks : List Envelope) (_worker : Nat) (phase : Phase) (event : Event) : Prop :=
  match event, phase with
  | .answer (.ok response), .running position =>
    ∀ task, tasks[position]? = some task → response.index = task.index
  | _, _ => True

/-- Workers that `AnswersOwn` are `Indexed` if the indices of the tasks are their positions. -/
theorem indexed_answersOwn {tasks : List Envelope}
    (hindices : ∀ i (h : i < tasks.length), tasks[i].index.toNat = i) :
    Indexed (AnswersOwn tasks) tasks.length := by
  intro worker position response hlt hanswer
  rw [hanswer _ (List.getElem?_eq_getElem hlt)]
  exact hindices position hlt

namespace Course

variable {permits : Nat → Phase → Event → Prop} {start state : State} {moves : List Move}
  {tasks : Nat} {options : Options}

/-- An evaluation that has ended after a failure has the head of `reports` as its error, and has
reported one cancellation. -/
theorem result_of_failures (h : Course permits start moves state)
    (hstart : State.start tasks options = .ok start) (hcollector : state.collector = .idle)
    (hjoined : ∀ driver ∈ state.drivers, driver.phase = .joined) (hne : failures moves ≠ []) :
    ∃ error, state.result = .error (.error error) ∧ (start.reports moves).head? = some error ∧
      error ∈ failures moves ∧ state.shared.firstError = some error ∧
      state.shared.cancelled = true ∧ state.shared.log.countP isCancellation = 1 := by
  have hmet := (h.failures_ne_nil_iff hstart hcollector hjoined).mp hne
  obtain ⟨error, hfirst⟩ := Option.ne_none_iff_exists'.mp hmet
  have hcancelling := h.cancelling (State.cancelling_of_start hstart)
  have hcancelled := hcancelling.cancelled_eq hcollector hjoined
  rw [hfirst, Option.isSome_some] at hcancelled
  refine ⟨error, ?_, ?_, ?_, hfirst, hcancelled, ?_⟩
  · simp [State.result, hcollector, hcancelled, hfirst]
  · obtain ⟨units, drivers, rfl, -⟩ := State.start_eq_ok hstart
    rw [← hfirst, h.firstError_eq_head?_reports rfl]
  · exact h.mem_failures_of_pending (State.not_pending_of_start hstart) (.recorded hfirst)
  · rw [hcancelling.reported, hcancelled]
    rfl

end Course

/-- Let the tasks of an evaluation be indexed by their positions and answered under their own
indices, and let anything else fail at any time: starts, runs, answers, shutdowns, worker code. A
final state has outputs iff no failure was met. Otherwise its error is the head of `reports`, is
among the `failures` of the run, and one cancellation is reported. No evaluation is cancelled
without a first error, and one that is not cancelled has no empty slot. -/
theorem first_failure_decides {tasks : List Envelope} {options : Options} {start state : State}
    {moves : List Move} (hindices : ∀ i (h : i < tasks.length), tasks[i].index.toNat = i)
    (hstart : State.start tasks.length options = .ok start)
    (hcourse : Course (AnswersOwn tasks) start moves state) (hfinal : state.isFinal) :
    ((∃ outputs, state.result = .ok outputs) ↔ failures moves = []) ∧
      (∀ failure, state.result = .error failure → ∃ error, failure = .error error ∧
        (start.reports moves).head? = some error ∧ error ∈ failures moves ∧
        state.shared.log.countP isCancellation = 1) ∧
      (∀ outputs, state.result = .ok outputs → state.shared.log.countP isCancellation = 0) ∧
      (state.shared.cancelled = true → state.shared.firstError ≠ none) ∧
      (state.shared.cancelled = false → none ∉ state.slots) := by
  have hindexed := indexed_answersOwn hindices
  obtain ⟨hcollector, hjoined⟩ := hcourse.joined_of_isFinal hstart hindexed hfinal
  by_cases hnone : failures moves = []
  · obtain ⟨outputs, hslots, hresult, -⟩ := hcourse.exists_outputs hstart hindexed hnone hfinal
    have hcancelled := (hcourse.calm hstart hnone).cancelled
    have hreported : state.shared.log.countP isCancellation = 0 := by
      rw [(hcourse.cancelling (State.cancelling_of_start hstart)).reported, hcancelled]
      rfl
    rw [hresult, hslots, hcancelled]
    refine ⟨⟨fun _ => hnone, fun _ => ⟨outputs, rfl⟩⟩, ?_, fun _ _ => hreported, ?_, ?_⟩
    · intro failure h
      cases h
    · intro h
      cases h
    · intro _ hmem
      simp at hmem
  · obtain ⟨error, hresult, hhead, hmem, hfirst, hcancelled, hreported⟩ :=
      hcourse.result_of_failures hstart hcollector hjoined hnone
    rw [hresult, hcancelled, hfirst]
    refine ⟨⟨?_, fun h => absurd h hnone⟩, ?_, ?_, ?_, ?_⟩
    · rintro ⟨outputs, h⟩
      cases h
    · intro failure hfailure
      cases hfailure
      exact ⟨error, rfl, hhead, hmem, hreported⟩
    · intro outputs h
      cases h
    · intro _ h
      cases h
    · intro h
      cases h

/-- A task fails in worker 0, and worker 1 fails to shut down. The second failure is recorded before
the first one and is what the evaluation ends with. -/
theorem first_failure_decides_between_two :
    let tasks : List Envelope := [⟨0, "f", ⟨[]⟩, ⟨[]⟩⟩, ⟨1, "f", ⟨[]⟩, ⟨[]⟩⟩]
    let start := State.initial 2 [⟨0, 1⟩, ⟨1, 2⟩] 2
    let moves : List Move := [.driver 0 .launch, .driver 1 .launch, .driver 0 .launched,
      .driver 1 .launched, .driver 0 .look, .driver 0 .take, .driver 0 .start, .driver 1 .look,
      .driver 1 .take, .driver 1 .start, .driver 1 (.answer (.ok (.failed 1 .execution "broken"))),
      .driver 0 (.answer (.ok (.completed 0 ⟨[7]⟩))), .driver 0 .look, .driver 0 .take,
      .driver 0 .dismiss, .driver 0 (.closed (.error (.engine "stuck"))), .driver 0 .record,
      .driver 1 .record, .driver 0 .cancel, .driver 1 .terminated, .collect 1, .collect 0]
    let state : State :=
      ⟨⟨2, [], true, some (.engine "stuck"), 1,
          [.spawn 0, .spawn 1, .spawned 0, .spawned 1, .run 0 0, .run 1 1, .shutdown 0,
            .terminate 1], [.notice (.evaluationCancelled 1 2)]⟩,
        [⟨.joined, ⟨1, 1⟩, [(0, ⟨[7]⟩)]⟩, ⟨.joined, ⟨2, 2⟩, []⟩], [some ⟨[7]⟩, none], .idle⟩
    Course (AnswersOwn tasks) start moves state ∧ state.isFinal ∧
      failures moves = [.workerExecution 1 "broken", .engine "stuck"] ∧
      ∃ error, Failure.error (.engine "stuck") = .error error ∧
        (start.reports moves).head? = some error ∧ error ∈ failures moves ∧
        state.shared.log.countP isCancellation = 1 := by
  intro tasks start moves state
  have hindices : ∀ i (h : i < tasks.length), tasks[i].index.toNat = i := by decide
  have hstart : State.start 2 ⟨2, 1, false⟩ = .ok start := rfl
  have hcourse : Course (AnswersOwn tasks) start moves state := by
    -- both tasks run, and then both have been answered
    let running : State :=
      ⟨⟨2, [], false, none, 0, [.spawn 0, .spawn 1, .spawned 0, .spawned 1, .run 0 0, .run 1 1],
          []⟩, [⟨.running 0, ⟨1, 1⟩, []⟩, ⟨.running 1, ⟨2, 2⟩, []⟩], [none, none], .idle⟩
    let answered : State :=
      ⟨⟨2, [], false, none, 1, [.spawn 0, .spawn 1, .spawned 0, .spawned 1, .run 0 0, .run 1 1],
          []⟩, [⟨.ready, ⟨1, 1⟩, [(0, ⟨[7]⟩)]⟩,
            ⟨.recording (.workerExecution 1 "broken") .terminate, ⟨2, 2⟩, []⟩],
        [none, none], .idle⟩
    have hbegin : Course (AnswersOwn tasks) start (moves.take 10) running :=
      course_of_run?_eq_some rfl (by simp [moves, State.Permits, AnswersOwn])
    have hanswers : Course (AnswersOwn tasks) running ((moves.drop 10).take 2) answered := by
      refine .cons rfl ?_ (.cons rfl ?_ .nil)
      · rintro driver ⟨⟩ task ⟨⟩
        rfl
      · rintro driver ⟨⟩ task ⟨⟩
        rfl
    have hend : Course (AnswersOwn tasks) answered (moves.drop 12) state :=
      course_of_run?_eq_some rfl (by simp [moves, State.Permits, AnswersOwn])
    exact hbegin.append (hanswers.append hend)
  have hdecided := first_failure_decides hindices hstart hcourse rfl
  exact ⟨hcourse, rfl, rfl, hdecided.2.1 _ rfl⟩

end Fanout.Schedule

import Fanout.Proofs.Backend.Agreement
import Fanout.Proofs.Schedule.Progress
import Fanout.Proofs.Text

/-!
# The failure reported is close to the first one

Serially, a list of tasks fails at its first failing position. With several workers the reported
failure depends on the interleaving, but `reported_failure_near_serial` shows that it is the first
one of its unit, and that fewer earlier units contain a failing task than there are workers. So a
single worker reports what the serial backend reports.
-/

namespace Fanout

/-- Responses with the same error have the same index. -/
theorem Response.index_eq_of_output {a b : Response} {error : BackendError}
    (ha : a.output = .error error) (hb : b.output = .error error) : a.index = b.index := by
  cases a with
  | completed => cases ha
  | failed i kind message =>
    cases b with
    | completed => cases hb
    | failed j kind' message' =>
      have h := ha.trans hb.symm
      refine UInt64.toNat_inj.mp ?_
      cases kind with
      | transfer =>
        cases kind' with
        | transfer =>
          -- the subject of a transfer error ends with the decimal of the index
          have hdigits := congrArg String.toList
            (BackendError.transfer.inj (Except.error.inj h)).1
          simp only [String.toList_append, List.append_cancel_left_eq, Nat.toString_eq_repr,
            Nat.repr, String.toList_ofList] at hdigits
          exact Text.toDigits_inj hdigits
        | execution => cases h
      | execution =>
        cases kind' with
        | transfer => cases h
        | execution => exact (BackendError.workerExecution.inj (Except.error.inj h)).1

namespace Schedule

variable {tasks : List Envelope} {respond : Envelope → Response}

/-- `permits` for workers that always start and answer each task by `respond`. They may panic and
may fail to shut down. -/
def Responds (tasks : List Envelope) (respond : Envelope → Response) (_worker : Nat)
    (phase : Phase) (event : Event) : Prop :=
  match event, phase with
  | .refused _, _ => False
  | .answer result, .running position =>
    ∃ task, tasks[position]? = some task ∧ result = .ok (respond task)
  | _, _ => True

/-- Whether `respond` answers the task at `position` with a failure. -/
def failsAt (respond : Envelope → Response) (tasks : List Envelope) (position : Nat) : Bool :=
  tasks[position]?.any fun task => (respond task).payload?.isNone

/-- Whether `failsAt` holds of a position of `unit`. -/
def hasFailure (respond : Envelope → Response) (tasks : List Envelope) (unit : Span) : Bool :=
  unit.toList.any (failsAt respond tasks)

theorem failsAt_eq_false_of_mayComplete {position : Nat}
    (h : MayComplete (Responds tasks respond) position) :
    failsAt respond tasks position = false := by
  obtain ⟨id, result, output, ⟨task, htask, rfl⟩, houtput⟩ := h
  have houtput : (respond task).output = .ok output := houtput
  rw [failsAt, htask]
  cases hresponse : respond task with
  | completed => simp [hresponse, Response.payload?]
  | failed index kind message => cases kind <;> simp [hresponse, Response.output] at houtput

theorem exists_task_of_mayFail {position : Nat} {error : BackendError}
    (h : MayFail (Responds tasks respond) position error) :
    ∃ task, tasks[position]? = some task ∧ (respond task).output = .error error := by
  obtain ⟨id, result, ⟨task, htask, rfl⟩, herror⟩ := h
  exact ⟨task, htask, herror⟩

theorem failsAt_eq_true {position : Nat} {error : BackendError} (h : position < tasks.length)
    (herror : (respond tasks[position]).output = .error error) :
    failsAt respond tasks position = true := by
  rw [failsAt, List.getElem?_eq_getElem h]
  simp [Response.payload?_eq_none herror]

/-- A unit that `hasFailure` cannot be completed. -/
theorem not_mayComplete_of_hasFailure {unit : Span} (h : hasFailure respond tasks unit) :
    ¬ ∀ j ∈ unit.toList, MayComplete (Responds tasks respond) j := by
  intro hall
  obtain ⟨j, hj, hfails⟩ := List.any_eq_true.mp h
  rw [failsAt_eq_false_of_mayComplete (hall j hj)] at hfails
  cases hfails

namespace State

theorem exists_engine_of_outputsFrom {slots : List (Option Payload)} {n : Nat}
    {error : BackendError} (h : outputsFrom n slots = .error error) :
    ∃ reason, error = .engine reason := by
  induction slots generalizing n with
  | nil => cases h
  | cons slot slots ih =>
    cases slot with
    | none =>
      cases h
      exact ⟨_, rfl⟩
    | some output =>
      rcases Traversal.bind_eq_error_iff.mp h with h | ⟨outputs, -, h⟩
      · exact ih h
      · cases h

/-- An error that an evaluation returns is its first error, unless it is `BackendError.engine`. -/
theorem firstError_of_result {state : State} {error : BackendError}
    (h : state.result = .error (.error error)) (hengine : ∀ reason, error ≠ .engine reason) :
    state.shared.firstError = some error := by
  unfold result at h
  split at h
  · cases h
  · split at h
    · cases hfirst : state.shared.firstError with
      | none =>
        rw [hfirst] at h
        cases h
        exact absurd rfl (hengine _)
      | some first =>
        rw [hfirst] at h
        cases h
        rfl
    · obtain ⟨error', houtputs, h⟩ := Traversal.mapError_eq_error_iff.mp h
      cases h
      obtain ⟨reason, rfl⟩ := exists_engine_of_outputsFrom houtputs
      exact absurd rfl (hengine reason)

end State

namespace Course

variable {permits : Nat → Phase → Event → Prop} {start state : State} {moves : List Move}
  {options : Options} {error : BackendError}

/-- Every event of a driver in a course was allowed in some phase. -/
theorem exists_permits (h : Course permits start moves state) {id : Nat} {event : Event}
    (hmem : .driver id event ∈ moves) : ∃ phase, permits id phase event := by
  induction h with
  | nil => cases hmem
  | concat before hstep hpermits ih =>
    rcases List.mem_append.mp hmem with hmem | hmem
    · exact ih hmem
    · obtain rfl := List.mem_singleton.mp hmem
      cases State.step_of_step? hstep with
      | driver _ _ driver _ _ _ hget => exact ⟨driver.phase, hpermits driver hget⟩

/-- A returned error that is neither `BackendError.engine` nor that of a shutdown is that of an
answer to a task. -/
theorem exists_answer_of_result (h : Course (Responds tasks respond) start moves state)
    (hstart : State.start tasks.length options = .ok start)
    (hresult : state.result = .error (.error error))
    (hshutdown : ∀ id, .driver id (.closed (.error error)) ∉ moves) {response : Response}
    (hfailure : response.output = .error error) :
    ∃ id result, .driver id (.answer result) ∈ moves ∧
      result.bind Response.output = .error error := by
  -- no response stands for an error of the engine itself
  have hengine (reason : String) : error ≠ .engine reason := by
    rintro rfl
    cases response with
    | completed => cases hfailure
    | failed _ kind => cases kind <;> cases hfailure
  have hfirst := State.firstError_of_result hresult hengine
  have hmet := h.mem_failures_of_pending (State.not_pending_of_start hstart) (.recorded hfirst)
  obtain ⟨move, hmem, hmove⟩ := List.mem_filterMap.mp hmet
  cases move with
  | driver id event =>
    cases event with
    | answer result =>
      refine ⟨id, result, hmem, ?_⟩
      cases hbind : result.bind Response.output with
      | ok output => simp [Move.failure?, Event.failure?, hbind] at hmove
      | error error' => simpa [Move.failure?, Event.failure?, hbind] using hmove
    | refused error' =>
      obtain ⟨phase, hrefused⟩ := h.exists_permits hmem
      exact hrefused.elim
    | closed result =>
      cases result with
      | ok => cases hmove
      | error error' =>
        cases hmove
        exact absurd hmem (hshutdown id)
    | crash message =>
      cases hmove
      exact absurd rfl (hengine _)
    | _ => cases hmove
  | _ => cases hmove

end Course

/-- If no unit before `unit` has a failure, no position before the failing one fails. -/
theorem failsAt_eq_false_of_lt {before after : List Span} {unit : Span}
    (hunits : Consecutive 0 (before ++ unit :: after) tasks.length) {i : Nat}
    (hi : i ∈ unit.toList) (hunit : ∀ j ∈ unit.toList, j < i → failsAt respond tasks j = false)
    (hbefore : ∀ other ∈ before, hasFailure respond tasks other = false) {j : Nat} (hj : j < i) :
    failsAt respond tasks j = false := by
  have hbounds := hunits.bounds (List.mem_append_right _ List.mem_cons_self)
  have hlt := (Span.mem_toList_iff.mp hi).2
  -- every position is in one of the units, and this one cannot be in a later one
  have hmem : j ∈ (before ++ unit :: after).flatMap Span.toList := by
    rw [hunits.flatMap_toList]
    exact List.mem_range'_1.mpr ⟨Nat.zero_le j, by omega⟩
  obtain ⟨other, hother, hj'⟩ := List.mem_flatMap.mp hmem
  rcases List.mem_append.mp hother with hother | hother
  · have hnone := hbefore other hother
    rw [hasFailure, List.any_eq_false] at hnone
    exact Bool.eq_false_iff.mpr (hnone j hj')
  · rcases List.mem_cons.mp hother with rfl | hother
    · exact hunit j hj' hj
    · have hpairwise := (List.pairwise_append.mp hunits.pairwise).2.1
      have hstop := (List.pairwise_cons.mp hpairwise).1 other hother
      have hstart := (Span.mem_toList_iff.mp hj').1
      omega

/-- `applySerially` reports the first computation that fails. -/
theorem applySerially_of_failsAt {f : WorkFunction} {state : f.State} {inputs : List f.Input}
    (hlength : inputs.length = tasks.length)
    (hcalls : ∀ j (h : j < inputs.length),
      (∃ message, f.callCaught state inputs[j] = .error message) ↔ failsAt respond tasks j)
    {i : Nat} (hi : i < tasks.length) (hfails : failsAt respond tasks i = true)
    (hbefore : ∀ j < i, failsAt respond tasks j = false) :
    ∃ message, Backend.applySerially f state inputs =
      .error (.error (.workerExecution i message)) := by
  obtain ⟨message, hmessage⟩ := (hcalls i (hlength ▸ hi)).mpr hfails
  refine ⟨message, Backend.applySerially_eq_error_iff.mpr
    ⟨i, hlength ▸ hi, message, hmessage, rfl, fun j hj hlt => ?_⟩⟩
  cases hcall : f.callCaught state inputs[j] with
  | ok output => exact ⟨output, rfl⟩
  | error message' =>
    have hfails := (hcalls j hj).mp ⟨message', hcall⟩
    rw [hbefore j hlt] at hfails
    cases hfails

/-- Let the workers always start and answer each task by `respond`, under its index, which is its
position. If the evaluation returns the failure of position `i`, no earlier position of its unit
fails, and fewer units before it have a failure than there are drivers. So with a single driver `i`
is the first position that fails, which is the one `applySerially` reports. -/
theorem reported_failure_near_serial {options : Options} {start state : State} {moves : List Move}
    {error : BackendError} {i : Nat}
    (hindices : ∀ i (h : i < tasks.length), tasks[i].index.toNat = i)
    (hown : ∀ task ∈ tasks, (respond task).index = task.index)
    (hstart : State.start tasks.length options = .ok start)
    (hcourse : Course (Responds tasks respond) start moves state)
    (hresult : state.result = .error (.error error))
    (hshutdown : ∀ id, .driver id (.closed (.error error)) ∉ moves)
    (hi : i < tasks.length) (hfailure : (respond tasks[i]).output = .error error) :
    ∃ before unit after, start.shared.queue = before ++ unit :: after ∧ i ∈ unit.toList ∧
      (∀ j ∈ unit.toList, j < i → failsAt respond tasks j = false) ∧
      before.countP (hasFailure respond tasks) ≤ start.drivers.length - 1 ∧
      (start.drivers.length = 1 → (∀ j < i, failsAt respond tasks j = false) ∧
        ∀ (f : WorkFunction) (state : f.State) (inputs : List f.Input),
          inputs.length = tasks.length →
          (∀ j (h : j < inputs.length),
            (∃ message, f.callCaught state inputs[j] = .error message) ↔
              failsAt respond tasks j) →
          ∃ message, Backend.applySerially f state inputs =
            .error (.error (.workerExecution i message))) := by
  obtain ⟨id, result, hmem, hanswer⟩ :=
    hcourse.exists_answer_of_result hstart hresult hshutdown hfailure
  obtain ⟨unit, hunit, position, hmay, hreached⟩ :=
    hcourse.reached_of_answer hstart hmem hanswer
  -- the error names the index of the task, so it is the task at this position
  obtain rfl : position = i := by
    obtain ⟨task, htask, houtput⟩ := exists_task_of_mayFail hmay
    obtain ⟨hlt, rfl⟩ := List.getElem?_eq_some_iff.mp htask
    have hindex := Response.index_eq_of_output houtput hfailure
    rw [hown _ (List.getElem_mem hlt), hown _ (List.getElem_mem hi)] at hindex
    rw [← hindices position hlt, hindex, hindices i hi]
  have hin : position ∈ unit.toList :=
    Span.mem_toList_iff.mpr ⟨hreached.start_le, hreached.lt_stop⟩
  have hfails := failsAt_eq_true hi hfailure
  have hearlier (j : Nat) (hj : j ∈ unit.toList) (hlt : j < position) :
      failsAt respond tasks j = false :=
    failsAt_eq_false_of_mayComplete (hreached.before j (Span.mem_toList_iff.mp hj).1 hlt)
  -- all units before it have been taken as well, and each one with a failing task holds a driver
  obtain ⟨before, later, htaken⟩ := List.append_of_mem hunit
  have hqueue := hcourse.takenUnits_append_queue
  rw [htaken, List.append_assoc, List.cons_append] at hqueue
  have hcount : before.countP (hasFailure respond tasks) ≤ start.drivers.length - 1 := by
    have hle : (start.takenUnits moves).countP (hasFailure respond tasks) ≤ start.drivers.length :=
      hcourse.countP_takenUnits_le hstart fun _ => not_mayComplete_of_hasFailure
    have hself : hasFailure respond tasks unit = true :=
      List.any_eq_true.mpr ⟨position, hin, hfails⟩
    rw [htaken, List.countP_append, List.countP_cons_of_pos hself] at hle
    omega
  refine ⟨before, unit, later ++ state.shared.queue, hqueue.symm, hin, hearlier, hcount, ?_⟩
  intro hone
  have hbefore : ∀ j < position, failsAt respond tasks j = false := by
    rw [hone, Nat.le_zero, List.countP_eq_zero] at hcount
    have hunits : Consecutive 0 (before ++ unit :: (later ++ state.shared.queue)) tasks.length := by
      obtain ⟨units, drivers, rfl, hunits, -⟩ := State.start_eq_ok hstart
      rw [hqueue]
      exact hunits
    exact fun j => failsAt_eq_false_of_lt hunits hin hearlier
      fun other hother => Bool.eq_false_iff.mpr (hcount other hother)
  exact ⟨hbefore, fun f s inputs hlength hcalls =>
    applySerially_of_failsAt hlength hcalls hi hfails hbefore⟩

/-- Two workers fail on a task each, and the failure of the second task is recorded first. One unit
before it has a failure, and there are two drivers. -/
theorem reported_failure_near_serial_second :
    let tasks : List Envelope := [⟨0, "f", ⟨[]⟩, ⟨[]⟩⟩, ⟨1, "f", ⟨[]⟩, ⟨[]⟩⟩]
    let respond (task : Envelope) : Response := .failed task.index .execution "broken"
    let start := State.initial 2 [⟨0, 1⟩, ⟨1, 2⟩] 2
    let moves : List Move := [.driver 0 .launch, .driver 1 .launch, .driver 0 .launched,
      .driver 1 .launched, .driver 0 .look, .driver 0 .take, .driver 0 .start, .driver 1 .look,
      .driver 1 .take, .driver 1 .start, .driver 0 (.answer (.ok (.failed 0 .execution "broken"))),
      .driver 1 (.answer (.ok (.failed 1 .execution "broken"))), .driver 1 .record,
      .driver 0 .record, .driver 1 .cancel, .driver 1 .terminated, .driver 0 .terminated,
      .collect 1, .collect 0]
    let state : State :=
      ⟨⟨2, [], true, some (.workerExecution 1 "broken"), 0,
          [.spawn 0, .spawn 1, .spawned 0, .spawned 1, .run 0 0, .run 1 1, .terminate 0,
            .terminate 1], [.notice (.evaluationCancelled 0 2)]⟩,
        [⟨.joined, ⟨1, 1⟩, []⟩, ⟨.joined, ⟨2, 2⟩, []⟩], [none, none], .idle⟩
    Course (Responds tasks respond) start moves state ∧ state.isFinal ∧
      state.result = .error (.error (.workerExecution 1 "broken")) ∧
      ∃ before unit after, [⟨0, 1⟩, ⟨1, 2⟩] = before ++ unit :: after ∧ 1 ∈ unit.toList ∧
        before.countP (hasFailure respond tasks) ≤ 1 := by
  intro tasks respond start moves state
  have hstart : State.start 2 ⟨2, 1, false⟩ = .ok start := rfl
  have hcourse : Course (Responds tasks respond) start moves state := by
    -- both tasks run, and then both have been answered
    let running : State :=
      ⟨⟨2, [], false, none, 0, [.spawn 0, .spawn 1, .spawned 0, .spawned 1, .run 0 0, .run 1 1],
          []⟩, [⟨.running 0, ⟨1, 1⟩, []⟩, ⟨.running 1, ⟨2, 2⟩, []⟩], [none, none], .idle⟩
    let answered : State :=
      { running with drivers := [⟨.recording (.workerExecution 0 "broken") .terminate, ⟨1, 1⟩, []⟩,
        ⟨.recording (.workerExecution 1 "broken") .terminate, ⟨2, 2⟩, []⟩] }
    have hbegin : Course (Responds tasks respond) start (moves.take 10) running :=
      course_of_run?_eq_some rfl (by simp [moves, State.Permits, Responds])
    have hanswers : Course (Responds tasks respond) running ((moves.drop 10).take 2) answered := by
      refine .cons rfl ?_ (.cons rfl ?_ .nil)
      · rintro driver ⟨⟩
        exact ⟨_, rfl, rfl⟩
      · rintro driver ⟨⟩
        exact ⟨_, rfl, rfl⟩
    have hend : Course (Responds tasks respond) answered (moves.drop 12) state :=
      course_of_run?_eq_some rfl (by simp [moves, State.Permits, Responds])
    exact hbegin.append (hanswers.append hend)
  obtain ⟨before, unit, after, hqueue, hin, -, hcount, -⟩ :=
    @reported_failure_near_serial tasks respond _ start state moves _ 1 (by decide)
      (fun _ _ => rfl) hstart hcourse rfl (by simp [moves]) (by decide) rfl
  exact ⟨hcourse, rfl, rfl, before, unit, after, hqueue, hin, hcount⟩

end Schedule

end Fanout

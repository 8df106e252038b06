import Fanout.Proofs.Schedule.Completion
import Fanout.Proofs.Schedule.Lifecycle

/-!
# Outputs without a slot

The collector puts each output into the slot of the index that its answer carries, without checking
the index. `faults_iff_index_out_of_range` gives the consequence for tasks with arbitrary indices:
the evaluation ends with a fault iff a completed answer carries an index that is not below the
number of tasks, and in this case a recorded failure is not reported.
-/

namespace Fanout.Schedule

namespace State

variable {slots slots' : List (Option Payload)} {outputs : List (UInt64 × Payload)}

/-- If `place` succeeds, the index of each output is below the number of slots. -/
theorem lt_length_of_place (h : place slots outputs = .ok slots') {output : UInt64 × Payload}
    (hmem : output ∈ outputs) : output.1.toNat < slots.length := by
  obtain ⟨payload, hslot⟩ := exists_getElem?_place h (.inr ⟨output, hmem, rfl⟩)
  rw [← length_place h]
  exact (List.getElem?_eq_some_iff.mp hslot).1

/-- If `place` fails, the index of one of the outputs is not below the number of slots, and the
fault names it. -/
theorem exists_of_place_eq_error {fault : Fault} (h : place slots outputs = .error fault) :
    ∃ output ∈ outputs, slots.length ≤ output.1.toNat ∧
      fault = .indexOutOfBounds slots.length output.1.toNat := by
  induction outputs generalizing slots with
  | nil => cases h
  | cons output outputs ih =>
    rw [place] at h
    split at h
    · obtain ⟨other, hmem, hother⟩ := ih h
      rw [List.length_set] at hother
      exact ⟨other, List.mem_cons_of_mem _ hmem, hother⟩
    · rename_i hlt
      cases h
      exact ⟨output, List.mem_cons_self, Nat.le_of_not_lt hlt, rfl⟩

/-- The collector has faulted over an index that is out of range, or all outputs of joined drivers
have slots. -/
structure Stowed (state : State) : Prop where
  collector : state.collector = .idle ∨ ∃ output ∈ state.received,
    state.slots.length ≤ output.1.toNat ∧
      state.collector = .faulted (.indexOutOfBounds state.slots.length output.1.toNat)
  slots : state.collector = .idle → ∀ driver ∈ state.drivers, driver.phase = .joined →
    ∀ output ∈ driver.outputs, output.1.toNat < state.slots.length

variable {state next : State} {move : Move}

/-- `State.Step` keeps `State.Stowed` as long as no driver has panicked. -/
theorem Step.stowed (h : Step state move next)
    (hsound : ∀ driver ∈ state.drivers, ∀ message, driver.phase ≠ .panicked message)
    (hs : state.Stowed) : next.Stowed := by
  cases h with
  | driver id event driver driver' shared' hcollector hget hstep =>
    have hidle : state.collector = .idle := by
      rcases hs.collector with h | ⟨output, -, -, h⟩
      · exact h
      · exact absurd h (hcollector _)
    refine ⟨.inl hidle, fun _ other hother hphase => ?_⟩
    rcases List.mem_or_eq_of_mem_set hother with hother | rfl
    · exact hs.slots hidle other hother hphase
    · exact absurd hphase hstep.phase_ne_joined
  | collect id driver slots hcollector hget _ hplace =>
    refine ⟨.inl hcollector, fun _ other hother hphase => ?_⟩
    rw [length_place hplace]
    rcases List.mem_or_eq_of_mem_set hother with hother | rfl
    · exact hs.slots hcollector other hother hphase
    · exact fun output houtput => lt_length_of_place hplace houtput
  | overrun id driver fault hcollector hget _ hplace =>
    obtain ⟨output, houtput, hle, rfl⟩ := exists_of_place_eq_error hplace
    refine ⟨.inr ⟨output, ?_, hle, rfl⟩, fun hidle => by cases hidle⟩
    have hlt := (List.getElem?_eq_some_iff.mp hget).1
    exact List.mem_flatMap.mpr ⟨_, List.mem_set hlt _, houtput⟩
  | lose id driver message _ hget hphase =>
    exact absurd hphase (hsound driver (List.mem_of_getElem? hget) message)
  | recordFirst _ hcollector | recordLater _ hcollector | cancel hcollector =>
    -- only a panic would have given the collector anything to record
    rcases hs.collector with h | ⟨output, -, -, h⟩ <;> rw [hcollector] at h <;> cases h

end State

namespace Course

variable {permits : Nat → Phase → Event → Prop} {start state : State} {moves : List Move}
  {tasks : Nat} {options : Options}

theorem phase_ne_panicked (h : Course Sound start moves state)
    (hstart : State.start tasks options = .ok start) {driver : Driver}
    (hmem : driver ∈ state.drivers) (message : String) : driver.phase ≠ .panicked message := by
  intro hphase
  obtain ⟨id, hget⟩ := List.mem_iff_getElem?.mp hmem
  obtain ⟨standing, -, hfits⟩ := h.living hstart id driver hget
  rw [hphase] at hfits
  exact hfits

/-- A course without panics keeps `State.Stowed`. -/
theorem stowed (h : Course Sound start moves state)
    (hstart : State.start tasks options = .ok start) : state.Stowed := by
  induction h with
  | nil =>
    obtain ⟨units, drivers, rfl, -⟩ := State.start_eq_ok hstart
    refine ⟨.inl rfl, fun _ driver hmem hphase => ?_⟩
    rw [List.eq_of_mem_replicate hmem] at hphase
    cases hphase
  | concat before hstep _ ih =>
    exact (State.step_of_step? hstep).stowed (fun _ hmem => before.phase_ne_panicked hstart hmem) ih

end Course

/-- Let the tasks of an evaluation have any indices, and let the workers answer each task under its
own index and fail, but not panic. The evaluation ends with a fault iff a completed answer has an
index that is not below the number of tasks, and the fault names such an index. Without such an
answer, an evaluation with a failure ends with its first error. -/
theorem faults_iff_index_out_of_range {tasks : List Envelope} {options : Options}
    {start state : State} {moves : List Move}
    (hstart : State.start tasks.length options = .ok start)
    (hcourse : Course (fun id phase event => AnswersOwn tasks id phase event ∧ Sound id phase event)
      start moves state)
    (hfinal : state.isFinal) :
    ((∃ fault, state.result = .error (.fault fault)) ↔
      ∃ index ∈ answerIndices moves, tasks.length ≤ index) ∧
    (∀ fault, state.result = .error (.fault fault) →
      ∃ task ∈ tasks, task.index.toNat ∈ answerIndices moves ∧ tasks.length ≤ task.index.toNat ∧
        fault = .indexOutOfBounds tasks.length task.index.toNat) ∧
    ((∀ index ∈ answerIndices moves, index < tasks.length) → failures moves ≠ [] →
      ∃ error, state.result = .error (.error error) ∧
        (start.reports moves).head? = some error) := by
  have hstowed := (hcourse.mono fun _ _ _ h => h.2).stowed hstart
  have hsourced := (hcourse.mono fun _ _ _ h => h.1).sourced hstart
  have hreceived := hcourse.received_perm hstart
  -- a fault is about an output that some driver has received
  have hfault (fault : Fault) (h : state.result = .error (.fault fault)) :
      ∃ output ∈ state.received, tasks.length ≤ output.1.toNat ∧
        fault = .indexOutOfBounds tasks.length output.1.toNat := by
    have hcollector := State.collector_of_result h
    rcases hstowed.collector with hidle | ⟨output, hmem, hle, hfaulted⟩
    · rw [hcollector] at hidle
      cases hidle
    · rw [hcollector] at hfaulted
      rw [hsourced.length] at hle hfaulted
      exact ⟨output, hmem, hle, Collector.faulted.inj hfaulted⟩
  refine ⟨⟨?_, ?_⟩, ?_, ?_⟩
  · rintro ⟨fault, h⟩
    obtain ⟨output, hmem, hle, -⟩ := hfault fault h
    exact ⟨_, List.mem_map_of_mem (hreceived.mem_iff.mp hmem), hle⟩
  · rintro ⟨index, hmem, hle⟩
    obtain ⟨output, houtput, rfl⟩ := List.mem_map.mp hmem
    rcases State.isFinal_iff.mp hfinal with ⟨fault, hcollector⟩ | ⟨hcollector, hjoined⟩
    · exact ⟨fault, by rw [State.result, hcollector]⟩
    -- otherwise the driver that received the output was collected, and had a slot for it
    · obtain ⟨driver, hdriver, hreceived⟩ :=
        List.mem_flatMap.mp (hreceived.mem_iff.mpr houtput)
      have hlt := hstowed.slots hcollector driver hdriver (hjoined driver hdriver) output hreceived
      rw [hsourced.length] at hlt
      exact absurd hle (Nat.not_le.mpr hlt)
  · intro fault h
    obtain ⟨output, hmem, hle, rfl⟩ := hfault fault h
    -- the worker that gave it as an answer did so under the index of its task
    obtain ⟨driver, hdriver, houtput⟩ := List.mem_flatMap.mp hmem
    obtain ⟨id, position, hlt, hanswer⟩ := hsourced.outputs driver hdriver output houtput
    have hindex : output.1 = tasks[position].index := hanswer _ (List.getElem?_eq_getElem hlt)
    rw [hindex] at hle
    refine ⟨tasks[position], List.getElem_mem hlt, ?_, hle, by rw [hindex]⟩
    rw [← hindex]
    exact List.mem_map_of_mem (hreceived.mem_iff.mp hmem)
  · intro hbound hne
    rcases State.isFinal_iff.mp hfinal with ⟨fault, hcollector⟩ | ⟨hcollector, hjoined⟩
    · obtain ⟨output, hmem, hle, -⟩ := hfault fault (by rw [State.result, hcollector])
      have hlt := hbound _ (List.mem_map_of_mem (hreceived.mem_iff.mp hmem))
      exact absurd hle (Nat.not_le.mpr hlt)
    · obtain ⟨error, hresult, hhead, -⟩ :=
        hcourse.result_of_failures hstart hcollector hjoined hne
      exact ⟨error, hresult, hhead⟩

/-- A response under the index of all tasks is one that `AnswersOwn` allows. -/
theorem answersOwn_of_forall_mem {tasks : List Envelope} {response : Response}
    (h : ∀ task ∈ tasks, response.index = task.index) (id : Nat) (phase : Phase) :
    AnswersOwn tasks id phase (.answer (.ok response)) := by
  cases phase with
  | running position => exact fun task hget => h task (List.mem_of_getElem? hget)
  | _ => trivial

/-- Two tasks have index 7. The first one is completed and the second one fails, and its failure is
the first error; the evaluation still ends with the fault. -/
theorem faults_iff_index_out_of_range_after_failure :
    let tasks : List Envelope := List.replicate 2 ⟨7, "f", ⟨[]⟩, ⟨[5]⟩⟩
    let start := State.initial 2 [⟨0, 1⟩, ⟨1, 2⟩] 1
    let moves : List Move := [.driver 0 .launch, .driver 0 .launched, .driver 0 .look,
      .driver 0 .take, .driver 0 .start, .driver 0 (.answer (.ok (.completed 7 ⟨[5]⟩))),
      .driver 0 .look, .driver 0 .take, .driver 0 .start,
      .driver 0 (.answer (.ok (.failed 7 .execution "broken"))), .driver 0 .record,
      .driver 0 .cancel, .driver 0 .terminated, .collect 0]
    let state : State :=
      ⟨⟨2, [], true, some (.workerExecution 7 "broken"), 1,
          [.spawn 0, .spawned 0, .run 0 0, .run 0 1, .terminate 0],
          [.notice (.evaluationCancelled 1 2)]⟩,
        [⟨.joined, ⟨2, 2⟩, [(7, ⟨[5]⟩)]⟩], [none, none], .faulted (.indexOutOfBounds 2 7)⟩
    start.run? moves = some state ∧ state.isFinal ∧
      (∃ index ∈ answerIndices moves, tasks.length ≤ index) ∧
      ∃ task ∈ tasks, Fault.indexOutOfBounds 2 7 = .indexOutOfBounds 2 task.index.toNat := by
  intro tasks start moves state
  have hstart : State.start 2 ⟨1, 1, false⟩ = .ok start := rfl
  have hrun : start.run? moves = some state := by cbv
  have hcourse : Course (fun id phase event => AnswersOwn tasks id phase event ∧
      Sound id phase event) start moves state := by
    refine course_of_run?_eq_some hrun fun move hmem state => ?_
    cases move with
    | driver id event =>
      intro driver _
      cases event with
      | answer result =>
        have hanswer : id = 0 ∧ result = .ok (.completed 7 ⟨[5]⟩) ∨
            id = 0 ∧ result = .ok (.failed 7 .execution "broken") := by simpa [moves] using hmem
        -- both answers carry the index that all tasks have
        obtain ⟨rfl, rfl⟩ | ⟨rfl, rfl⟩ := hanswer
        all_goals
          refine ⟨answersOwn_of_forall_mem (fun task hmem => ?_) .., fun _ h => by cases h⟩
          rw [List.eq_of_mem_replicate hmem]
          rfl
      | crash => simp [moves] at hmem
      | _ => exact ⟨trivial, fun _ h => by cases h⟩
    | collect | record | cancel => trivial
  obtain ⟨hfaults, hindex, -⟩ := @faults_iff_index_out_of_range tasks _ _ _ _ hstart hcourse rfl
  obtain ⟨task, hmem, -, -, hfault⟩ := hindex _ rfl
  exact ⟨hrun, rfl, hfaults.mp ⟨_, rfl⟩, task, hmem, hfault⟩

/-! ## A fault instead of an error -/

/-- Workers that hand every input back, and fail on a task of index 1. -/
def fragileCrew : Crew Nat where
  spawn worker := .value worker
  run worker task := (worker, .value
    (if task.index = 1 then .failed task.index .execution "broken"
      else .completed task.index task.input))
  shutdown _ := .value ()
  arrival _ := []
  departure _ _ := []
  delay _ := 0

/-- `evaluate` faults on a single task of index 7. It also faults on a task of index 7 before one of
index 1 that fails, although the first error is set and the cancellation after one completed task is
in the log. -/
theorem evaluate_faults_on_foreign_index :
    (evaluate fragileCrew [⟨7, "f", ⟨[]⟩, ⟨[5]⟩⟩] .standard).result =
        .error (.fault (.indexOutOfBounds 1 7)) ∧
      let outcome := evaluate fragileCrew [⟨7, "f", ⟨[]⟩, ⟨[5]⟩⟩, ⟨1, "f", ⟨[]⟩, ⟨[6]⟩⟩] .standard
      LogEntry.notice (.evaluationCancelled 1 2) ∈ outcome.log ∧
        outcome.result = .error (.fault (.indexOutOfBounds 2 7)) := by
  have hone := @evaluate_of_completeWithin _ fragileCrew [⟨7, "f", ⟨[]⟩, ⟨[5]⟩⟩] .standard _
    ⟨.error (.fault (.indexOutOfBounds 1 7)), [.spawn 0, .spawned 0, .run 0 0, .shutdown 0], []⟩ 20
    (List.cons_ne_nil _ _) rfl rfl
  have htwo := @evaluate_of_completeWithin _ fragileCrew
    [⟨7, "f", ⟨[]⟩, ⟨[5]⟩⟩, ⟨1, "f", ⟨[]⟩, ⟨[6]⟩⟩] .standard _
    ⟨.error (.fault (.indexOutOfBounds 2 7)),
      [.spawn 0, .spawned 0, .run 0 0, .run 0 1, .terminate 0],
      [.notice (.evaluationCancelled 1 2)]⟩ 20 (List.cons_ne_nil _ _) rfl rfl
  exact ⟨hone.1, htwo.2 _ List.mem_cons_self, htwo.1⟩

end Fanout.Schedule

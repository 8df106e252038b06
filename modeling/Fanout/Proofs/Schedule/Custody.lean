import Fanout.Proofs.Schedule.Calm

/-!
# No task is lost or duplicated

`tasks_partitioned` partitions the positions of the tasks in every reachable state, whatever the
workers do: each position is queued, held by a live driver, started or abandoned, and none is
started twice. Units are taken in ascending order, each driver starts positions in ascending order,
and positions are abandoned only after a failure.
-/

namespace Fanout.Schedule

open Traversal

namespace State

variable {state : State}

/-- `State.held` and `State.abandoned` are the positions of `State.rests`. -/
theorem held_append_abandoned_perm (state : State) :
    (state.held ++ state.abandoned).Perm (state.rests.flatMap Span.toList) := by
  rw [held, abandoned, leftOver, leftOver, ← List.flatMap_append, rests, List.flatMap_map]
  exact (List.filter_append_perm _ _).flatMap_right _

/-- The positions of an `Accounted` state are queued, held, started and abandoned ones. -/
theorem Accounted.perm_range {tasks : Nat} (h : state.Accounted tasks) :
    (state.shared.queued ++ state.held ++ state.shared.started ++ state.abandoned).Perm
      (List.range tasks) := by
  refine List.perm_iff_count.mpr fun position => ?_
  have hcount := h.placed.count position
  have hrests := (held_append_abandoned_perm state).count_eq position
  rw [count_flatMap_eq_tally, List.count_append] at hrests
  simp only [List.count_append, Shared.queued, Shared.started]
  omega

/-- No position of an `Accounted` state was started twice. -/
theorem Accounted.nodup_started {tasks : Nat} (h : state.Accounted tasks) :
    state.shared.started.Nodup := by
  have hnodup := h.perm_range.nodup_iff.mpr List.nodup_range
  exact (List.nodup_append.mp (List.nodup_append.mp hnodup).1).2.1

/-- Each worker of an `Accounted` state has started its positions in ascending order. -/
theorem Accounted.startedBy_ascending {tasks : Nat} (h : state.Accounted tasks) (id : Nat) :
    (state.shared.startedBy id).Pairwise (· < ·) := by
  rw [Shared.startedBy, List.pairwise_map]
  refine (h.placed.own_ascending.filter _).imp_of_mem fun {a b} ha hb hlt => ?_
  have ha := (List.mem_filter.mp ha).2
  have hb := (List.mem_filter.mp hb).2
  simp only [decide_eq_true_eq] at ha hb
  exact hlt (ha.trans hb.symm)

/-- A `Calm` evaluation has abandoned nothing. -/
theorem Calm.abandoned_eq_nil (h : state.Calm) : state.abandoned = [] := by
  rw [abandoned, leftOver, List.flatMap_eq_nil_iff]
  intro driver hmem
  obtain ⟨hmem, hlive⟩ := List.mem_filter.mp hmem
  exact toList_eq_nil ((h.drivers driver hmem).done (by simpa using hlive)).2

end State

/-- In every state that an evaluation can reach, the queued, held, started and abandoned positions
are a permutation of the positions of the tasks. No position is started twice, units are taken and
each worker starts its positions in ascending order, and positions are abandoned only after a
failure. So an evaluation with outputs has started every task, once. -/
theorem tasks_partitioned {tasks : List Envelope} {options : Options} {start state : State}
    {moves : List Move} (hstart : State.start tasks.length options = .ok start)
    (hrun : start.run? moves = some state) :
    (state.shared.queued ++ state.held ++ state.shared.started ++ state.abandoned).Perm
        (List.range tasks.length) ∧
      state.shared.started.Nodup ∧
      start.takenUnits moves ++ state.shared.queue = start.shared.queue ∧
      start.shared.queue.Pairwise (fun a b => a.stop ≤ b.start) ∧
      (∀ id, (state.shared.startedBy id).Pairwise (· < ·)) ∧
      (state.abandoned ≠ [] → failures moves ≠ []) ∧
      (state.isFinal → ∀ outputs, state.result = .ok outputs →
        state.shared.started.Perm (List.range tasks.length)) := by
  have hcourse := course_iff_run?_eq_some.mpr hrun
  have hstarted := State.accounted_of_start hstart
  have haccounted := hcourse.accounted hstarted
  refine ⟨haccounted.perm_range, haccounted.nodup_started, hcourse.takenUnits_append_queue,
    hstarted.placed.ascending, haccounted.startedBy_ascending, ?_, ?_⟩
  · intro habandoned hnone
    exact habandoned (hcourse.calm hstart hnone).abandoned_eq_nil
  · intro hfinal outputs hresult
    have hcalm := hcourse.calm hstart (hcourse.failures_eq_nil hstart hfinal hresult)
    rcases State.isFinal_iff.mp hfinal with ⟨fault, hcollector⟩ | ⟨-, hjoined⟩
    · simp [State.result, hcollector] at hresult
    · exact hcourse.started_perm hstart hcalm hjoined

/-- A worker fails on the first of three tasks: the second one, in the same unit, is abandoned, and
the third one stays queued. -/
theorem tasks_partitioned_after_failure :
    let start := State.initial 3 [⟨0, 2⟩, ⟨2, 3⟩] 1
    let state : State :=
      ⟨⟨3, [⟨2, 3⟩], true, some (.engine "gone"), 0,
          [.spawn 0, .spawned 0, .run 0 0, .terminate 0], [.notice (.evaluationCancelled 0 3)]⟩,
        [⟨.terminating, ⟨1, 2⟩, []⟩], [none, none, none], .idle⟩
    start.run? [.driver 0 .launch, .driver 0 .launched, .driver 0 .look, .driver 0 .take,
        .driver 0 .start, .driver 0 (.answer (.error (.engine "gone"))), .driver 0 .record,
        .driver 0 .cancel] = some state ∧
      state.shared.queued = [2] ∧ state.shared.started = [0] ∧ state.abandoned = [1] ∧
      (state.shared.queued ++ state.held ++ state.shared.started ++ state.abandoned).Perm
        (List.range 3) := by
  intro start state
  have hstart : State.start (List.replicate 3 (⟨0, "f", ⟨[]⟩, ⟨[]⟩⟩ : Envelope)).length
      ⟨1, 2, false⟩ = .ok start := rfl
  have hrun : start.run? [.driver 0 .launch, .driver 0 .launched, .driver 0 .look,
      .driver 0 .take, .driver 0 .start, .driver 0 (.answer (.error (.engine "gone"))),
      .driver 0 .record, .driver 0 .cancel] = some state := rfl
  exact ⟨hrun, rfl, rfl, rfl, (tasks_partitioned hstart hrun).1⟩

end Fanout.Schedule

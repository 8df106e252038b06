import Fanout.Function.Builtin
import Fanout.Proofs.Function.Transfer
import Fanout.Proofs.Text
import Fanout.TaskGraph

/-!
# Task graphs keep their tasks

`TaskGraph.envelopes_ofTasks`: a graph built from a list of tasks returns these tasks. The key of a
task determines the name of the function and the position, whatever dashes and digits the name
contains (`DeferredTask.key_delayed_inj`), so keys within a graph are distinct
(`TaskGraph.lossless_and_keyed`).
-/

namespace Fanout

namespace DeferredTask

variable {function function' : String} {state state' input input' : Payload} {index index' : UInt64}

@[simp]
theorem index_delayed : (delayed function state index input).index = index := rfl

theorem toList_key_delayed :
    (delayed function state index input).key.toList =
      function.toList ++ '-' :: Nat.toDigits 10 index.toNat := by
  have hkey : (delayed function state index input).key =
      function ++ "-" ++ toString index.toNat := rfl
  simp [hkey]

/-- Tasks have the same key iff they have the same function and index. -/
theorem key_delayed_inj :
    (delayed function state index input).key = (delayed function' state' index' input').key ↔
      function = function' ∧ index = index' := by
  rw [← String.toList_inj, toList_key_delayed, toList_key_delayed, Text.numbered_inj,
    String.toList_inj, UInt64.toNat_inj]

end DeferredTask

namespace TaskGraph

variable {f : WorkFunction} {state : f.State} {inputs : List f.Input}

/-- The graph of `tasks`. -/
def ofTasks (function : String) (tasks : List Envelope) : TaskGraph :=
  ⟨function, tasks.map fun task => .delayed function task.state task.index task.input⟩

/-- `ofComputations` is `ofTasks` of the tasks that `encodeTasks` makes. -/
theorem ofComputations_eq :
    ofComputations f state inputs = (f.encodeTasks state inputs).map (ofTasks f.name) := by
  rw [ofComputations]
  cases f.encodeTasks state inputs with
  | error failure => rfl
  | ok tasks => rfl

/-- `ofComputations` fails iff `encodeTasks` does, with the same failure. -/
theorem ofComputations_eq_error_iff {failure : Failure} :
    ofComputations f state inputs = .error failure ↔
      f.encodeTasks state inputs = .error failure := by
  rw [ofComputations_eq, Traversal.map_eq_error_iff]

theorem ofComputations_eq_ok {tasks : List Envelope}
    (htasks : f.encodeTasks state inputs = .ok tasks) :
    ofComputations f state inputs = .ok (ofTasks f.name tasks) := by
  rw [ofComputations_eq, htasks]
  rfl

/-- `envelopes` inverts `ofTasks` on tasks with the name of the function. -/
theorem envelopes_ofTasks {function : String} {tasks : List Envelope}
    (h : ∀ task ∈ tasks, task.function = function) :
    (ofTasks function tasks).envelopes = tasks := by
  rw [envelopes, ofTasks, List.map_map]
  refine (List.map_congr_left fun task hmem => ?_).trans (List.map_id tasks)
  rw [← h task hmem]
  rfl

/-- Tasks with distinct indices have distinct keys. -/
theorem nodup_keys_ofTasks (function : String) {tasks : List Envelope}
    (h : (tasks.map Envelope.index).Nodup) : (ofTasks function tasks).keys.Nodup := by
  rw [keys, ofTasks, List.map_map]
  -- the function is the same for all, so the keys differ by the indices alone
  refine List.pairwise_map.mpr ((List.pairwise_map.mp h).imp fun hne hkey => hne ?_)
  exact (DeferredTask.key_delayed_inj.mp hkey).2

/-- The tasks that `encodeTasks` makes have distinct indices. -/
theorem nodup_index_of_encodeTasks {tasks : List Envelope}
    (htasks : f.encodeTasks state inputs = .ok tasks) (hlength : inputs.length ≤ wordLimit) :
    (tasks.map Envelope.index).Nodup := by
  refine List.pairwise_map.mpr (List.pairwise_iff_getElem.mpr fun i j hi hj hlt hindex => ?_)
  have hi' := WorkFunction.index_of_encodeTasks htasks hlength i hi
  have hj' := WorkFunction.index_of_encodeTasks htasks hlength j hj
  rw [hindex, hj'] at hi'
  exact Nat.ne_of_gt hlt hi'

/-- `ofComputations` fails as `encodeTasks` does. Otherwise the `envelopes` of the graph are the
tasks of `encodeTasks`, each at its position, and the keys are distinct. A key determines the name
of the function and the index, whatever the name. -/
theorem lossless_and_keyed (f : WorkFunction) (state : f.State) {inputs : List f.Input}
    (hlength : inputs.length ≤ wordLimit) :
    (∀ failure, ofComputations f state inputs = .error failure ↔
        f.encodeTasks state inputs = .error failure) ∧
      (∀ tasks, f.encodeTasks state inputs = .ok tasks →
        ∃ graph, ofComputations f state inputs = .ok graph ∧ graph.envelopes = tasks ∧
          (∀ i (h : i < graph.tasks.length), graph.tasks[i].index.toNat = i) ∧
          graph.keys.Nodup) ∧
      ∀ (function function' : String) (index index' : UInt64) (a a' b b' : Payload),
        (DeferredTask.delayed function a index b).key =
            (DeferredTask.delayed function' a' index' b').key ↔
          function = function' ∧ index = index' := by
  refine ⟨fun failure => ofComputations_eq_error_iff, ?_, ?_⟩
  · intro tasks htasks
    refine ⟨_, ofComputations_eq_ok htasks,
      envelopes_ofTasks (WorkFunction.function_of_encodeTasks htasks), ?_,
      nodup_keys_ofTasks f.name (nodup_index_of_encodeTasks htasks hlength)⟩
    intro i h
    have hi : i < tasks.length := by simpa [ofTasks] using h
    simpa [ofTasks] using WorkFunction.index_of_encodeTasks htasks hlength i hi
  · intro function function' index index' a a' b b'
    exact DeferredTask.key_delayed_inj

/-- The graph of three squares, and two tasks of functions of which one has a name like a key. -/
theorem lossless_and_keyed_of_squares :
    let inputs : List Int64 := [9, 8, 9]
    inputs.length ≤ wordLimit ∧
      (∃ tasks graph, Builtin.square.encodeTasks () inputs = .ok tasks ∧
        ofComputations Builtin.square () inputs = .ok graph ∧ graph.envelopes = tasks ∧
        graph.keys.Nodup) ∧
      ∀ a a' b b' : Payload,
        (DeferredTask.delayed "f" a 12 b).key ≠ (DeferredTask.delayed "f-1" a' 2 b').key := by
  intro inputs
  have hlength : inputs.length ≤ wordLimit := by decide
  obtain ⟨-, hgraph, hkeys⟩ := lossless_and_keyed Builtin.square () hlength
  refine ⟨hlength, ?_, fun a a' b b' hsame => ?_⟩
  · obtain ⟨graph, hbuilt, henvelopes, -, hnodup⟩ := hgraph _ rfl
    exact ⟨_, graph, rfl, hbuilt, henvelopes, hnodup⟩
  · have hname : "f" = "f-1" := ((hkeys "f" "f-1" 12 2 a a' b b').mp hsame).1
    exact absurd hname (by decide)

end TaskGraph

end Fanout

import Fanout.Backend.Apply
import Fanout.Proofs.Partition.ChunkSize
import Fanout.Proofs.Schedule.Independence
import Fanout.Proofs.TaskGraph

/-!
# Plans of applications

A backend other than the serial one first encodes the tasks. If this fails, the application ends
with the error (`Backend.value_plan_of_error`); otherwise the plan is an evaluation of the tasks
(`Backend.value_plan`, `Backend.exists_options`), and the result is that of `Evaluation.carryOut`
(`Backend.Plan.value_dispatch`).
-/

namespace Fanout

namespace Backend

variable {f : WorkFunction} {state : f.State} {inputs : List f.Input} {host : Host}

/-- The settings of a pool stay below `wordLimit`. -/
structure Fits (backend : Backend) : Prop where
  /-- A chunk size that is given. -/
  size : ∀ size command, backend.strategy = .processPool (some size) command → size < wordLimit
  /-- The number of chunks that the default size is based on. -/
  workers : ∀ command, backend.strategy = .processPool none command →
    backend.workerCount * Partition.chunksPerWorker < wordLimit

/-- `defaultChunkSize` succeeds with a size below `wordLimit`. -/
theorem exists_defaultChunkSize {length workers : Nat}
    (hworkers : workers * Partition.chunksPerWorker < wordLimit) (hpos : 0 < workers)
    (hlength : length < wordLimit) :
    ∃ size, Partition.defaultChunkSize length workers = .ok size ∧ size < wordLimit := by
  have hchunks : 4 * max workers 1 < wordLimit := by
    rw [Nat.max_eq_left hpos, Nat.mul_comm]
    exact hworkers
  exact ⟨_, Partition.defaultChunkSize_eq_ok hchunks, Partition.max_ceilDiv_lt (by omega) hlength⟩

theorem workerCount_pos (backend : Backend) : 0 < backend.workerCount := by
  have hpos := Int64.lt_iff_toInt_lt.mp backend.workers_pos
  have hzero : (0 : Int64).toInt = 0 := rfl
  rw [workerCount]
  omega

/-- `options` succeeds for a backend that `Fits`. -/
theorem exists_options {backend : Backend} (hfits : backend.Fits) {tasks : Nat}
    (htasks : tasks < listLimit) :
    ∃ options, backend.options tasks = .ok options ∧ options.chunkSize < wordLimit := by
  have htasks' : tasks < wordLimit := Nat.lt_trans htasks (by decide)
  have hsize : ∃ size, backend.chunkSizeFor tasks = .ok size ∧ size < wordLimit := by
    rw [chunkSizeFor]
    cases hstrategy : backend.strategy with
    | processPool chunkSize command =>
      cases chunkSize with
      | some size => exact ⟨size, rfl, hfits.size size command hstrategy⟩
      | none =>
        exact exists_defaultChunkSize (hfits.workers command hstrategy) backend.workerCount_pos
          htasks'
    | serial | taskGraph => exact ⟨1, rfl, by decide⟩
  obtain ⟨size, hsize, hlt⟩ := hsize
  rw [options, hsize]
  exact ⟨_, rfl, hlt⟩

/-- The plan for encoded tasks is `planTasks`. -/
theorem value_plan {backend : Backend} (hworkers : backend.strategy ≠ .serial)
    {tasks : List Envelope} (htasks : f.encodeTasks state inputs = .ok tasks) :
    (backend.plan host f state inputs).value = backend.planTasks host f tasks := by
  rw [plan]
  cases hstrategy : backend.strategy with
  | serial => exact absurd hstrategy hworkers
  | processPool chunkSize command =>
    dsimp only
    rw [htasks]
    rfl
  | taskGraph available command =>
    have henvelopes := TaskGraph.envelopes_ofTasks (WorkFunction.function_of_encodeTasks htasks)
    dsimp only
    rw [TaskGraph.ofComputations_eq_ok htasks]
    dsimp only
    rw [henvelopes]

/-- If the tasks cannot be encoded, the plan is the failure, and its log is empty. -/
theorem plan_of_error {backend : Backend} (hworkers : backend.strategy ≠ .serial)
    {failure : Failure} (htasks : f.encodeTasks state inputs = .error failure) :
    backend.plan host f state inputs = .silent (.settled (.error failure)) := by
  rw [plan]
  cases hstrategy : backend.strategy with
  | serial => exact absurd hstrategy hworkers
  | processPool chunkSize command =>
    dsimp only
    rw [htasks]
  | taskGraph available command =>
    dsimp only
    rw [TaskGraph.ofComputations_eq_error_iff.mpr htasks]

/-- If the tasks cannot be encoded, the plan is settled with the failure. -/
theorem value_plan_of_error {backend : Backend} (hworkers : backend.strategy ≠ .serial)
    {failure : Failure} (htasks : f.encodeTasks state inputs = .error failure) :
    (backend.plan host f state inputs).value = .settled (.error failure) := by
  rw [plan_of_error hworkers htasks]
  rfl

theorem value_apply (backend : Backend) :
    (backend.apply host f state inputs).value =
      ((backend.plan host f state inputs).value.carryOut host).value := rfl

/-- For a caller that may wait, the result of `dispatch` is that of `Evaluation.carryOut`,
decoded. -/
theorem Plan.value_dispatch {tasks : List Envelope} {options : Schedule.Options}
    {command : WorkerCommand} {start : Schedule.Evaluation (Link (host.program command).peer)}
    (hnested : host.nested = false) (hne : tasks ≠ [])
    (hstart : Schedule.Evaluation.start tasks options = .ok start) :
    ((dispatch command options tasks : Plan f).carryOut host).value =
      (start.carryOut (crew host command)).result.bind f.decodeOutputs := by
  rw [carryOut, Schedule.evaluateBlocking, hnested, Schedule.evaluate, if_neg (by simp),
    if_neg (by simpa using hne), hstart]

end Backend

end Fanout

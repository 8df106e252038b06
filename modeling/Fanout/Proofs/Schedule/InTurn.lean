import Fanout.Proofs.Schedule.Delivery
import Fanout.Schedule.Evaluate

/-!
# Tasks in turn

`Crew.inTurn` is the loop that a single worker goes through: it is started, runs the tasks one after
the other, and is shut down after the last one, or terminated after the first failure. If a call
never returns, the loop ends there. `inTurn_of_completes` and `inTurn_of_error` give its result by
the tasks that are completed. The definition mentions no queue, units or drivers.

The module also characterises the settings with a single driver (`length_drivers_eq_one_iff`), and
gives the slots of outputs that arrive in the order of their positions (`place_inOrder`).
-/

namespace Fanout

namespace Partition

/-- `chunkRanges` makes a single chunk iff the list is no longer than a chunk. -/
theorem length_chunkRanges_eq_one_iff {length chunkSize : Nat} {units : List Span}
    (h : chunkRanges length chunkSize = .ok units) (hpos : 0 < length) :
    units.length = 1 ↔ length ≤ max chunkSize 1 := by
  have hsize : 0 < max chunkSize 1 := by omega
  have hlength := length_chunkRanges h
  -- the first chunk begins inside the list, and the second one does if there is more
  have hfirst : 0 < ceilDiv length (max chunkSize 1) ↔ 0 * max chunkSize 1 < length :=
    lt_ceilDiv_iff hsize
  have hsecond : 1 < ceilDiv length (max chunkSize 1) ↔ 1 * max chunkSize 1 < length :=
    lt_ceilDiv_iff hsize
  omega

end Partition

namespace Schedule

/-- An evaluation has a single driver iff `options.workers` is at most one, or the pool is not fixed
and all tasks are in one unit. -/
theorem State.length_drivers_eq_one_iff {tasks : Nat} {options : Options} {start : State}
    (h : State.start tasks options = .ok start) (hpos : 0 < tasks) :
    start.drivers.length = 1 ↔
      options.workers ≤ 1 ∨ options.fixedPool = false ∧ tasks ≤ max options.chunkSize 1 := by
  obtain ⟨units, hunits, rfl⟩ := (State.start_eq_ok_iff (Nat.ne_of_gt hpos)).mp h
  have hone := Partition.length_chunkRanges_eq_one_iff hunits hpos
  have hne := List.length_pos_iff.mpr (Partition.chunkRanges_ne_nil hunits hpos)
  rw [State.initial, List.length_replicate, Options.driverCount]
  by_cases hfixed : options.fixedPool = true
  · simp only [hfixed, if_true, Bool.true_eq_false, false_and, or_false]
    omega
  · rw [Bool.not_eq_true] at hfixed
    simp only [hfixed, if_false, Bool.false_eq_true, true_and]
    omega

/-- The output of an answer to a task, or the error, panic or silence in its place. -/
def Answer.output : Answer Response → Answer Payload
  | .error cause => .error cause
  | .panic message => .panic message
  | .pending => .pending
  | .value response =>
    match response.output with
    | .ok (_, output) => .value output
    | .error cause => .error cause

namespace Answer

variable {answer : Answer Response} {payload : Payload} {cause : BackendError} {message : String}

theorem exists_of_output_eq_value (h : answer.output = .value payload) :
    ∃ index, answer = .value (.completed index payload) := by
  cases answer with
  | value response =>
    cases response with
    | completed index payload' =>
      cases h
      exact ⟨index, rfl⟩
    | failed index kind message => cases kind <;> cases h
  | error | panic | pending => cases h

/-- If `output` is an error, `Turn.ofRun` makes an `Event.answer` with this error. -/
theorem exists_of_output_eq_error {W : Type} (worker : W) (h : answer.output = .error cause) :
    ∃ result, Turn.ofRun worker answer = some ⟨.answer result, some worker, []⟩ ∧
      result.bind Response.output = .error cause := by
  cases answer with
  | value response =>
    refine ⟨.ok response, rfl, ?_⟩
    show response.output = .error cause
    cases hresponse : response.output with
    | ok =>
      simp [output, hresponse] at h
    | error cause' =>
      simp only [output, hresponse] at h
      cases h
      rfl
  | error cause' =>
    cases h
    exact ⟨.error cause, rfl, rfl⟩
  | panic | pending => cases h

theorem eq_panic_of_output (h : answer.output = .panic message) : answer = .panic message := by
  cases answer with
  | value response =>
    cases hresponse : response.output <;> simp [output, hresponse] at h
  | error | pending => cases h
  | panic =>
    cases h
    rfl

/-- `output` is `pending` only for an answer that is. -/
theorem eq_pending_of_output (h : answer.output = .pending) : answer = .pending := by
  cases answer with
  | value response =>
    cases hresponse : response.output <;> simp [output, hresponse] at h
  | error | panic => cases h
  | pending => rfl

end Answer

namespace Outcome

/-- `outcome`, with `acts` and `log` in front. -/
def after (outcome : Outcome) (acts : List Act) (log : List LogEntry) : Outcome :=
  ⟨outcome.result, acts ++ outcome.acts, log ++ outcome.log⟩

/-- The outcome of a failure after `completed` of `total` tasks. -/
def cancelled (error : BackendError) (completed total : Nat) : Outcome :=
  ⟨.error (.error error), [], [.notice (.evaluationCancelled completed total)]⟩

@[simp]
theorem after_after (outcome : Outcome) (acts acts' : List Act) (log log' : List LogEntry) :
    (outcome.after acts' log').after acts log = outcome.after (acts ++ acts') (log ++ log') := by
  simp [after]

end Outcome

namespace Crew

variable {W : Type}

/-- A worker that has completed all tasks is shut down. -/
def dismiss (crew : Crew W) (worker : W) (outputs : List Payload) : Outcome :=
  let outcome : Outcome := match crew.shutdown worker with
    | .value () => ⟨.ok outputs, [], crew.departure worker false⟩
    | .error error =>
      (Outcome.cancelled error outputs.length outputs.length).after []
        (crew.departure worker false)
    | .panic message =>
      .cancelled (State.panicError message) outputs.length outputs.length
    | .pending => .idle (.error .stalled)
  outcome.after [.shutdown 0] []

/-- A worker that has failed on a task is terminated. -/
def expel (crew : Crew W) (worker : W) (error : BackendError) (completed total : Nat) : Outcome :=
  ⟨.error (.error error), [.terminate 0],
    [.notice (.evaluationCancelled completed total)] ++ crew.departure worker true⟩

/-- The outcome of the tasks left, when the worker has completed those before with `outputs`. -/
def inTurnFrom (crew : Crew W) (total : Nat) (worker : W) (outputs : List Payload) :
    List Envelope → Outcome
  | [] => crew.dismiss worker outputs
  | task :: rest =>
    let (worker, answer) := crew.run worker task
    let outcome : Outcome := match answer.output with
      | .value output => crew.inTurnFrom total worker (outputs ++ [output]) rest
      | .error error => crew.expel worker error outputs.length total
      | .panic message => .cancelled (State.panicError message) outputs.length total
      | .pending => .idle (.error .stalled)
    outcome.after [.run 0 outputs.length] []

/-- `inTurnFrom` goes on to the next task iff the `output` of the answer is a value. -/
theorem inTurnFrom_cons (crew : Crew W) (total : Nat) (worker : W) (outputs : List Payload)
    (task : Envelope) (rest : List Envelope) :
    crew.inTurnFrom total worker outputs (task :: rest) =
      (match (crew.run worker task).2.output with
        | .value output =>
          crew.inTurnFrom total (crew.run worker task).1 (outputs ++ [output]) rest
        | .error error => crew.expel (crew.run worker task).1 error outputs.length total
        | .panic message => .cancelled (State.panicError message) outputs.length total
        | .pending => .idle (.error .stalled)).after
        [.run 0 outputs.length] [] := rfl

/-- The outcome of one worker that is given all tasks one after the other. -/
def inTurn (crew : Crew W) (tasks : List Envelope) : Outcome :=
  let outcome : Outcome := match crew.spawn 0 with
    | .value worker =>
      (crew.inTurnFrom tasks.length worker [] tasks).after [.spawned 0] (crew.arrival worker)
    | .error error => .cancelled error 0 tasks.length
    | .panic message => .cancelled (State.panicError message) 0 tasks.length
    | .pending => .idle (.error .stalled)
  outcome.after [.spawn 0] []

/-- `Completes worker tasks outputs last`: the worker answers each of `tasks` with one of `outputs`,
and is in state `last` afterwards. -/
inductive Completes (crew : Crew W) : W → List Envelope → List Payload → W → Prop
  | nil (worker : W) : Completes crew worker [] [] worker
  | cons {worker last : W} {task : Envelope} {rest : List Envelope} {output : Payload}
      {outputs : List Payload} (houtput : (crew.run worker task).2.output = .value output)
      (hrest : Completes crew (crew.run worker task).1 rest outputs last) :
      Completes crew worker (task :: rest) (output :: outputs) last

variable {crew : Crew W} {total : Nat} {worker last : W} {before outputs : List Payload}
  {tasks done rest : List Envelope} {task : Envelope}

/-- `inTurnFrom` over tasks that are completed adds their acts and outputs, and goes on with the
rest. -/
theorem Completes.inTurnFrom_append (h : crew.Completes worker done outputs last) :
    crew.inTurnFrom total worker before (done ++ rest) =
      (crew.inTurnFrom total last (before ++ outputs) rest).after
        ((List.range' before.length outputs.length).map (.run 0)) [] := by
  induction h generalizing before with
  | nil worker =>
    rw [List.append_nil]
    rfl
  | @cons worker last task others output outputs houtput hrest ih =>
    rw [List.cons_append, inTurnFrom_cons, houtput]
    dsimp only
    rw [ih, Outcome.after_after, List.length_append, List.append_assoc]
    rfl

/-- `Completes` has one output for each task. -/
theorem Completes.length_eq (h : crew.Completes worker done outputs last) :
    outputs.length = done.length := by
  induction h with
  | nil => rfl
  | cons _ _ ih => rw [List.length_cons, List.length_cons, ih]

/-- `inTurn` over tasks that are all completed runs them in order and ends with `dismiss`. -/
theorem inTurn_of_completes (hspawn : crew.spawn 0 = .value worker)
    (h : crew.Completes worker tasks outputs last) :
    crew.inTurn tasks = (crew.dismiss last outputs).after
      ([.spawn 0, .spawned 0] ++ (List.range tasks.length).map (.run 0))
      (crew.arrival worker) := by
  have hloop : crew.inTurnFrom tasks.length worker [] (tasks ++ []) = _ := h.inTurnFrom_append
  rw [List.append_nil, h.length_eq] at hloop
  rw [inTurn, hspawn]
  dsimp only
  rw [hloop, Outcome.after_after, Outcome.after_after, List.range_eq_range', List.append_nil]
  rfl

/-- `inTurn` over a task whose `output` is an error runs the tasks before it and the task itself,
and no other. The error is the result, and the cancellation reports how many tasks were
completed. -/
theorem inTurn_of_error {error : BackendError} (hspawn : crew.spawn 0 = .value worker)
    (h : crew.Completes worker done outputs last)
    (herror : (crew.run last task).2.output = .error error) :
    crew.inTurn (done ++ task :: rest) = ⟨.error (.error error),
      [.spawn 0, .spawned 0] ++ (List.range (done.length + 1)).map (.run 0) ++ [.terminate 0],
      crew.arrival worker ++
        [.notice (.evaluationCancelled done.length (done ++ task :: rest).length)] ++
        crew.departure (crew.run last task).1 true⟩ := by
  have hloop : crew.inTurnFrom (done ++ task :: rest).length worker [] (done ++ task :: rest) = _ :=
    h.inTurnFrom_append
  rw [inTurn, hspawn]
  dsimp only
  rw [hloop, inTurnFrom_cons, herror]
  simp [expel, Outcome.after, List.range_succ, List.range_eq_range', h.length_eq]

end Crew

/-- Outputs for consecutive positions fill the slots behind those that are filled already. -/
theorem State.place_inOrder {outputs : List (UInt64 × Payload)} {slots : List (Option Payload)}
    (done : List Payload) (count : Nat)
    (hslots : slots = done.map some ++ List.replicate count none)
    (hindices : outputs.map (fun output => output.1.toNat) =
      List.range' done.length outputs.length) (hlength : outputs.length ≤ count) :
    place slots outputs = .ok ((done ++ outputs.map Prod.snd).map some ++
      List.replicate (count - outputs.length) none) := by
  induction outputs generalizing slots done count with
  | nil => simp [place, hslots]
  | cons output rest ih =>
    obtain ⟨hindex, hrest⟩ := List.cons.inj hindices
    have hindex : output.1.toNat = done.length := hindex
    rw [List.length_cons] at hlength
    obtain ⟨count, rfl⟩ := Nat.exists_eq_add_one.mpr (Nat.lt_of_lt_of_le (Nat.succ_pos _) hlength)
    have hlt : output.1.toNat < slots.length := by
      rw [hindex, hslots]
      simp
    rw [place, if_pos hlt, ih (done ++ [output.2]) count]
    · simp
    · rw [hindex, hslots, List.replicate_succ]
      simp
    · rw [List.length_append]
      exact hrest
    · omega

end Schedule

end Fanout

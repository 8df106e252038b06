import Fanout.Proofs.Backend.Plan
import Fanout.Proofs.Worker.Link

/-!
# All backends agree with the serial one

`backends_agree`: over workers that serve a registry containing the function, the backends with
workers return what the serial backend returns. `agrees_of_run` is about the end of one run of the
evaluation, `Plan.Ensures` about every interleaving of the plan of an application, and the theorem
about `Backend.apply` itself.
-/

namespace Fanout

/-- Every worker process of `backend` serves `registry`, and the caller may wait for it. -/
structure Host.Serves (host : Host) (backend : Backend) (registry : Registry) :
    Prop where
  /-- The caller is not part of a running evaluation. -/
  waits : host.nested = false
  /-- The command of the workers starts processes like `Peer.serving`. -/
  program : ∃ command,
    WorkerCommand.resolve host.running backend.strategy.command = .ok command ∧
      host.program command = .ofPeer (.serving registry)

namespace Backend

variable {f : WorkFunction} {state : f.State} {inputs : List f.Input} {host : Host}

/-! ## The serial backend -/

/-- The value of `apply` of the serial backend is `applySerially`. -/
theorem value_apply_serial {serial : Backend} (hserial : serial.strategy = .serial) :
    (serial.apply host f state inputs).value = applySerially f state inputs := by
  simp only [apply, plan, hserial, Logged.andThen, Logged.silent, Plan.carryOut]

/-- `applySerially` has outputs iff every call has its output. -/
theorem applySerially_eq_ok_iff {outputs : List f.Output} :
    applySerially f state inputs = .ok outputs ↔ outputs.length = inputs.length ∧
      ∀ i (h : i < inputs.length) (h' : i < outputs.length),
        f.callCaught state inputs[i] = .ok outputs[i] := by
  rw [applySerially, Traversal.mapM_zipIdx_eq_ok_iff]
  simp only [Traversal.mapError_eq_ok_iff]

/-- `applySerially` fails iff some call fails and all calls before it have outputs. -/
theorem applySerially_eq_error_iff {failure : Failure} :
    applySerially f state inputs = .error failure ↔ ∃ i, ∃ h : i < inputs.length, ∃ message,
      f.callCaught state inputs[i] = .error message ∧
      failure = .error (.workerExecution i message) ∧
      ∀ j (hj : j < inputs.length), j < i →
        ∃ output, f.callCaught state inputs[j] = .ok output := by
  rw [applySerially, Traversal.mapM_zipIdx_eq_error_iff]
  simp only [Traversal.mapError_eq_ok_iff, Traversal.mapError_eq_error_iff]
  constructor
  · rintro ⟨i, h, ⟨message, hcall, rfl⟩, hbefore⟩
    exact ⟨i, h, message, hcall, rfl, hbefore⟩
  · rintro ⟨i, h, message, hcall, rfl, hbefore⟩
    exact ⟨i, h, ⟨message, hcall, rfl⟩, hbefore⟩

/-! ## Agreement -/

/-- How `result` compares with what `serially` makes of `inputs` and of each of them alone. -/
structure Agrees (f : WorkFunction) (state : f.State) (inputs : List f.Input)
    (serially : List f.Input → Except Failure (List f.Output))
    (result : Except Failure (List f.Output)) : Prop where
  /-- Outputs are the same. -/
  ok : ∀ outputs, serially inputs = .ok outputs → result = .ok outputs
  /-- A failure is that of a computation that fails, with the text that `serially` has for this
  computation alone. -/
  error : ∀ failure, serially inputs = .error failure →
    ∃ j, ∃ h : j < inputs.length, ∃ message, f.callCaught state inputs[j] = .error message ∧
      serially [inputs[j]] = .error (.error (.workerExecution 0 message)) ∧
      result = .error (.error (.workerExecution j message))
  /-- If only one computation fails, the failure is the same. -/
  unique : ∀ j (h : j < inputs.length) message, f.callCaught state inputs[j] = .error message →
    (∀ i (hi : i < inputs.length), i ≠ j → ∃ output, f.callCaught state inputs[i] = .ok output) →
    serially inputs = .error (.error (.workerExecution j message)) ∧
      result = .error (.error (.workerExecution j message))

/-- Outputs of all calls, or the failure of one of them, give `Agrees` with `applySerially`. -/
theorem agrees_of {result : Except Failure (List f.Output)}
    (hok : ∀ outputs, applySerially f state inputs = .ok outputs → result = .ok outputs)
    (herror : ∀ failure, applySerially f state inputs = .error failure →
      ∃ j, ∃ h : j < inputs.length, ∃ message, f.callCaught state inputs[j] = .error message ∧
        result = .error (.error (.workerExecution j message))) :
    Agrees f state inputs (applySerially f state) result := by
  refine ⟨hok, fun failure hfailure => ?_, fun j h message hcall hothers => ?_⟩
  · obtain ⟨j, h, message, hcall, hresult⟩ := herror failure hfailure
    refine ⟨j, h, message, hcall, ?_, hresult⟩
    refine applySerially_eq_error_iff.mpr ⟨0, Nat.one_pos, message, hcall, rfl, fun i _ hlt => ?_⟩
    exact absurd hlt (Nat.not_lt_zero i)
  · have hserially : applySerially f state inputs =
        .error (.error (.workerExecution j message)) := by
      refine applySerially_eq_error_iff.mpr ⟨j, h, message, hcall, rfl, fun i hi hlt => ?_⟩
      exact hothers i hi (Nat.ne_of_lt hlt)
    refine ⟨hserially, ?_⟩
    -- the other result is a failure, too, and there is only one that it can be
    obtain ⟨i, hi, message', hcall', hresult⟩ := herror _ hserially
    by_cases hij : i = j
    · subst hij
      rw [hcall] at hcall'
      cases hcall'
      exact hresult
    · obtain ⟨output, houtput⟩ := hothers i hi hij
      rw [houtput] at hcall'
      cases hcall'

theorem agrees_applySerially :
    Agrees f state inputs (applySerially f state) (applySerially f state inputs) := by
  refine agrees_of (fun _ h => h) fun failure h => ?_
  obtain ⟨i, hi, message, hcall, rfl, -⟩ := applySerially_eq_error_iff.mp h
  exact ⟨i, hi, message, hcall, h⟩

section Workers

variable {registry : Registry} {tasks : List Envelope} {options : Schedule.Options} {W : Type}
  {crew : Schedule.Crew W} {owns : Nat → W → Prop} {start last : Schedule.Evaluation W}
  {choices : List Schedule.Choice}

/-- A registry that knows `f` answers a task with a payload of its output, if there is one. -/
theorem exists_payload_of_ok (hfind : registry.find? f.name = some f)
    (houtputs : ∀ input ∈ inputs, ∀ output, f.call state input = .ok output →
      f.outputCodec.Survives output) {i : Nat} (h : i < inputs.length) {task : Envelope}
    (hcarries : f.Carries state inputs[i] i task) {output : f.Output}
    (hcall : f.callCaught state inputs[i] = .ok output) :
    ∃ payload, (registry.invoke task).payload? = some payload ∧
      f.outputCodec.decode payload = .ok output := by
  obtain ⟨payload, hencode, hdecode⟩ :=
    houtputs _ (List.getElem_mem h) output (WorkFunction.callCaught_eq_ok_iff.mp hcall)
  refine ⟨payload, ?_, hdecode⟩
  rw [Registry.invoke_of_ok hfind hcarries hcall hencode]
  rfl

section Run

variable (hfollows : crew.Follows registry.conduct owns)
  (hfind : registry.find? f.name = some f)
  (houtputs : ∀ input ∈ inputs, ∀ output, f.call state input = .ok output →
    f.outputCodec.Survives output)
  (hlength : tasks.length = inputs.length)
  (hcarries : ∀ i (h : i < inputs.length) (h' : i < tasks.length),
    f.Carries state inputs[i] i tasks[i])
  (hstart : Schedule.Evaluation.start tasks options = .ok start)
  (hrun : start.run? crew choices = some last) (hfinal : last.state.isFinal)

include hfollows hfind houtputs hlength hcarries hstart hrun hfinal

/-- An evaluation over `registry.conduct` returns the outputs of the calls, if all of them have
one. -/
theorem result_of_calls {outputs : List f.Output} (hlen : outputs.length = inputs.length)
    (hcalls : ∀ i (h : i < inputs.length) (h' : i < outputs.length),
      f.callCaught state inputs[i] = .ok outputs[i]) :
    last.state.result.bind f.decodeOutputs = .ok outputs := by
  have hpayload (i : Nat) (h : i < inputs.length) (h' : i < tasks.length)
      (h'' : i < outputs.length) : ∃ payload,
      (registry.invoke tasks[i]).payload? = some payload ∧
        f.outputCodec.decode payload = .ok outputs[i] :=
    exists_payload_of_ok hfind houtputs h (hcarries i h h') (hcalls i h h'')
  -- the workers start and shut down, and every task has an output
  have hflawless : registry.conduct.Flawless tasks start.state.drivers.length := by
    refine ⟨fun _ _ => rfl, fun _ _ => rfl, fun task hmem => ?_⟩
    obtain ⟨i, h', rfl⟩ := List.getElem_of_mem hmem
    obtain ⟨payload, hinvoke, -⟩ := hpayload i (by omega) h' (by omega)
    exact Option.isSome_of_eq_some hinvoke
  obtain ⟨payloads, hresult, hpayloads⟩ := (Schedule.Evaluation.result_of_run hfollows
    (fun i h => (hcarries i (hlength ▸ h) h).index) (fun task _ => registry.index_invoke task)
    hstart hrun hfinal).1 hflawless
  have hlen' : payloads.length = tasks.length := by
    simpa using congrArg List.length hpayloads
  rw [hresult]
  refine WorkFunction.decodeOutputs_eq_ok_iff.mpr ⟨by omega, fun i h h' => ?_⟩
  obtain ⟨payload, hinvoke, hdecode⟩ := hpayload i (by omega) (by omega) h'
  have hget : (payloads.map some)[i]? =
      (tasks.map fun task => (registry.conduct.respond task).payload?)[i]? := by rw [hpayloads]
  rw [List.getElem?_map, List.getElem?_map, List.getElem?_eq_getElem h,
    List.getElem?_eq_getElem (by omega)] at hget
  have heq : some payloads[i] = some payload := (Option.some.inj hget).trans hinvoke
  rw [Option.some.inj heq, hdecode]

/-- An evaluation over `registry.conduct` returns the failure of one of the calls, if some call
fails. -/
theorem exists_failure_of_run {i : Nat} (hi : i < inputs.length) {message : String}
    (hcall : f.callCaught state inputs[i] = .error message) :
    ∃ j, ∃ h : j < inputs.length, ∃ message, f.callCaught state inputs[j] = .error message ∧
      last.state.result.bind f.decodeOutputs = .error (.error (.workerExecution j message)) := by
  have hflawed : ¬ registry.conduct.Flawless tasks start.state.drivers.length := fun h => by
    have hi' : i < tasks.length := by omega
    have hcompletes : (registry.invoke tasks[i]).payload?.isSome :=
      h.completes tasks[i] (List.getElem_mem hi')
    rw [Registry.invoke_of_error hfind (hcarries i hi hi') hcall] at hcompletes
    cases hcompletes
  obtain ⟨error, hresult, hflaw⟩ := (Schedule.Evaluation.result_of_run hfollows
    (fun i h => (hcarries i (hlength ▸ h) h).index) (fun task _ => registry.index_invoke task)
    hstart hrun hfinal).2 hflawed
  -- only an answer can be at fault, and it is the answer to a computation that fails
  rw [hresult]
  cases hflaw with
  | refusal _ _ h => cases h
  | defect _ _ h => cases h
  | response task hmem h =>
    obtain ⟨j, hj', rfl⟩ := List.getElem_of_mem hmem
    have hj : j < inputs.length := by omega
    have hinvoke : (registry.invoke tasks[j]).output = .error error := h
    cases hcall : f.callCaught state inputs[j] with
    | ok output =>
      obtain ⟨payload, hpayload, -⟩ :=
        exists_payload_of_ok hfind houtputs hj (hcarries j hj hj') hcall
      rw [Response.payload?_eq_none hinvoke] at hpayload
      cases hpayload
    | error message =>
      rw [Registry.invoke_of_error hfind (hcarries j hj hj') hcall] at hinvoke
      cases hinvoke
      rw [(hcarries j hj hj').index]
      exact ⟨j, hj, message, hcall, rfl⟩

/-- An evaluation over `registry.conduct` has a result that `Agrees` with `applySerially`. -/
theorem agrees_of_run :
    Agrees f state inputs (applySerially f state) (last.state.result.bind f.decodeOutputs) := by
  refine agrees_of (fun outputs hserially => ?_) fun failure hserially => ?_
  · obtain ⟨hlen, hcalls⟩ := applySerially_eq_ok_iff.mp hserially
    exact result_of_calls hfollows hfind houtputs hlength hcarries hstart hrun hfinal hlen hcalls
  · obtain ⟨i, hi, message, hcall, -, -⟩ := applySerially_eq_error_iff.mp hserially
    exact exists_failure_of_run hfollows hfind houtputs hlength hcarries hstart hrun hfinal hi hcall

end Run

end Workers

/-! ## From the plan to the result -/

/-- A settled result satisfies `post`. Workers to dispatch can be started, every interleaving of
them is bounded and can go on until it has ended, and the result of each one that has ended
satisfies `post`. -/
def Plan.Ensures (host : Host) {f : WorkFunction}
    (post : Except Failure (List f.Output) → Prop) : Plan f → Prop
  | settled result => post result
  | dispatch command options tasks =>
    host.nested = false ∧ ∃ start, Schedule.Evaluation.start tasks options = .ok start ∧
      ∀ choices last, start.run? (crew host command) choices = some last →
        choices.length ≤ start.state.measure ∧
        (last.state.isFinal = false →
          ∃ choice next, last.step? (crew host command) choice = some next) ∧
        (last.state.isFinal → post (last.state.result.bind f.decodeOutputs))

/-- Workers like `Peer.serving` follow `registry.conduct`. -/
theorem Plan.exists_follows {command : WorkerCommand} {registry : Registry}
    (h : host.program command = .ofPeer (.serving registry)) :
    ∃ owns, (Plan.crew host command).Follows registry.conduct owns := by
  unfold Plan.crew
  generalize host.program command = program at h
  subst h
  exact ⟨_, registry.crew_follows command host.pid⟩

section Dispatch

variable {tasks : List Envelope} {options : Schedule.Options} {command : WorkerCommand}
  {start : Schedule.Evaluation (Link (host.program command).peer)}
  {post : Except Failure (List f.Output) → Prop}

/-- If `Plan.Ensures` holds with `post`, `carryOut` returns a result that satisfies `post`. -/
theorem Plan.Ensures.carryOut_dispatch
    (h : (Plan.dispatch command options tasks : Plan f).Ensures host post) (hne : tasks ≠ []) :
    post ((Plan.dispatch command options tasks : Plan f).carryOut host).value := by
  obtain ⟨hnested, start, hstart, hruns⟩ := h
  obtain ⟨choices, last, hrun, hfinal, hresult⟩ :=
    Schedule.Evaluation.exists_run_carryOut_of_progress hstart
      fun choices last hrun => (hruns choices last hrun).2.1
  rw [Plan.value_dispatch hnested hne hstart, hresult]
  exact (hruns choices last hrun).2.2 hfinal

/-- If the crew follows a conduct, `Plan.Ensures` needs `post` only of runs that have ended. -/
theorem Plan.ensures_dispatch {conduct : Schedule.Conduct}
    {owns : Nat → Link (host.program command).peer → Prop}
    (hfollows : (Plan.crew host command).Follows conduct owns) (hnested : host.nested = false)
    (hstart : Schedule.Evaluation.start tasks options = .ok start)
    (hpost : ∀ choices last, start.run? (Plan.crew host command) choices = some last →
      last.state.isFinal → post (last.state.result.bind f.decodeOutputs)) :
    (Plan.dispatch command options tasks : Plan f).Ensures host post := by
  refine ⟨hnested, start, hstart, fun choices last hrun => ?_⟩
  exact ⟨(Schedule.Evaluation.progress_of_run hstart hrun).1,
    Schedule.Evaluation.exists_step_of_follows hstart hfollows hrun, hpost choices last hrun⟩

end Dispatch

/-- If the workers serve a registry with `f`, the plan ensures a result that `Agrees` with
`applySerially`, and `apply` returns such a result. -/
theorem ensures_agrees {backend : Backend} {registry : Registry}
    (hworkers : backend.strategy ≠ .serial) (hstate : f.stateCodec.Survives state)
    (hinputs : ∀ input ∈ inputs, f.inputCodec.Survives input)
    (houtputs : ∀ input ∈ inputs, ∀ output, f.call state input = .ok output →
      f.outputCodec.Survives output)
    (hlength : inputs.length < listLimit) (hfits : backend.Fits)
    (hserves : host.Serves backend registry) (hfind : registry.find? f.name = some f) :
    (backend.plan host f state inputs).value.Ensures host
        (Agrees f state inputs (applySerially f state)) ∧
      Agrees f state inputs (applySerially f state)
        (backend.apply host f state inputs).value := by
  obtain ⟨tasks, htasks, hlen, hcarries⟩ :=
    WorkFunction.exists_encodeTasks_carrying hstate hinputs hlength
  obtain ⟨command, hcommand, hprogram⟩ := hserves.program
  obtain ⟨options, hoptions, hchunk⟩ := exists_options hfits (hlen ▸ hlength)
  rw [value_apply, value_plan hworkers htasks, planTasks]
  by_cases hne : tasks = []
  -- no computations need no workers
  · have hnil : inputs = [] := by
      rw [hne] at hlen
      exact List.eq_nil_of_length_eq_zero hlen.symm
    subst hne hnil
    exact ⟨agrees_applySerially, agrees_applySerially⟩
  · rw [if_neg (by simpa using hne), hcommand]
    dsimp only
    rw [hoptions]
    obtain ⟨owns, hfollows⟩ := Plan.exists_follows hprogram
    obtain ⟨start, hstart⟩ := Schedule.Evaluation.exists_start
      (W := Link (host.program command).peer) (hlen ▸ hlength : tasks.length < listLimit) hchunk
    have hensures := Plan.ensures_dispatch hfollows hserves.waits hstart
      fun choices last hrun hfinal =>
        agrees_of_run hfollows hfind houtputs hlen hcarries hstart hrun hfinal
    exact ⟨hensures, hensures.carryOut_dispatch hne⟩

/-- Let the state, the inputs and the outputs of the calls survive their transfer, and let the
worker processes serve a registry with `f`. Every interleaving of the workers of a pool or a task
graph ends, and the result `Agrees` with the serial backend: the same outputs, or the failure of a
computation that fails, with the text that the serial backend reports for this computation alone,
and the failure of the serial backend itself if only one computation fails. So does the result of
`apply`. -/
theorem backends_agree {serial backend : Backend} {registry : Registry}
    (hserial : serial.strategy = .serial) (hworkers : backend.strategy ≠ .serial)
    (hstate : f.stateCodec.Survives state)
    (hinputs : ∀ input ∈ inputs, f.inputCodec.Survives input)
    (houtputs : ∀ input ∈ inputs, ∀ output, f.call state input = .ok output →
      f.outputCodec.Survives output)
    (hlength : inputs.length < listLimit) (hfits : backend.Fits)
    (hserves : host.Serves backend registry) (hfind : registry.find? f.name = some f) :
    let serially := fun inputs => (serial.apply host f state inputs).value
    (backend.plan host f state inputs).value.Ensures host (Agrees f state inputs serially) ∧
      Agrees f state inputs serially (backend.apply host f state inputs).value := by
  intro serially
  have hserially : serially = applySerially f state :=
    funext fun inputs => value_apply_serial hserial
  rw [hserially]
  exact ensures_agrees hworkers hstate hinputs houtputs hlength hfits hserves hfind

/-- Three computations over two workers of a pool, of which the second computation fails. -/
theorem backends_agree_on_one_failure :
    let host : Host := ⟨.ok "fanout", fun _ => .ofPeer (.serving .builtin), id, ⟨0, 0⟩, false⟩
    let pool : Backend := ⟨.processPool (some 1) none, 2, [], rfl⟩
    let inputs : List Int64 := [1, 2, 3]
    (pool.apply host Builtin.failOn (2 : Int64) inputs).value =
      .error (.error (.workerExecution 1 "invalid value 2")) := by
  intro host pool inputs
  let serial : Backend := ⟨.serial, 1, [], rfl⟩
  have hsurvives : ∀ input ∈ inputs, Builtin.failOn.inputCodec.Survives input := by
    intro input hmem
    simp only [inputs, List.mem_cons, List.not_mem_nil, or_false] at hmem
    rcases hmem with rfl | rfl | rfl <;> exact ⟨_, rfl, rfl⟩
  have hcalls : ∀ input ∈ inputs, ∀ output, Builtin.failOn.call (2 : Int64) input = .ok output →
      Builtin.failOn.outputCodec.Survives output := by
    intro input hmem output hcall
    simp only [inputs, List.mem_cons, List.not_mem_nil, or_false] at hmem
    rcases hmem with rfl | rfl | rfl <;> cases hcall <;> exact ⟨_, rfl, rfl⟩
  have hfits : pool.Fits := by
    refine ⟨fun size command h => ?_, fun command h => ?_⟩
    · cases h
      decide
    · cases h
  have hserves : host.Serves pool .builtin := ⟨rfl, _, rfl, rfl⟩
  have hagrees := (@backends_agree Builtin.failOn (2 : Int64) inputs host serial pool .builtin rfl
    (fun h => by cases h) ⟨_, rfl, rfl⟩ hsurvives hcalls (by decide) hfits hserves rfl).2
  have hmessage : s!"invalid value {(2 : Int64).toInt}" = "invalid value 2" := by decide
  have hfails : Builtin.failOn.callCaught (2 : Int64) (2 : Int64) = .error "invalid value 2" :=
    congrArg Except.error hmessage
  refine (hagrees.unique 1 (by decide) "invalid value 2" hfails fun i hi hne => ?_).2
  rcases i with _ | _ | _ | i
  · exact ⟨(1 : Int64), rfl⟩
  · exact absurd rfl hne
  · exact ⟨(3 : Int64), rfl⟩
  · have hlt : i + 1 + 1 + 1 < 3 := hi
    omega

end Backend

end Fanout

import Fanout.Function.Diagnostic
import Fanout.Proofs.Backend.Plan

/-!
# Transfer errors

What a backend with workers returns if the state or an input cannot be encoded. The state is encoded
first, then the inputs in order, and the first failure (`FailsFirst`) is the error of the
application, which has started no worker by then (`Backend.Refuses`). `transfer_errors_precise`
shows this, and the same for decoding outputs.
-/

namespace Fanout

/-- `convert` fails for the value at `position` with `reason`, and for none before it. -/
structure FailsFirst {α β : Type} (convert : α → Attempt β) (values : List α) (position : Nat)
    (reason : String) : Prop where
  fails : ∃ value, values[position]? = some value ∧ convert value = .error (.error reason)
  before : ∀ i (h : i < values.length), i < position → ∃ result, convert values[i] = .ok result

namespace FailsFirst

variable {α β γ : Type} {convert : α → Attempt β} {values : List α} {position : Nat}
  {reason : String} {f : α × Nat → Except Failure γ} {failure : Failure}

/-- `mapM` with positions fails as `f` does on the first value that `convert` fails on. -/
theorem mapM_eq_error (h : FailsFirst convert values position reason)
    (hfails : ∀ value, convert value = .error (.error reason) →
      f (value, position) = .error failure)
    (hconverts : ∀ value i result, convert value = .ok result → ∃ c, f (value, i) = .ok c) :
    values.zipIdx.mapM f = .error failure := by
  obtain ⟨value, hget, hvalue⟩ := h.fails
  obtain ⟨hlt, rfl⟩ := List.getElem?_eq_some_iff.mp hget
  refine Traversal.mapM_zipIdx_eq_error_iff.mpr ⟨position, hlt, hfails _ hvalue, ?_⟩
  intro i hi hbefore
  obtain ⟨result, hresult⟩ := h.before i hi hbefore
  exact hconverts _ i result hresult

end FailsFirst

namespace WorkFunction

variable {f : WorkFunction} {state : f.State} {inputs : List f.Input} {statePayload : Payload}
  {position : Nat} {reason : String}

/-- If the state cannot be encoded, `encodeTasks` names the function, whatever the inputs. -/
theorem encodeTasks_of_state (h : f.stateCodec.encode state = .error (.error reason)) :
    f.encodeTasks state inputs =
      .error (.error (.transfer s!"work function '{f.name}'" reason)) := by
  rw [encodeTasks, h]
  rfl

/-- If the state can be encoded, `encodeTasks` names the first input that cannot. -/
theorem encodeTasks_of_input (hstate : f.stateCodec.encode state = .ok statePayload)
    (h : FailsFirst f.inputCodec.encode inputs position reason) :
    f.encodeTasks state inputs =
      .error (.error (.transfer s!"computation {position}" reason)) := by
  rw [encodeTasks, hstate, Traversal.mapError_ok, Traversal.ok_bind]
  apply h.mapM_eq_error
  · intro input hinput
    dsimp only
    rw [hinput]
    rfl
  · intro input i payload hpayload
    dsimp only
    rw [hpayload]
    exact ⟨_, rfl⟩

/-- `decodeOutputs` names the first payload that cannot be decoded. -/
theorem decodeOutputs_of_output {payloads : List Payload}
    (h : FailsFirst f.outputCodec.decode payloads position reason) :
    f.decodeOutputs payloads =
      .error (.error (.transfer s!"result of computation {position}" reason)) := by
  apply h.mapM_eq_error
  · intro payload hpayload
    dsimp only
    rw [hpayload]
    rfl
  · intro payload i output houtput
    exact ⟨output, Traversal.mapError_eq_ok_iff.mpr houtput⟩

end WorkFunction

namespace Backend

/-- The plan is settled with `error`, and `apply` reports nothing but its start and this failure. -/
structure Refuses (backend : Backend) (host : Host) (f : WorkFunction) (state : f.State)
    (inputs : List f.Input) (error : BackendError) : Prop where
  settled : (backend.plan host f state inputs).value = .settled (.error (.error error))
  apply : backend.apply host f state inputs =
    ⟨[.activity "apply" (.applyStarted backend.name f.name inputs.length backend.workerCount),
        .notice (.applyStarted backend.name f.name inputs.length backend.workerCount),
        .notice (.applyFailed backend.name f.name error.message)],
      .error (.error error)⟩

/-- A backend with workers `Refuses` an application whose tasks cannot be encoded. -/
theorem refuses_of_error {backend : Backend} {host : Host} {f : WorkFunction} {state : f.State}
    {inputs : List f.Input} {error : BackendError} (hworkers : backend.strategy ≠ .serial)
    (htasks : f.encodeTasks state inputs = .error (.error error)) :
    backend.Refuses host f state inputs error where
  settled := value_plan_of_error hworkers htasks
  apply := by
    rw [Backend.apply, plan_of_error hworkers htasks]
    rfl

/-- For a backend with workers and any command: if the state cannot be encoded, the backend
`Refuses` with an error that names the function, and if only some inputs cannot, with an error that
names the first of them. Otherwise `encodeTasks` has one task for each input, with its position, the
name of the function and the payloads of the state and the input. `decodeOutputs` has the outputs of
all payloads, or an error that names the first payload that cannot be decoded. -/
theorem transfer_errors_precise {backend : Backend} (hworkers : backend.strategy ≠ .serial)
    (host : Host) {f : WorkFunction} (state : f.State) {inputs : List f.Input}
    (hlength : inputs.length < listLimit) :
    (∀ reason, f.stateCodec.encode state = .error (.error reason) →
        backend.Refuses host f state inputs (.transfer s!"work function '{f.name}'" reason)) ∧
      (∀ statePayload position reason, f.stateCodec.encode state = .ok statePayload →
        FailsFirst f.inputCodec.encode inputs position reason →
          backend.Refuses host f state inputs (.transfer s!"computation {position}" reason)) ∧
      (∀ statePayload, f.stateCodec.encode state = .ok statePayload →
        (∀ input ∈ inputs, ∃ payload, f.inputCodec.encode input = .ok payload) →
          ∃ tasks, f.encodeTasks state inputs = .ok tasks ∧ tasks.length = inputs.length ∧
            ∀ i (h : i < inputs.length) (h' : i < tasks.length),
              tasks[i].index.toNat = i ∧ tasks[i].function = f.name ∧
                tasks[i].state = statePayload ∧
                f.inputCodec.encode inputs[i] = .ok tasks[i].input) ∧
      ∀ payloads : List Payload,
        (∀ outputs, f.decodeOutputs payloads = .ok outputs ↔ outputs.length = payloads.length ∧
          ∀ i (h : i < payloads.length) (h' : i < outputs.length),
            f.outputCodec.decode payloads[i] = .ok outputs[i]) ∧
        ∀ position reason, FailsFirst f.outputCodec.decode payloads position reason →
          f.decodeOutputs payloads =
            .error (.error (.transfer s!"result of computation {position}" reason)) := by
  refine ⟨?_, ?_, ?_, ?_⟩
  · intro reason hstate
    exact refuses_of_error hworkers (WorkFunction.encodeTasks_of_state hstate)
  · intro statePayload position reason hstate hfails
    exact refuses_of_error hworkers (WorkFunction.encodeTasks_of_input hstate hfails)
  · intro statePayload hstate hinputs
    exact WorkFunction.exists_encodeTasks hstate hinputs hlength
  · intro payloads
    refine ⟨fun outputs => WorkFunction.decodeOutputs_eq_ok_iff, ?_⟩
    intro position reason hfails
    exact WorkFunction.decodeOutputs_of_output hfails

/-- Two of four handles are open, and the program of the workers does not exist; then the state is
sealed, and there are no handles. -/
theorem transfer_errors_precise_of_open_handles :
    let host : Host := ⟨.error .missing, fun _ => .missing, id, ⟨0, 0⟩, false⟩
    let graph : Backend := ⟨.taskGraph true (some ⟨"nowhere", []⟩), 2, [], rfl⟩
    let handles : List Int64 := [1, -1, 5, -2]
    graph.Refuses host Diagnostic.close false handles
        (.transfer "computation 1" "open handles cannot leave this process") ∧
      graph.Refuses host Diagnostic.close true []
        (.transfer "work function 'close'" "sealed state") := by
  intro host graph handles
  have hworkers : graph.strategy ≠ .serial := by
    intro h
    cases h
  have hfails : FailsFirst Diagnostic.close.inputCodec.encode handles 1
      "open handles cannot leave this process" := by
    refine ⟨⟨(-1 : Int64), rfl, rfl⟩, ?_⟩
    intro i hi hbefore
    obtain rfl : i = 0 := Nat.lt_one_iff.mp hbefore
    exact ⟨_, rfl⟩
  obtain ⟨-, hinput, -⟩ := @transfer_errors_precise graph hworkers host Diagnostic.close false
    handles (by decide)
  obtain ⟨hstate, -⟩ := @transfer_errors_precise graph hworkers host Diagnostic.close true []
    (by decide)
  exact ⟨hinput _ 1 _ rfl hfails, hstate _ rfl⟩

end Backend

end Fanout

import Fanout.Proofs.Partition
import Fanout.Proofs.Registry.Invocation

/-!
# Computations in transfer form

If the codecs of state, inputs and outputs are lossless, the tasks contain the computations
(`WorkFunction.exists_encodeTasks`), a registry that contains the function answers a task as the
function does (`Registry.invoke_of_ok`, `Registry.invoke_of_error`), and the outputs are decoded to
what was encoded (`WorkFunction.decodeOutputs_eq_ok_iff`).

If nothing is known about the codecs except that they do not panic, encoding returns tasks in order
or an error (`WorkFunction.encodeTasks_cases`), and decoding returns outputs in order or an error
(`WorkFunction.decodeOutputs_cases`).
-/

namespace Fanout

/-- `value` has a payload, which decodes to it. -/
def Codec.Survives {α : Type} (codec : Codec α) (value : α) : Prop :=
  ∃ payload, codec.encode value = .ok payload ∧ codec.decode payload = .ok value

def Attempt.Returns {α : Type} (attempt : Attempt α) : Prop :=
  ∀ cause, attempt ≠ .error (.panic cause)

/-- Codecs of a schema never panic. -/
theorem Codec.returns_ofSchema {α : Type} (schema : MessagePack.Schema α) :
    (∀ value, ((ofSchema schema).encode value).Returns) ∧
      ∀ payload, ((ofSchema schema).decode payload).Returns := by
  constructor
  · intro value cause h
    cases h
  · intro payload cause h
    obtain ⟨error, -, h⟩ := Traversal.mapError_eq_error_iff.mp h
    cases h

/-- The `Failure` of an attempt that `Returns` is an error. -/
theorem Attempt.Returns.exists_error {α : Type} {attempt : Attempt α} (h : attempt.Returns)
    {subject : String} {failure : Failure}
    (hfailure : attempt.mapError (Mishap.toFailure subject) = .error failure) :
    ∃ error, failure = .error error := by
  obtain ⟨mishap, hattempt, rfl⟩ := Traversal.mapError_eq_error_iff.mp hfailure
  cases mishap with
  | error message => exact ⟨_, rfl⟩
  | panic cause => exact absurd hattempt (h cause)

namespace WorkFunction

variable {f : WorkFunction} {state : f.State} {inputs : List f.Input} {input : f.Input}

/-- `task` decodes to the computation at `position`. -/
structure Carries (f : WorkFunction) (state : f.State) (input : f.Input) (position : Nat)
    (task : Envelope) : Prop where
  /-- Its index is the position. -/
  index : task.index.toNat = position
  /-- Its function is that of the computation. -/
  function : task.function = f.name
  state : f.stateCodec.decode task.state = .ok state
  input : f.inputCodec.decode task.input = .ok input

/-- `encodeTasks` makes a task for each input, with its position, the name of the function and the
payloads of the state and the input. -/
theorem encodeTasks_eq_ok {tasks : List Envelope} (h : f.encodeTasks state inputs = .ok tasks) :
    tasks.length = inputs.length ∧ ∀ i (h : i < inputs.length) (h' : i < tasks.length),
      ∃ statePayload inputPayload, f.stateCodec.encode state = .ok statePayload ∧
        f.inputCodec.encode inputs[i] = .ok inputPayload ∧
        tasks[i] = ⟨UInt64.ofNat i, f.name, statePayload, inputPayload⟩ := by
  obtain ⟨statePayload, hstate, h⟩ := Traversal.bind_eq_ok_iff.mp h
  obtain ⟨hlength, hget⟩ := Traversal.mapM_zipIdx_eq_ok_iff.mp h
  refine ⟨hlength, fun i hi hi' => ?_⟩
  obtain ⟨inputPayload, hinput, htask⟩ := Traversal.bind_eq_ok_iff.mp (hget i hi hi')
  exact ⟨statePayload, inputPayload, Traversal.mapError_eq_ok_iff.mp hstate,
    Traversal.mapError_eq_ok_iff.mp hinput, (Except.ok.inj htask).symm⟩

/-- Every task has the name of the function. -/
theorem function_of_encodeTasks {tasks : List Envelope}
    (h : f.encodeTasks state inputs = .ok tasks) : ∀ task ∈ tasks, task.function = f.name := by
  obtain ⟨hlength, hget⟩ := encodeTasks_eq_ok h
  intro task hmem
  obtain ⟨i, hi, rfl⟩ := List.getElem_of_mem hmem
  obtain ⟨statePayload, inputPayload, -, -, htask⟩ := hget i (hlength ▸ hi) hi
  rw [htask]

/-- Up to `wordLimit` tasks are indexed by their positions. -/
theorem index_of_encodeTasks {tasks : List Envelope} (h : f.encodeTasks state inputs = .ok tasks)
    (hlength : inputs.length ≤ wordLimit) (i : Nat) (hi : i < tasks.length) :
    tasks[i].index.toNat = i := by
  obtain ⟨hlen, hget⟩ := encodeTasks_eq_ok h
  rw [hlen] at hi
  obtain ⟨statePayload, inputPayload, -, -, htask⟩ := hget i hi (hlen ▸ hi)
  rw [htask]
  exact UInt64.toNat_ofNat_of_lt' (Nat.lt_of_lt_of_le hi hlength)

/-- `encodeTasks` succeeds if the state and all inputs can be encoded. -/
theorem exists_encodeTasks {statePayload : Payload}
    (hstate : f.stateCodec.encode state = .ok statePayload)
    (hinputs : ∀ input ∈ inputs, ∃ payload, f.inputCodec.encode input = .ok payload)
    (hlength : inputs.length < listLimit) :
    ∃ tasks, f.encodeTasks state inputs = .ok tasks ∧ tasks.length = inputs.length ∧
      ∀ i (h : i < inputs.length) (h' : i < tasks.length),
        tasks[i].index.toNat = i ∧ tasks[i].function = f.name ∧ tasks[i].state = statePayload ∧
          f.inputCodec.encode inputs[i] = .ok tasks[i].input := by
  -- nothing fails to be encoded, so there are tasks
  have hexists : ∃ tasks, f.encodeTasks state inputs = .ok tasks := by
    rw [encodeTasks, hstate]
    refine Traversal.exists_mapM_zipIdx fun i h => ?_
    obtain ⟨payload, hpayload⟩ := hinputs inputs[i] (List.getElem_mem h)
    dsimp only
    rw [hpayload]
    exact ⟨_, rfl⟩
  obtain ⟨tasks, htasks⟩ := hexists
  obtain ⟨hlen, hget⟩ := encodeTasks_eq_ok htasks
  refine ⟨tasks, htasks, hlen, ?_⟩
  intro i h h'
  have hindex := index_of_encodeTasks htasks
    (Nat.le_of_lt (Nat.lt_trans hlength listLimit_lt_wordLimit)) i h'
  obtain ⟨statePayload', inputPayload, hstate', hinput, htask⟩ := hget i h h'
  rw [hstate] at hstate'
  cases hstate'
  rw [htask] at hindex ⊢
  exact ⟨hindex, rfl, rfl, hinput⟩

/-- If the state and the inputs survive their transfer, `encodeTasks` succeeds and each task
`Carries` its computation. -/
theorem exists_encodeTasks_carrying (hstate : f.stateCodec.Survives state)
    (hinputs : ∀ input ∈ inputs, f.inputCodec.Survives input)
    (hlength : inputs.length < listLimit) :
    ∃ tasks, f.encodeTasks state inputs = .ok tasks ∧ tasks.length = inputs.length ∧
      ∀ i (h : i < inputs.length) (h' : i < tasks.length),
        f.Carries state inputs[i] i tasks[i] := by
  obtain ⟨statePayload, hencode, hdecode⟩ := hstate
  obtain ⟨tasks, htasks, hlen, hget⟩ := exists_encodeTasks hencode
    (fun input hmem => (hinputs input hmem).imp fun _ h => h.1) hlength
  refine ⟨tasks, htasks, hlen, ?_⟩
  intro i h h'
  obtain ⟨hindex, hfunction, hstate, hinput⟩ := hget i h h'
  obtain ⟨inputPayload, hpayload, hread⟩ := hinputs inputs[i] (List.getElem_mem h)
  -- what the task holds is what the codecs read back
  rw [hpayload] at hinput
  refine ⟨hindex, hfunction, ?_, ?_⟩
  · rw [hstate, hdecode]
  · rw [← Except.ok.inj hinput, hread]

/-- If encoding does not panic, `encodeTasks` succeeds or has an error. -/
theorem encodeTasks_cases (hstate : (f.stateCodec.encode state).Returns)
    (hinputs : ∀ input ∈ inputs, (f.inputCodec.encode input).Returns) :
    (∃ error, f.encodeTasks state inputs = .error (.error error)) ∨
      ∃ tasks, f.encodeTasks state inputs = .ok tasks := by
  cases htasks : f.encodeTasks state inputs with
  | ok tasks => exact .inr ⟨tasks, rfl⟩
  | error failure =>
    left
    rcases Traversal.bind_eq_error_iff.mp htasks with h | ⟨statePayload, -, h⟩
    · obtain ⟨error, rfl⟩ := hstate.exists_error h
      exact ⟨error, rfl⟩
    · obtain ⟨i, hi, h, -⟩ := Traversal.mapM_zipIdx_eq_error_iff.mp h
      rcases Traversal.bind_eq_error_iff.mp h with h | ⟨inputPayload, -, h⟩
      · obtain ⟨error, rfl⟩ := (hinputs _ (List.getElem_mem hi)).exists_error h
        exact ⟨error, rfl⟩
      · cases h

/-- `decodeOutputs` succeeds iff each payload decodes to the output at its position. -/
theorem decodeOutputs_eq_ok_iff {payloads : List Payload} {outputs : List f.Output} :
    f.decodeOutputs payloads = .ok outputs ↔ outputs.length = payloads.length ∧
      ∀ i (h : i < payloads.length) (h' : i < outputs.length),
        f.outputCodec.decode payloads[i] = .ok outputs[i] := by
  rw [decodeOutputs, Traversal.mapM_zipIdx_eq_ok_iff]
  simp only [Traversal.mapError_eq_ok_iff]

/-- If decoding does not panic, `decodeOutputs` succeeds or has an error. -/
theorem decodeOutputs_cases (hdecode : ∀ payload, (f.outputCodec.decode payload).Returns)
    (payloads : List Payload) :
    (∃ error, f.decodeOutputs payloads = .error (.error error)) ∨
      ∃ outputs, f.decodeOutputs payloads = .ok outputs ∧ outputs.length = payloads.length ∧
        ∀ i (h : i < payloads.length) (h' : i < outputs.length),
          f.outputCodec.decode payloads[i] = .ok outputs[i] := by
  cases houtputs : f.decodeOutputs payloads with
  | ok outputs =>
    obtain ⟨hlength, hget⟩ := decodeOutputs_eq_ok_iff.mp houtputs
    exact .inr ⟨outputs, rfl, hlength, hget⟩
  | error failure =>
    obtain ⟨i, hi, h, -⟩ := Traversal.mapM_zipIdx_eq_error_iff.mp houtputs
    obtain ⟨error, rfl⟩ := (hdecode _).exists_error h
    exact .inl ⟨error, rfl⟩

end WorkFunction

namespace Registry

variable {registry : Registry} {f : WorkFunction} {state : f.State} {input : f.Input}
  {position : Nat} {task : Envelope}

/-- `invoke` on a task completes with the payload of the output, if the call has one. -/
theorem invoke_of_ok (hfind : registry.find? f.name = some f)
    (hcarries : f.Carries state input position task) {output : f.Output}
    (hcall : f.callCaught state input = .ok output) {payload : Payload}
    (houtput : f.outputCodec.encode output = .ok payload) :
    registry.invoke task = .completed task.index payload := by
  refine invoke_eq_completed_iff.mpr ⟨f, by rw [hcarries.function, hfind], ?_⟩
  exact WorkFunction.handle_eq_ok_iff.mpr ⟨state, input, output, ⟨hcarries.state, hcarries.input⟩,
    WorkFunction.callCaught_eq_ok_iff.mp hcall, houtput⟩

/-- `invoke` on a task fails with the text of the failure, if the call fails. -/
theorem invoke_of_error (hfind : registry.find? f.name = some f)
    (hcarries : f.Carries state input position task) {message : String}
    (hcall : f.callCaught state input = .error message) :
    registry.invoke task = .failed task.index .execution message := by
  refine invoke_eq_failed_iff.mpr (.inr ⟨f, by rw [hcarries.function, hfind], ?_⟩)
  exact WorkFunction.handle_eq_error_iff.mpr
    (.inl ⟨state, input, message, ⟨hcarries.state, hcarries.input⟩, hcall, rfl⟩)

end Registry

end Fanout

import Fanout.Function.Diagnostic
import Fanout.Proofs.Traversal
import Fanout.Registry

/-!
# What becomes of an envelope

`invocation_classified` gives the response of a registry to an envelope by the stages of the call:
the function is looked up, the state and the input are decoded, the function is called, and its
output is encoded. `WorkFunction.Reaches` says that the call takes place, and `WorkFunction.Breaks`
that decoding or encoding fails.
-/

namespace Fanout

/-- The conversions of a remote call. -/
inductive Conversion where
  /-- The state is decoded. -/
  | state
  /-- The input is decoded. -/
  | input
  /-- The output is encoded. -/
  | output
deriving DecidableEq, Repr

/-- The purpose of a conversion in the failure text. -/
def Conversion.purpose : Conversion → String
  | state => "decode state of"
  | input => "decode input for"
  | output => "encode output of"

namespace WorkFunction

/-- The payloads decode to `state` and `input`, so the call is reached with them. -/
structure Reaches (f : WorkFunction) (statePayload inputPayload : Payload) (state : f.State)
    (input : f.Input) : Prop where
  state : f.stateCodec.decode statePayload = .ok state
  input : f.inputCodec.decode inputPayload = .ok input

/-- A conversion is reached, and its codec reports `mishap`. -/
inductive Breaks (f : WorkFunction) (statePayload inputPayload : Payload) :
    Conversion → Mishap → Prop
  | state {mishap : Mishap} (h : f.stateCodec.decode statePayload = .error mishap) :
      Breaks f statePayload inputPayload .state mishap
  | input {mishap : Mishap} (state : f.State)
      (hstate : f.stateCodec.decode statePayload = .ok state)
      (h : f.inputCodec.decode inputPayload = .error mishap) :
      Breaks f statePayload inputPayload .input mishap
  | output {mishap : Mishap} (state : f.State) (input : f.Input) (output : f.Output)
      (hreaches : f.Reaches statePayload inputPayload state input)
      (hcall : f.call state input = .ok output)
      (h : f.outputCodec.encode output = .error mishap) :
      Breaks f statePayload inputPayload .output mishap

variable {f : WorkFunction} {statePayload inputPayload : Payload}

/-- `callCaught` has the outputs of `call`. -/
theorem callCaught_eq_ok_iff {state : f.State} {input : f.Input} {output : f.Output} :
    f.callCaught state input = .ok output ↔ f.call state input = .ok output :=
  Traversal.mapError_eq_ok_iff

/-- `handle` has a payload iff the call is reached, has an output, and this has the payload. -/
theorem handle_eq_ok_iff {payload : Payload} :
    f.handle statePayload inputPayload = .ok payload ↔
      ∃ state input output, f.Reaches statePayload inputPayload state input ∧
        f.call state input = .ok output ∧ f.outputCodec.encode output = .ok payload := by
  simp only [handle, Traversal.bind_eq_ok_iff, Traversal.mapError_eq_ok_iff, callCaught_eq_ok_iff]
  constructor
  · rintro ⟨state, hstate, input, hinput, output, hcall, hpayload⟩
    exact ⟨state, input, output, ⟨hstate, hinput⟩, hcall, hpayload⟩
  · rintro ⟨state, input, output, hreaches, hcall, hpayload⟩
    exact ⟨state, hreaches.state, input, hreaches.input, output, hcall, hpayload⟩

/-- `handle` fails iff the call is reached and fails, or a conversion `Breaks`. -/
theorem handle_eq_error_iff {failure : FailureKind × String} :
    f.handle statePayload inputPayload = .error failure ↔
      (∃ state input message, f.Reaches statePayload inputPayload state input ∧
          f.callCaught state input = .error message ∧ failure = (.execution, message)) ∨
        ∃ conversion mishap, f.Breaks statePayload inputPayload conversion mishap ∧
          failure = f.stageFailure conversion.purpose mishap := by
  simp only [handle, Traversal.bind_eq_error_iff, Traversal.mapError_eq_ok_iff,
    Traversal.mapError_eq_error_iff]
  constructor
  · rintro (⟨mishap, h, rfl⟩ | ⟨state, hstate, ⟨mishap, h, rfl⟩ | ⟨input, hinput, h⟩⟩)
    · exact .inr ⟨.state, mishap, .state h, rfl⟩
    · exact .inr ⟨.input, mishap, .input state hstate h, rfl⟩
    · rcases h with ⟨message, h, rfl⟩ | ⟨output, hcall, mishap, h, rfl⟩
      · exact .inl ⟨state, input, message, ⟨hstate, hinput⟩, h, rfl⟩
      · refine .inr ⟨.output, mishap, ?_, rfl⟩
        exact .output state input output ⟨hstate, hinput⟩ (callCaught_eq_ok_iff.mp hcall) h
  · rintro (⟨state, input, message, hreaches, h, rfl⟩ | ⟨conversion, mishap, h, rfl⟩)
    · exact .inr ⟨state, hreaches.state, .inr ⟨input, hreaches.input, .inl ⟨message, h, rfl⟩⟩⟩
    · -- the error of a conversion is the response
      cases h with
      | state h => exact .inl ⟨mishap, h, rfl⟩
      | input state hstate h => exact .inr ⟨state, hstate, .inl ⟨mishap, h, rfl⟩⟩
      | output state input output hreaches hcall h =>
        have hcaught := callCaught_eq_ok_iff.mpr hcall
        exact .inr ⟨state, hreaches.state,
          .inr ⟨input, hreaches.input, .inr ⟨output, hcaught, mishap, h, rfl⟩⟩⟩

end WorkFunction

namespace Registry

variable {registry : Registry} {envelope : Envelope}

/-- `invoke` responds under the index of the envelope. -/
theorem index_invoke (registry : Registry) (envelope : Envelope) :
    (registry.invoke envelope).index = envelope.index := by
  rw [invoke]
  split
  · rfl
  · split <;> rfl

theorem invoke_eq_completed_iff {output : Payload} :
    registry.invoke envelope = .completed envelope.index output ↔
      ∃ f, registry.find? envelope.function = some f ∧
        f.handle envelope.state envelope.input = .ok output := by
  rw [invoke]
  cases registry.find? envelope.function with
  | none => simp
  | some f => cases hhandle : f.handle envelope.state envelope.input <;> simp [hhandle]

theorem invoke_eq_failed_iff {kind : FailureKind} {message : String} :
    registry.invoke envelope = .failed envelope.index kind message ↔
      (registry.find? envelope.function = none ∧ kind = .transfer ∧
          message = s!"work function '{envelope.function}' is not registered in this worker") ∨
        ∃ f, registry.find? envelope.function = some f ∧
          f.handle envelope.state envelope.input = .error (kind, message) := by
  rw [invoke]
  cases registry.find? envelope.function with
  | none => simp [eq_comm]
  | some f =>
    cases hhandle : f.handle envelope.state envelope.input <;> simp [hhandle, Prod.ext_iff]

/-- For every registry and every envelope, `invoke` responds under the index of the envelope. The
response is completed iff there is a function of the name, its call is reached, and the output has
the payload. It is an execution failure iff the call is reached and fails, with the text of
`callCaught`, or a conversion `Breaks` by a panic. It is a transfer failure iff there is no function
of the name or a conversion `Breaks` with an error. -/
theorem invocation_classified (registry : Registry) (envelope : Envelope) :
    (registry.invoke envelope).index = envelope.index ∧
      (∀ payload, registry.invoke envelope = .completed envelope.index payload ↔
        ∃ f, registry.find? envelope.function = some f ∧
          ∃ state input output, f.Reaches envelope.state envelope.input state input ∧
            f.call state input = .ok output ∧ f.outputCodec.encode output = .ok payload) ∧
      (∀ message, registry.invoke envelope = .failed envelope.index .execution message ↔
        ∃ f, registry.find? envelope.function = some f ∧
          ((∃ state input, f.Reaches envelope.state envelope.input state input ∧
              f.callCaught state input = .error message) ∨
            ∃ conversion cause,
              f.Breaks envelope.state envelope.input conversion (.panic cause) ∧
                message = s!"work function '{f.name}' panicked: {cause.message}")) ∧
      ∀ message, registry.invoke envelope = .failed envelope.index .transfer message ↔
        (registry.find? envelope.function = none ∧
            message = s!"work function '{envelope.function}' is not registered in this worker") ∨
          ∃ f, registry.find? envelope.function = some f ∧
            ∃ conversion reason,
              f.Breaks envelope.state envelope.input conversion (.error reason) ∧
                message = s!"cannot {conversion.purpose} work function '{f.name}': {reason}" := by
  refine ⟨index_invoke registry envelope, ?_, ?_, ?_⟩
  · intro payload
    simp only [invoke_eq_completed_iff, WorkFunction.handle_eq_ok_iff]
  · intro message
    rw [invoke_eq_failed_iff]
    constructor
    · rintro (⟨-, hkind, -⟩ | ⟨f, hfind, h⟩)
      · cases hkind
      · refine ⟨f, hfind, ?_⟩
        rcases WorkFunction.handle_eq_error_iff.mp h with
          ⟨state, input, text, hreaches, hcall, heq⟩ | ⟨conversion, mishap, hbreaks, heq⟩
        · cases heq
          exact .inl ⟨state, input, hreaches, hcall⟩
        · -- an error of a conversion would be a failure of the transfer
          cases mishap <;> cases heq
          exact .inr ⟨conversion, _, hbreaks, rfl⟩
    · rintro ⟨f, hfind, h⟩
      refine .inr ⟨f, hfind, WorkFunction.handle_eq_error_iff.mpr ?_⟩
      rcases h with ⟨state, input, hreaches, hcall⟩ | ⟨conversion, cause, hbreaks, rfl⟩
      · exact .inl ⟨state, input, message, hreaches, hcall, rfl⟩
      · exact .inr ⟨conversion, .panic cause, hbreaks, rfl⟩
  · intro message
    rw [invoke_eq_failed_iff]
    constructor
    · rintro (⟨hfind, -, hmessage⟩ | ⟨f, hfind, h⟩)
      · exact .inl ⟨hfind, hmessage⟩
      · refine .inr ⟨f, hfind, ?_⟩
        rcases WorkFunction.handle_eq_error_iff.mp h with
          ⟨_, _, _, _, _, heq⟩ | ⟨conversion, mishap, hbreaks, heq⟩
        · cases heq
        · cases mishap <;> cases heq
          exact ⟨conversion, _, hbreaks, rfl⟩
    · rintro (⟨hfind, hmessage⟩ | ⟨f, hfind, conversion, reason, hbreaks, rfl⟩)
      · exact .inl ⟨hfind, rfl, hmessage⟩
      · refine .inr ⟨f, hfind, WorkFunction.handle_eq_error_iff.mpr ?_⟩
        exact .inr ⟨conversion, .error reason, hbreaks, rfl⟩

/-- A panic in the decoding of the input is an execution failure. -/
example : (ofList [Diagnostic.close]).invoke ⟨3, "close", ⟨[0x91, 0xc2]⟩, ⟨[13]⟩⟩ =
    .failed 3 .execution "work function 'close' panicked: handle 13 cannot be reopened" := by
  rfl

end Registry

end Fanout

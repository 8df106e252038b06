import Fanout.Proofs.Schedule.Delivery
import Mathlib.Data.List.Nodup
import Mathlib.Data.List.Perm.Subperm

/-!
# Outputs and the slots of their indices

A worker may answer a task under any index. The outputs received are a permutation of those answered
(`Course.received_perm`); while no failure is met, there is one answer for each task that was
started and is not running (`Course.running_add_length_answers`); and at the end a slot is filled
iff an answer carried its index (`Course.slot_filled_iff`). `outputs_eq_answers` concludes that an
evaluation returns outputs only if the answers carry each position once.
-/

namespace Fanout.Schedule

open Traversal

/-! ## The answers of a run -/

/-- The output of an event that is a completed answer, with its index. -/
def Event.output? : Event → Option (UInt64 × Payload)
  | .answer result => (result.bind Response.output).toOption
  | _ => none

/-- The output of a move that is a completed answer, with its index. -/
def Move.output? : Move → Option (UInt64 × Payload)
  | .driver _ event => event.output?
  | _ => none

/-- The outputs of the completed answers in `moves`, with their indices, in order. -/
def answers (moves : List Move) : List (UInt64 × Payload) := moves.filterMap Move.output?

/-- The indices of `answers`. -/
def answerIndices (moves : List Move) : List Nat :=
  (answers moves).map fun output => output.1.toNat

@[simp]
theorem answers_concat (moves : List Move) (move : Move) :
    answers (moves ++ [move]) = answers moves ++ move.output?.toList := by
  rw [answers, List.filterMap_append]
  congr 1

/-- Whether a driver in a phase waits for an answer. -/
def Phase.isRunning : Phase → Bool
  | running _ => true
  | _ => false

namespace Driver

/-- Counts a driver that waits for an answer. -/
def running (driver : Driver) : Nat := driver.phase.isRunning.toNat

variable {id : Nat} {shared shared' : Shared} {driver driver' : Driver} {event : Event}

@[simp]
theorem isRunning_resume (driver : Driver) : driver.resume.phase.isRunning = false := by
  rw [resume]
  split <;> rfl

/-- A step of a driver adds the output of its event to the outputs of the driver. -/
theorem Step.outputs_append (h : Step id shared driver event shared' driver') :
    driver'.outputs = driver.outputs ++ event.output?.toList := by
  cases h with
  | completed position result output hphase hresult =>
    simp [Event.output?, hresult, Except.toOption, resume, enter]
  | failed position result error hphase hresult =>
    simp [Event.output?, hresult, Except.toOption, enter]
  | recordLater | cancel => simp [Event.output?]
  | _ => simp [Event.output?, enter, hold, resume]

/-- Without a failure, a driver is running from the start of a task to its output. -/
theorem Step.running_add (h : Step id shared driver event shared' driver')
    (hcancelled : shared.cancelled = false) (hevent : event.failure? = none)
    (hcalm : driver.phase.isCalm) :
    driver'.running + event.output?.toList.length + shared.runs.length =
      driver.running + shared'.runs.length := by
  cases h with
  | start hphase hrest =>
    simp [running, hphase, enter, Phase.isRunning, Event.output?, Shared.runs, Shared.noting,
      Act.run?]
    omega
  | completed position result output hphase hresult =>
    rw [running, running, isRunning_resume, hphase, Event.output?, hresult]
    show 0 + 1 + shared.runs.length = 1 + shared.runs.length
    rw [Nat.zero_add]
  | take unit queue hphase =>
    rw [running, running, hold, isRunning_resume, hphase]
    rfl
  | failed position result error hphase hresult => simp [Event.failure?, hresult] at hevent
  | refused | unclosed | crash => cases hevent
  -- what needs a cancellation or an earlier failure does not happen
  | skip _ hc | lookAway _ hc | abandon _ hc | expel _ hc => simp [hcancelled] at hc
  | terminated hphase | recordFirst _ _ hphase | recordLater _ _ hphase | cancel _ hphase =>
    rw [hphase] at hcalm
    cases hcalm
  | launch hphase | launched hphase | lookOn hphase | exhausted hphase | dismiss hphase
  | closed hphase =>
    simp [running, hphase, enter, Phase.isRunning, Event.output?, Shared.runs, Shared.noting,
      Act.run?]

end Driver

namespace State

variable {state next : State} {move : Move}

/-- The outputs of all drivers, in the order of the drivers. -/
def received (state : State) : List (UInt64 × Payload) := state.drivers.flatMap Driver.outputs

/-- A step adds the output of its move to `received`. -/
theorem Step.received_perm (h : Step state move next) :
    next.received.Perm (state.received ++ move.output?.toList) := by
  cases h with
  | driver id event driver driver' shared' _ hget hstep =>
    exact flatMap_set_perm hget hstep.outputs_append
  | collect id driver _ _ hget | overrun id driver _ _ hget | lose id driver _ _ hget =>
    exact flatMap_set_perm hget (List.append_nil _).symm
  | recordFirst | recordLater | cancel => simp [received, Move.output?]

/-- Without a failure, each task that was started is running or answered. -/
theorem Step.running_add (h : Step state move next) (hcalm : state.Calm)
    (hmove : move.failure? = none) :
    tally Driver.running next.drivers + move.output?.toList.length + state.shared.runs.length =
      tally Driver.running state.drivers + next.shared.runs.length := by
  cases h with
  | driver id event driver driver' shared' _ hget hstep =>
    have hdriver := hstep.running_add hcalm.cancelled hmove
      (hcalm.drivers driver (List.mem_of_getElem? hget)).phase
    have hset := tally_set Driver.running (b := driver') hget
    simp only [withDriver, Move.output?]
    omega
  | collect id driver _ _ hget hphase | overrun id driver _ _ hget hphase
  | lose id driver _ _ hget hphase =>
    -- whoever is collected waits for no answer
    have hset := tally_set Driver.running (b := driver.enter .joined) hget
    have hbefore : driver.running = 0 := by simp [Driver.running, hphase, Phase.isRunning]
    have hafter : (driver.enter .joined).running = 0 := rfl
    simp only [withDriver, Move.output?, Option.toList_none, List.length_nil]
    omega
  | recordFirst | recordLater | cancel =>
    simp [Move.output?, Shared.runs, Shared.cancel, Shared.reporting]

/-- The slots hold the outputs of the joined drivers, under their indices. -/
structure Filed (state : State) : Prop where
  /-- What a slot holds was received under its position. -/
  received : ∀ position payload, state.slots[position]? = some (some payload) →
    ∃ output ∈ state.received, output.1.toNat = position ∧ output.2 = payload
  /-- As long as the collector is idle, the slot of each output of a joined driver is filled. -/
  filled : state.collector = .idle → ∀ driver ∈ state.drivers, driver.phase = .joined →
    ∀ output ∈ driver.outputs, ∃ payload, state.slots[output.1.toNat]? = some (some payload)

/-- A step of a calm evaluation without a failure keeps `State.Filed`. -/
theorem Step.filed (h : Step state move next) (hcalm : state.Calm) (hs : state.Filed) :
    next.Filed := by
  -- no step loses what has been received
  have hkeep (output : UInt64 × Payload) (hmem : output ∈ state.received) :
      output ∈ next.received :=
    h.received_perm.mem_iff.mpr (List.mem_append_left _ hmem)
  cases h with
  | driver id event driver driver' shared' _ hget hstep =>
    constructor
    · intro position payload hslot
      obtain ⟨output, hmem, houtput⟩ := hs.received position payload hslot
      exact ⟨output, hkeep output hmem, houtput⟩
    · intro hcollector other hother hphase
      rcases List.mem_or_eq_of_mem_set hother with hother | rfl
      · exact hs.filled hcollector other hother hphase
      · exact absurd hphase hstep.phase_ne_joined
  | collect id driver slots hcollector hget hphase hplace =>
    have hmem := List.mem_of_getElem? hget
    constructor
    · intro position payload hslot
      rcases getElem?_place hplace hslot with hslot | ⟨output, houtput, hindex⟩
      · obtain ⟨output, hmem, houtput⟩ := hs.received position payload hslot
        exact ⟨output, hkeep output hmem, houtput⟩
      · exact ⟨output, hkeep output (List.mem_flatMap.mpr ⟨driver, hmem, houtput⟩), hindex⟩
    · intro _ other hother hjoined output houtput
      apply exists_getElem?_place hplace
      rcases List.mem_or_eq_of_mem_set hother with hother | rfl
      · exact .inl (hs.filled hcollector other hother hjoined output houtput)
      · exact .inr ⟨output, houtput, rfl⟩
  | overrun id driver fault hcollector hget =>
    constructor
    · intro position payload hslot
      obtain ⟨output, hmem, houtput⟩ := hs.received position payload hslot
      exact ⟨output, hkeep output hmem, houtput⟩
    · intro hidle
      cases hidle
  | lose id driver message _ hget hphase =>
    -- no calm driver has panicked
    have hcalm := (hcalm.drivers driver (List.mem_of_getElem? hget)).phase
    rw [hphase] at hcalm
    cases hcalm
  | recordFirst _ hcollector | recordLater _ hcollector | cancel hcollector =>
    rcases hcalm.collector with h | ⟨fault, h⟩ <;> rw [hcollector] at h <;> cases h

/-- If a slot is empty, `outputsFrom` fails and names the first empty one. -/
theorem exists_outputsFrom_eq_error {slots : List (Option Payload)} (n : Nat)
    (hempty : none ∈ slots) :
    ∃ i, slots[i]? = some none ∧ (∀ j < i, ∃ payload, slots[j]? = some (some payload)) ∧
      outputsFrom n slots = .error (.engine s!"task {n + i} produced no result") := by
  induction slots generalizing n with
  | nil => cases hempty
  | cons slot slots ih =>
    cases slot with
    | none => exact ⟨0, rfl, fun j hj => absurd hj (Nat.not_lt_zero j), rfl⟩
    | some output =>
      have hempty : none ∈ slots := by simpa using hempty
      obtain ⟨i, hnone, hbefore, herror⟩ := ih (n + 1) hempty
      refine ⟨i + 1, by simpa using hnone, fun j hj => ?_, ?_⟩
      · cases j with
        | zero => exact ⟨output, rfl⟩
        | succ j => simpa using hbefore j (by omega)
      · rw [outputsFrom, herror, show n + (i + 1) = n + 1 + i by omega]
        rfl

end State

/-- `n` numbers among which are all below `n` are a permutation of `List.range n`. -/
theorem perm_range_of_length_eq {indices : List Nat} {n : Nat} (hlength : indices.length = n)
    (hall : ∀ i < n, i ∈ indices) : indices.Perm (List.range n) := by
  have hsub : (List.range n).Subperm indices :=
    List.subperm_of_subset List.nodup_range fun i hi => hall i (List.mem_range.mp hi)
  exact (hsub.perm_of_length_le (by simp [hlength])).symm

namespace Course

variable {permits : Nat → Phase → Event → Prop} {start state : State} {moves : List Move}
  {tasks : Nat} {options : Options}

/-- `received` after a course is a permutation of `answers`. -/
theorem received_perm (h : Course permits start moves state)
    (hstart : State.start tasks options = .ok start) : state.received.Perm (answers moves) := by
  induction h with
  | nil =>
    obtain ⟨units, drivers, rfl, -⟩ := State.start_eq_ok hstart
    simp [State.received, State.initial, Driver.initial, answers]
  | concat before hstep _ ih =>
    rw [answers_concat]
    exact (State.step_of_step? hstep).received_perm.trans (ih.append_right _)

/-- Without failures, each task that was started is running or answered. -/
theorem running_add_length_answers (h : Course permits start moves state)
    (hstart : State.start tasks options = .ok start) (hnone : failures moves = []) :
    tally Driver.running state.drivers + (answers moves).length = state.shared.started.length := by
  rw [Shared.started, List.length_map]
  induction h with
  | nil =>
    obtain ⟨units, drivers, rfl, -⟩ := State.start_eq_ok hstart
    have hzero : tally Driver.running (List.replicate drivers .initial) = 0 := by
      refine (tally_eq_zero_iff _).mpr fun driver hmem => ?_
      rw [List.eq_of_mem_replicate hmem]
      rfl
    exact hzero
  | @concat moves state next move before hstep _ ih =>
    rw [failures_concat, List.append_eq_nil_iff] at hnone
    have hmove : move.failure? = none := by simpa using hnone.2
    have hstep := (State.step_of_step? hstep).running_add (before.calm hstart hnone.1) hmove
    have hbefore := ih hnone.1
    rw [answers_concat, List.length_append]
    omega

/-- A course without failures keeps `State.Filed`. -/
theorem filed (h : Course permits start moves state)
    (hstart : State.start tasks options = .ok start) (hnone : failures moves = []) :
    state.Filed := by
  induction h with
  | nil =>
    obtain ⟨units, drivers, rfl, -⟩ := State.start_eq_ok hstart
    constructor
    · intro position payload hslot
      cases List.eq_of_mem_replicate (List.mem_of_getElem? hslot)
    · intro _ driver hmem
      rw [List.eq_of_mem_replicate hmem]
      intro hphase
      cases hphase
  | @concat moves state next move before hstep _ ih =>
    rw [failures_concat, List.append_eq_nil_iff] at hnone
    exact (State.step_of_step? hstep).filed (before.calm hstart hnone.1) (ih hnone.1)

/-- If the collector has faulted, an answer has an index that is not below the number of tasks. -/
theorem exists_answer_of_faulted (h : Course permits start moves state)
    (hstart : State.start tasks options = .ok start) {fault : Fault}
    (hfault : state.collector = .faulted fault) :
    ∃ output ∈ answers moves, tasks ≤ output.1.toNat := by
  induction h with
  | nil =>
    obtain ⟨units, drivers, rfl, -⟩ := State.start_eq_ok hstart
    cases hfault
  | @concat moves state next move before hstep _ ih =>
    have hearlier (hfault : state.collector = .faulted fault) :
        ∃ output ∈ answers (moves ++ [move]), tasks ≤ output.1.toNat := by
      obtain ⟨output, hmem, hle⟩ := ih hfault
      rw [answers_concat]
      exact ⟨output, List.mem_append_left _ hmem, hle⟩
    cases State.step_of_step? hstep with
    | driver | collect => exact hearlier hfault
    | overrun id driver fault hcollector hget hphase hplace =>
      -- otherwise all outputs of the driver would have found their slots
      by_contra hall
      simp only [not_exists, not_and, Nat.not_le] at hall
      have hslots : ∀ output ∈ driver.outputs, output.1.toNat < state.slots.length := by
        intro output houtput
        rw [(before.sourced hstart).length]
        apply hall
        rw [answers_concat]
        apply List.mem_append_left
        apply (before.received_perm hstart).mem_iff.mp
        exact List.mem_flatMap.mpr ⟨driver, List.mem_of_getElem? hget, houtput⟩
      obtain ⟨slots, hslots⟩ := State.exists_place hslots
      rw [hplace] at hslots
      cases hslots
    | lose | recordFirst | recordLater | cancel => cases hfault

section Final

variable (h : Course permits start moves state)
  (hstart : State.start tasks options = .ok start) (hnone : failures moves = [])
  (hjoined : ∀ driver ∈ state.drivers, driver.phase = .joined)

include h hstart hnone hjoined

/-- An evaluation that has ended without failures has one answer for each task. -/
theorem length_answers : (answers moves).length = tasks := by
  have hzero : tally Driver.running state.drivers = 0 := by
    refine (tally_eq_zero_iff _).mpr fun driver hmem => ?_
    rw [Driver.running, hjoined driver hmem]
    rfl
  have hstarted := (h.started_perm hstart (h.calm hstart hnone) hjoined).length_eq
  have hrunning := h.running_add_length_answers hstart hnone
  rw [List.length_range] at hstarted
  omega

/-- In an evaluation that has ended without failures, a slot is filled iff an answer has its
index. -/
theorem slot_filled_iff (hcollector : state.collector = .idle) {position : Nat} :
    (∃ payload, state.slots[position]? = some (some payload)) ↔
      position ∈ answerIndices moves := by
  have hfiled := h.filed hstart hnone
  have hreceived := h.received_perm hstart
  rw [answerIndices, List.mem_map]
  constructor
  · rintro ⟨payload, hslot⟩
    obtain ⟨output, hmem, hindex, -⟩ := hfiled.received position payload hslot
    exact ⟨output, hreceived.mem_iff.mp hmem, hindex⟩
  · rintro ⟨output, hmem, rfl⟩
    obtain ⟨driver, hdriver, houtput⟩ := List.mem_flatMap.mp (hreceived.mem_iff.mpr hmem)
    exact hfiled.filled hcollector driver hdriver (hjoined driver hdriver) output houtput

/-- If no slot is empty in the end, `answerIndices` is a permutation of the positions. -/
theorem answerIndices_perm (hcollector : state.collector = .idle) (hfull : none ∉ state.slots) :
    (answerIndices moves).Perm (List.range tasks) := by
  -- there are as many answers as slots, so none is left over once each slot has one
  have hcount := h.length_answers hstart hnone hjoined
  apply perm_range_of_length_eq (by simp [answerIndices, hcount])
  intro i hi
  apply (h.slot_filled_iff hstart hnone hjoined hcollector).mp
  rw [← (h.sourced hstart).length] at hi
  cases hslot : state.slots[i] with
  | none => exact absurd (hslot ▸ List.getElem_mem hi) hfull
  | some payload => exact ⟨payload, by rw [List.getElem?_eq_getElem hi, hslot]⟩

/-- The outputs of a result are those of `answers`, each at its index. -/
theorem outputs_of_result {outputs : List Payload} (hcollector : state.collector = .idle)
    (hresult : state.result = .ok outputs) :
    outputs.length = tasks ∧ (answerIndices moves).Perm (List.range tasks) ∧
      ∀ output ∈ answers moves, outputs[output.1.toNat]? = some output.2 := by
  have hslots : state.slots = outputs.map some := by
    rw [State.result, hcollector, (h.calm hstart hnone).cancelled, if_neg Bool.false_ne_true,
      mapError_eq_ok_iff] at hresult
    exact (State.outputsFrom_eq_ok_iff 0).mp hresult
  have hperm := h.answerIndices_perm hstart hnone hjoined hcollector (by simp [hslots])
  refine ⟨by rw [← (h.sourced hstart).length, hslots, List.length_map], hperm, ?_⟩
  intro output hmem
  -- the slot holds the output of some answer with this index, and there is only one
  have hindex : output.1.toNat ∈ answerIndices moves := List.mem_map_of_mem hmem
  obtain ⟨payload, hslot⟩ := (h.slot_filled_iff hstart hnone hjoined hcollector).mpr hindex
  obtain ⟨other, hother, hsame, rfl⟩ := (h.filed hstart hnone).received _ _ hslot
  have hother := (h.received_perm hstart).mem_iff.mp hother
  have hnodup : (answerIndices moves).Nodup := hperm.nodup_iff.mpr List.nodup_range
  rw [List.inj_on_of_nodup_map hnodup hmem hother hsame.symm]
  rw [hslots, List.getElem?_map, ← hsame] at hslot
  simpa using hslot

/-- If `answerIndices` has a repetition, the result is an error about the first position that it
lacks. -/
theorem error_of_repeated (hcollector : state.collector = .idle)
    (hrepeated : ¬ (answerIndices moves).Nodup) :
    ∃ i < tasks, i ∉ answerIndices moves ∧ (∀ j < i, j ∈ answerIndices moves) ∧
      state.result = .error (.error (.engine s!"task {i} produced no result")) := by
  have hfilled (i : Nat) : (∃ payload, state.slots[i]? = some (some payload)) ↔
      i ∈ answerIndices moves := h.slot_filled_iff hstart hnone hjoined hcollector
  -- if all slots were filled, no index would be repeated
  have hempty : none ∈ state.slots := by
    by_contra hfull
    have hperm := h.answerIndices_perm hstart hnone hjoined hcollector hfull
    exact hrepeated (hperm.nodup_iff.mpr List.nodup_range)
  obtain ⟨i, hslot, hbefore, herror⟩ := State.exists_outputsFrom_eq_error 0 hempty
  refine ⟨i, ?_, ?_, fun j hj => (hfilled j).mp (hbefore j hj), ?_⟩
  · rw [← (h.sourced hstart).length]
    exact (List.getElem?_eq_some_iff.mp hslot).1
  · intro hmem
    obtain ⟨payload, hpayload⟩ := (hfilled i).mpr hmem
    rw [hslot] at hpayload
    cases hpayload
  · rw [State.result, hcollector, (h.calm hstart hnone).cancelled, if_neg Bool.false_ne_true,
      herror, Nat.zero_add]
    rfl

end Final

end Course

/-- Let the workers answer tasks under any indices. If an evaluation ends with outputs, there is one
for each task, `answerIndices` is a permutation of the positions, and each output is at the index of
its answer. If nothing fails and all indices are positions, but some index is repeated, the
evaluation ends with an error about the first position that `answerIndices` lacks. -/
theorem outputs_eq_answers {tasks : List Envelope} {options : Options} {start state : State}
    {moves : List Move} (hstart : State.start tasks.length options = .ok start)
    (hrun : start.run? moves = some state) (hfinal : state.isFinal) :
    (∀ outputs, state.result = .ok outputs →
      outputs.length = tasks.length ∧
      (answerIndices moves).Perm (List.range tasks.length) ∧
      ∀ output ∈ answers moves, outputs[output.1.toNat]? = some output.2) ∧
    (failures moves = [] → (∀ index ∈ answerIndices moves, index < tasks.length) →
      ¬ (answerIndices moves).Nodup →
      ∃ i < tasks.length, i ∉ answerIndices moves ∧ (∀ j < i, j ∈ answerIndices moves) ∧
        state.result = .error (.error (.engine s!"task {i} produced no result"))) := by
  have hcourse := course_iff_run?_eq_some.mpr hrun
  constructor
  · intro outputs hresult
    have hnone := hcourse.failures_eq_nil hstart hfinal hresult
    rcases State.isFinal_iff.mp hfinal with ⟨fault, hcollector⟩ | ⟨hcollector, hjoined⟩
    · simp [State.result, hcollector] at hresult
    · exact hcourse.outputs_of_result hstart hnone hjoined hcollector hresult
  · intro hnone hbound hrepeated
    rcases State.isFinal_iff.mp hfinal with ⟨fault, hcollector⟩ | ⟨hcollector, hjoined⟩
    · obtain ⟨output, hmem, hle⟩ := hcourse.exists_answer_of_faulted hstart hcollector
      exact absurd (hbound _ (List.mem_map_of_mem hmem)) (Nat.not_lt.mpr hle)
    · exact hcourse.error_of_repeated hstart hnone hjoined hcollector hrepeated

/-- The moves of one worker that completes two tasks, under the given indices. -/
def twoAnswers (first second : UInt64) : List Move :=
  [.driver 0 .launch, .driver 0 .launched, .driver 0 .look, .driver 0 .take, .driver 0 .start,
    .driver 0 (.answer (.ok (.completed first ⟨[10]⟩))), .driver 0 .look, .driver 0 .take,
    .driver 0 .start, .driver 0 (.answer (.ok (.completed second ⟨[20]⟩))), .driver 0 .look,
    .driver 0 .take, .driver 0 .dismiss, .driver 0 (.closed (.ok ())), .collect 0]

/-- Indices in the wrong order exchange the outputs. If both answers have the second index, the
result is an error about the first task. -/
theorem outputs_eq_answers_swapped_and_repeated :
    (∃ state, (State.initial 2 [⟨0, 1⟩, ⟨1, 2⟩] 1).run? (twoAnswers 1 0) = some state ∧
      state.result = .ok [⟨[20]⟩, ⟨[10]⟩] ∧
      (answerIndices (twoAnswers 1 0)).Perm (List.range 2)) ∧
    (∃ state, (State.initial 2 [⟨0, 1⟩, ⟨1, 2⟩] 1).run? (twoAnswers 1 1) = some state ∧
      ∃ i < 2, i ∉ answerIndices (twoAnswers 1 1) ∧
        state.result = .error (.error (.engine s!"task {i} produced no result"))) := by
  have hstart : State.start (List.replicate 2 (⟨7, "f", ⟨[]⟩, ⟨[]⟩⟩ : Envelope)).length
      ⟨1, 1, false⟩ = .ok (State.initial 2 [⟨0, 1⟩, ⟨1, 2⟩] 1) := rfl
  constructor
  · have hrun : (State.initial 2 [⟨0, 1⟩, ⟨1, 2⟩] 1).run? (twoAnswers 1 0) =
        some ⟨⟨2, [], false, none, 2, [.spawn 0, .spawned 0, .run 0 0, .run 0 1, .shutdown 0], []⟩,
          [⟨.joined, ⟨2, 2⟩, [(1, ⟨[10]⟩), (0, ⟨[20]⟩)]⟩],
          [some ⟨[20]⟩, some ⟨[10]⟩], .idle⟩ := rfl
    obtain ⟨-, hperm, -⟩ := (outputs_eq_answers hstart hrun rfl).1 [⟨[20]⟩, ⟨[10]⟩] rfl
    exact ⟨_, hrun, rfl, hperm⟩
  · have hrun : (State.initial 2 [⟨0, 1⟩, ⟨1, 2⟩] 1).run? (twoAnswers 1 1) =
        some ⟨⟨2, [], false, none, 2, [.spawn 0, .spawned 0, .run 0 0, .run 0 1, .shutdown 0], []⟩,
          [⟨.joined, ⟨2, 2⟩, [(1, ⟨[10]⟩), (1, ⟨[20]⟩)]⟩], [none, some ⟨[20]⟩], .idle⟩ := rfl
    obtain ⟨i, hlt, hnot, -, hresult⟩ :=
      (outputs_eq_answers hstart hrun rfl).2 rfl (by decide) (by decide)
    exact ⟨_, hrun, i, hlt, hnot, hresult⟩

end Fanout.Schedule

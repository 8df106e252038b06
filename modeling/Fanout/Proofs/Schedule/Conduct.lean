import Fanout.Proofs.Schedule.FailFast

/-!
# Workers that follow a conduct

A `Conduct` fixes the results of starts and shutdowns by the worker and those of calls by the task.
Then the end of an evaluation does not depend on the interleaving: if nothing in the conduct fails,
the result is the answers to the tasks (`Course.result_of_flawless`), and otherwise it is an error
(`Course.result_of_not_flawless`).
-/

namespace Fanout

/-- The output of a `completed` response. -/
def Response.payload? : Response → Option Payload
  | completed _ output => some output
  | failed .. => none

/-- A response whose `output` is an error has no payload. -/
theorem Response.payload?_eq_none {response : Response} {error : BackendError}
    (h : response.output = .error error) : response.payload? = none := by
  cases response with
  | completed => cases h
  | failed => rfl

namespace Schedule

/-- What workers do, by their number or by the task. -/
structure Conduct where
  /-- The error with which worker `id` fails to start, if any. -/
  refusal : Nat → Option BackendError
  /-- The response to a task. -/
  respond : Envelope → Response
  /-- The error with which worker `id` fails to shut down, if any. -/
  defect : Nat → Option BackendError

namespace Conduct

/-- The events that a driver sees of workers with this conduct. -/
def Permits (conduct : Conduct) (tasks : List Envelope) (id : Nat) (phase : Phase)
    (event : Event) : Prop :=
  match event, phase with
  | .launched, _ => conduct.refusal id = none
  | .refused error, _ => conduct.refusal id = some error
  | .answer result, .running position =>
    ∃ task, tasks[position]? = some task ∧ result = .ok (conduct.respond task)
  | .closed (.ok ()), _ => conduct.defect id = none
  | .closed (.error error), _ => conduct.defect id = some error
  | .crash _, _ => False
  | _, _ => True

/-- None of the first `workers` workers has a `refusal` or a `defect`, and every task is
`completed`. -/
structure Flawless (conduct : Conduct) (tasks : List Envelope) (workers : Nat) : Prop where
  starts : ∀ id < workers, conduct.refusal id = none
  closes : ∀ id < workers, conduct.defect id = none
  completes : ∀ task ∈ tasks, (conduct.respond task).payload?.isSome

variable {conduct : Conduct} {tasks : List Envelope} {id workers : Nat}

/-- A conduct is `Indexed` if it answers each task under the index of the task and this is its
position. -/
theorem indexed (hindices : ∀ i (h : i < tasks.length), tasks[i].index.toNat = i)
    (hown : ∀ task ∈ tasks, (conduct.respond task).index = task.index) :
    Indexed (conduct.Permits tasks) tasks.length := by
  rintro id position response hlt ⟨task, htask, hresult⟩
  cases hresult
  rw [List.getElem?_eq_getElem hlt] at htask
  cases htask
  rw [hown _ (List.getElem_mem hlt)]
  exact hindices position hlt

/-- A `refusal` or a `defect` of one of the first `workers` workers, or the error of a response. -/
inductive Flaw (conduct : Conduct) (tasks : List Envelope) (workers : Nat)
    (error : BackendError) : Prop
  | refusal (id : Nat) (hid : id < workers) (h : conduct.refusal id = some error)
  | defect (id : Nat) (hid : id < workers) (h : conduct.defect id = some error)
  | response (task : Envelope) (hmem : task ∈ tasks)
      (h : (conduct.respond task).output = .error error)

/-- A `Flawless` conduct has no `Flaw`. -/
theorem Flawless.not_flaw (h : conduct.Flawless tasks workers) {error : BackendError} :
    ¬ conduct.Flaw tasks workers error := by
  rintro (⟨id, hid, herror⟩ | ⟨id, hid, herror⟩ | ⟨task, hmem, herror⟩)
  · rw [h.starts id hid] at herror
    cases herror
  · rw [h.closes id hid] at herror
    cases herror
  · have hcompletes := h.completes task hmem
    rw [Response.payload?_eq_none herror] at hcompletes
    cases hcompletes

/-- A failure that `conduct.Permits` is a `Flaw`. -/
theorem flaw_of_step {driver driver' : Driver} {shared shared' : Shared} {event : Event}
    {error : BackendError} (hstep : Driver.Step id shared driver event shared' driver')
    (hpermits : conduct.Permits tasks id driver.phase event) (hid : id < workers)
    (herror : event.failure? = some error) : conduct.Flaw tasks workers error := by
  cases hstep with
  | refused | unclosed =>
    cases herror
    first | exact .refusal id hid hpermits | exact .defect id hid hpermits
  | completed _ _ _ hphase hresult => simp [Event.failure?, hresult] at herror
  | failed _ _ _ hphase hresult =>
    rw [hphase] at hpermits
    obtain ⟨task, htask, rfl⟩ := hpermits
    rw [Event.failure?, hresult] at herror
    cases herror
    exact .response task (List.mem_of_getElem? htask) hresult
  | crash => exact hpermits.elim
  | _ => cases herror

end Conduct

/-- In a calm evaluation, `permits` allowed workers that are past `spawning` to start, and workers
whose driver has returned to shut down. -/
structure State.Attested (permits : Nat → Phase → Event → Prop) (state : State) : Prop where
  launched : ∀ id driver, state.drivers[id]? = some driver → driver.phase ≠ .starting →
    driver.phase ≠ .spawning → permits id .spawning .launched
  closed : ∀ id driver, state.drivers[id]? = some driver →
    driver.phase = .returned ∨ driver.phase = .joined → permits id .closing (.closed (.ok ()))

/-- A step of a calm evaluation without a failure keeps `State.Attested`. -/
theorem State.Step.attested {permits : Nat → Phase → Event → Prop} {state next : State}
    {move : Move} (h : State.Step state move next) (hpermits : state.Permits permits move)
    (hcalm : state.Calm) (hmove : move.failure? = none) (hs : state.Attested permits) :
    next.Attested permits := by
  cases h with
  | driver id event driver driver' shared' _ hget hstep =>
    have hcancelled := hcalm.cancelled
    have hphase := (hcalm.drivers driver (List.mem_of_getElem? hget)).phase
    have hevent := hpermits driver hget
    constructor
    · intro j other hother hstarting hspawning
      rcases getElem?_set_eq_some hother with ⟨rfl, rfl⟩ | ⟨-, hother⟩
      -- only a start brings a driver past its start, unless the evaluation is cancelled
      · cases hstep with
        | launched h => exact h ▸ hevent
        | launch => exact absurd rfl hspawning
        | skip _ h => simp [hcancelled] at h
        | refused | crash => cases hmove
        | _ => exact hs.launched j driver hget (by simp_all) (by simp_all)
      · exact hs.launched j other hother hstarting hspawning
    · intro j other hother hdone
      rcases getElem?_set_eq_some hother with ⟨rfl, rfl⟩ | ⟨-, hother⟩
      -- only a shutdown makes a driver done
      · cases hstep with
        | closed h => exact h ▸ hevent
        | skip _ h => simp [hcancelled] at h
        | terminated h | recordLater _ _ h | cancel _ h =>
          rw [h] at hphase
          cases hphase
        | take | completed =>
          simp only [Driver.hold, Driver.resume] at hdone
          split at hdone <;> rcases hdone with h | h <;> cases h
        | _ => rcases hdone with h | h <;> cases h
      · exact hs.closed j other hother hdone
  | collect id driver _ _ hget hreturned | overrun id driver _ _ hget hreturned =>
    constructor
    · intro j other hother hstarting hspawning
      rcases getElem?_set_eq_some hother with ⟨rfl, rfl⟩ | ⟨-, hother⟩
      · exact hs.launched j driver hget (by simp [hreturned]) (by simp [hreturned])
      · exact hs.launched j other hother hstarting hspawning
    · intro j other hother hdone
      rcases getElem?_set_eq_some hother with ⟨rfl, rfl⟩ | ⟨-, hother⟩
      · exact hs.closed j driver hget (.inl hreturned)
      · exact hs.closed j other hother hdone
  | lose id driver message _ hget hphase =>
    have := (hcalm.drivers driver (List.mem_of_getElem? hget)).phase
    rw [hphase] at this
    cases this
  | recordFirst | recordLater | cancel => exact ⟨hs.launched, hs.closed⟩

namespace Course

variable {permits : Nat → Phase → Event → Prop} {start state : State} {moves : List Move}
  {options : Options} {conduct : Conduct} {tasks : List Envelope}

/-- An evaluation without failures is `State.Attested`. -/
theorem attested {count : Nat} (h : Course permits start moves state)
    (hstart : State.start count options = .ok start) (hnone : failures moves = []) :
    state.Attested permits := by
  induction h with
  | nil =>
    obtain ⟨units, drivers, rfl, -⟩ := State.start_eq_ok hstart
    constructor
    · intro id driver hget hstarting
      rw [List.eq_of_mem_replicate (List.mem_of_getElem? hget)] at hstarting
      exact absurd rfl hstarting
    · intro id driver hget hdone
      rw [List.eq_of_mem_replicate (List.mem_of_getElem? hget)] at hdone
      rcases hdone with h | h <;> cases h
  | @concat moves state next move before hstep hpermits ih =>
    rw [failures_concat, List.append_eq_nil_iff] at hnone
    have hmove : move.failure? = none := by simpa using hnone.2
    exact (State.step_of_step? hstep).attested hpermits (before.calm hstart hnone.1) hmove
      (ih hnone.1)

/-- Every failure met is a `Flaw`. -/
theorem flaw_of_mem_failures {error : BackendError}
    (h : Course (conduct.Permits tasks) start moves state) (hmem : error ∈ failures moves) :
    conduct.Flaw tasks start.drivers.length error := by
  induction h with
  | nil => cases hmem
  | @concat moves state next move before hstep hpermits ih =>
    rw [failures_concat, List.mem_append, Option.mem_toList] at hmem
    rcases hmem with hmem | hmem
    · exact ih hmem
    · cases State.step_of_step? hstep with
      | driver id event driver driver' shared' _ hget hdriver =>
        have hid : id < start.drivers.length := by
          rw [← before.length_drivers]
          exact (List.getElem?_eq_some_iff.mp hget).1
        exact Conduct.flaw_of_step hdriver (hpermits driver hget) hid hmem
      | _ => cases hmem

section Final

variable (h : Course (conduct.Permits tasks) start moves state)
  (hstart : State.start tasks.length options = .ok start)
  (hindices : ∀ i (h : i < tasks.length), tasks[i].index.toNat = i)
  (hown : ∀ task ∈ tasks, (conduct.respond task).index = task.index)
  (hfinal : state.isFinal)

include h hstart hindices hown hfinal

/-- An evaluation that ends without a failure has the payloads of `conduct.respond` as its
outputs. -/
theorem outputs_eq_responses (hnone : failures moves = []) :
    ∃ outputs, state.result = .ok outputs ∧
      outputs.map some = tasks.map fun task => (conduct.respond task).payload? := by
  have hindexed := Conduct.indexed hindices hown
  obtain ⟨outputs, hslots, hresult, hlength⟩ := h.exists_outputs hstart hindexed hnone hfinal
  refine ⟨outputs, hresult, List.ext_getElem (by simpa using hlength) fun i hi hi' => ?_⟩
  rw [List.length_map] at hi hi'
  have hslot : state.slots[i]? = some (some outputs[i]) := by
    rw [hslots, List.getElem?_map, List.getElem?_eq_getElem hi]
    rfl
  -- some worker has given the output as its answer to a task, which is the one at this place
  obtain ⟨index, hindex, id, position, hlt, hanswer⟩ := (h.sourced hstart).slots i _ hslot
  have hposition : index.toNat = position := hindexed id position _ hlt hanswer
  obtain rfl : i = position := hindex.symm.trans hposition
  obtain ⟨task, htask, hresponse⟩ := hanswer
  rw [List.getElem?_eq_getElem hi'] at htask
  cases htask
  rw [List.getElem_map, List.getElem_map, ← Except.ok.inj hresponse]
  rfl

/-- If an evaluation ends without a failure, `conduct` is `Flawless`. -/
theorem flawless_of_failures_eq_nil (hnone : failures moves = []) :
    conduct.Flawless tasks start.drivers.length := by
  have hattested := h.attested hstart hnone
  obtain ⟨-, hjoined⟩ := h.joined_of_isFinal hstart (Conduct.indexed hindices hown) hfinal
  -- every driver is done, so each has been through its start and its shutdown
  have hget (id : Nat) (hid : id < start.drivers.length) : ∃ driver,
      state.drivers[id]? = some driver ∧ driver.phase = .joined := by
    rw [← h.length_drivers] at hid
    exact ⟨_, List.getElem?_eq_getElem hid, hjoined _ (List.getElem_mem hid)⟩
  refine ⟨fun id hid => ?_, fun id hid => ?_, fun task hmem => ?_⟩
  · obtain ⟨driver, hget, hphase⟩ := hget id hid
    exact hattested.launched id driver hget (by simp [hphase]) (by simp [hphase])
  · obtain ⟨driver, hget, hphase⟩ := hget id hid
    exact hattested.closed id driver hget (.inr hphase)
  · obtain ⟨outputs, -, houtputs⟩ := h.outputs_eq_responses hstart hindices hown hfinal hnone
    have hmem' : (conduct.respond task).payload? ∈ outputs.map some := by
      rw [houtputs]
      exact List.mem_map_of_mem hmem
    obtain ⟨output, -, houtput⟩ := List.mem_map.mp hmem'
    rw [← houtput]
    rfl

/-- Over a `Flawless` conduct an evaluation ends with the payloads of `conduct.respond` as its
outputs. -/
theorem result_of_flawless (hflawless : conduct.Flawless tasks start.drivers.length) :
    ∃ outputs, state.result = .ok outputs ∧
      outputs.map some = tasks.map fun task => (conduct.respond task).payload? := by
  refine h.outputs_eq_responses hstart hindices hown hfinal ?_
  refine List.eq_nil_iff_forall_not_mem.mpr fun error hmem => ?_
  exact hflawless.not_flaw (h.flaw_of_mem_failures hmem)

/-- Over any other conduct an evaluation ends with an error, which is a `Flaw`. -/
theorem result_of_not_flawless (hflawed : ¬ conduct.Flawless tasks start.drivers.length) :
    ∃ error, state.result = .error (.error error) ∧
      conduct.Flaw tasks start.drivers.length error := by
  have hne : failures moves ≠ [] := fun hnone =>
    hflawed (h.flawless_of_failures_eq_nil hstart hindices hown hfinal hnone)
  obtain ⟨hcollector, hjoined⟩ :=
    h.joined_of_isFinal hstart (Conduct.indexed hindices hown) hfinal
  obtain ⟨error, hresult, -, hmem, -⟩ := h.result_of_failures hstart hcollector hjoined hne
  exact ⟨error, hresult, h.flaw_of_mem_failures hmem⟩

end Final

end Course

end Schedule

end Fanout

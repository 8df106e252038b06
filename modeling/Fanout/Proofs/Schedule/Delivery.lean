import Fanout.Proofs.Schedule.Calm

/-!
# Where the outputs are

Every output in the hands of a driver or in a slot was permitted as the answer to a position of the
evaluation (`Course.sourced`). If answers carry the index of their task and no failure is met, the
output of a started task is still to come, in the hands of a driver that has not been collected, or
in the slot of its position (`Course.has`).
-/

namespace Fanout.Schedule

namespace State

variable {slots slots' : List (Option Payload)} {outputs : List (UInt64 × Payload)}
  {position : Nat} {payload : Payload}

/-- `place` keeps the number of slots. -/
theorem length_place (h : place slots outputs = .ok slots') : slots'.length = slots.length := by
  induction outputs generalizing slots with
  | nil => cases h; rfl
  | cons output outputs ih =>
    rw [place] at h
    split at h
    · rw [ih h, List.length_set]
    · cases h

/-- `place` succeeds if the index of each output is below the number of slots. -/
theorem exists_place (h : ∀ output ∈ outputs, output.1.toNat < slots.length) :
    ∃ slots', place slots outputs = .ok slots' := by
  induction outputs generalizing slots with
  | nil => exact ⟨slots, rfl⟩
  | cons output outputs ih =>
    rw [place, if_pos (h output List.mem_cons_self)]
    exact ih fun other hother => by
      rw [List.length_set]
      exact h other (List.mem_cons_of_mem _ hother)

/-- What a slot holds after `place` was there before or is one of the outputs. -/
theorem getElem?_place (h : place slots outputs = .ok slots')
    (hget : slots'[position]? = some (some payload)) :
    slots[position]? = some (some payload) ∨
      ∃ output ∈ outputs, output.1.toNat = position ∧ output.2 = payload := by
  induction outputs generalizing slots with
  | nil => cases h; exact .inl hget
  | cons output outputs ih =>
    rw [place] at h
    split at h
    · rename_i hlt
      rcases ih h with hslot | ⟨other, hmem, hother⟩
      · by_cases hindex : output.1.toNat = position
        · rw [← hindex, List.getElem?_set_self hlt] at hslot
          cases hslot
          exact .inr ⟨output, List.mem_cons_self, hindex, rfl⟩
        · rw [List.getElem?_set_ne hindex] at hslot
          exact .inl hslot
      · exact .inr ⟨other, List.mem_cons_of_mem _ hmem, hother⟩
    · cases h

/-- A slot is filled after `place` if it was filled before or an output has its index. -/
theorem exists_getElem?_place (h : place slots outputs = .ok slots')
    (hfilled : (∃ payload, slots[position]? = some (some payload)) ∨
      ∃ output ∈ outputs, output.1.toNat = position) :
    ∃ payload, slots'[position]? = some (some payload) := by
  -- the slot may be filled at first, by the next output, or by a later one
  induction outputs generalizing slots with
  | nil =>
    cases h
    rcases hfilled with hfilled | ⟨output, hmem, -⟩
    · exact hfilled
    · cases hmem
  | cons output outputs ih =>
    rw [place] at h
    split at h
    · rename_i hlt
      refine ih h ?_
      by_cases hindex : output.1.toNat = position
      · exact .inl ⟨output.2, by rw [← hindex, List.getElem?_set_self hlt]⟩
      · rw [List.getElem?_set_ne hindex]
        rcases hfilled with hfilled | ⟨other, hmem, hother⟩
        · exact .inl hfilled
        · rcases List.mem_cons.mp hmem with rfl | hmem
          · exact absurd hother hindex
          · exact .inr ⟨other, hmem, hother⟩
    · cases h

end State

/-- `permits` allows a worker to answer `output` under `index` to a task at some position below
`tasks`. -/
def Given (permits : Nat → Phase → Event → Prop) (tasks : Nat) (index : UInt64)
    (output : Payload) : Prop :=
  ∃ id position, position < tasks ∧
    permits id (.running position) (.answer (.ok (.completed index output)))

/-- All outputs in drivers and slots are `Given`. -/
structure State.Sourced (permits : Nat → Phase → Event → Prop) (tasks : Nat) (state : State) :
    Prop where
  /-- Drivers run positions below `tasks` only. -/
  running : ∀ driver ∈ state.drivers, ∀ position, driver.phase = .running position →
    position < tasks
  /-- What a driver has received is `Given`. -/
  outputs : ∀ driver ∈ state.drivers, ∀ output ∈ driver.outputs,
    Given permits tasks output.1 output.2
  /-- A slot holds what is `Given` under its position. -/
  slots : ∀ position payload, state.slots[position]? = some (some payload) →
    ∃ index, index.toNat = position ∧ Given permits tasks index payload
  /-- There are as many slots as tasks. -/
  length : state.slots.length = tasks

/-- The task at `position` runs, or its output is with a driver that is not yet joined, or in its
slot. -/
def State.Has (state : State) (position : Nat) : Prop :=
  (∃ driver ∈ state.drivers, driver.phase = .running position) ∨
    (∃ driver ∈ state.drivers, driver.phase ≠ .joined ∧
      ∃ output ∈ driver.outputs, output.1.toNat = position) ∨
    ∃ payload, state.slots[position]? = some (some payload)

/-- `permits` allows answers under the position of the task only. -/
def Indexed (permits : Nat → Phase → Event → Prop) (tasks : Nat) : Prop :=
  ∀ id position response, position < tasks →
    permits id (.running position) (.answer (.ok response)) → response.index.toNat = position

namespace Driver

variable {id : Nat} {shared shared' : Shared} {driver driver' : Driver} {event : Event}

/-- A result whose `Response.output` is an output is a `completed` response. -/
theorem eq_completed {result : Except BackendError Response} {output : UInt64 × Payload}
    (h : result.bind Response.output = .ok output) :
    result = .ok (.completed output.1 output.2) := by
  rcases result with error | ⟨index, payload⟩ | ⟨index, kind, message⟩
  · cases h
  · cases h
    rfl
  · cases kind <;> cases h

/-- A step of a driver keeps its outputs, and adds the completed answer to a task that it runs. -/
theorem Step.outputs_eq (h : Step id shared driver event shared' driver') :
    driver'.outputs = driver.outputs ∨
      ∃ position output, driver.phase = .running position ∧
        event = .answer (.ok (.completed output.1 output.2)) ∧
        driver'.outputs = driver.outputs ++ [output] := by
  cases h with
  | completed position result output hphase hresult =>
    exact .inr ⟨position, output, hphase, by rw [eq_completed hresult], rfl⟩
  | recordLater | cancel => exact .inl (outputs_conclude ..)
  | _ => exact .inl rfl

/-- No step leads to `joined`. -/
theorem Step.phase_ne_joined (h : Step id shared driver event shared' driver') :
    driver'.phase ≠ .joined := by
  cases h with
  | take | completed =>
    simp only [hold, resume]
    split <;> (intro h; cases h)
  | recordLater error next | cancel next => cases next <;> (intro h; cases h)
  | _ => intro h; cases h

/-- A step starts only the first position of the rest of the unit. -/
theorem Step.eq_start_of_running {position : Nat}
    (h : Step id shared driver event shared' driver') (hphase : driver'.phase = .running position) :
    driver.rest.length ≠ 0 ∧ position = driver.rest.start := by
  cases h with
  | start _ hrest =>
    cases hphase
    exact ⟨hrest, rfl⟩
  | take | completed =>
    simp only [hold, resume] at hphase
    split at hphase <;> cases hphase
  | recordLater error next | cancel next => cases next <;> cases hphase
  | _ => cases hphase

/-- Without a failure, a task that runs keeps running or is answered by an output. -/
theorem Step.answered {position : Nat} (h : Step id shared driver event shared' driver')
    (hphase : driver.phase = .running position) (hcancelled : shared.cancelled = false)
    (hevent : event.failure? = none) :
    ∃ output, event = .answer (.ok (.completed output.1 output.2)) ∧
      output ∈ driver'.outputs := by
  cases h with
  | completed _ result output _ hresult =>
    exact ⟨output, by rw [eq_completed hresult], List.mem_append_right _ List.mem_cons_self⟩
  | failed _ result error _ hresult => simp [Event.failure?, hresult] at hevent
  | crash => cases hevent
  | abandon _ hc =>
    rw [hcancelled] at hc
    cases hc
  | skip h =>
    rcases h with h | h <;> rw [hphase] at h <;> cases h
  | _ => simp_all

end Driver

/-- The positions of the rests are below `tasks`. -/
theorem Placed.lt_of_rest {tasks : Nat} {queue rests : List Span} {runs : List (Nat × Nat)}
    (h : Placed tasks queue rests runs) {rest : Span} (hmem : rest ∈ rests)
    (hrest : rest.length ≠ 0) : rest.start < tasks := by
  have hle := Traversal.le_tally (fun other : Span => other.toList.count rest.start) hmem
  have hcount := h.count rest.start
  rw [toList_eq_cons hrest, List.count_cons_self] at hle
  have hpos : 0 < (List.range tasks).count rest.start := by omega
  exact List.mem_range.mp (List.count_pos_iff.mp hpos)

namespace State

variable {permits : Nat → Phase → Event → Prop} {state next : State} {move : Move} {tasks : Nat}

/-- `State.Step` keeps `State.Sourced` if `permits` allows its move. -/
theorem Step.sourced (h : Step state move next) (hpermits : state.Permits permits move)
    (hs : state.Accounted tasks) (hsourced : state.Sourced permits tasks) :
    next.Sourced permits tasks := by
  cases h with
  | driver id event driver driver' shared' _ hget hstep =>
    have hmem := List.mem_of_getElem? hget
    refine ⟨fun other hother position hphase => ?_, fun other hother output houtput => ?_,
      hsourced.slots, hsourced.length⟩
    · rcases List.mem_or_eq_of_mem_set hother with hother | rfl
      · exact hsourced.running other hother position hphase
      · obtain ⟨hrest, rfl⟩ := hstep.eq_start_of_running hphase
        exact hs.placed.lt_of_rest (List.mem_map_of_mem hmem) hrest
    · rcases List.mem_or_eq_of_mem_set hother with hother | rfl
      · exact hsourced.outputs other hother output houtput
      -- a driver gains an output only by the answer to the task it runs
      · rcases hstep.outputs_eq with heq | ⟨position, new, hphase, hevent, heq⟩
        · exact hsourced.outputs driver hmem output (heq ▸ houtput)
        · rw [heq] at houtput
          rcases List.mem_append.mp houtput with houtput | houtput
          · exact hsourced.outputs driver hmem output houtput
          · rw [List.mem_singleton.mp houtput]
            have := hpermits driver hget
            rw [hphase, hevent] at this
            exact ⟨id, position, hsourced.running driver hmem position hphase, this⟩
  | collect id driver slots _ hget _ hplace =>
    have hmem := List.mem_of_getElem? hget
    refine ⟨fun other hother position hphase => ?_, fun other hother => ?_,
      fun position payload hslot => ?_, (length_place hplace).trans hsourced.length⟩
    · rcases List.mem_or_eq_of_mem_set hother with hother | rfl
      · exact hsourced.running other hother position hphase
      · cases hphase
    · rcases List.mem_or_eq_of_mem_set hother with hother | rfl
      · exact hsourced.outputs other hother
      · exact hsourced.outputs driver hmem
    · rcases getElem?_place hplace hslot with hslot | ⟨output, houtput, hindex, rfl⟩
      · exact hsourced.slots position payload hslot
      · exact ⟨output.1, hindex, hsourced.outputs driver hmem output houtput⟩
  | overrun id driver _ _ hget | lose id driver _ _ hget =>
    have hmem := List.mem_of_getElem? hget
    refine ⟨fun other hother position hphase => ?_, fun other hother => ?_,
      hsourced.slots, hsourced.length⟩
    · rcases List.mem_or_eq_of_mem_set hother with hother | rfl
      · exact hsourced.running other hother position hphase
      · cases hphase
    · rcases List.mem_or_eq_of_mem_set hother with hother | rfl
      · exact hsourced.outputs other hother
      · exact hsourced.outputs driver hmem
  | recordFirst | recordLater | cancel => exact ⟨hsourced.1, hsourced.2, hsourced.3, hsourced.4⟩

/-- The index of an output has a slot if answers are `Indexed`. -/
theorem Sourced.lt_length {driver : Driver} {output : UInt64 × Payload}
    (h : state.Sourced permits tasks) (hindexed : Indexed permits tasks)
    (hmem : driver ∈ state.drivers) (houtput : output ∈ driver.outputs) :
    output.1.toNat < state.slots.length := by
  obtain ⟨id, position, hlt, hanswer⟩ := h.outputs driver hmem output houtput
  have hindex : output.1.toNat = position := hindexed id position _ hlt hanswer
  rw [h.length, hindex]
  exact hlt

/-- A step of a calm evaluation without a failure keeps `State.Has`. -/
theorem Step.has {position : Nat} (h : Step state move next)
    (hpermits : state.Permits permits move) (hindexed : Indexed permits tasks)
    (hsourced : state.Sourced permits tasks) (hcalm : state.Calm)
    (hmove : move.failure? = none) (hhas : state.Has position) : next.Has position := by
  cases h with
  | driver id event driver driver' shared' _ hget hstep =>
    have hmem := List.mem_of_getElem? hget
    have hlt := (List.getElem?_eq_some_iff.mp hget).1
    have hset : driver' ∈ state.drivers.set id driver' := List.mem_set hlt _
    rcases hhas with ⟨other, hin, hphase⟩ | ⟨other, hin, hphase, output, houtput, hindex⟩ | hslot
    · by_cases heq : other = driver
      -- the driver that runs the task gets its answer
      · subst heq
        obtain ⟨output, hevent, houtput⟩ := hstep.answered hphase hcalm.cancelled hmove
        have hanswer := hpermits other hget
        rw [hphase, hevent] at hanswer
        have hindex := hindexed id position _ (hsourced.running other hmem position hphase) hanswer
        exact .inr (.inl ⟨driver', hset, hstep.phase_ne_joined, output, houtput, hindex⟩)
      · exact .inl ⟨other, mem_set_of_ne hget hin heq, hphase⟩
    · by_cases heq : other = driver
      · subst heq
        refine .inr (.inl ⟨driver', hset, hstep.phase_ne_joined, output, ?_, hindex⟩)
        rcases hstep.outputs_eq with heq | ⟨_, _, _, _, heq⟩
        · rwa [heq]
        · rw [heq]
          exact List.mem_append_left _ houtput
      · exact .inr (.inl ⟨other, mem_set_of_ne hget hin heq, hphase, output, houtput, hindex⟩)
    · exact .inr (.inr hslot)
  | collect id driver slots _ hget hreturned hplace =>
    rcases hhas with ⟨other, hin, hphase⟩ | ⟨other, hin, hphase, output, houtput, hindex⟩ | hslot
    · refine .inl ⟨other, mem_set_of_ne hget hin ?_, hphase⟩
      rintro rfl
      rw [hreturned] at hphase
      cases hphase
    · by_cases heq : other = driver
      · subst heq
        exact .inr (.inr (exists_getElem?_place hplace (.inr ⟨output, houtput, hindex⟩)))
      · exact .inr (.inl ⟨other, mem_set_of_ne hget hin heq, hphase, output, houtput, hindex⟩)
    · exact .inr (.inr (exists_getElem?_place hplace (.inl hslot)))
  | overrun id driver fault _ hget _ hplace =>
    -- every output has its slot
    obtain ⟨slots, hslots⟩ := exists_place fun output houtput =>
      hsourced.lt_length hindexed (List.mem_of_getElem? hget) houtput
    rw [hplace] at hslots
    cases hslots
  | lose id driver message _ hget hphase =>
    have := (hcalm.drivers driver (List.mem_of_getElem? hget)).phase
    rw [hphase] at this
    cases this
  | recordFirst _ hcollector | recordLater _ hcollector | cancel hcollector =>
    rcases hcalm.collector with h | ⟨fault, h⟩ <;> rw [hcollector] at h <;> cases h

/-- A position that is started after a step was started before it, or runs after it. -/
theorem Step.started_or_running {position : Nat} (h : Step state move next)
    (hstarted : position ∈ next.shared.started) :
    position ∈ state.shared.started ∨
      ∃ driver ∈ next.drivers, driver.phase = .running position := by
  cases h with
  | driver id event driver driver' shared' _ hget hstep =>
    cases hstep.handover with
    | none _ _ hruns | taken _ _ _ hruns =>
      rw [Shared.started, hruns] at hstarted
      exact .inl hstarted
    | started _ _ _ _ hphase hruns =>
      rw [Shared.started, hruns, List.map_append, List.mem_append] at hstarted
      rcases hstarted with hstarted | hstarted
      · exact .inl hstarted
      · obtain rfl : position = driver.rest.start := by simpa using hstarted
        exact .inr ⟨driver', List.mem_set (List.getElem?_eq_some_iff.mp hget).1 _, hphase⟩
  | _ => exact .inl hstarted

/-- A list of filled slots is a list of outputs. -/
theorem exists_eq_map_some {slots : List (Option Payload)} (h : ∀ slot ∈ slots, slot.isSome) :
    ∃ outputs : List Payload, slots = outputs.map some := by
  induction slots with
  | nil => exact ⟨[], rfl⟩
  | cons slot slots ih =>
    obtain ⟨output, rfl⟩ := Option.isSome_iff_exists.mp (h slot List.mem_cons_self)
    obtain ⟨outputs, rfl⟩ := ih fun other hother => h other (List.mem_cons_of_mem _ hother)
    exact ⟨output :: outputs, rfl⟩

/-- `outputsFrom` lists the outputs of the slots iff every slot is filled. -/
theorem outputsFrom_eq_ok_iff {slots : List (Option Payload)} {outputs : List Payload} (n : Nat) :
    outputsFrom n slots = .ok outputs ↔ slots = outputs.map some := by
  induction slots generalizing n outputs with
  | nil =>
    cases outputs with
    | nil => simp [outputsFrom]
    | cons => simp [outputsFrom]
  | cons slot slots ih =>
    cases slot with
    | none => cases outputs <;> simp [outputsFrom]
    | some output =>
      rw [outputsFrom, Traversal.bind_eq_ok_iff]
      constructor
      · rintro ⟨rest, hrest, h⟩
        cases h
        rw [(ih (n + 1)).mp hrest]
        rfl
      · intro h
        cases outputs with
        | nil => cases h
        | cons first rest =>
          obtain ⟨hfirst, hrest⟩ := List.cons.inj h
          cases hfirst
          exact ⟨rest, (ih (n + 1)).mpr hrest, rfl⟩

end State

namespace Course

variable {permits : Nat → Phase → Event → Prop} {start state : State} {moves : List Move}
  {tasks : Nat} {options : Options}

/-- A course keeps `State.Sourced`. -/
theorem sourced (h : Course permits start moves state)
    (hstart : State.start tasks options = .ok start) : state.Sourced permits tasks := by
  induction h with
  | nil =>
    obtain ⟨units, drivers, rfl, -⟩ := State.start_eq_ok hstart
    refine ⟨fun driver hmem => ?_, fun driver hmem => ?_, fun position payload hslot => ?_, ?_⟩
    · rw [List.eq_of_mem_replicate hmem]
      intro position hphase
      cases hphase
    · rw [List.eq_of_mem_replicate hmem]
      intro output houtput
      cases houtput
    · cases List.eq_of_mem_replicate (List.mem_of_getElem? hslot)
    · exact List.length_replicate
  | concat before hstep hpermits ih =>
    exact (State.step_of_step? hstep).sourced hpermits
      (before.accounted (State.accounted_of_start hstart)) ih

/-- The collector does not fault if answers are `Indexed`. -/
theorem collector_ne_faulted (h : Course permits start moves state)
    (hstart : State.start tasks options = .ok start) (hindexed : Indexed permits tasks)
    (fault : Fault) : state.collector ≠ .faulted fault := by
  induction h with
  | nil =>
    obtain ⟨units, drivers, rfl, -⟩ := State.start_eq_ok hstart
    intro h
    cases h
  | concat before hstep _ ih =>
    cases State.step_of_step? hstep with
    | overrun id driver _ _ hget _ hplace =>
      obtain ⟨slots, hslots⟩ := State.exists_place fun output houtput =>
        (before.sourced hstart).lt_length hindexed (List.mem_of_getElem? hget) houtput
      rw [hplace] at hslots
      cases hslots
    | driver | collect => exact ih
    | _ => intro h; cases h

/-- A final state has all drivers joined if answers are `Indexed`. -/
theorem joined_of_isFinal (h : Course permits start moves state)
    (hstart : State.start tasks options = .ok start) (hindexed : Indexed permits tasks)
    (hfinal : state.isFinal) :
    state.collector = .idle ∧ ∀ driver ∈ state.drivers, driver.phase = .joined := by
  rcases State.isFinal_iff.mp hfinal with ⟨fault, hcollector⟩ | hend
  · exact absurd hcollector (h.collector_ne_faulted hstart hindexed fault)
  · exact hend

/-- Without failures, every started position is one that the state `Has`, if answers are
`Indexed`. -/
theorem has (h : Course permits start moves state)
    (hstart : State.start tasks options = .ok start) (hindexed : Indexed permits tasks)
    (hnone : failures moves = []) {position : Nat} (hstarted : position ∈ state.shared.started) :
    state.Has position := by
  induction h with
  | nil =>
    obtain ⟨units, drivers, rfl, -⟩ := State.start_eq_ok hstart
    cases hstarted
  | @concat moves state next move before hstep hpermits ih =>
    have hstep := State.step_of_step? hstep
    rw [failures_concat, List.append_eq_nil_iff] at hnone
    have hmove : move.failure? = none := by simpa using hnone.2
    rcases hstep.started_or_running hstarted with hstarted | hrunning
    · exact hstep.has hpermits hindexed (before.sourced hstart) (before.calm hstart hnone.1) hmove
        (ih hnone.1 hstarted)
    · exact .inl hrunning

/-- If answers are `Indexed`, an evaluation that ends without failures has an output for each task,
and each of them was `Given`. -/
theorem exists_outputs (h : Course permits start moves state)
    (hstart : State.start tasks options = .ok start) (hindexed : Indexed permits tasks)
    (hnone : failures moves = []) (hfinal : state.isFinal) :
    ∃ outputs, state.slots = outputs.map some ∧ state.result = .ok outputs ∧
      outputs.length = tasks := by
  have hcalm := h.calm hstart hnone
  have hsourced := h.sourced hstart
  obtain ⟨hcollector, hjoined⟩ := h.joined_of_isFinal hstart hindexed hfinal
  have hfilled (slot : Option Payload) (hslot : slot ∈ state.slots) : slot.isSome := by
    obtain ⟨position, hlt, rfl⟩ := List.mem_iff_getElem.mp hslot
    have hmem : position ∈ state.shared.started := by
      rw [(h.started_perm hstart hcalm hjoined).mem_iff, List.mem_range, ← hsourced.length]
      exact hlt
    -- no driver runs any more or keeps an output back, so it is in its slot
    rcases h.has hstart hindexed hnone hmem with ⟨d, hd, hphase⟩ | ⟨d, hd, hphase, -⟩ | hslot
    · rw [hjoined d hd] at hphase
      cases hphase
    · exact absurd (hjoined d hd) hphase
    · obtain ⟨payload, hget⟩ := hslot
      rw [List.getElem?_eq_getElem hlt] at hget
      rw [Option.some.inj hget]
      rfl
  obtain ⟨outputs, hslots⟩ := State.exists_eq_map_some hfilled
  refine ⟨outputs, hslots, ?_, ?_⟩
  · rw [State.result, hcollector, hcalm.cancelled, if_neg Bool.false_ne_true,
      (State.outputsFrom_eq_ok_iff 0).mpr hslots]
    rfl
  · rw [← hsourced.length, hslots]
    simp

end Course

end Fanout.Schedule

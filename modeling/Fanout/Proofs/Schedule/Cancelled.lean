import Fanout.Proofs.Schedule.Blame
import Fanout.Proofs.Schedule.Progress
import Mathlib.Algebra.BigOperators.Group.List.Lemmas
import Mathlib.Algebra.Order.BigOperators.Group.List
import Mathlib.Algebra.Order.Group.Nat
import Mathlib.Data.List.Dedup

/-!
# What is started after the cancellation

A driver checks for cancellation between units, and other drivers may move between its check and its
taking a unit. `State.lastUnit_of_run` bounds, by its phase, what a driver can still start after the
cancellation: the rest of its current unit, or one unit that it takes because it checked before.
`work_after_cancellation` concludes that fewer units are taken than there are drivers, and bounds
the number of tasks started.
-/

namespace Fanout.Schedule

/-! ## What each driver may still do -/

/-- The unit that an event takes from the queue of `shared`, if any. -/
def Shared.takes? (shared : Shared) : Event → Option Span
  | .take => shared.queue.head?
  | _ => none

/-- The position of the task that an event starts, if any. -/
def Driver.starts? (driver : Driver) : Event → Option Nat
  | .start => some driver.rest.start
  | _ => none

namespace State

/-- The unit that a move takes from the queue, if any, with the number of its driver. -/
def takes? (state : State) : Move → Option (Nat × Span)
  | .driver id event => (state.shared.takes? event).map fun unit => (id, unit)
  | _ => none

/-- The position of the task that a move starts, if any, with the number of its driver. -/
def starts? (state : State) : Move → Option (Nat × Nat)
  | .driver id event =>
    (state.drivers[id]?.bind (Driver.starts? · event)).map fun position => (id, position)
  | _ => none

end State

/-- The entries of driver `id`. -/
def ofDriver {α : Type} (id : Nat) (entries : List (Nat × α)) : List α :=
  (entries.filter fun entry => entry.1 = id).map Prod.snd

@[simp]
theorem ofDriver_nil {α : Type} (id : Nat) : ofDriver id ([] : List (Nat × α)) = [] := rfl

@[simp]
theorem ofDriver_append {α : Type} (id : Nat) (entries later : List (Nat × α)) :
    ofDriver id (entries ++ later) = ofDriver id entries ++ ofDriver id later := by
  simp [ofDriver]

@[simp]
theorem ofDriver_toList_map {α : Type} (id other : Nat) (value : Option α) :
    ofDriver id (value.map fun a => (other, a)).toList =
      if other = id then value.toList else [] := by
  cases value with
  | none => simp
  | some a => by_cases h : other = id <;> simp [ofDriver, h]

/-- The units that a live driver can take and the tasks that it can start once the evaluation is
cancelled: a prefix of the rest of its unit, or, in `pulling`, one more unit and a prefix of
that. -/
def Driver.LastUnit (driver : Driver) (taken : List Span) (started : List Nat) : Prop :=
  match driver.phase with
  | .holding | .running _ => taken = [] ∧ started <+: driver.rest.toList
  | .pulling => taken = [] ∧ started = [] ∨ ∃ unit, taken = [unit] ∧ started <+: unit.toList
  | _ => taken = [] ∧ started = []

namespace Driver

variable {id : Nat} {shared shared' : Shared} {driver driver' : Driver} {event : Event}
  {taken : List Span} {started : List Nat}

theorem lastUnit_nil (driver : Driver) : driver.LastUnit [] [] := by
  unfold LastUnit
  split <;> simp

/-- A driver that is not live takes and starts nothing. -/
theorem LastUnit.of_not_live (h : driver.LastUnit taken started)
    (hlive : driver.phase.isLive = false) : taken = [] ∧ started = [] := by
  unfold LastUnit at h
  split at h <;> rename_i hphase <;> first | exact h | simp [hphase, Phase.isLive] at hlive

/-- A driver that resumes its unit starts a prefix of the rest of it. -/
theorem LastUnit.of_resume (h : driver.resume.LastUnit taken started) :
    taken = [] ∧ started <+: driver.rest.toList := by
  rw [resume] at h
  split at h
  · exact ⟨h.1, h.2 ▸ List.nil_prefix⟩
  · exact h

/-- `LastUnit` of a driver after a step gives `LastUnit` before it, with what the step takes and
starts in front. -/
theorem Step.lastUnit (h : Step id shared driver event shared' driver')
    (hcancelled : shared.cancelled = true) (hlast : driver'.LastUnit taken started) :
    driver.LastUnit ((shared.takes? event).toList ++ taken)
      ((driver.starts? event).toList ++ started) := by
  have hdone (hlive : driver'.phase.isLive = false) (htakes : shared.takes? event = none)
      (hstarts : driver.starts? event = none) : driver.LastUnit
        ((shared.takes? event).toList ++ taken) ((driver.starts? event).toList ++ started) := by
    obtain ⟨rfl, rfl⟩ := hlast.of_not_live hlive
    rw [htakes, hstarts]
    exact lastUnit_nil driver
  cases h with
  | launch hphase | launched hphase =>
    rw [LastUnit, hphase]
    exact hlast
  -- who looks now does not go on
  | lookOn _ hc =>
    rw [hcancelled] at hc
    cases hc
  | exhausted hphase hqueue =>
    obtain ⟨rfl, rfl⟩ := hlast.of_not_live rfl
    rw [Shared.takes?, hqueue]
    exact lastUnit_nil driver
  | take unit queue hphase hqueue =>
    obtain ⟨rfl, hstarted⟩ := LastUnit.of_resume hlast
    rw [LastUnit, hphase, Shared.takes?, hqueue]
    exact .inr ⟨unit, rfl, hstarted⟩
  | start hphase hrest =>
    obtain ⟨rfl, hstarted⟩ := hlast
    rw [LastUnit, hphase, toList_eq_cons hrest]
    exact ⟨rfl, (List.prefix_cons_inj _).mpr hstarted⟩
  | completed position result output hphase =>
    rw [LastUnit, hphase]
    exact LastUnit.of_resume hlast
  | recordLater error next | cancel next => exact hdone (by cases next <;> rfl) rfl rfl
  | _ => exact hdone rfl rfl rfl

end Driver

namespace State

variable {state next last : State} {move : Move} {moves : List Move} {id : Nat} {driver : Driver}

/-- `observe` gives the number of the driver that moves. -/
def ByMover {α : Type} (observe : State → Move → Option (Nat × α)) : Prop :=
  ∀ state move entry, observe state move = some entry → ∃ event, move = .driver entry.1 event

theorem byMover_takes? : ByMover takes? := by
  intro state move entry h
  cases move with
  | driver id event =>
    obtain ⟨unit, -, rfl⟩ := Option.map_eq_some_iff.mp h
    exact ⟨event, rfl⟩
  | _ => cases h

theorem byMover_starts? : ByMover starts? := by
  intro state move entry h
  cases move with
  | driver id event =>
    obtain ⟨position, -, rfl⟩ := Option.map_eq_some_iff.mp h
    exact ⟨event, rfl⟩
  | _ => cases h

theorem ByMover.ofDriver_eq_nil {α : Type} {observe : State → Move → Option (Nat × α)}
    (h : ByMover observe) (hmove : ∀ event, move ≠ .driver id event) :
    ofDriver id (observe state move).toList = [] := by
  cases hsome : observe state move with
  | none => rfl
  | some entry =>
    obtain ⟨event, rfl⟩ := h state move entry hsome
    have hne : entry.1 ≠ id := by
      rintro rfl
      exact hmove event rfl
    simp [ofDriver, hne]

/-- After the cancellation, what a driver takes and starts in a run is its `LastUnit`. -/
theorem lastUnit_of_run (hcancelled : state.shared.cancelled = true)
    (hget : state.drivers[id]? = some driver) (hrun : state.run? moves = some last) :
    driver.LastUnit (ofDriver id (state.gather takes? moves))
      (ofDriver id (state.gather starts? moves)) := by
  induction moves generalizing state driver with
  | nil => exact driver.lastUnit_nil
  | cons move moves ih =>
    obtain ⟨next, hnext, hrun⟩ := Option.bind_eq_some_iff.mp hrun
    have hstep := step_of_step? hnext
    obtain ⟨driver', hget', hbecomes⟩ := hstep.becomes hget
    -- what the driver does after the first move, from wherever that has left it
    have hlater := ih (hstep.cancelled_mono hcancelled) hget' hrun
    rw [gather, gather, hnext, Option.elim_some, Option.elim_some, ofDriver_append, ofDriver_append]
    cases hbecomes with
    | step event _ hown =>
      rw [takes?, starts?, hget, Option.bind_some, ofDriver_toList_map, ofDriver_toList_map,
        if_pos rfl, if_pos rfl]
      exact hown.lastUnit hcancelled hlater
    | join =>
      obtain ⟨htaken, hstarted⟩ := hlater.of_not_live rfl
      show driver.LastUnit ([] ++ _) ([] ++ _)
      rw [htaken, hstarted]
      exact driver.lastUnit_nil
    | keep _ hmove =>
      rw [byMover_takes?.ofDriver_eq_nil hmove, byMover_starts?.ofDriver_eq_nil hmove]
      exact hlater

/-- Every entry of `gather` comes from one step of the run. -/
theorem exists_step_of_mem_gather {α : Type} {observe : State → Move → Option α} {a : α}
    (hmem : a ∈ state.gather observe moves) (hrun : state.run? moves = some last) :
    ∃ before move middle next, state.run? before = some middle ∧ Step middle move next ∧
      observe middle move = some a := by
  induction moves generalizing state with
  | nil => cases hmem
  | cons move moves ih =>
    obtain ⟨next, hnext, hrun⟩ := Option.bind_eq_some_iff.mp hrun
    rw [gather, hnext, Option.elim_some] at hmem
    rcases List.mem_append.mp hmem with hmem | hmem
    · exact ⟨[], move, state, next, rfl, step_of_step? hnext, Option.mem_toList.mp hmem⟩
    · obtain ⟨before, other, middle, after, hbefore, hother⟩ := ih hmem hrun
      refine ⟨move :: before, other, middle, after, ?_, hother⟩
      rw [run?, hnext, Option.bind_some, hbefore]

/-- The number in an entry of a `ByMover` observation is that of a driver. -/
theorem ByMover.lt_length {α : Type} {observe : State → Move → Option (Nat × α)}
    (h : ByMover observe) {entry : Nat × α} (hmem : entry ∈ state.gather observe moves)
    (hrun : state.run? moves = some last) : entry.1 < state.drivers.length := by
  obtain ⟨before, move, middle, next, hbefore, hstep, hsome⟩ := exists_step_of_mem_gather hmem hrun
  obtain ⟨event, rfl⟩ := h middle move entry hsome
  rw [← (course_iff_run?_eq_some.mpr hbefore).length_drivers]
  cases hstep with
  | driver _ _ _ _ _ _ hget => exact (List.getElem?_eq_some_iff.mp hget).1

/-- `takes?` gathers the units of `takenUnits`. -/
theorem map_gather_takes? (state : State) (moves : List Move) :
    (state.gather takes? moves).map Prod.snd = state.takenUnits moves := by
  induction moves generalizing state with
  | nil => rfl
  | cons move moves ih =>
    have hhead : (state.takes? move).toList.map Prod.snd = (state.taken? move).toList := by
      cases move with
      | driver id event =>
        cases event with
        | take => cases hqueue : state.shared.queue <;> simp [takes?, Shared.takes?, taken?, hqueue]
        | _ => rfl
      | _ => rfl
    rw [takenUnits, gather, gather, List.map_append, hhead]
    cases state.step? move with
    | none => rfl
    | some next => exact congrArg _ (ih next)

/-- A step adds to `runs` what `starts?` says of its move. -/
theorem Step.runs_eq (h : Step state move next) :
    next.shared.runs = state.shared.runs ++ (state.starts? move).toList := by
  cases h with
  | driver id event driver driver' shared' _ hget hstep =>
    rw [starts?, hget, Option.bind_some]
    cases hstep with
    | start => simp [Driver.starts?, Shared.runs, Shared.noting, Act.run?]
    | recordLater | cancel =>
      rw [Driver.runs_conclude]
      exact (List.append_nil _).symm
    | _ => simp [Driver.starts?, Shared.runs, Shared.noting, Act.run?]
  | _ => exact (List.append_nil _).symm

end State

/-- The `runs` after a course are those before it and what `starts?` gathers. -/
theorem Course.runs_eq {permits : Nat → Phase → Event → Prop} {start state : State}
    {moves : List Move} (h : Course permits start moves state) :
    state.shared.runs = start.shared.runs ++ start.gather State.starts? moves := by
  induction h with
  | nil => exact (List.append_nil _).symm
  | concat before hstep _ ih =>
    rw [(State.step_of_step? hstep).runs_eq, ih, State.gather_concat before.run?_eq_some,
      List.append_assoc]

/-! ## What all drivers may still do -/

/-- If the entries of one driver are none and those of every other at most `bound`, there are at
most `bound` entries for each of the others. -/
theorem length_le_of_ofDriver {α : Type} {entries : List (Nat × α)} {drivers culprit bound : Nat}
    (hculprit : culprit < drivers) (hnone : ofDriver culprit entries = [])
    (hlt : ∀ entry ∈ entries, entry.1 < drivers)
    (hle : ∀ id < drivers, (ofDriver id entries).length ≤ bound) :
    entries.length ≤ (drivers - 1) * bound := by
  have hcount (id : Nat) : (entries.map Prod.fst).count id = (ofDriver id entries).length := by
    rw [ofDriver, List.length_map, List.count, List.countP_map, List.countP_eq_length_filter]
    rfl
  -- the numbers that occur are those of other drivers
  have hsub : (entries.map Prod.fst).dedup ⊆ (List.range drivers).erase culprit := by
    intro id hid
    have hmem := List.mem_dedup.mp hid
    have hpos := List.count_pos_iff.mpr hmem
    obtain ⟨entry, hentry, rfl⟩ := List.mem_map.mp hmem
    refine (List.mem_erase_of_ne ?_).mpr (List.mem_range.mpr (hlt entry hentry))
    rintro heq
    rw [hcount, heq, hnone] at hpos
    cases hpos
  have hlength := (List.subperm_of_subset (List.nodup_dedup _) hsub).length_le
  rw [List.length_erase_of_mem (List.mem_range.mpr hculprit), List.length_range] at hlength
  calc entries.length
      = ((entries.map Prod.fst).dedup.map fun id => (entries.map Prod.fst).count id).sum := by
        rw [List.sum_map_count_dedup_eq_length, List.length_map]
    _ ≤ (entries.map Prod.fst).dedup.length * bound := by
        rw [← (entries.map Prod.fst).dedup.length_map fun id => (entries.map Prod.fst).count id]
        refine List.sum_le_card_nsmul _ bound fun count hmem => ?_
        obtain ⟨id, hid, rfl⟩ := List.mem_map.mp hmem
        rw [hcount]
        exact hle id (List.mem_range.mp (List.mem_of_mem_erase (hsub hid)))
    _ ≤ (drivers - 1) * bound := Nat.mul_le_mul_right bound hlength

/-- A `LastUnit` is at most one unit and the tasks of at most one unit. -/
theorem Driver.LastUnit.length_le {driver : Driver} {taken : List Span} {started : List Nat}
    {bound : Nat} (h : driver.LastUnit taken started)
    (hrest : driver.phase = .holding ∨ (∃ position, driver.phase = .running position) →
      driver.rest.length ≤ bound)
    (htaken : ∀ unit ∈ taken, unit.length ≤ bound) :
    taken.length ≤ 1 ∧ started.length ≤ bound := by
  have hshort {span : Span} (h : started <+: span.toList) : started.length ≤ span.length := by
    simpa [Span.toList] using h.length_le
  unfold LastUnit at h
  split at h
  · rename_i hphase
    obtain ⟨rfl, hstarted⟩ := h
    exact ⟨Nat.zero_le _, (hshort hstarted).trans (hrest (.inl hphase))⟩
  · rename_i position hphase
    obtain ⟨rfl, hstarted⟩ := h
    exact ⟨Nat.zero_le _, (hshort hstarted).trans (hrest (.inr ⟨position, hphase⟩))⟩
  · rcases h with ⟨rfl, rfl⟩ | ⟨unit, rfl, hstarted⟩
    · exact ⟨Nat.zero_le _, Nat.zero_le _⟩
    · exact ⟨Nat.le_refl _, (hshort hstarted).trans (htaken unit List.mem_cons_self)⟩
  · obtain ⟨rfl, rfl⟩ := h
    exact ⟨Nat.zero_le _, Nat.zero_le _⟩

/-- Let `move` cancel an evaluation, and let `before` and `after` be any moves around it. The driver
that brought the cancellation about takes no unit and starts no task in `after`, and every other
driver at most its `LastUnit`, which is nothing for a driver that is not live. So fewer units are
taken than there are drivers, and at most one chunk of tasks is started for each of these. -/
theorem work_after_cancellation {tasks : List Envelope} {options : Options}
    {start state next last : State} {before after : List Move} {move : Move}
    (hstart : State.start tasks.length options = .ok start)
    (hbefore : start.run? before = some state) (hmove : state.step? move = some next)
    (huncancelled : state.shared.cancelled = false) (hcancelled : next.shared.cancelled = true)
    (hafter : next.run? after = some last) :
    let taken := next.gather State.takes? after
    let started := next.gather State.starts? after
    (taken.map Prod.snd ++ last.shared.queue = next.shared.queue ∧
      last.shared.runs = next.shared.runs ++ started) ∧
    (∃ culprit < start.drivers.length, ∃ event error, .driver culprit event ∈ before ∧
      event.failure? = some error ∧ next.shared.firstError = some error ∧
      (move = .driver culprit .cancel ∨ move = .cancel ∧ ∃ message, event = .crash message) ∧
      ofDriver culprit taken = [] ∧ ofDriver culprit started = []) ∧
    (∀ (id : Nat) (driver : Driver), next.drivers[id]? = some driver →
      driver.LastUnit (ofDriver id taken) (ofDriver id started) ∧
      (driver.phase = .holding ∨ (∃ position, driver.phase = .running position) →
        ∃ unit ∈ start.shared.queue, driver.rest.toList <:+ unit.toList)) ∧
    taken.length ≤ start.drivers.length - 1 ∧
    started.length ≤ (start.drivers.length - 1) * max options.chunkSize 1 := by
  intro taken started
  have hcourse := course_iff_run?_eq_some.mpr hbefore
  have hnext := hcourse.concat hmove (by cases move <;> simp [State.Permits])
  have hlater := course_iff_run?_eq_some.mpr hafter
  have hdrivers : next.drivers.length = start.drivers.length := hnext.length_drivers
  have hqueue := hnext.takenUnits_append_queue
  have htaken : taken.map Prod.snd ++ last.shared.queue = next.shared.queue := by
    rw [State.map_gather_takes?]
    exact hlater.takenUnits_append_queue
  have hruns : last.shared.runs = next.shared.runs ++ started := hlater.runs_eq
  have hunit (id : Nat) (driver : Driver) (hget : next.drivers[id]? = some driver)
      (hphase : driver.phase = .holding ∨ ∃ position, driver.phase = .running position) :
      ∃ unit ∈ start.shared.queue, driver.rest.toList <:+ unit.toList := by
    have habreast := (hnext.abreast hstart).drivers driver (List.mem_of_getElem? hget)
    obtain ⟨unit, hmem, hsuffix⟩ := habreast.exists_suffix hphase
    exact ⟨unit, hqueue ▸ List.mem_append_left _ hmem, hsuffix⟩
  have hlast (id : Nat) (driver : Driver) (hget : next.drivers[id]? = some driver) :
      driver.LastUnit (ofDriver id taken) (ofDriver id started) :=
    State.lastUnit_of_run hcancelled hget hafter
  -- so each has at most one unit's share of what is taken and started
  have hlength (id : Nat) (hid : id < start.drivers.length) :
      (ofDriver id taken).length ≤ 1 ∧
        (ofDriver id started).length ≤ max options.chunkSize 1 := by
    rw [← hdrivers] at hid
    have hget := List.getElem?_eq_getElem hid
    refine (hlast id _ hget).length_le (fun hphase => ?_) fun unit hmem => ?_
    · obtain ⟨unit, hmem, hsuffix⟩ := hunit id _ hget hphase
      have hle := hsuffix.length_le
      simp only [Span.toList, List.length_range'] at hle
      exact hle.trans (State.length_unit_le hstart hmem)
    · obtain ⟨entry, hentry, rfl⟩ := List.mem_map.mp hmem
      refine State.length_unit_le hstart (hqueue ▸ List.mem_append_right _ ?_)
      rw [← htaken]
      exact List.mem_append_left _ (List.mem_map_of_mem (List.mem_filter.mp hentry).1)
  -- and the one that met the failure recorded has none
  obtain ⟨culprit, driver, event, error, hget, hlive, hmem, herror, hfirst, hwho⟩ :=
    hcourse.exists_culprit hstart (State.step_of_step? hmove) huncancelled hcancelled
  have hculprit : culprit < start.drivers.length :=
    hdrivers ▸ (List.getElem?_eq_some_iff.mp hget).1
  obtain ⟨hnotaken, hnostarted⟩ := (hlast culprit driver hget).of_not_live hlive
  refine ⟨⟨htaken, hruns⟩, ⟨culprit, hculprit, event, error, hmem, herror, hfirst, hwho, hnotaken,
    hnostarted⟩, fun id driver hget => ⟨hlast id driver hget, hunit id driver hget⟩, ?_, ?_⟩
  · have hle := length_le_of_ofDriver hculprit hnotaken
      (fun _ hentry => hdrivers ▸ State.byMover_takes?.lt_length hentry hafter)
      fun id hid => (hlength id hid).1
    rwa [Nat.mul_one] at hle
  · exact length_le_of_ofDriver hculprit hnostarted
      (fun _ hentry => hdrivers ▸ State.byMover_starts?.lt_length hentry hafter)
      fun id hid => (hlength id hid).2

/-- Two drivers and two units of two tasks. Driver 1 has looked at the cancellation and is about to
take a unit when driver 0 cancels: it still takes the unit and starts both tasks of it, so the
bounds of `work_after_cancellation` are met exactly. -/
theorem work_after_cancellation_of_pulling :
    let before : List Move := [.driver 0 .launch, .driver 0 .launched, .driver 1 .launch,
      .driver 1 .launched, .driver 0 .look, .driver 0 .take, .driver 0 .start, .driver 1 .look,
      .driver 0 (.answer (.error (.engine "gone"))), .driver 0 .record]
    let after : List Move := [.driver 1 .take, .driver 1 .start,
      .driver 1 (.answer (.ok (.completed 2 ⟨[7]⟩))), .driver 1 .start, .driver 1 .abandon]
    let next : State :=
      ⟨⟨4, [⟨2, 4⟩], true, some (.engine "gone"), 0,
          [.spawn 0, .spawned 0, .spawn 1, .spawned 1, .run 0 0, .terminate 0],
          [.notice (.evaluationCancelled 0 4)]⟩,
        [⟨.terminating, ⟨1, 2⟩, []⟩, ⟨.pulling, ⟨0, 0⟩, []⟩], [none, none, none, none], .idle⟩
    (State.initial 4 [⟨0, 2⟩, ⟨2, 4⟩] 2).run? (before ++ [.driver 0 .cancel]) = some next ∧
      next.gather State.takes? after = [(1, ⟨2, 4⟩)] ∧
      next.gather State.starts? after = [(1, 2), (1, 3)] ∧
      (next.gather State.takes? after).length ≤ 2 - 1 ∧
      (next.gather State.starts? after).length ≤ (2 - 1) * max 2 1 := by
  intro before after next
  let state : State :=
    ⟨⟨4, [⟨2, 4⟩], false, some (.engine "gone"), 0,
        [.spawn 0, .spawned 0, .spawn 1, .spawned 1, .run 0 0], []⟩,
      [⟨.cancelling .terminate, ⟨1, 2⟩, []⟩, ⟨.pulling, ⟨0, 0⟩, []⟩],
      [none, none, none, none], .idle⟩
  let last : State :=
    ⟨⟨4, [], true, some (.engine "gone"), 1,
        [.spawn 0, .spawned 0, .spawn 1, .spawned 1, .run 0 0, .terminate 0, .run 1 2, .run 1 3],
        [.notice (.evaluationCancelled 0 4)]⟩,
      [⟨.terminating, ⟨1, 2⟩, []⟩, ⟨.leaving, ⟨4, 4⟩, [(2, ⟨[7]⟩)]⟩],
      [none, none, none, none], .idle⟩
  have hstart : State.start (List.replicate 4 (⟨0, "f", ⟨[]⟩, ⟨[]⟩⟩ : Envelope)).length
      ⟨2, 2, false⟩ = .ok (State.initial 4 [⟨0, 2⟩, ⟨2, 4⟩] 2) := rfl
  have hbefore : (State.initial 4 [⟨0, 2⟩, ⟨2, 4⟩] 2).run? before = some state := rfl
  have hmove : state.step? (.driver 0 .cancel) = some next := rfl
  have hafter : next.run? after = some last := rfl
  obtain ⟨-, -, -, htaken, hstarted⟩ :=
    work_after_cancellation hstart hbefore hmove rfl rfl hafter
  exact ⟨rfl, rfl, rfl, htaken, hstarted⟩

end Fanout.Schedule

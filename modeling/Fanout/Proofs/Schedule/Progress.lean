import Fanout.Proofs.Schedule.Dispatch
import Mathlib.Data.List.Nodup
import Mathlib.Data.List.Perm.Subperm

/-!
# Progress within units

A driver works through its unit from the first position on and stops at the first task that is not
completed. `State.Abreast` is the invariant: what a driver has left is a suffix of its unit, the
tasks before it were completed, and a unit that is not complete is the last one its driver has
taken. So each failing answer is the first one of its unit (`Course.reached_of_answer`), and at most
one of the units taken by each driver contains a failing task (`Course.countP_takenUnits_le`).
-/

namespace Fanout

theorem Span.mem_toList_iff {span : Span} {position : Nat} :
    position ∈ span.toList ↔ span.start ≤ position ∧ position < span.stop := by
  rw [toList, List.mem_range'_1, length]
  omega

/-- Consecutive spans have distinct stops. -/
theorem Consecutive.nodup_map_stop {start last : Nat} {spans : List Span}
    (h : Consecutive start spans last) : (spans.map Span.stop).Nodup := by
  rw [List.Nodup, List.pairwise_map]
  refine h.pairwise.imp_of_mem fun {a b} _ hb hle => ?_
  have hlt := (h.bounds hb).2.1
  omega

/-- The chunks of `chunkRanges` are no longer than the size asked for. -/
theorem Partition.length_le_of_chunkRanges {length chunkSize : Nat} {units : List Span}
    (h : chunkRanges length chunkSize = .ok units) {unit : Span} (hmem : unit ∈ units) :
    unit.length ≤ max chunkSize 1 := by
  rw [eq_map_of_chunkRanges h] at hmem
  obtain ⟨i, -, rfl⟩ := List.mem_map.mp hmem
  simp only [chunk, Span.length]
  omega

namespace Schedule

/-- The units of an evaluation are no longer than `options.chunkSize`, or 1. -/
theorem State.length_unit_le {tasks : Nat} {options : Options} {start : State}
    (h : State.start tasks options = .ok start) {unit : Span} (hmem : unit ∈ start.shared.queue) :
    unit.length ≤ max options.chunkSize 1 := by
  by_cases htasks : tasks = 0
  · subst htasks
    cases h
    cases hmem
  · obtain ⟨units, hunits, rfl⟩ := (start_eq_ok_iff htasks).mp h
    exact Partition.length_le_of_chunkRanges hunits hmem

/-- `permits` allows a completed answer to the task at `position`. -/
def MayComplete (permits : Nat → Phase → Event → Prop) (position : Nat) : Prop :=
  ∃ id result output, permits id (.running position) (.answer result) ∧
    result.bind Response.output = .ok output

/-- `permits` allows an answer to the task at `position` with the result `error`. -/
def MayFail (permits : Nat → Phase → Event → Prop) (position : Nat) (error : BackendError) : Prop :=
  ∃ id result, permits id (.running position) (.answer result) ∧
    result.bind Response.output = .error error

/-- `position` is in `unit`, and `permits` allows to complete all positions of the unit before
it. -/
structure Reached (permits : Nat → Phase → Event → Prop) (unit : Span) (position : Nat) : Prop where
  start_le : unit.start ≤ position
  lt_stop : position < unit.stop
  before : ∀ j, unit.start ≤ j → j < position → MayComplete permits j

/-- If the driver has a rest, it is the end of a unit in `taken`, which is `Reached` up to the start
of the rest. -/
def Driver.Abreast (permits : Nat → Phase → Event → Prop) (taken : List Span) (driver : Driver) :
    Prop :=
  match driver.phase with
  | .holding =>
    ∃ unit ∈ taken, unit.stop = driver.rest.stop ∧ Reached permits unit driver.rest.start
  | .running position => driver.rest.start = position + 1 ∧
    ∃ unit ∈ taken, unit.stop = driver.rest.stop ∧ Reached permits unit position
  | _ => True

/-- All tasks of `unit` may be complete, or `unit` is the last unit of a driver that is still at
it. -/
def State.Covers (permits : Nat → Phase → Event → Prop) (state : State) (unit : Span) : Prop :=
  (∀ j ∈ unit.toList, MayComplete permits j) ∨
    ∃ (id : Nat) (driver : Driver), state.drivers[id]? = some driver ∧
      driver.rest.stop = unit.stop ∧ driver.phase.isBetween = false

/-- Every driver is `Abreast`, and every unit taken is one that the state `Covers`. -/
structure State.Abreast (permits : Nat → Phase → Event → Prop) (taken : List Span)
    (state : State) : Prop where
  drivers : ∀ driver ∈ state.drivers, driver.Abreast permits taken
  covers : ∀ unit ∈ taken, state.Covers permits unit

/-- A rest is a suffix of its unit. -/
theorem toList_suffix {unit rest : Span} (hstart : unit.start ≤ rest.start)
    (hle : rest.start ≤ rest.stop) (hstop : unit.stop = rest.stop) :
    rest.toList <:+ unit.toList := by
  have hjoin := List.range'_append_1 (s := unit.start) (m := rest.start - unit.start)
    (n := rest.stop - rest.start)
  rw [Nat.add_sub_cancel' hstart,
    show rest.start - unit.start + (rest.stop - rest.start) = unit.length by
      rw [Span.length]; omega] at hjoin
  exact ⟨_, hjoin⟩

namespace Driver

variable {permits : Nat → Phase → Event → Prop} {id : Nat} {shared shared' : Shared}
  {driver driver' : Driver} {event : Event} {taken taken' : List Span}

/-- A driver that resumes its unit is `Abreast` if the unit is `Reached` up to the rest. -/
theorem abreast_resume (h : driver.rest.length ≠ 0 → ∃ unit ∈ taken,
    unit.stop = driver.rest.stop ∧ Reached permits unit driver.rest.start) :
    driver.resume.Abreast permits taken := by
  rw [resume]
  split
  · trivial
  · rename_i hrest
    exact h hrest

theorem Abreast.mono (h : driver.Abreast permits taken) (hsub : ∀ unit ∈ taken, unit ∈ taken') :
    driver.Abreast permits taken' := by
  unfold Abreast at h ⊢
  split <;> rename_i hphase <;> simp only [hphase] at h
  · exact h.imp fun unit h => ⟨hsub unit h.1, h.2⟩
  · exact ⟨h.1, h.2.imp fun unit h => ⟨hsub unit h.1, h.2⟩⟩
  · trivial

/-- The rest of a driver that is `holding` or `running` is a suffix of a unit in `taken`. -/
theorem Abreast.exists_suffix (h : driver.Abreast permits taken)
    (hphase : driver.phase = .holding ∨ ∃ position, driver.phase = .running position) :
    ∃ unit ∈ taken, driver.rest.toList <:+ unit.toList := by
  rcases hphase with hphase | ⟨position, hphase⟩
  · rw [Abreast, hphase] at h
    obtain ⟨unit, hmem, hstop, hreached⟩ := h
    have hlt := hreached.lt_stop
    exact ⟨unit, hmem, toList_suffix hreached.start_le (by omega) hstop⟩
  · rw [Abreast, hphase] at h
    obtain ⟨hstart, unit, hmem, hstop, hreached⟩ := h
    have hle := hreached.start_le
    have hlt := hreached.lt_stop
    exact ⟨unit, hmem, toList_suffix (by omega) (by omega) hstop⟩

/-- `Driver.Step` keeps `Driver.Abreast`. -/
theorem Step.abreast (h : Step id shared driver event shared' driver')
    (hpermits : permits id driver.phase event) (hd : driver.Abreast permits taken)
    (hsub : ∀ unit ∈ taken, unit ∈ taken')
    (htaken : event = .take → ∀ unit ∈ shared.queue.head?, unit ∈ taken') :
    driver'.Abreast permits taken' := by
  cases h with
  | take unit queue hphase hqueue =>
    refine abreast_resume fun hrest => ⟨unit, htaken rfl unit (by rw [hqueue]; rfl), rfl, ?_⟩
    have hlt : unit.start < unit.stop := Nat.lt_of_sub_ne_zero hrest
    exact ⟨Nat.le_refl _, hlt, fun j hj hlt => absurd hj (Nat.not_le.mpr hlt)⟩
  | start hphase hrest =>
    rw [Abreast, hphase] at hd
    obtain ⟨unit, hmem, hstop, hreached⟩ := hd
    exact ⟨rfl, unit, hsub unit hmem, hstop, hreached⟩
  | completed position result output hphase hresult =>
    rw [Abreast, hphase] at hd
    obtain ⟨hstart, unit, hmem, hstop, hreached⟩ := hd
    refine abreast_resume fun hrest => ⟨unit, hsub unit hmem, hstop, ?_⟩
    have hlt : driver.rest.start < driver.rest.stop := Nat.lt_of_sub_ne_zero hrest
    have hle := hreached.start_le
    show Reached permits unit driver.rest.start
    refine ⟨by omega, by omega, fun j hj hlt => ?_⟩
    -- the task that was just completed is the last one before the rest
    rcases Nat.lt_succ_iff_lt_or_eq.mp (hstart ▸ hlt) with hlt | rfl
    · exact hreached.before j hj hlt
    · exact ⟨id, result, output, hphase ▸ hpermits, hresult⟩
  | recordLater error next | cancel next => cases next <;> trivial
  | _ => trivial

/-- A driver with a unit takes no other one, and is done with it only by a completed answer to the
last position. -/
theorem Step.isBetween_eq_false (h : Step id shared driver event shared' driver')
    (hphase : driver.phase.isBetween = false) : driver'.rest.stop = driver.rest.stop ∧
      (driver'.phase.isBetween = false ∨ ∃ position result output,
        driver.phase = .running position ∧ event = .answer result ∧
        result.bind Response.output = .ok output ∧ driver.rest.length = 0) := by
  cases h with
  | launch h | launched h | lookOn h | lookAway h | exhausted h | take _ _ h | refused _ h =>
    rw [h] at hphase
    cases hphase
  | skip h =>
    rcases h with h | h <;> rw [h] at hphase <;> cases hphase
  | completed position result output hrunning hresult =>
    refine ⟨rfl, ?_⟩
    by_cases hrest : driver.rest.length = 0
    · exact .inr ⟨position, result, output, hrunning, rfl, hresult, hrest⟩
    · left
      rw [resume, if_neg hrest]
      rfl
  | recordLater error next | cancel next => cases next <;> exact ⟨rfl, .inl rfl⟩
  | _ => exact ⟨rfl, .inl rfl⟩

end Driver

namespace State

variable {permits : Nat → Phase → Event → Prop} {state next : State} {move : Move}
  {taken units : List Span} {unit : Span}

/-- `State.Step` keeps `State.Covers`. -/
theorem Step.covers (h : Step state move next) (hpermits : state.Permits permits move)
    (habreast : ∀ driver ∈ state.drivers, driver.Abreast permits taken)
    (hdistinct : ∀ other ∈ taken, other.stop = unit.stop → other = unit)
    (hs : state.Covers permits unit) : next.Covers permits unit := by
  rcases hs with hall | ⟨id, driver, hget, hstop, hphase⟩
  · exact .inl hall
  obtain ⟨driver', hget', hbecomes⟩ := h.becomes hget
  cases hbecomes with
  | join => exact .inr ⟨id, _, hget', hstop, rfl⟩
  | keep => exact .inr ⟨id, _, hget', hstop, hphase⟩
  | step event _ hstep =>
    obtain ⟨hstop', hbetween | ⟨position, result, output, hrunning, rfl, hresult, hrest⟩⟩ :=
      hstep.isBetween_eq_false hphase
    · exact .inr ⟨id, driver', hget', hstop'.trans hstop, hbetween⟩
    -- the driver has completed the last task of the unit, so all of them
    · left
      have hdriver := habreast driver (List.mem_of_getElem? hget)
      have hevent := hpermits driver hget
      rw [Driver.Abreast, hrunning] at hdriver
      rw [hrunning] at hevent
      obtain ⟨hstart, other, hother, hsame, hreached⟩ := hdriver
      -- what it has in hand is the end of this unit, for no other one ends there
      obtain rfl := hdistinct other hother (hsame.trans hstop)
      intro i hi
      obtain ⟨hle, hlt⟩ := Span.mem_toList_iff.mp hi
      have hlast := hreached.lt_stop
      rw [Span.length] at hrest
      rcases Nat.lt_or_ge i position with hbefore | hge
      · exact hreached.before i hle hbefore
      · obtain rfl : i = position := by omega
        exact ⟨id, result, output, hevent, hresult⟩

/-- A unit is covered right after it was taken. -/
theorem Step.covers_taken (h : Step state move next) (htaken : state.taken? move = some unit) :
    next.Covers permits unit := by
  cases h with
  | driver id event driver driver' shared' _ hget hstep =>
    have hlt := (List.getElem?_eq_some_iff.mp hget).1
    cases hstep with
    | exhausted _ hqueue =>
      rw [taken?, hqueue] at htaken
      cases htaken
    | take first queue _ hqueue =>
      rw [taken?, hqueue] at htaken
      cases htaken
      by_cases hempty : unit.length = 0
      · left
        rw [toList_eq_nil hempty]
        exact fun j hj => absurd hj List.not_mem_nil
      · refine .inr ⟨id, driver.hold unit, by simp [withDriver, hlt], rfl, ?_⟩
        rw [Driver.hold, Driver.resume, if_neg hempty]
        rfl
    | _ => cases htaken
  | _ => cases htaken

/-- `State.Step` keeps `State.Abreast`. -/
theorem Step.abreast (h : Step state move next) (hpermits : state.Permits permits move)
    (hdistinct : ((taken ++ (state.taken? move).toList).map Span.stop).Nodup)
    (hs : state.Abreast permits taken) :
    next.Abreast permits (taken ++ (state.taken? move).toList) := by
  have hsub (unit : Span) (hmem : unit ∈ taken) : unit ∈ taken ++ (state.taken? move).toList :=
    List.mem_append_left _ hmem
  constructor
  · intro driver' hmem
    obtain ⟨id, hget⟩ := List.mem_iff_getElem?.mp hmem
    obtain ⟨driver, hbefore, hbecomes⟩ := h.exists_becomes hget
    have hdriver := hs.drivers driver (List.mem_of_getElem? hbefore)
    cases hbecomes with
    | step event _ hstep =>
      refine hstep.abreast (hpermits driver hbefore) hdriver hsub ?_
      rintro rfl unit hunit
      exact List.mem_append_right _ (Option.mem_toList.mpr hunit)
    | join => trivial
    | keep => exact hdriver.mono hsub
  · intro unit hunit
    rcases List.mem_append.mp hunit with hunit | hunit
    · refine h.covers hpermits hs.drivers (fun other hother hstop => ?_) (hs.covers unit hunit)
      exact List.inj_on_of_nodup_map hdistinct (hsub other hother) (hsub unit hunit) hstop
    · exact h.covers_taken (Option.mem_toList.mp hunit)

end State

namespace Course

variable {permits : Nat → Phase → Event → Prop} {start state : State} {moves : List Move}
  {tasks : Nat} {options : Options}

/-- The units taken in a course have distinct stops. -/
theorem nodup_takenUnits (h : Course permits start moves state)
    (hstart : State.start tasks options = .ok start) :
    ((start.takenUnits moves).map Span.stop).Nodup := by
  obtain ⟨units, drivers, rfl, hunits, -⟩ := State.start_eq_ok hstart
  have hnodup := hunits.nodup_map_stop
  have hqueue :
      (State.initial tasks units drivers).takenUnits moves ++ state.shared.queue = units :=
    h.takenUnits_append_queue
  rw [← hqueue, List.map_append] at hnodup
  exact (List.nodup_append.mp hnodup).1

/-- A course keeps `State.Abreast`. -/
theorem abreast (h : Course permits start moves state)
    (hstart : State.start tasks options = .ok start) :
    state.Abreast permits (start.takenUnits moves) := by
  induction h with
  | nil =>
    obtain ⟨units, drivers, rfl, -⟩ := State.start_eq_ok hstart
    refine ⟨fun driver hmem => ?_, fun unit hunit => absurd hunit List.not_mem_nil⟩
    rw [List.eq_of_mem_replicate hmem]
    trivial
  | concat before hstep hpermits ih =>
    have hdistinct := (before.concat hstep hpermits).nodup_takenUnits hstart
    rw [State.takenUnits, State.gather_concat before.run?_eq_some] at hdistinct ⊢
    exact (State.step_of_step? hstep).abreast hpermits hdistinct ih

/-- A failing answer of a course is to a position of a unit that was taken, which is `Reached` up to
this position. -/
theorem reached_of_answer (h : Course permits start moves state)
    (hstart : State.start tasks options = .ok start) {id : Nat}
    {result : Except BackendError Response} {error : BackendError}
    (hmem : .driver id (.answer result) ∈ moves)
    (hresult : result.bind Response.output = .error error) :
    ∃ unit ∈ start.takenUnits moves, ∃ position, MayFail permits position error ∧
      Reached permits unit position := by
  induction h with
  | nil => cases hmem
  | concat before hstep hpermits ih =>
    rw [State.takenUnits, State.gather_concat before.run?_eq_some]
    rcases List.mem_append.mp hmem with hmem | hmem
    · obtain ⟨unit, hunit, h⟩ := ih hmem
      exact ⟨unit, List.mem_append_left _ hunit, h⟩
    -- the driver that has just been answered had reached the task it ran
    · obtain rfl := List.mem_singleton.mp hmem
      cases State.step_of_step? hstep with
      | driver _ _ driver driver' shared' _ hget hdriver =>
        have hevent := hpermits driver hget
        have habreast := (before.abreast hstart).drivers driver (List.mem_of_getElem? hget)
        cases hdriver with
        | completed _ _ output _ houtput =>
          rw [hresult] at houtput
          cases houtput
        | failed position _ _ hphase =>
          rw [hphase] at hevent
          rw [Driver.Abreast, hphase] at habreast
          obtain ⟨-, unit, hunit, -, hreached⟩ := habreast
          exact ⟨unit, List.mem_append_left _ hunit, position, ⟨id, result, hevent, hresult⟩,
            hreached⟩

/-- Among the units taken in a course, at most one for each driver cannot be completed. -/
theorem countP_takenUnits_le (h : Course permits start moves state)
    (hstart : State.start tasks options = .ok start) {fails : Span → Bool}
    (hfails : ∀ unit, fails unit → ¬ ∀ j ∈ unit.toList, MayComplete permits j) :
    (start.takenUnits moves).countP fails ≤ start.drivers.length := by
  -- each is the last unit of another driver, as no two of them end at the same position
  have hnodup : (((start.takenUnits moves).filter fails).map Span.stop).Nodup :=
    (h.nodup_takenUnits hstart).sublist (List.filter_sublist.map _)
  have hsub : ((start.takenUnits moves).filter fails).map Span.stop ⊆
      state.drivers.map fun driver => driver.rest.stop := by
    intro stop hstop
    obtain ⟨unit, hunit, rfl⟩ := List.mem_map.mp hstop
    obtain ⟨hunit, hunfinished⟩ := List.mem_filter.mp hunit
    rcases (h.abreast hstart).covers unit hunit with hall | ⟨id, driver, hget, hstop, -⟩
    · exact absurd hall (hfails unit hunfinished)
    · exact List.mem_map.mpr ⟨driver, List.mem_of_getElem? hget, hstop⟩
  have hle := (List.subperm_of_subset hnodup hsub).length_le
  rwa [List.length_map, List.length_map, h.length_drivers, ← List.countP_eq_length_filter] at hle

end Course

end Schedule

end Fanout

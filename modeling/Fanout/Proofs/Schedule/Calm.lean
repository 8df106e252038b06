import Fanout.Proofs.Schedule.Dispatch
import Fanout.Proofs.Schedule.Failure

/-!
# Evaluations in which nothing fails

While no failure is met, the state is `Calm`: it is not cancelled, and a driver leaves the loop over
units only if the queue is empty and its own unit is complete (`Course.calm`). If an evaluation has
ended without cancellation, no failure was met (`Course.failures_eq_nil`), and every task was
started exactly once.
-/

namespace Fanout.Schedule

open Traversal

/-- Whether a driver can be in a phase without a failure or a cancellation. -/
def Phase.isCalm : Phase → Bool
  | recording .. | cancelling _ | terminating | panicked _ => false
  | _ => true

/-- A driver that has met no failure, and is live as long as there is work. -/
structure Driver.Calm (queue : List Span) (driver : Driver) : Prop where
  /-- Its phase is none of those that follow a failure. -/
  phase : driver.phase.isCalm
  /-- A driver that is no longer live has no task left, and neither has the queue. -/
  done : driver.phase.isLive = false → queue = [] ∧ driver.rest.length = 0

/-- An evaluation in which no failure was met. -/
structure State.Calm (state : State) : Prop where
  /-- It is not cancelled. -/
  cancelled : state.shared.cancelled = false
  /-- The collector deals with no panic. -/
  collector : state.collector = .idle ∨ ∃ fault, state.collector = .faulted fault
  /-- Every driver is calm. -/
  drivers : ∀ driver ∈ state.drivers, driver.Calm state.shared.queue

namespace Driver

variable {id : Nat} {shared shared' : Shared} {driver driver' : Driver} {event : Event}
  {queue : List Span}

theorem calm_resume (driver : Driver) : driver.resume.Calm queue := by
  rw [resume]
  split <;> exact ⟨rfl, fun h => by cases h⟩

/-- `Driver.Step` keeps `Driver.Calm` if its event is no failure. -/
theorem Step.calm (h : Step id shared driver event shared' driver')
    (hcalm : driver.Calm shared.queue) (htidy : driver.Tidy) (hcancelled : shared.cancelled = false)
    (hevent : event.failure? = none) :
    driver'.Calm shared'.queue ∧ shared'.cancelled = false := by
  have hphase := hcalm.phase
  -- a calm driver takes none of the steps that need a cancellation or an error to hand over
  cases h with
  | launch | launched | lookOn | start => exact ⟨⟨rfl, fun h => by cases h⟩, hcancelled⟩
  | take => exact ⟨calm_resume _, hcancelled⟩
  | completed => exact ⟨calm_resume _, hcancelled⟩
  | exhausted hpulling hqueue =>
    exact ⟨⟨rfl, fun _ => ⟨hqueue, htidy.between (by rw [hpulling]; rfl)⟩⟩, hcancelled⟩
  | dismiss hleaving =>
    exact ⟨⟨rfl, fun _ => hcalm.done (by rw [hleaving]; rfl)⟩, hcancelled⟩
  | closed hclosing =>
    exact ⟨⟨rfl, fun _ => hcalm.done (by rw [hclosing]; rfl)⟩, hcancelled⟩
  | skip _ hc | lookAway _ hc | abandon _ hc | expel _ hc =>
    rw [hcancelled] at hc
    cases hc
  | failed position result error _ hresult => simp [Event.failure?, hresult] at hevent
  | refused | unclosed | crash => cases hevent
  | terminated h | recordFirst _ _ h | recordLater _ _ h | cancel _ h =>
    rw [h] at hphase
    cases hphase

end Driver

namespace State

variable {state next : State} {move : Move} {tasks : Nat}

/-- `State.Step` keeps `State.Calm` if its move is no failure. -/
theorem Step.calm (h : Step state move next) (hcalm : state.Calm) (hs : state.Accounted tasks)
    (hmove : move.failure? = none) : next.Calm := by
  cases h with
  | driver id event driver driver' shared' _ hget hstep =>
    have hmem := List.mem_of_getElem? hget
    obtain ⟨hdriver, hcancelled⟩ :=
      hstep.calm (hcalm.drivers driver hmem) (hs.tidy driver hmem) hcalm.cancelled hmove
    refine ⟨hcancelled, hcalm.collector, fun other hother => ?_⟩
    rcases List.mem_or_eq_of_mem_set hother with hother | rfl
    · have hother := hcalm.drivers other hother
      refine ⟨hother.phase, fun hlive => ⟨?_, (hother.done hlive).2⟩⟩
      -- a queue without units stays without
      have hqueue := (hother.done hlive).1
      cases hstep.handover with
      | none h => rw [h, hqueue]
      | taken _ _ h => simp [hqueue] at h
      | started _ h => rw [h, hqueue]
    · exact hdriver
  | collect id driver _ hcollector hget hphase | overrun id driver _ hcollector hget hphase =>
    have hmem := List.mem_of_getElem? hget
    refine ⟨hcalm.cancelled, ?_, fun other hother => ?_⟩
    · first | exact .inl hcollector | exact .inr ⟨_, rfl⟩
    · rcases List.mem_or_eq_of_mem_set hother with hother | rfl
      · exact hcalm.drivers other hother
      · exact ⟨rfl, fun _ => (hcalm.drivers driver hmem).done (by rw [hphase]; rfl)⟩
  | lose id driver message _ hget hphase =>
    -- no calm driver has panicked
    have := (hcalm.drivers driver (List.mem_of_getElem? hget)).phase
    rw [hphase] at this
    cases this
  | recordFirst _ hcollector | recordLater _ hcollector | cancel hcollector =>
    rcases hcalm.collector with h | ⟨fault, h⟩ <;> rw [hcollector] at h <;> cases h

theorem calm_of_start {options : Options} (h : start tasks options = .ok state) :
    state.Calm := by
  obtain ⟨units, drivers, rfl, -⟩ := start_eq_ok h
  refine ⟨rfl, .inl rfl, fun driver hmem => ?_⟩
  rw [List.eq_of_mem_replicate hmem]
  exact ⟨rfl, fun h => by cases h⟩

/-- `State.isFinal` holds when the collector has faulted, or when it is idle and all drivers are
joined. -/
theorem isFinal_iff :
    state.isFinal ↔ (∃ fault, state.collector = .faulted fault) ∨
      state.collector = .idle ∧ ∀ driver ∈ state.drivers, driver.phase = .joined := by
  unfold isFinal
  cases state.collector <;> simp

/-- An error that is `Pending` when all drivers are joined is the first error. -/
theorem Pending.recorded_of_joined {error : BackendError} (hp : state.Pending error)
    (hcollector : state.collector = .idle)
    (hjoined : ∀ driver ∈ state.drivers, driver.phase = .joined) :
    state.shared.firstError = some error := by
  rcases hp with hp | ⟨id, driver, hget, hp⟩ | hp
  · exact hp
  · rw [hjoined driver (List.mem_of_getElem? hget)] at hp
    cases hp
  · rw [hcollector] at hp
    cases hp

/-- When all drivers are joined, an evaluation is cancelled iff it has a first error. -/
theorem Cancelling.cancelled_eq (hs : state.Cancelling) (hcollector : state.collector = .idle)
    (hjoined : ∀ driver ∈ state.drivers, driver.phase = .joined) :
    state.shared.cancelled = state.shared.firstError.isSome := by
  have hzero : tally Driver.cancelling state.drivers = 0 := by
    refine (tally_eq_zero_iff _).mpr fun driver hmem => ?_
    rw [Driver.cancelling, hjoined driver hmem]
    rfl
  have honce := hs.once
  rw [hzero, hcollector] at honce
  cases hcancelled : state.shared.cancelled <;> cases hfirst : state.shared.firstError.isSome <;>
    simp_all [Collector.isCancelling]

end State

namespace Course

variable {permits : Nat → Phase → Event → Prop} {start state : State} {moves : List Move}
  {tasks : Nat} {options : Options} {error : BackendError}

/-- An evaluation is `State.Calm` after moves without a failure. -/
theorem calm (h : Course permits start moves state) (hstart : State.start tasks options = .ok start)
    (hnone : failures moves = []) : state.Calm := by
  induction h with
  | nil => exact State.calm_of_start hstart
  | @concat moves state next move before hstep _ ih =>
    rw [failures_concat, List.append_eq_nil_iff] at hnone
    have hmove : move.failure? = none := by simpa using hnone.2
    exact (State.step_of_step? hstep).calm (ih hnone.1)
      (before.accounted (State.accounted_of_start hstart)) hmove

/-- When all drivers are joined, a failure was met iff there is a first error. -/
theorem failures_ne_nil_iff (h : Course permits start moves state)
    (hstart : State.start tasks options = .ok start) (hcollector : state.collector = .idle)
    (hjoined : ∀ driver ∈ state.drivers, driver.phase = .joined) :
    failures moves ≠ [] ↔ state.shared.firstError ≠ none := by
  constructor
  · intro hne
    obtain ⟨error, hp⟩ := h.exists_pending_of_failures hne
    rw [hp.recorded_of_joined hcollector hjoined]
    exact Option.some_ne_none error
  · intro hfirst
    obtain ⟨error, hfirst⟩ := Option.ne_none_iff_exists'.mp hfirst
    exact List.ne_nil_of_mem
      (h.mem_failures_of_pending (State.not_pending_of_start hstart) (.recorded hfirst))

/-- An evaluation whose result is outputs met no failure. -/
theorem failures_eq_nil (h : Course permits start moves state)
    (hstart : State.start tasks options = .ok start) (hfinal : state.isFinal)
    {outputs : List Payload} (hresult : state.result = .ok outputs) : failures moves = [] := by
  rcases State.isFinal_iff.mp hfinal with ⟨fault, hcollector⟩ | ⟨hcollector, hjoined⟩
  · simp [State.result, hcollector] at hresult
  · by_cases hne : failures moves = []
    · exact hne
    -- a failure would have been recorded, and have cancelled the evaluation
    have hfirst := (h.failures_ne_nil_iff hstart hcollector hjoined).mp hne
    have hcancelling := h.cancelling (State.cancelling_of_start hstart)
    have hcancelled := hcancelling.cancelled_eq hcollector hjoined
    rw [Option.isSome_iff_ne_none.mpr hfirst] at hcancelled
    simp [State.result, hcollector, hcancelled] at hresult

/-- When all drivers of a calm evaluation are joined, `started` is a permutation of the
positions. -/
theorem started_perm (h : Course permits start moves state)
    (hstart : State.start tasks options = .ok start) (hcalm : state.Calm)
    (hjoined : ∀ driver ∈ state.drivers, driver.phase = .joined) :
    state.shared.started.Perm (List.range tasks) := by
  have hplaced := (h.accounted (State.accounted_of_start hstart)).placed
  have hdone (driver : Driver) (hmem : driver ∈ state.drivers) :
      state.shared.queue = [] ∧ driver.rest.length = 0 :=
    (hcalm.drivers driver hmem).done (by rw [hjoined driver hmem]; rfl)
  -- nothing is left in hand or in the queue, so every position counted has been started
  refine List.perm_iff_count.mpr fun position => ?_
  have hcount := hplaced.count position
  have hrests : tally (fun rest : Span => rest.toList.count position) state.rests = 0 := by
    refine (tally_eq_zero_iff _).mpr fun rest hmem => ?_
    obtain ⟨driver, hdriver, rfl⟩ := List.mem_map.mp hmem
    rw [toList_eq_nil (hdone driver hdriver).2]
    rfl
  have hqueue : (state.shared.queue.flatMap Span.toList).count position = 0 := by
    rcases Nat.eq_zero_or_pos tasks with rfl | htasks
    · rw [List.range_zero, List.count_nil] at hcount
      omega
    -- there is a driver, and it has stopped
    · have hlen : 0 < state.drivers.length := by
        rw [h.length_drivers]
        obtain ⟨units, drivers, rfl, -, hpos⟩ := State.start_eq_ok hstart
        simpa [State.initial] using hpos htasks
      rw [(hdone _ (List.getElem_mem hlen)).1]
      rfl
  rw [Shared.started]
  omega

end Course

end Fanout.Schedule

import Fanout.Proofs.Schedule.Course

/-!
# The first failure

Every failure that is met is pending until one is recorded (`State.exists_pending_of_failures`), and
every recorded error was met (`State.mem_failures_of_pending`). The recorded error is the one
reported first (`firstError_eq_head?_reports`), and it leads to exactly one cancellation notice
(`Course.cancelling`).
-/

namespace Fanout.Schedule

open Traversal

/-- The error that a driver in a phase has yet to record, if any. -/
def Phase.pending? : Phase → Option BackendError
  | recording error _ => some error
  | panicked message => some (State.panicError message)
  | _ => none

/-- The error that the collector has yet to record, if any. -/
def Collector.pending? : Collector → Option BackendError
  | recording error => some error
  | _ => none

/-- `error` is the first error, or a driver or the collector has yet to record it. -/
inductive State.Pending (state : State) (error : BackendError) : Prop
  | recorded (h : state.shared.firstError = some error)
  | driver (id : Nat) (driver : Driver) (hget : state.drivers[id]? = some driver)
      (h : driver.phase.pending? = some error)
  | collector (h : state.collector.pending? = some error)

namespace Driver

variable {id : Nat} {shared shared' : Shared} {driver driver' : Driver} {event : Event}

@[simp]
theorem pending?_resume (driver : Driver) : driver.resume.phase.pending? = none := by
  rw [resume]
  split <;> rfl

@[simp]
theorem pending?_conclude (next : Aftermath) :
    (driver.conclude id shared next).2.phase.pending? = none := by
  cases next <;> rfl

/-- After a step, a driver has yet to record what `Event.failure?` says. -/
theorem Step.pending?_eq (h : Step id shared driver event shared' driver') :
    driver'.phase.pending? = event.failure? := by
  cases h with
  | take | completed | recordLater | cancel => simp_all [hold, Event.failure?]
  | failed position result error hphase hresult =>
    simp [enter, Phase.pending?, Event.failure?, hresult]
  | _ => rfl

/-- A step of a driver records what `Driver.report?` says, unless there is a first error. -/
theorem Step.firstError_eq (h : Step id shared driver event shared' driver') :
    shared'.firstError = shared.firstError.or (driver.report? event) := by
  cases h with
  | recordFirst error next hphase hfirst => simp [report?, hphase, hfirst]
  | recordLater error next hphase hfirst =>
    obtain ⟨first, hfirst⟩ := Option.ne_none_iff_exists'.mp hfirst
    simp [hfirst]
  | cancel => simp [report?, Shared.cancel, Shared.reporting]
  | _ => simp [report?, Shared.noting]

/-- A driver with an error to record reports it in its next step. -/
theorem Step.report?_eq_some {error : BackendError}
    (h : Step id shared driver event shared' driver') (hp : driver.phase.pending? = some error) :
    driver.report? event = some error := by
  cases h with
  | recordFirst error next hphase | recordLater error next hphase =>
    rw [hphase] at hp
    simp only [report?, hphase]
    exact hp
  | skip hphase => rcases hphase with hphase | hphase <;> simp [hphase, Phase.pending?] at hp
  | abandon hphase =>
    rcases hphase with hphase | ⟨position, hphase⟩ <;> simp [hphase, Phase.pending?] at hp
  | crash message hphase =>
    rcases hphase with hphase | ⟨position, hphase⟩ | hphase | hphase <;>
      simp [hphase, Phase.pending?] at hp
  | _ => simp_all [Phase.pending?]

end Driver

namespace State

variable {state next : State} {move : Move} {error : BackendError}

/-- A step records what `report?` says, unless there is a first error. -/
theorem Step.firstError_eq (h : Step state move next) :
    next.shared.firstError = state.shared.firstError.or (state.report? move) := by
  cases h with
  | driver id event driver driver' shared' _ hget hstep =>
    rw [report?, hget, Option.bind_some]
    exact hstep.firstError_eq
  | recordFirst error' hcollector hfirst => simp [report?, hcollector, hfirst]
  | recordLater error' hcollector hfirst =>
    obtain ⟨first, hfirst⟩ := Option.ne_none_iff_exists'.mp hfirst
    simp [hfirst]
  | _ => simp [report?, withDriver, Shared.cancel, Shared.reporting]

/-- What a move reports was `Pending`. -/
theorem pending_of_report? (h : state.report? move = some error) : state.Pending error := by
  cases move with
  | driver id event =>
    obtain ⟨driver, hget, h⟩ := Option.bind_eq_some_iff.mp h
    refine .driver id driver hget ?_
    cases event with
    | record => cases hphase : driver.phase <;> simp_all [Driver.report?, Phase.pending?]
    | _ => cases h
  | record => exact .collector h
  | collect | cancel => cases h

/-- An error that is `Pending` after a step was so before, or the step brought it about. -/
theorem Step.pending_or_failure (h : Step state move next) (hp : next.Pending error) :
    state.Pending error ∨ move.failure? = some error := by
  rcases hp with hp | ⟨j, other, hj, hp⟩ | hp
  · rw [h.firstError_eq, Option.or_eq_some_iff] at hp
    rcases hp with hp | ⟨-, hp⟩
    · exact .inl (.recorded hp)
    · exact .inl (pending_of_report? hp)
  · cases h with
    | driver id event driver driver' shared' _ hget hstep =>
      rcases getElem?_set_eq_some hj with ⟨rfl, rfl⟩ | ⟨-, hj⟩
      · exact .inr (hstep.pending?_eq.symm.trans hp)
      · exact .inl (.driver j other hj hp)
    | collect | overrun | lose =>
      rcases getElem?_set_eq_some hj with ⟨rfl, rfl⟩ | ⟨-, hj⟩
      · cases hp
      · exact .inl (.driver j other hj hp)
    | recordFirst | recordLater | cancel => exact .inl (.driver j other hj hp)
  · cases h with
    | driver | collect => exact .inl (.collector hp)
    | lose id driver message _ hget hphase =>
      exact .inl (.driver id driver hget (by rw [hphase]; exact hp))
    | overrun | recordFirst | recordLater | cancel => cases hp

/-- A first error is never taken back. -/
theorem Step.isSome_firstError (h : Step state move next)
    (hfirst : state.shared.firstError.isSome) : next.shared.firstError.isSome := by
  rw [h.firstError_eq, Option.isSome_or, hfirst, Bool.true_or]

/-- If an error was `Pending` or is brought about by the step, one is `Pending` afterwards. -/
theorem Step.exists_pending (h : Step state move next)
    (hp : state.Pending error ∨ move.failure? = some error) : ∃ error', next.Pending error' := by
  have recorded (hfirst : next.shared.firstError.isSome) : ∃ error', next.Pending error' :=
    have ⟨error', h⟩ := Option.isSome_iff_exists.mp hfirst
    ⟨error', .recorded h⟩
  rcases hp with (hp | ⟨j, other, hj, hp⟩ | hp) | hp
  · exact recorded (h.isSome_firstError (by rw [hp]; rfl))
  · cases h with
    | driver id event driver driver' shared' _ hget hstep =>
      by_cases hid : id = j
      -- the driver hands its error over, so that one is recorded afterwards
      · subst hid
        obtain rfl : other = driver := Option.some.inj (hj.symm.trans hget)
        refine recorded ?_
        rw [hstep.firstError_eq, hstep.report?_eq_some hp, Option.isSome_or]
        exact Bool.or_true _
      · exact ⟨error, .driver j other (by simpa [withDriver, hid] using hj) hp⟩
    | collect id driver _ _ hget hphase | overrun id driver _ _ hget hphase =>
      -- a driver that has returned has nothing to hand over
      have hid : id ≠ j := by
        rintro rfl
        obtain rfl : other = driver := Option.some.inj (hj.symm.trans hget)
        rw [hphase] at hp
        cases hp
      exact ⟨error, .driver j other (by simpa [withDriver, hid] using hj) hp⟩
    -- the collector takes over what a driver that panicked leaves behind
    | lose => exact ⟨_, .collector rfl⟩
    | recordFirst | recordLater | cancel => exact ⟨error, .driver j other hj hp⟩
  · cases h with
    | driver => exact ⟨error, .collector hp⟩
    | recordFirst => exact recorded rfl
    | recordLater _ _ hfirst => exact recorded (Option.isSome_iff_ne_none.mpr hfirst)
    | collect _ _ _ hcollector | overrun _ _ _ hcollector | lose _ _ _ hcollector
    | cancel hcollector =>
      rw [hcollector] at hp
      cases hp
  · cases h with
    | driver id event driver driver' shared' _ hget hstep =>
      have hlt : id < state.drivers.length := (List.getElem?_eq_some_iff.mp hget).1
      exact ⟨error, .driver id driver' (by simp [withDriver, hlt]) (hstep.pending?_eq.trans hp)⟩
    | _ => cases hp

end State

/-- Whether a driver in a phase is about to cancel the evaluation. -/
def Phase.isCancelling : Phase → Bool
  | cancelling _ => true
  | _ => false

/-- Counts a driver that is about to cancel the evaluation. -/
def Driver.cancelling (driver : Driver) : Nat := driver.phase.isCancelling.toNat

/-- Whether the collector is about to cancel the evaluation. -/
def Collector.isCancelling : Collector → Bool
  | cancelling => true
  | _ => false

/-- Whether an entry reports a cancellation. -/
def isCancellation : LogEntry → Bool
  | .notice (.evaluationCancelled ..) => true
  | _ => false

/-- There is one cancellation for the first error, to come or reported. -/
structure State.Cancelling (state : State) : Prop where
  /-- If there is a first error, the evaluation is cancelled or exactly one driver or the collector
  is about to cancel it, and otherwise none of this. -/
  once : tally Driver.cancelling state.drivers + state.collector.isCancelling.toNat +
    state.shared.cancelled.toNat = state.shared.firstError.isSome.toNat
  /-- The log reports a cancellation iff the evaluation is cancelled. -/
  reported : state.shared.log.countP isCancellation = state.shared.cancelled.toNat

namespace Driver

variable {id : Nat} {shared shared' : Shared} {driver driver' : Driver} {event : Event}

@[simp]
theorem isCancelling_resume (driver : Driver) : driver.resume.phase.isCancelling = false := by
  rw [resume]
  split <;> rfl

@[simp]
theorem isCancelling_conclude (next : Aftermath) :
    (driver.conclude id shared next).2.phase.isCancelling = false := by
  cases next <;> rfl

/-- A driver enters a cancelling phase by recording the first error, and leaves it by cancelling the
evaluation. -/
theorem Step.isCancelling_add (h : Step id shared driver event shared' driver')
    (hfree : driver.phase.isCancelling → shared.cancelled = false) :
    driver'.cancelling + shared'.cancelled.toNat + shared.firstError.isSome.toNat =
      driver.cancelling + shared.cancelled.toNat + shared'.firstError.isSome.toNat := by
  rw [cancelling, cancelling]
  -- the sums change only where a failure is recorded and where the evaluation is cancelled
  cases h with
  | skip hphase => rcases hphase with hphase | hphase <;> simp [hphase, enter, Phase.isCancelling]
  | abandon hphase =>
    rcases hphase with hphase | ⟨position, hphase⟩ <;> simp [hphase, enter, Phase.isCancelling]
  | crash message hphase =>
    rcases hphase with hphase | ⟨position, hphase⟩ | hphase | hphase <;>
      simp [hphase, enter, Phase.isCancelling]
  | take unit queue hphase =>
    rw [hold, isCancelling_resume, hphase]
    rfl
  | completed position result output hphase =>
    rw [isCancelling_resume, hphase]
    rfl
  | recordFirst error next hphase hfirst =>
    simp [hphase, hfirst, enter, Phase.isCancelling, Nat.add_comm]
  | recordLater error next hphase =>
    rw [isCancelling_conclude, cancelled_conclude, firstError_conclude, hphase]
    rfl
  | cancel next hphase =>
    rw [isCancelling_conclude, cancelled_conclude, firstError_conclude, hphase,
      hfree (by rw [hphase]; rfl)]
    simp [Phase.isCancelling, Shared.cancel, Shared.reporting]
  | _ => simp_all [enter, Phase.isCancelling, Shared.noting]

/-- A step of a driver adds a cancellation to the log iff it cancels the evaluation. -/
theorem Step.countP_isCancellation (h : Step id shared driver event shared' driver')
    (hfree : driver.phase.isCancelling → shared.cancelled = false) :
    shared'.log.countP isCancellation + shared.cancelled.toNat =
      shared.log.countP isCancellation + shared'.cancelled.toNat := by
  cases h with
  | cancel next hphase =>
    rw [hphase] at hfree
    rw [hfree rfl]
    simp [Shared.cancel, Shared.reporting, isCancellation]
  | _ => simp [Shared.noting]

end Driver

namespace State

variable {state next : State} {move : Move}

/-- Nobody is about to cancel a cancelled evaluation. -/
theorem Cancelling.cancelled_eq_false (h : state.Cancelling)
    (hc : state.collector.isCancelling ∨ ∃ driver ∈ state.drivers, driver.phase.isCancelling) :
    state.shared.cancelled = false := by
  have honce := h.once
  have hle := Bool.toNat_le state.shared.firstError.isSome
  cases hcancelled : state.shared.cancelled with
  | false => rfl
  | true =>
    -- a cancellation to come and one that has been would be two
    rw [hcancelled] at honce
    rcases hc with hc | ⟨driver, hmem, hc⟩
    · rw [hc] at honce
      simp at honce hle
      omega
    · have := le_tally Driver.cancelling hmem
      rw [Driver.cancelling, hc] at this
      simp at honce hle this
      omega

/-- `State.Step` keeps `State.Cancelling`. -/
theorem Step.cancelling (h : Step state move next) (hs : state.Cancelling) : next.Cancelling := by
  have hlog := hs.reported
  have honce := hs.once
  cases h with
  | driver id event driver driver' shared' _ hget hstep =>
    have hfree (hc : driver.phase.isCancelling) : state.shared.cancelled = false :=
      hs.cancelled_eq_false (.inr ⟨driver, List.mem_of_getElem? hget, hc⟩)
    have hadd := hstep.isCancelling_add hfree
    have hcount := hstep.countP_isCancellation hfree
    have hset := tally_set Driver.cancelling (b := driver') hget
    -- what the step adds to one side of each equation, it adds to the other
    constructor <;> simp only [withDriver] at * <;> omega
  | collect id driver slots hcollector hget hphase
  | overrun id driver fault hcollector hget hphase
  | lose id driver message hcollector hget hphase =>
    have hset := tally_set Driver.cancelling (b := driver.enter .joined) hget
    have hdriver : driver.cancelling = 0 := by rw [Driver.cancelling, hphase]; rfl
    have hjoined : (driver.enter .joined).cancelling = 0 := rfl
    refine ⟨?_, hlog⟩
    simp [withDriver, hcollector, Collector.isCancelling] at honce ⊢
    omega
  | recordFirst error hcollector hfirst =>
    refine ⟨?_, hlog⟩
    simp [hcollector, hfirst, Collector.isCancelling] at honce ⊢
    simp [honce]
  | recordLater error hcollector hfirst =>
    refine ⟨?_, hlog⟩
    simp [hcollector, Collector.isCancelling] at honce ⊢
    omega
  | cancel hcollector =>
    have hfree := hs.cancelled_eq_false (.inl (by rw [hcollector]; rfl))
    rw [hfree, hcollector] at honce
    constructor
    · simpa [Shared.cancel, Shared.reporting, Collector.isCancelling] using honce
    · rw [Shared.cancel, Shared.reporting, List.countP_append, hlog, hfree]
      rfl

theorem not_pending_of_start {tasks : Nat} {options : Options}
    (h : start tasks options = .ok state) (error : BackendError) : ¬ state.Pending error := by
  obtain ⟨units, drivers, rfl, -⟩ := start_eq_ok h
  rintro (h | ⟨id, driver, hget, h⟩ | h)
  · cases h
  · rw [List.eq_of_mem_replicate (List.mem_of_getElem? hget)] at h
    cases h
  · cases h

theorem cancelling_of_start {tasks : Nat} {options : Options}
    (h : start tasks options = .ok state) : state.Cancelling := by
  obtain ⟨units, drivers, rfl, -⟩ := start_eq_ok h
  refine ⟨?_, rfl⟩
  have hzero : tally Driver.cancelling (List.replicate drivers .initial) = 0 := by
    refine (tally_eq_zero_iff _).mpr fun driver hmem => ?_
    rw [List.eq_of_mem_replicate hmem]
    rfl
  simp [initial, hzero, Collector.isCancelling]

end State

namespace Course

variable {permits : Nat → Phase → Event → Prop} {start state : State} {moves : List Move}
  {error : BackendError}

/-- The first error after a course is the head of `reports`. -/
theorem firstError_eq_head?_reports (h : Course permits start moves state)
    (hstart : start.shared.firstError = none) :
    state.shared.firstError = (start.reports moves).head? := by
  induction h with
  | nil => exact hstart
  | @concat moves state next move before hstep _ ih =>
    rw [(State.step_of_step? hstep).firstError_eq, ih, State.reports, State.reports,
      State.gather_concat before.run?_eq_some, List.head?_append]
    cases state.report? move <;> rfl

/-- An error that is `Pending` after a course is among the failures met in it. -/
theorem mem_failures_of_pending (h : Course permits start moves state)
    (hstart : ∀ error, ¬ start.Pending error) (hp : state.Pending error) :
    error ∈ failures moves := by
  induction h with
  | nil => exact absurd hp (hstart error)
  | @concat moves state next move before hstep _ ih =>
    rw [failures_concat]
    rcases (State.step_of_step? hstep).pending_or_failure hp with hp | hp
    · exact List.mem_append_left _ (ih hp)
    · exact List.mem_append_right _ (by simp [hp])

/-- After a failure in a course, some error is `Pending`. -/
theorem exists_pending_of_failures (h : Course permits start moves state)
    (hne : failures moves ≠ []) : ∃ error, state.Pending error := by
  -- the first failure makes an error pending, and no later step leaves none
  induction h with
  | nil => exact absurd rfl hne
  | @concat moves state next move before hstep _ ih =>
    by_cases hbefore : failures moves = []
    · cases hmove : move.failure? with
      | none => simp [hbefore, hmove] at hne
      | some error => exact (State.step_of_step? hstep).exists_pending (.inr hmove)
    · obtain ⟨error, hp⟩ := ih hbefore
      exact (State.step_of_step? hstep).exists_pending (.inl hp)

/-- A course keeps `State.Cancelling`. -/
theorem cancelling (h : Course permits start moves state) (hstart : start.Cancelling) :
    state.Cancelling := by
  induction h with
  | nil => exact hstart
  | concat _ hstep _ ih => exact (State.step_of_step? hstep).cancelling ih

end Course

end Fanout.Schedule

import Fanout.Proofs.Schedule.Life
import Fanout.Proofs.Schedule.Placement

/-!
# The calls a worker receives

`State.diary` lists the calls that a worker receives in an evaluation, with their results. As long
as no worker panics, each diary is that of a `Life` (`Course.exists_life`) that has reached the
stage of the worker's driver (`State.Living`). `workers_dismissed` is the consequence for
evaluations that have ended, and `worker_left_behind_on_foreign_index` a run with a fault that
leaves a worker without dismissal.
-/

namespace Fanout.Schedule

/-- `Mark.terminate` in a phase that leads on to the termination of the worker, and no mark in any
other phase. -/
def Phase.dismissal? : Phase → Option Mark
  | recording _ .terminate | cancelling .terminate => some .terminate
  | _ => none

/-- The mark that an event of `driver` leaves in the diary of its worker, if any. -/
def Driver.mark? (shared : Shared) (driver : Driver) : Event → Option Mark
  | .launch => some .spawn
  | .launched => some .started
  | .refused _ => some .refused
  | .start => some (.run driver.rest.start)
  | .abandon => some .abandoned
  | .answer result =>
    match result.bind Response.output with
    | .ok _ => some .completed
    | .error _ => some .failed
  | .dismiss => some (if shared.cancelled then .terminate else .shutdown)
  | .closed (.ok ()) => some .closed
  | .closed (.error _) => some .unclosed
  | .record => if shared.firstError.isSome then driver.phase.dismissal? else none
  | .cancel => driver.phase.dismissal?
  | _ => none

/-- The worker that an act is about. -/
def Act.worker : Act → Nat
  | spawn worker | spawned worker | run worker _ | shutdown worker | terminate worker => worker

/-- The acts about `other` hold the act of a mark noted under `id` iff `id = other`. -/
theorem filter_act? (mark? : Option Mark) (id other : Nat) :
    (mark?.bind (Mark.act? id)).toList.filter (fun act => act.worker = other) =
      if id = other then mark?.toList.filterMap (Mark.act? id) else [] := by
  cases mark? with
  | none => simp
  | some mark =>
    by_cases hid : id = other
    · cases mark <;> simp [Mark.act?, Act.worker, hid]
    · cases mark <;> simp [Mark.act?, Act.worker, hid]

namespace State

/-- The mark that a move leaves in the diary of worker `id`, if any. -/
def mark? (id : Nat) (state : State) : Move → Option Mark
  | .driver other event =>
    if other = id then state.drivers[id]?.bind fun driver => driver.mark? state.shared event
    else none
  | _ => none

/-- The marks that `moves` leave in the diary of worker `id`, in order. -/
def diary (state : State) (moves : List Move) (id : Nat) : List Mark :=
  state.gather (mark? id) moves

end State

/-- `Sound` permits every event but a panic of the worker, `Event.crash`. -/
def Sound (_ : Nat) (_ : Phase) (event : Event) : Prop := ∀ message, event ≠ .crash message

namespace Standing

/-- The standing of a worker whose driver is about to take up an `Aftermath`. -/
def Awaits (standing : Standing) : Aftermath → Prop
  | .leave => standing = .refused ∨ standing = .unclosed
  | .terminate => standing = .spoilt

/-- The standing of a worker whose driver is in a phase. -/
def Fits (standing : Standing) (shared : Shared) : Phase → Prop
  | .starting => standing = .fresh
  | .spawning => standing = .asked
  | .ready | .pulling | .holding => standing = .idle
  | .running _ => standing = .busy
  | .leaving => standing = .idle ∨ standing = .spoilt ∧ shared.cancelled
  | .closing => standing = .closing
  | .recording _ next => standing.Awaits next
  | .cancelling next => standing.Awaits next ∧ shared.firstError.isSome
  | .terminating => standing = .terminated ∧ shared.firstError.isSome
  | .returned | .joined => standing = .closed ∨ standing.isOver ∧ shared.firstError.isSome
  | .panicked _ => False

variable {standing : Standing} {shared shared' : Shared} {phase : Phase}

/-- `Standing.Fits` stays true when `shared` is cancelled or gets its first error. -/
theorem Fits.mono (h : standing.Fits shared phase)
    (hcancelled : shared.cancelled → shared'.cancelled)
    (hfirst : shared.firstError.isSome → shared'.firstError.isSome) :
    standing.Fits shared' phase := by
  cases phase with
  | leaving => exact h.imp_right fun h => ⟨h.1, hcancelled h.2⟩
  | cancelling | terminating => exact ⟨h.1, hfirst h.2⟩
  | returned | joined => exact h.imp_right fun h => ⟨h.1, hfirst h.2⟩
  | _ => exact h

end Standing

namespace Driver

variable {id : Nat} {shared shared' : Shared} {driver driver' : Driver} {event : Event}
  {marks : List Mark} {standing : Standing}

theorem Step.cancelled_mono (h : Step id shared driver event shared' driver')
    (hcancelled : shared.cancelled) : shared'.cancelled := by
  cases h with
  | recordLater => rwa [cancelled_conclude]
  | cancel => rw [cancelled_conclude]; rfl
  | _ => exact hcancelled

theorem Step.firstError_mono (h : Step id shared driver event shared' driver')
    (hfirst : shared.firstError.isSome) : shared'.firstError.isSome := by
  rw [h.firstError_eq, Option.isSome_or, hfirst, Bool.true_or]

/-- A step notes down the acts of its mark, under the number of its driver. -/
theorem Step.acts_eq (h : Step id shared driver event shared' driver') :
    shared'.acts = shared.acts ++ ((driver.mark? shared event).bind (Mark.act? id)).toList := by
  cases h with
  | recordLater error next hphase hfirst =>
    have hfirst := Option.isSome_iff_ne_none.mpr hfirst
    cases next <;>
      simp [mark?, hfirst, hphase, Phase.dismissal?, Mark.act?, conclude, Shared.noting]
  | cancel next hphase =>
    cases next <;>
      simp [mark?, hphase, Phase.dismissal?, Mark.act?, conclude, Shared.noting, Shared.cancel,
        Shared.reporting]
  | _ => simp_all [mark?, Mark.act?, Shared.noting]

/-- A driver that resumes its unit has an `idle` worker. -/
theorem fits_resume (driver : Driver) : Standing.idle.Fits shared driver.resume.phase := by
  rw [resume]
  split <;> rfl

/-- `Driver.conclude` extends the life of the worker by `terminate` after a failed run, and leaves
it as it is after a failed start or shutdown. -/
theorem exists_life_conclude {next : Aftermath} (hlife : Life marks standing)
    (hawaits : standing.Awaits next) (hfirst : shared.firstError.isSome)
    (hdismissal : driver.phase.dismissal? = match next with
      | .leave => none
      | .terminate => some .terminate) :
    ∃ standing', Life (marks ++ driver.phase.dismissal?.toList) standing' ∧
      standing'.Fits (driver.conclude id shared next).1
        (driver.conclude id shared next).2.phase := by
  rw [hdismissal]
  cases next with
  | leave =>
    refine ⟨standing, by rwa [Option.toList_none, List.append_nil], .inr ⟨?_, hfirst⟩⟩
    rcases hawaits with rfl | rfl <;> rfl
  | terminate =>
    cases hawaits
    exact ⟨.terminated, hlife.pass .terminate, rfl, hfirst⟩

/-- A step whose event is `Sound` extends the life of the worker by its mark. -/
theorem Step.exists_life (h : Step id shared driver event shared' driver')
    (hsound : Sound id driver.phase event)
    (hcancelled : shared.cancelled → shared.firstError.isSome)
    (hlife : Life marks standing) (hfits : standing.Fits shared driver.phase) :
    ∃ standing', Life (marks ++ (driver.mark? shared event).toList) standing' ∧
      standing'.Fits shared' driver'.phase := by
  cases h with
  | launch hphase =>
    rw [hphase] at hfits
    cases hfits
    exact ⟨.asked, hlife.pass .spawn, rfl⟩
  | skip hphase hc =>
    have hover : standing.isOver := by
      rcases hphase with hphase | hphase <;> (rw [hphase] at hfits; cases hfits; rfl)
    exact ⟨standing, by simpa [mark?] using hlife, .inr ⟨hover, hcancelled hc⟩⟩
  | launched hphase =>
    rw [hphase] at hfits
    cases hfits
    exact ⟨.idle, hlife.pass .started, rfl⟩
  | refused error hphase =>
    rw [hphase] at hfits
    cases hfits
    exact ⟨.refused, hlife.pass .refused, .inl rfl⟩
  | lookOn hphase =>
    rw [hphase] at hfits
    exact ⟨standing, by simpa [mark?] using hlife, hfits⟩
  | lookAway hphase | exhausted hphase =>
    rw [hphase] at hfits
    exact ⟨standing, by simpa [mark?] using hlife, .inl hfits⟩
  | take unit queue hphase =>
    rw [hphase] at hfits
    cases hfits
    exact ⟨.idle, by simpa [mark?] using hlife, fits_resume _⟩
  | start hphase =>
    rw [hphase] at hfits
    cases hfits
    exact ⟨.busy, hlife.pass (.run _), rfl⟩
  | abandon hphase hc =>
    -- the cancellation is seen before a task is started, or while it runs
    rcases hphase with hphase | ⟨position, hphase⟩
    · rw [hphase] at hfits
      cases hfits
      exact ⟨.spoilt, hlife.pass .dropped, .inr ⟨rfl, hc⟩⟩
    · rw [hphase] at hfits
      cases hfits
      exact ⟨.spoilt, hlife.pass .abandoned, .inr ⟨rfl, hc⟩⟩
  | completed position result output hphase hresult =>
    rw [hphase] at hfits
    cases hfits
    rw [mark?, hresult]
    exact ⟨.idle, hlife.pass .completed, fits_resume _⟩
  | failed position result error hphase hresult =>
    rw [hphase] at hfits
    cases hfits
    rw [mark?, hresult]
    exact ⟨.spoilt, hlife.pass .failed, rfl⟩
  | dismiss hphase hc =>
    rw [hphase] at hfits
    rw [mark?, hc]
    -- without a cancellation nothing has been abandoned
    rcases hfits with rfl | ⟨-, hother⟩
    · exact ⟨.closing, hlife.pass .shutdown, rfl⟩
    · simp [hc] at hother
  | expel hphase hc =>
    rw [hphase] at hfits
    rw [mark?, hc]
    -- a worker has to go on a cancellation even if it has never failed itself
    rcases hfits with rfl | ⟨rfl, -⟩
    · exact ⟨.terminated, hlife.pass .expel, rfl, hcancelled hc⟩
    · exact ⟨.terminated, hlife.pass .terminate, rfl, hcancelled hc⟩
  | closed hphase =>
    rw [hphase] at hfits
    cases hfits
    exact ⟨.closed, hlife.pass .closed, .inl rfl⟩
  | unclosed error hphase =>
    rw [hphase] at hfits
    cases hfits
    exact ⟨.unclosed, hlife.pass .unclosed, .inr rfl⟩
  | terminated hphase =>
    rw [hphase] at hfits
    obtain ⟨rfl, hfirst⟩ := hfits
    exact ⟨.terminated, by simpa [mark?] using hlife, .inr ⟨rfl, hfirst⟩⟩
  | recordFirst error next hphase hfirst =>
    rw [hphase] at hfits
    exact ⟨standing, by simpa [mark?, hfirst] using hlife, hfits, rfl⟩
  | recordLater error next hphase hfirst =>
    rw [hphase] at hfits
    have hfirst := Option.isSome_iff_ne_none.mpr hfirst
    rw [mark?, if_pos hfirst]
    exact exists_life_conclude hlife hfits hfirst (by rw [hphase]; cases next <;> rfl)
  | cancel next hphase =>
    rw [hphase] at hfits
    exact exists_life_conclude hlife hfits.1 hfits.2 (by rw [hphase]; cases next <;> rfl)
  | crash message => exact absurd rfl (hsound message)

end Driver

namespace State

variable {state next : State} {move : Move} {tasks : Nat} {options : Options}

/-- Every diary is a `Life`, and its standing fits the phase of the driver. -/
def Living (state : State) (diary : Nat → List Mark) : Prop :=
  ∀ id driver, state.drivers[id]? = some driver →
    ∃ standing, Life (diary id) standing ∧ standing.Fits state.shared driver.phase

/-- A cancelled evaluation has a first error. -/
theorem Cancelling.isSome_firstError (h : state.Cancelling) (hcancelled : state.shared.cancelled) :
    state.shared.firstError.isSome := by
  have honce := h.once
  rw [hcancelled] at honce
  cases hfirst : state.shared.firstError.isSome with
  | true => rfl
  | false =>
    rw [hfirst] at honce
    simp at honce

/-- A step adds the acts of its mark for `id` to those about worker `id`. -/
theorem Step.acts_filter (h : Step state move next) (id : Nat) :
    next.shared.acts.filter (fun act => act.worker = id) =
      state.shared.acts.filter (fun act => act.worker = id) ++
        (state.mark? id move).toList.filterMap (Mark.act? id) := by
  cases h with
  | driver other event driver driver' shared' _ hget hstep =>
    rw [hstep.acts_eq, List.filter_append, mark?, filter_act?]
    by_cases hid : other = id
    · subst hid
      rw [if_pos rfl, if_pos rfl, hget, Option.bind_some]
    · rw [if_neg hid, if_neg hid, Option.toList_none, List.filterMap_nil]
  | collect | overrun | lose | recordFirst | recordLater | cancel =>
    exact (List.append_nil _).symm

/-- A `Sound` step keeps `State.Living`, with the diaries extended by its marks. -/
theorem Step.living (h : Step state move next) (hsound : state.Permits Sound move)
    (hs : state.Cancelling) {diary : Nat → List Mark} (hliving : state.Living diary) :
    next.Living fun id => diary id ++ (state.mark? id move).toList := by
  intro id driver hget
  show ∃ standing, Life (diary id ++ (state.mark? id move).toList) standing ∧ _
  cases h with
  | driver other event mover mover' shared' _ hother hstep =>
    -- the worker of this driver goes on with its life, all others stay where they are
    rcases getElem?_set_eq_some hget with ⟨rfl, rfl⟩ | ⟨hne, hget⟩
    · obtain ⟨standing, hlife, hfits⟩ := hliving _ _ hother
      rw [mark?, if_pos rfl, hother]
      exact hstep.exists_life (hsound mover hother) hs.isSome_firstError hlife hfits
    · obtain ⟨standing, hlife, hfits⟩ := hliving _ _ hget
      rw [mark?, if_neg (Ne.symm hne), Option.toList_none, List.append_nil]
      exact ⟨standing, hlife, hfits.mono hstep.cancelled_mono hstep.firstError_mono⟩
  | collect other mover _ _ hother hphase | overrun other mover _ _ hother hphase =>
    show ∃ standing, Life (diary id ++ []) standing ∧ _
    rw [List.append_nil]
    rcases getElem?_set_eq_some hget with ⟨rfl, rfl⟩ | ⟨-, hget⟩
    · obtain ⟨standing, hlife, hfits⟩ := hliving _ _ hother
      rw [hphase] at hfits
      exact ⟨standing, hlife, hfits⟩
    · exact hliving _ _ hget
  | lose other mover message _ hother hphase =>
    -- no driver has panicked
    obtain ⟨standing, -, hfits⟩ := hliving _ _ hother
    rw [hphase] at hfits
    cases hfits
  | recordFirst | recordLater | cancel =>
    obtain ⟨standing, hlife, hfits⟩ := hliving _ _ hget
    show ∃ standing, Life (diary id ++ []) standing ∧ _
    rw [List.append_nil]
    exact ⟨standing, hlife, hfits.mono (fun h => by first | exact h | rfl)
      (fun h => by first | exact h | rfl)⟩

/-- The result of an evaluation is a fault only if its collector is `faulted`. -/
theorem collector_of_result {fault : Fault} (h : state.result = .error (.fault fault)) :
    state.collector = .faulted fault := by
  unfold result at h
  split at h
  · rename_i hcollector
    cases h
    exact hcollector
  · split at h
    · cases h
    · obtain ⟨error, -, h⟩ := Traversal.mapError_eq_error_iff.mp h
      cases h

/-- `State.start` makes `options.driverCount` drivers. -/
theorem length_drivers_of_start (h : start tasks options = .ok state) (htasks : tasks ≠ 0) :
    state.drivers.length = options.driverCount state.shared.queue.length := by
  obtain ⟨units, -, rfl⟩ := (start_eq_ok_iff htasks).mp h
  exact List.length_replicate

end State

namespace Course

variable {permits : Nat → Phase → Event → Prop} {start state : State} {moves : List Move}
  {tasks : Nat} {options : Options}

theorem diary_concat (h : Course permits start moves state) (move : Move) (id : Nat) :
    start.diary (moves ++ [move]) id = start.diary moves id ++ (state.mark? id move).toList :=
  State.gather_concat h.run?_eq_some

/-- The acts about worker `id` are the calls of its diary. -/
theorem acts_filter (h : Course permits start moves state) (hstart : start.shared.acts = [])
    (id : Nat) :
    state.shared.acts.filter (fun act => act.worker = id) =
      (start.diary moves id).filterMap (Mark.act? id) := by
  induction h with
  | nil => rw [hstart]; rfl
  | concat before hstep _ ih =>
    rw [(State.step_of_step? hstep).acts_filter, ih, before.diary_concat, List.filterMap_append]

/-- The diary of a worker without a driver is empty. -/
theorem diary_eq_nil (h : Course permits start moves state) {id : Nat}
    (hid : start.drivers.length ≤ id) : start.diary moves id = [] := by
  induction h with
  | nil => rfl
  | @concat moves state next move before _ _ ih =>
    rw [before.diary_concat, ih, List.nil_append, Option.toList_eq_nil_iff]
    have hget : state.drivers[id]? = none := by
      rw [List.getElem?_eq_none_iff, before.length_drivers]
      exact hid
    cases move <;> simp [State.mark?, hget]

/-- All diaries are `Living` as long as no worker panics. -/
theorem living (h : Course Sound start moves state)
    (hstart : State.start tasks options = .ok start) : state.Living (start.diary moves) := by
  induction h with
  | nil =>
    obtain ⟨units, drivers, rfl, -⟩ := State.start_eq_ok hstart
    intro id driver hget
    rw [List.eq_of_mem_replicate (List.mem_of_getElem? hget)]
    exact ⟨.fresh, .fresh, rfl⟩
  | concat before hstep hsound ih =>
    intro id driver hget
    rw [before.diary_concat]
    have hcancelling := before.cancelling (State.cancelling_of_start hstart)
    exact (State.step_of_step? hstep).living hsound hcancelling ih id driver hget

/-- Every diary is a `Life` as long as no worker panics. -/
theorem exists_life (h : Course Sound start moves state)
    (hstart : State.start tasks options = .ok start) (id : Nat) :
    ∃ standing, Life (start.diary moves id) standing := by
  cases hget : state.drivers[id]? with
  | some driver =>
    obtain ⟨standing, hlife, -⟩ := h.living hstart id driver hget
    exact ⟨standing, hlife⟩
  | none =>
    rw [List.getElem?_eq_none_iff, h.length_drivers] at hget
    rw [h.diary_eq_nil hget]
    exact ⟨.fresh, .fresh⟩

/-- The diary of a worker is `Settled` once its driver has returned. -/
theorem settled_of_getElem? (h : Course Sound start moves state)
    (hstart : State.start tasks options = .ok start) {id : Nat} {driver : Driver}
    (hget : state.drivers[id]? = some driver)
    (hphase : driver.phase = .returned ∨ driver.phase = .joined) :
    Settled (start.diary moves id) := by
  obtain ⟨standing, hlife, hfits⟩ := h.living hstart id driver hget
  have hover : standing = .closed ∨ standing.isOver ∧ state.shared.firstError.isSome := by
    rcases hphase with hphase | hphase <;> rwa [hphase] at hfits
  exact hlife.settled (hover.imp_right And.left)

section Joined

variable (h : Course Sound start moves state)
  (hstart : State.start tasks options = .ok start)
  (hjoined : ∀ driver ∈ state.drivers, driver.phase = .joined)

include h hstart hjoined

/-- Every diary is `Settled` once all drivers are joined. -/
theorem settled (id : Nat) : Settled (start.diary moves id) := by
  cases hget : state.drivers[id]? with
  | some driver =>
    exact h.settled_of_getElem? hstart hget (.inr (hjoined driver (List.mem_of_getElem? hget)))
  | none =>
    rw [List.getElem?_eq_none_iff, h.length_drivers] at hget
    rw [h.diary_eq_nil hget]
    exact Life.fresh.settled (.inr rfl)

/-- Without a first error, the diary of every worker is a `service` that ends in a completed
shutdown. -/
theorem diary_eq_service (hfirst : state.shared.firstError = none) {id : Nat}
    (hid : id < start.drivers.length) :
    ∃ positions, start.diary moves id = service positions ++ [.shutdown, .closed] := by
  rw [← h.length_drivers] at hid
  have hget := List.getElem?_eq_getElem hid
  obtain ⟨standing, hlife, hfits⟩ := h.living hstart id _ hget
  rw [hjoined _ (List.getElem_mem hid)] at hfits
  rcases hfits with rfl | ⟨-, hsome⟩
  · exact hlife.eq_service
  · rw [hfirst] at hsome
    cases hsome

end Joined

end Course

/-- Let no worker call panic (`Event.crash`). At any point of an evaluation, the acts about a worker
are the calls of its `diary`, only workers below `options.driverCount` are asked to start, and every
diary is `Orderly`: one start at most, nothing after a shutdown or a termination, nothing but a
termination after a failed or abandoned run, and a shutdown only after completed runs. Once the
driver of a worker has returned, and for all workers once the evaluation has ended without a fault,
the diary is `Settled`: a worker that started was shut down or terminated once. After an evaluation
with outputs, each worker below `options.driverCount` has completed a `service` and a shutdown. A
fault needs an answer whose index is not below the number of tasks. -/
theorem workers_dismissed {tasks : List Envelope} {options : Options} {start state : State}
    {moves : List Move} (htasks : tasks ≠ [])
    (hstart : State.start tasks.length options = .ok start) (hrun : start.run? moves = some state)
    (hsound : ∀ id message, .driver id (.crash message) ∉ moves) :
    (∀ id, state.shared.acts.filter (fun act => act.worker = id) =
      (start.diary moves id).filterMap (Mark.act? id)) ∧
    (∀ id, .spawn ∈ start.diary moves id →
      id < options.driverCount start.shared.queue.length) ∧
    (∀ id, Orderly (start.diary moves id)) ∧
    (∀ id driver, state.drivers[id]? = some driver →
      driver.phase = .returned ∨ driver.phase = .joined → Settled (start.diary moves id)) ∧
    (state.isFinal → (∀ fault, state.result ≠ .error (.fault fault)) →
      ∀ id, Settled (start.diary moves id)) ∧
    (state.isFinal → ∀ outputs, state.result = .ok outputs →
      ∀ id < options.driverCount start.shared.queue.length,
        ∃ positions, start.diary moves id = service positions ++ [.shutdown, .closed]) ∧
    (∀ fault, state.result = .error (.fault fault) →
      ∃ index ∈ answerIndices moves, tasks.length ≤ index) := by
  have hcourse : Course Sound start moves state := by
    refine course_of_run?_eq_some hrun fun move hmem state => ?_
    cases move with
    | driver id event =>
      rintro driver - message rfl
      exact hsound id message hmem
    | collect | record | cancel => trivial
  have hdrivers := State.length_drivers_of_start hstart (mt List.eq_nil_of_length_eq_zero htasks)
  have hacts : start.shared.acts = [] := by
    obtain ⟨units, drivers, rfl, -⟩ := State.start_eq_ok hstart
    rfl
  refine ⟨hcourse.acts_filter hacts, ?_, ?_, ?_, ?_, ?_, ?_⟩
  · intro id hmem
    by_contra hid
    rw [← hdrivers, Nat.not_lt] at hid
    rw [hcourse.diary_eq_nil hid] at hmem
    cases hmem
  · intro id
    obtain ⟨standing, hlife⟩ := hcourse.exists_life hstart id
    exact hlife.orderly
  · intro id driver hget hphase
    exact hcourse.settled_of_getElem? hstart hget hphase
  · intro hfinal hreturns
    rcases State.isFinal_iff.mp hfinal with ⟨fault, hcollector⟩ | ⟨-, hjoined⟩
    · exact absurd (by rw [State.result, hcollector]) (hreturns fault)
    · exact hcourse.settled hstart hjoined
  · intro hfinal outputs hresult id hid
    rcases State.isFinal_iff.mp hfinal with ⟨fault, hcollector⟩ | ⟨hcollector, hjoined⟩
    · simp [State.result, hcollector] at hresult
    -- outputs are there only if nothing has failed, and then every worker has closed
    · have hnone := hcourse.failures_eq_nil hstart hfinal hresult
      have hfirst : state.shared.firstError = none := by
        by_contra hfirst
        exact (hcourse.failures_ne_nil_iff hstart hcollector hjoined).mpr hfirst hnone
      exact hcourse.diary_eq_service hstart hjoined hfirst (hdrivers ▸ hid)
  · intro fault hresult
    obtain ⟨output, hmem, hle⟩ :=
      hcourse.exists_answer_of_faulted hstart (State.collector_of_result hresult)
    exact ⟨_, List.mem_map_of_mem hmem, hle⟩

/-- Worker 0 fails on its task and worker 1 is abandoned in its task, so both are terminated. -/
theorem workers_dismissed_after_failure :
    let moves : List Move :=
      [.driver 0 .launch, .driver 0 .launched, .driver 1 .launch, .driver 1 .launched,
        .driver 0 .look, .driver 0 .take, .driver 0 .start, .driver 1 .look, .driver 1 .take,
        .driver 1 .start, .driver 0 (.answer (.error (.engine "gone"))), .driver 0 .record,
        .driver 0 .cancel, .driver 1 .abandon, .driver 1 .dismiss, .driver 0 .terminated,
        .driver 1 .terminated, .collect 1, .collect 0]
    (∃ state, (State.initial 2 [⟨0, 1⟩, ⟨1, 2⟩] 2).run? moves = some state ∧ state.isFinal) ∧
      (State.initial 2 [⟨0, 1⟩, ⟨1, 2⟩] 2).diary moves 0 =
        [.spawn, .started, .run 0, .failed, .terminate] ∧
      (State.initial 2 [⟨0, 1⟩, ⟨1, 2⟩] 2).diary moves 1 =
        [.spawn, .started, .run 1, .abandoned, .terminate] ∧
      ∀ id, Settled ((State.initial 2 [⟨0, 1⟩, ⟨1, 2⟩] 2).diary moves id) := by
  intro moves
  have hstart : State.start (List.replicate 2 (⟨0, "f", ⟨[]⟩, ⟨[]⟩⟩ : Envelope)).length
      ⟨2, 1, false⟩ = .ok (State.initial 2 [⟨0, 1⟩, ⟨1, 2⟩] 2) := rfl
  have hrun : (State.initial 2 [⟨0, 1⟩, ⟨1, 2⟩] 2).run? moves =
      some ⟨⟨2, [], true, some (.engine "gone"), 0,
          [.spawn 0, .spawned 0, .spawn 1, .spawned 1, .run 0 0, .run 1 1, .terminate 0,
            .terminate 1], [.notice (.evaluationCancelled 0 2)]⟩,
        [⟨.joined, ⟨1, 1⟩, []⟩, ⟨.joined, ⟨2, 2⟩, []⟩], [none, none], .idle⟩ := rfl
  obtain ⟨-, -, -, -, hsettled, -⟩ :=
    workers_dismissed (List.cons_ne_nil _ _) hstart hrun (by simp [moves])
  exact ⟨⟨_, hrun, rfl⟩, rfl, rfl, hsettled rfl (by intro fault h; cases h)⟩

/-- Worker 0 answers its task under index 7 while worker 1 runs the other of two tasks. No call
panics, but collecting driver 0 ends in `Fault.indexOutOfBounds`, after which no move is possible:
worker 1 has started, and is neither shut down nor terminated. -/
theorem worker_left_behind_on_foreign_index :
    let moves : List Move :=
      [.driver 0 .launch, .driver 0 .launched, .driver 1 .launch, .driver 1 .launched,
        .driver 0 .look, .driver 0 .take, .driver 0 .start, .driver 1 .look, .driver 1 .take,
        .driver 1 .start, .driver 0 (.answer (.ok (.completed 7 ⟨[5]⟩))), .driver 0 .look,
        .driver 0 .take, .driver 0 .dismiss, .driver 0 (.closed (.ok ())), .collect 0]
    State.start 2 ⟨2, 1, false⟩ = .ok (State.initial 2 [⟨0, 1⟩, ⟨1, 2⟩] 2) ∧
      (∀ id message, .driver id (.crash message) ∉ moves) ∧
      (∃ state, (State.initial 2 [⟨0, 1⟩, ⟨1, 2⟩] 2).run? moves = some state ∧ state.isFinal ∧
        (∀ move, state.step? move = none) ∧
        state.result = .error (.fault (.indexOutOfBounds 2 7))) ∧
      (State.initial 2 [⟨0, 1⟩, ⟨1, 2⟩] 2).diary moves 1 = [.spawn, .started, .run 1] ∧
      ¬ Settled ((State.initial 2 [⟨0, 1⟩, ⟨1, 2⟩] 2).diary moves 1) := by
  intro moves
  have hrun : (State.initial 2 [⟨0, 1⟩, ⟨1, 2⟩] 2).run? moves =
      some ⟨⟨2, [], false, none, 1,
          [.spawn 0, .spawned 0, .spawn 1, .spawned 1, .run 0 0, .run 1 1, .shutdown 0], []⟩,
        [⟨.joined, ⟨1, 1⟩, [(7, ⟨[5]⟩)]⟩, ⟨.running 1, ⟨2, 2⟩, []⟩], [none, none],
        .faulted (.indexOutOfBounds 2 7)⟩ := rfl
  have hdiary : (State.initial 2 [⟨0, 1⟩, ⟨1, 2⟩] 2).diary moves 1 =
      [.spawn, .started, .run 1] := rfl
  refine ⟨rfl, by simp [moves], ⟨_, hrun, rfl, fun _ => rfl, rfl⟩, hdiary, fun hsettled => ?_⟩
  -- it has been started, but never dismissed
  rw [hdiary] at hsettled
  exact absurd (hsettled.dismissed (by simp)) (by decide)

end Fanout.Schedule

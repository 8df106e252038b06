import Fanout.Proofs.Schedule.Lifecycle

/-!
# Errors and the drivers that met them

Every pending error was met by the driver that has it or, if the collector has it, by a driver that
has panicked and been collected (`State.Step.blamed`). So the recorded error was met by the driver
that is named in the cancellation (`Course.exists_culprit`).
-/

namespace Fanout.Schedule

/-- The error that `driver` records or cancels for is one that its own events in `moves` brought
about. -/
def Driver.Blamed (moves : List Move) (first : Option BackendError) (id : Nat) (driver : Driver) :
    Prop :=
  match driver.phase with
  | .recording error _ => ∃ event, .driver id event ∈ moves ∧ event.failure? = some error
  | .panicked message => .driver id (.crash message) ∈ moves
  | .cancelling _ => ∃ event error, .driver id event ∈ moves ∧ event.failure? = some error ∧
    first = some error
  | _ => True

/-- A joined driver has panicked in `moves`, and `error` is its panic. -/
def State.Lost (moves : List Move) (state : State) (error : BackendError) : Prop :=
  ∃ (id : Nat) (driver : Driver) (message : String), state.drivers[id]? = some driver ∧
    driver.phase = .joined ∧ .driver id (.crash message) ∈ moves ∧
    error = State.panicError message

/-- Every error that is recorded or cancelled for was met in `moves` by a driver. -/
structure State.Blamed (moves : List Move) (state : State) : Prop where
  /-- A driver deals with errors of its own. -/
  drivers : ∀ (id : Nat) (driver : Driver), state.drivers[id]? = some driver →
    driver.Blamed moves state.shared.firstError id
  /-- The collector records the panic of a joined driver. -/
  recording : ∀ error, state.collector = .recording error → state.Lost moves error
  /-- The collector cancels for such a panic that it has recorded. -/
  cancelling : state.collector = .cancelling →
    ∃ error, state.Lost moves error ∧ state.shared.firstError = some error

namespace Driver

variable {id : Nat} {shared shared' : Shared} {driver driver' : Driver} {event : Event}
  {moves moves' : List Move} {first first' : Option BackendError}

theorem Blamed.mono (h : driver.Blamed moves first id) (hsub : ∀ move ∈ moves, move ∈ moves')
    (hfirst : ∀ error, first = some error → first' = some error) :
    driver.Blamed moves' first' id := by
  unfold Blamed at h ⊢
  split <;> rename_i hphase <;> simp only [hphase] at h
  · exact h.imp fun event h => ⟨hsub _ h.1, h.2⟩
  · exact hsub _ h
  · obtain ⟨event, error, hmem, herror, hrecorded⟩ := h
    exact ⟨event, error, hsub _ hmem, herror, hfirst error hrecorded⟩
  · trivial

theorem blamed_resume (driver : Driver) : driver.resume.Blamed moves first id := by
  rw [resume]
  split <;> trivial

/-- `Driver.Step` keeps `Driver.Blamed`, with its event added to the moves. -/
theorem Step.blamed (h : Step id shared driver event shared' driver')
    (hd : driver.Blamed moves shared.firstError id) :
    driver'.Blamed (moves ++ [.driver id event]) shared'.firstError id := by
  have hlast : Move.driver id event ∈ moves ++ [.driver id event] :=
    List.mem_append_right _ List.mem_cons_self
  cases h with
  | refused | unclosed => exact ⟨_, hlast, rfl⟩
  | failed position result error hphase hresult =>
    exact ⟨_, hlast, by simp [Event.failure?, hresult]⟩
  | crash => exact hlast
  | recordFirst error next hphase =>
    rw [Blamed, hphase] at hd
    obtain ⟨event, hmem, herror⟩ := hd
    exact ⟨event, error, List.mem_append_left _ hmem, herror, rfl⟩
  | take | completed => exact blamed_resume _
  | recordLater error next | cancel next => cases next <;> trivial
  | _ => trivial

/-- A driver's step cancels an evaluation only from `cancelling`, and then the driver is no longer
live. -/
theorem Step.of_cancelled (h : Step id shared driver event shared' driver')
    (hbefore : shared.cancelled = false) (hafter : shared'.cancelled = true) :
    event = .cancel ∧ (∃ next, driver.phase = .cancelling next) ∧ driver'.phase.isLive = false := by
  cases h with
  | cancel next hphase => exact ⟨rfl, ⟨next, hphase⟩, by cases next <;> rfl⟩
  | recordLater error next =>
    rw [cancelled_conclude, hbefore] at hafter
    cases hafter
  | _ =>
    have hsame : shared.cancelled = true := hafter
    rw [hbefore] at hsame
    cases hsame

/-- A joined driver takes no step. -/
theorem Step.ne_joined (h : Step id shared driver event shared' driver') :
    driver.phase ≠ .joined := by
  cases h with
  | skip h => rcases h with h | h <;> simp [h]
  | abandon h => rcases h with h | ⟨position, h⟩ <;> simp [h]
  | crash message h => rcases h with h | ⟨position, h⟩ | h | h <;> simp [h]
  | _ => simp_all

end Driver

namespace State

variable {state next : State} {move : Move} {moves : List Move} {error : BackendError}

/-- The first error stays the first error. -/
theorem Step.firstError_eq_some (h : Step state move next)
    (hfirst : state.shared.firstError = some error) : next.shared.firstError = some error := by
  rw [h.firstError_eq, hfirst, Option.some_or]

/-- A cancelled evaluation stays cancelled. -/
theorem Step.cancelled_mono (h : Step state move next)
    (hcancelled : state.shared.cancelled = true) : next.shared.cancelled = true := by
  cases h with
  | driver _ _ _ _ _ _ _ hstep => exact hstep.cancelled_mono hcancelled
  | cancel => rfl
  | _ => exact hcancelled

/-- A joined driver stays joined. -/
theorem Step.getElem?_of_joined (h : Step state move next) {id : Nat} {driver : Driver}
    (hget : state.drivers[id]? = some driver) (hphase : driver.phase = .joined) :
    next.drivers[id]? = some driver := by
  obtain ⟨driver', hget', hbecomes⟩ := h.becomes hget
  cases hbecomes with
  | step event _ hstep => exact absurd hphase hstep.ne_joined
  | join hover => rcases hover with hover | ⟨message, hover⟩ <;> cases hphase.symm.trans hover
  | keep => exact hget'

theorem Lost.step (h : state.Lost moves error) (hstep : Step state move next) :
    next.Lost (moves ++ [move]) error := by
  obtain ⟨id, driver, message, hget, hphase, hmem, rfl⟩ := h
  exact ⟨id, driver, message, hstep.getElem?_of_joined hget hphase, hphase,
    List.mem_append_left _ hmem, rfl⟩

/-- `State.Step` keeps `State.Blamed`, with its move added. -/
theorem Step.blamed (h : Step state move next) (hs : state.Blamed moves) :
    next.Blamed (moves ++ [move]) := by
  have hdrivers (id : Nat) (driver' : Driver) (hget : next.drivers[id]? = some driver') :
      driver'.Blamed (moves ++ [move]) next.shared.firstError id := by
    obtain ⟨driver, hbefore, hbecomes⟩ := h.exists_becomes hget
    have hmet := hs.drivers id driver hbefore
    cases hbecomes with
    | step event _ hstep => exact hstep.blamed hmet
    | join => trivial
    | keep =>
      exact hmet.mono (fun _ hmem => List.mem_append_left _ hmem) fun _ => h.firstError_eq_some
  have hstep := h
  cases h with
  | driver =>
    refine ⟨hdrivers, fun error hc => (hs.recording error hc).step hstep, fun hc => ?_⟩
    obtain ⟨error, hlost, hfirst⟩ := hs.cancelling hc
    exact ⟨error, hlost.step hstep, hstep.firstError_eq_some hfirst⟩
  | collect _ _ _ hcollector =>
    exact ⟨hdrivers, fun error hc => (by cases hcollector.symm.trans hc),
      fun hc => (by cases hcollector.symm.trans hc)⟩
  | lose id driver message _ hget hphase =>
    -- the collector takes over what the driver has met
    refine ⟨hdrivers, fun error hc => ?_, fun hc => (by cases hc)⟩
    cases hc
    have hcrash := hs.drivers id driver hget
    rw [Driver.Blamed, hphase] at hcrash
    have hlt := (List.getElem?_eq_some_iff.mp hget).1
    exact ⟨id, driver.enter .joined, message, by simp [withDriver, hlt], rfl,
      List.mem_append_left _ hcrash, rfl⟩
  | recordFirst error hcollector =>
    exact ⟨hdrivers, fun error hc => (by cases hc),
      fun _ => ⟨error, (hs.recording error hcollector).step hstep, rfl⟩⟩
  | overrun | recordLater | cancel =>
    exact ⟨hdrivers, fun error hc => (by cases hc), fun hc => (by cases hc)⟩

/-- `State.start` has no error to deal with. -/
theorem blamed_of_start {tasks : Nat} {options : Options} (h : start tasks options = .ok state) :
    state.Blamed [] := by
  obtain ⟨units, drivers, rfl, -⟩ := start_eq_ok h
  refine ⟨fun id driver hget => ?_, fun error hc => (by cases hc), fun hc => (by cases hc)⟩
  rw [List.eq_of_mem_replicate (List.mem_of_getElem? hget)]
  trivial

end State

/-- The move that cancels an evaluation is made by a driver that has met the first error, or by the
collector for a driver that has panicked. The driver is no longer live in either case. -/
theorem Course.exists_culprit {permits : Nat → Phase → Event → Prop} {start state next : State}
    {moves : List Move} {move : Move} {tasks : Nat} {options : Options}
    (h : Course permits start moves state) (hstart : State.start tasks options = .ok start)
    (hstep : State.Step state move next) (hbefore : state.shared.cancelled = false)
    (hafter : next.shared.cancelled = true) :
    ∃ culprit driver event error, next.drivers[culprit]? = some driver ∧
      driver.phase.isLive = false ∧ .driver culprit event ∈ moves ∧
      event.failure? = some error ∧ next.shared.firstError = some error ∧
      (move = .driver culprit .cancel ∨ move = .cancel ∧ ∃ message, event = .crash message) := by
  have hblamed : state.Blamed moves := by
    clear hstep hbefore hafter
    induction h with
    | nil => exact State.blamed_of_start hstart
    | concat _ hstep _ ih => exact (State.step_of_step? hstep).blamed ih
  have hkeep (error : BackendError) (h : state.shared.firstError = some error) :
      next.shared.firstError = some error := hstep.firstError_eq_some h
  cases hstep with
  | driver id event driver driver' shared' _ hget hdriver =>
    obtain ⟨rfl, ⟨aftermath, hphase⟩, hlive⟩ := hdriver.of_cancelled hbefore hafter
    have hmet := hblamed.drivers id driver hget
    rw [Driver.Blamed, hphase] at hmet
    obtain ⟨event, error, hmem, herror, hfirst⟩ := hmet
    have hlt := (List.getElem?_eq_some_iff.mp hget).1
    exact ⟨id, driver', event, error, by simp [State.withDriver, hlt], hlive, hmem, herror,
      hkeep error hfirst, .inl rfl⟩
  | cancel hcollector =>
    obtain ⟨error, ⟨id, driver, message, hget, hphase, hmem, rfl⟩, hfirst⟩ :=
      hblamed.cancelling hcollector
    exact ⟨id, driver, .crash message, _, hget, by rw [hphase]; rfl, hmem, rfl, hfirst,
      .inr ⟨rfl, message, rfl⟩⟩
  | collect | overrun | lose | recordFirst | recordLater =>
    have hsame : state.shared.cancelled = true := hafter
    rw [hbefore] at hsame
    cases hsame

end Fanout.Schedule

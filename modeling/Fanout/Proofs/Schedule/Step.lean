import Fanout.Schedule.State

/-!
# What a step can do

`Driver.Step` and `State.Step` are the steps of a driver and of an evaluation as inductive
relations, with one constructor for each way a step can go, its conditions and its result. They are
equivalent to `Driver.step?` and `State.step?`, and the other proofs about evaluations split cases
on them.
-/

namespace Fanout.Schedule

namespace Driver

/-- The steps of driver `id`, with what each of them requires of `shared` and `driver`. -/
inductive Step (id : Nat) (shared : Shared) (driver : Driver) : Event → Shared → Driver → Prop
  | launch (hphase : driver.phase = .starting) :
      Step id shared driver .launch (shared.noting (.spawn id)) (driver.enter .spawning)
  | skip (hphase : driver.phase = .starting ∨ driver.phase = .spawning)
      (hcancelled : shared.cancelled = true) :
      Step id shared driver .skip shared (driver.enter .returned)
  | launched (hphase : driver.phase = .spawning) :
      Step id shared driver .launched (shared.noting (.spawned id)) (driver.enter .ready)
  | refused (error : BackendError) (hphase : driver.phase = .spawning) :
      Step id shared driver (.refused error) shared (driver.enter (.recording error .leave))
  | lookOn (hphase : driver.phase = .ready) (hcancelled : shared.cancelled = false) :
      Step id shared driver .look shared (driver.enter .pulling)
  | lookAway (hphase : driver.phase = .ready) (hcancelled : shared.cancelled = true) :
      Step id shared driver .look shared (driver.enter .leaving)
  | exhausted (hphase : driver.phase = .pulling) (hqueue : shared.queue = []) :
      Step id shared driver .take shared (driver.enter .leaving)
  | take (unit : Span) (queue : List Span) (hphase : driver.phase = .pulling)
      (hqueue : shared.queue = unit :: queue) :
      Step id shared driver .take { shared with queue } (driver.hold unit)
  | start (hphase : driver.phase = .holding) (hrest : driver.rest.length ≠ 0) :
      Step id shared driver .start (shared.noting (.run id driver.rest.start))
        ({ driver with rest := ⟨driver.rest.start + 1, driver.rest.stop⟩ }.enter
          (.running driver.rest.start))
  | abandon (hphase : driver.phase = .holding ∨ ∃ position, driver.phase = .running position)
      (hcancelled : shared.cancelled = true) :
      Step id shared driver .abandon shared (driver.enter .leaving)
  | completed (position : Nat) (result : Except BackendError Response) (output : UInt64 × Payload)
      (hphase : driver.phase = .running position)
      (hresult : result.bind Response.output = .ok output) :
      Step id shared driver (.answer result) { shared with completed := shared.completed + 1 }
        { driver with outputs := driver.outputs ++ [output] }.resume
  | failed (position : Nat) (result : Except BackendError Response) (error : BackendError)
      (hphase : driver.phase = .running position)
      (hresult : result.bind Response.output = .error error) :
      Step id shared driver (.answer result) shared (driver.enter (.recording error .terminate))
  | dismiss (hphase : driver.phase = .leaving) (hcancelled : shared.cancelled = false) :
      Step id shared driver .dismiss (shared.noting (.shutdown id)) (driver.enter .closing)
  | expel (hphase : driver.phase = .leaving) (hcancelled : shared.cancelled = true) :
      Step id shared driver .dismiss (shared.noting (.terminate id)) (driver.enter .terminating)
  | closed (hphase : driver.phase = .closing) :
      Step id shared driver (.closed (.ok ())) shared (driver.enter .returned)
  | unclosed (error : BackendError) (hphase : driver.phase = .closing) :
      Step id shared driver (.closed (.error error)) shared
        (driver.enter (.recording error .leave))
  | terminated (hphase : driver.phase = .terminating) :
      Step id shared driver .terminated shared (driver.enter .returned)
  | recordFirst (error : BackendError) (next : Aftermath)
      (hphase : driver.phase = .recording error next) (hfirst : shared.firstError = none) :
      Step id shared driver .record { shared with firstError := some error }
        (driver.enter (.cancelling next))
  | recordLater (error : BackendError) (next : Aftermath)
      (hphase : driver.phase = .recording error next) (hfirst : shared.firstError ≠ none) :
      Step id shared driver .record (driver.conclude id shared next).1
        (driver.conclude id shared next).2
  | cancel (next : Aftermath) (hphase : driver.phase = .cancelling next) :
      Step id shared driver .cancel (driver.conclude id shared.cancel next).1
        (driver.conclude id shared.cancel next).2
  | crash (message : String)
      (hphase : driver.phase = .spawning ∨ (∃ position, driver.phase = .running position) ∨
        driver.phase = .closing ∨ driver.phase = .terminating) :
      Step id shared driver (.crash message) shared (driver.enter (.panicked message))

variable {id : Nat} {shared shared' : Shared} {driver driver' : Driver} {event : Event}

/-- `Driver.step?` takes only steps of `Driver.Step`. -/
theorem step_of_step? (h : driver.step? id shared event = some (shared', driver')) :
    Step id shared driver event shared' driver' := by
  unfold step? at h
  split at h
  case h_1 hphase => cases h; exact .launch hphase
  case h_2 hphase =>
    split at h <;> cases h
    rename_i hcancelled
    exact .skip (.inl hphase) hcancelled
  case h_3 hphase =>
    split at h <;> cases h
    rename_i hcancelled
    exact .skip (.inr hphase) hcancelled
  case h_4 hphase => cases h; exact .launched hphase
  case h_5 error hphase => cases h; exact .refused error hphase
  case h_6 hphase =>
    cases h
    cases hcancelled : shared.cancelled with
    | false => exact .lookOn hphase hcancelled
    | true => exact .lookAway hphase hcancelled
  case h_7 hphase =>
    split at h <;> cases h
    · rename_i hqueue
      exact .exhausted hphase hqueue
    · rename_i unit queue hqueue
      exact .take unit queue hphase hqueue
  case h_8 hphase =>
    split at h <;> cases h
    rename_i hrest
    exact .start hphase hrest
  case h_9 hphase =>
    split at h <;> cases h
    rename_i hcancelled
    exact .abandon (.inl hphase) hcancelled
  case h_10 position hphase =>
    split at h <;> cases h
    rename_i hcancelled
    exact .abandon (.inr ⟨position, hphase⟩) hcancelled
  case h_11 position result hphase =>
    have h := Option.some.inj h
    unfold receive at h
    split at h <;> cases h
    · rename_i output hresult
      exact .completed position result output hphase hresult
    · rename_i error hresult
      exact .failed position result error hphase hresult
  case h_12 hphase =>
    split at h <;> cases h
    · rename_i hcancelled
      exact .expel hphase hcancelled
    · rename_i hcancelled
      exact .dismiss hphase (by simpa using hcancelled)
  case h_13 hphase => cases h; exact .closed hphase
  case h_14 error hphase => cases h; exact .unclosed error hphase
  case h_15 hphase => cases h; exact .terminated hphase
  case h_16 error next hphase =>
    split at h
    · rename_i hfirst
      cases h
      exact .recordFirst error next hphase hfirst
    · rename_i hfirst
      obtain ⟨rfl, rfl⟩ := Prod.mk.inj (Option.some.inj h)
      exact .recordLater error next hphase (by simp [hfirst])
  case h_17 next hphase =>
    obtain ⟨rfl, rfl⟩ := Prod.mk.inj (Option.some.inj h)
    exact .cancel next hphase
  case h_18 message hphase => cases h; exact .crash message (.inl hphase)
  case h_19 position message hphase =>
    cases h
    exact .crash message (.inr (.inl ⟨position, hphase⟩))
  case h_20 message hphase => cases h; exact .crash message (.inr (.inr (.inl hphase)))
  case h_21 message hphase => cases h; exact .crash message (.inr (.inr (.inr hphase)))
  case h_22 => cases h

/-- `Driver.step?` takes every step of `Driver.Step`. -/
theorem step?_of_step (h : Step id shared driver event shared' driver') :
    driver.step? id shared event = some (shared', driver') := by
  cases h with
  | skip hphase hcancelled =>
    rcases hphase with hphase | hphase <;> simp [step?, hphase, hcancelled]
  | abandon hphase hcancelled =>
    rcases hphase with hphase | ⟨position, hphase⟩ <;> simp [step?, hphase, hcancelled]
  | completed position result output hphase hresult => simp [step?, hphase, receive, hresult]
  | failed position result error hphase hresult => simp [step?, hphase, receive, hresult]
  | recordLater error next hphase hfirst =>
    obtain ⟨first, hfirst⟩ := Option.ne_none_iff_exists'.mp hfirst
    simp [step?, hphase, hfirst]
  | crash message hphase =>
    rcases hphase with hphase | ⟨position, hphase⟩ | hphase | hphase <;> simp [step?, hphase]
  | _ => simp_all [step?]

section Conclude

variable (id : Nat) (shared : Shared) (driver : Driver) (next : Aftermath)

@[simp]
theorem rest_conclude : (driver.conclude id shared next).2.rest = driver.rest := by
  cases next <;> rfl

@[simp]
theorem outputs_conclude :
    (driver.conclude id shared next).2.outputs = driver.outputs := by
  cases next <;> rfl

@[simp]
theorem tasks_conclude : (driver.conclude id shared next).1.tasks = shared.tasks := by
  cases next <;> rfl

@[simp]
theorem queue_conclude_eq : (driver.conclude id shared next).1.queue = shared.queue := by
  cases next <;> rfl

@[simp]
theorem cancelled_conclude :
    (driver.conclude id shared next).1.cancelled = shared.cancelled := by
  cases next <;> rfl

@[simp]
theorem firstError_conclude :
    (driver.conclude id shared next).1.firstError = shared.firstError := by
  cases next <;> rfl

@[simp]
theorem log_conclude : (driver.conclude id shared next).1.log = shared.log := by
  cases next <;> rfl

end Conclude

end Driver

theorem getElem?_set_eq_some {drivers : List Driver} {id j : Nat} {driver other : Driver}
    (h : (drivers.set id driver)[j]? = some other) :
    (j = id ∧ other = driver) ∨ (j ≠ id ∧ drivers[j]? = some other) := by
  rw [List.getElem?_set] at h
  split at h
  · rename_i hid
    split at h <;> cases h
    exact .inl ⟨hid.symm, rfl⟩
  · rename_i hid
    exact .inr ⟨fun h => hid h.symm, h⟩

theorem mem_set_of_ne {drivers : List Driver} {id : Nat} {driver driver' other : Driver}
    (hget : drivers[id]? = some driver) (h : other ∈ drivers) (hne : other ≠ driver) :
    other ∈ drivers.set id driver' := by
  obtain ⟨j, hj⟩ := List.mem_iff_getElem?.mp h
  refine List.mem_iff_getElem?.mpr ⟨j, ?_⟩
  rw [List.getElem?_set_ne, hj]
  rintro rfl
  exact hne (Option.some.inj (hj.symm.trans hget))

namespace State

/-- The steps of an evaluation. -/
inductive Step (state : State) : Move → State → Prop
  | driver (id : Nat) (event : Event) (driver driver' : Driver) (shared' : Shared)
      (hcollector : ∀ fault, state.collector ≠ .faulted fault)
      (hget : state.drivers[id]? = some driver)
      (hstep : Driver.Step id state.shared driver event shared' driver') :
      Step state (.driver id event) { state.withDriver id driver' with shared := shared' }
  | collect (id : Nat) (driver : Driver) (slots : List (Option Payload))
      (hcollector : state.collector = .idle) (hget : state.drivers[id]? = some driver)
      (hphase : driver.phase = .returned) (hplace : place state.slots driver.outputs = .ok slots) :
      Step state (.collect id) { state.withDriver id (driver.enter .joined) with slots }
  | overrun (id : Nat) (driver : Driver) (fault : Fault)
      (hcollector : state.collector = .idle) (hget : state.drivers[id]? = some driver)
      (hphase : driver.phase = .returned)
      (hplace : place state.slots driver.outputs = .error fault) :
      Step state (.collect id)
        { state.withDriver id (driver.enter .joined) with collector := .faulted fault }
  | lose (id : Nat) (driver : Driver) (message : String)
      (hcollector : state.collector = .idle) (hget : state.drivers[id]? = some driver)
      (hphase : driver.phase = .panicked message) :
      Step state (.collect id)
        { state.withDriver id (driver.enter .joined) with
          collector := .recording (panicError message) }
  | recordFirst (error : BackendError) (hcollector : state.collector = .recording error)
      (hfirst : state.shared.firstError = none) :
      Step state .record { state with
        shared := { state.shared with firstError := some error }, collector := .cancelling }
  | recordLater (error : BackendError) (hcollector : state.collector = .recording error)
      (hfirst : state.shared.firstError ≠ none) :
      Step state .record { state with collector := .idle }
  | cancel (hcollector : state.collector = .cancelling) :
      Step state .cancel { state with shared := state.shared.cancel, collector := .idle }

/-- `State.step?` takes only steps of `State.Step`. -/
theorem step_of_step? {state state' : State} {move : Move} (h : state.step? move = some state') :
    Step state move state' := by
  unfold step? at h
  split at h
  · cases h
  · rename_i id event hcollector
    obtain ⟨driver, hget, h⟩ := Option.bind_eq_some_iff.mp h
    obtain ⟨⟨shared', driver'⟩, hstep, h⟩ := Option.bind_eq_some_iff.mp h
    cases h
    exact .driver id event driver driver' shared' hcollector hget (Driver.step_of_step? hstep)
  · rename_i id hcollector
    obtain ⟨driver, hget, h⟩ := Option.bind_eq_some_iff.mp h
    unfold collect at h
    split at h
    · rename_i hphase
      split at h <;> cases h
      · rename_i slots hplace
        exact .collect id driver slots hcollector hget hphase hplace
      · rename_i fault hplace
        exact .overrun id driver fault hcollector hget hphase hplace
    · rename_i message hphase
      cases h
      exact .lose id driver message hcollector hget hphase
    · cases h
  · rename_i error hcollector
    split at h <;> cases h
    · rename_i hfirst
      exact .recordFirst error hcollector hfirst
    · rename_i hfirst
      exact .recordLater error hcollector (by simp [hfirst])
  · rename_i hcollector
    cases h
    exact .cancel hcollector
  · cases h

/-- `State.step?` takes every step of `State.Step`. -/
theorem step?_of_step {state state' : State} {move : Move} (h : Step state move state') :
    state.step? move = some state' := by
  cases h with
  | driver id event driver driver' shared' hcollector hget hstep =>
    cases hc : state.collector with
    | faulted fault => exact absurd hc (hcollector fault)
    | _ => simp [step?, hc, hget, Driver.step?_of_step hstep]
  | collect id driver slots hcollector hget hphase hplace =>
    simp [step?, hcollector, hget, State.collect, hphase, hplace]
  | overrun id driver fault hcollector hget hphase hplace =>
    simp [step?, hcollector, hget, State.collect, hphase, hplace]
  | lose id driver message hcollector hget hphase =>
    simp [step?, hcollector, hget, State.collect, hphase]
  | recordFirst error hcollector hfirst => simp [step?, hcollector, hfirst]
  | recordLater error hcollector hfirst =>
    obtain ⟨first, hfirst⟩ := Option.ne_none_iff_exists'.mp hfirst
    simp [step?, hcollector, hfirst]
  | cancel hcollector => simp [step?, hcollector]

/-- What a move makes of driver `id`. -/
inductive Becomes (state next : State) (id : Nat) (driver : Driver) : Move → Driver → Prop
  /-- It takes a step of its own. -/
  | step (event : Event) (driver' : Driver)
      (hstep : Driver.Step id state.shared driver event next.shared driver') :
      Becomes state next id driver (.driver id event) driver'
  /-- It has ended, and is joined. -/
  | join (hphase : driver.phase = .returned ∨ ∃ message, driver.phase = .panicked message) :
      Becomes state next id driver (.collect id) (driver.enter .joined)
  /-- It stays as it is when the collector or another driver moves. -/
  | keep (move : Move) (hmove : ∀ event, move ≠ .driver id event) :
      Becomes state next id driver move driver

variable {state next : State} {move : Move} {id : Nat} {driver driver' : Driver}

/-- Every driver after a step has become what it is from one before the step. -/
theorem Step.exists_becomes (h : Step state move next) (hget : next.drivers[id]? = some driver') :
    ∃ driver, state.drivers[id]? = some driver ∧ Becomes state next id driver move driver' := by
  cases h with
  | driver other event driver driver'' shared' _ hother hstep =>
    rcases getElem?_set_eq_some hget with ⟨rfl, rfl⟩ | ⟨hne, hget⟩
    · exact ⟨driver, hother, .step event _ hstep⟩
    · exact ⟨driver', hget, .keep _ fun _ h => hne (Move.driver.inj h).1.symm⟩
  | collect other driver _ _ hother hphase | overrun other driver _ _ hother hphase =>
    rcases getElem?_set_eq_some hget with ⟨rfl, rfl⟩ | ⟨-, hget⟩
    · exact ⟨driver, hother, .join (.inl hphase)⟩
    · exact ⟨driver', hget, .keep _ nofun⟩
  | lose other driver message _ hother hphase =>
    rcases getElem?_set_eq_some hget with ⟨rfl, rfl⟩ | ⟨-, hget⟩
    · exact ⟨driver, hother, .join (.inr ⟨message, hphase⟩)⟩
    · exact ⟨driver', hget, .keep _ nofun⟩
  | recordFirst | recordLater | cancel => exact ⟨driver', hget, .keep _ nofun⟩

/-- Every driver before a step becomes one after it. -/
theorem Step.becomes (h : Step state move next) (hget : state.drivers[id]? = some driver) :
    ∃ driver', next.drivers[id]? = some driver' ∧ Becomes state next id driver move driver' := by
  have hlength : next.drivers.length = state.drivers.length := by
    cases h <;> simp [withDriver]
  have hlt : id < next.drivers.length := hlength ▸ (List.getElem?_eq_some_iff.mp hget).1
  obtain ⟨other, hother, hbecomes⟩ := h.exists_becomes (List.getElem?_eq_getElem hlt)
  obtain rfl : other = driver := Option.some.inj (hother.symm.trans hget)
  exact ⟨_, List.getElem?_eq_getElem hlt, hbecomes⟩

end State

end Fanout.Schedule

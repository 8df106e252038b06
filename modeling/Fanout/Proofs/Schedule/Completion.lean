import Fanout.Proofs.Schedule.Crew

/-!
# The run of an evaluation that is carried out

A tracked evaluation that has not ended has a step, unless a driver `Waits` for a worker
(`Evaluation.Tracks.waits_or_exists_step`). `Evaluation.complete` is a run that cannot be extended
(`Evaluation.exists_run_complete`). If the crew follows a `Conduct`, no driver `Waits`
(`Evaluation.exists_step_of_follows`), so the run has ended
(`Evaluation.exists_run_carryOut_of_progress`).
-/

namespace Fanout.Schedule

variable {W : Type}

namespace Evaluation

/-! ## The order of the drivers -/

/-- `insertByTime entry` adds `entry` and nothing else. -/
theorem mem_insertByTime_iff {entry other : Nat × Nat} {sorted : List (Nat × Nat)} :
    other ∈ insertByTime entry sorted ↔ other = entry ∨ other ∈ sorted := by
  induction sorted with
  | nil => simp [insertByTime]
  | cons first rest ih =>
    rw [insertByTime]
    split
    · exact List.mem_cons
    · rw [List.mem_cons, ih, List.mem_cons]
      exact or_left_comm

theorem mem_foldl_insertByTime_iff {entries sorted : List (Nat × Nat)} {entry : Nat × Nat} :
    entry ∈ entries.foldl (fun sorted entry => insertByTime entry sorted) sorted ↔
      entry ∈ entries ∨ entry ∈ sorted := by
  induction entries generalizing sorted with
  | nil => simp
  | cons first rest ih =>
    rw [List.foldl_cons, ih, mem_insertByTime_iff, List.mem_cons, ← or_assoc,
      or_comm (a := entry ∈ rest)]

/-- `waiting` has the drivers that are not `joined`, with their clocks. -/
theorem mem_waiting_iff {drivers : List Driver} {clocks : List Nat} {entry : Nat × Nat} :
    entry ∈ waiting drivers clocks ↔ ∃ driver, drivers[entry.2]? = some driver ∧
      driver.phase ≠ .joined ∧ clocks[entry.2]? = some entry.1 := by
  rw [waiting, List.mem_map]
  constructor
  · rintro ⟨⟨⟨driver, clock⟩, id⟩, hmem, rfl⟩
    obtain ⟨hmem, hphase⟩ := List.mem_filter.mp hmem
    obtain ⟨hdriver, hclock⟩ :=
      List.getElem?_zip_eq_some.mp (List.mem_zipIdx_iff_getElem?.mp hmem)
    exact ⟨driver, hdriver, by simpa using hphase, hclock⟩
  · rintro ⟨driver, hdriver, hphase, hclock⟩
    refine ⟨((driver, entry.1), entry.2), List.mem_filter.mpr ⟨?_, by simpa using hphase⟩, rfl⟩
    exact List.mem_zipIdx_iff_getElem?.mpr (List.getElem?_zip_eq_some.mpr ⟨hdriver, hclock⟩)

/-- Every driver that is not `joined` has its place in `byTime`. -/
theorem mem_byTime {drivers : List Driver} {clocks : List Nat} {id : Nat} {driver : Driver}
    (hclocks : clocks.length = drivers.length) (hget : drivers[id]? = some driver)
    (hphase : driver.phase ≠ .joined) : id ∈ byTime drivers clocks := by
  have hlt : id < clocks.length := hclocks ▸ (List.getElem?_eq_some_iff.mp hget).1
  have hmem : (clocks[id], id) ∈ waiting drivers clocks :=
    mem_waiting_iff.mpr ⟨driver, hget, hphase, List.getElem?_eq_getElem hlt⟩
  exact List.mem_map.mpr ⟨_, mem_foldl_insertByTime_iff.mpr (.inl hmem), rfl⟩

/-! ## What can be done -/

variable {crew : Crew W} {conduct : Conduct} {owns : Nat → W → Prop}
  {permits : Nat → Phase → Event → Prop} {tasks : List Envelope} {options : Options}
  {evaluation next : Evaluation W} {start : State} {id : Nat} {driver : Driver} {choice : Choice}

/-- A driver that is neither `joined` nor `collectable` is active. -/
theorem isActive_of_not_collectable (hcollectable : collectable driver = false)
    (hphase : driver.phase ≠ .joined) : driver.phase.isActive := by
  cases h : driver.phase <;> simp_all [collectable, Phase.isActive]

/-- The `turn?` of a driver can be taken if the state allows for its event. -/
theorem exists_step_advance {turn : Turn W} {state' : State}
    (hturn : evaluation.turn? crew id = some turn)
    (hstep : State.Step evaluation.state (.driver id turn.event) state') :
    ∃ next, evaluation.step? crew (.advance id) = some next := by
  simp [step?, hturn, State.step?_of_step hstep]

/-- Once the evaluation is cancelled, a driver can take the event of its `giveUp?`. -/
theorem exists_step_giveUp {event : Event}
    (hidle : ∀ fault, evaluation.state.collector ≠ .faulted fault)
    (hget : evaluation.state.drivers[id]? = some driver)
    (hcancelled : evaluation.state.shared.cancelled = true)
    (hevent : evaluation.giveUp? id = some event) :
    ∃ next, evaluation.step? crew (.giveUp id) = some next := by
  have hdriver : ∃ shared' driver', Driver.Step id evaluation.state.shared driver event shared'
      driver' := by
    rw [giveUp?, hget, Option.bind_eq_bind, Option.bind_some] at hevent
    split at hevent <;> cases hevent <;> rename_i hphase
    · exact ⟨_, _, .skip (.inl hphase) hcancelled⟩
    · exact ⟨_, _, .skip (.inr hphase) hcancelled⟩
    · exact ⟨_, _, .abandon (.inl hphase) hcancelled⟩
    · exact ⟨_, _, .abandon (.inr ⟨_, hphase⟩) hcancelled⟩
  obtain ⟨shared', driver', hdriver⟩ := hdriver
  have hstep := State.step?_of_step (.driver id event driver driver' shared' hidle hget hdriver)
  simp [step?, hevent, hstep]

theorem ne_faulted_of_idle (h : evaluation.state.collector = .idle) (fault : Fault) :
    evaluation.state.collector ≠ .faulted fault := by
  rw [h]
  exact nofun

/-- An idle collector can take what a `collectable` driver leaves behind. -/
theorem exists_step_collect (hcollector : evaluation.state.collector = .idle)
    (hget : evaluation.state.drivers[id]? = some driver) (hcollectable : collectable driver) :
    ∃ next, evaluation.step? crew (.collect id) = some next := by
  have hstep : ∃ state', State.Step evaluation.state (.collect id) state' := by
    cases hphase : driver.phase with
    | returned =>
      cases hplace : State.place evaluation.state.slots driver.outputs with
      | ok slots => exact ⟨_, .collect id driver slots hcollector hget hphase hplace⟩
      | error fault => exact ⟨_, .overrun id driver fault hcollector hget hphase hplace⟩
    | panicked message => exact ⟨_, .lose id driver message hcollector hget hphase⟩
    | _ => simp [collectable, hphase] at hcollectable
  obtain ⟨state', hstep⟩ := hstep
  simp [step?, State.step?_of_step hstep]

/-- A collector that deals with a panic can go on. -/
theorem exists_step_collector {move : Move} (hmove : evaluation.state.collector.next? = some move) :
    ∃ next, evaluation.step? crew .collector = some next := by
  have hstep : ∃ state', State.Step evaluation.state move state' := by
    cases hcollector : evaluation.state.collector with
    | recording error =>
      rw [hcollector] at hmove
      cases hmove
      cases hfirst : evaluation.state.shared.firstError with
      | none => exact ⟨_, .recordFirst error hcollector hfirst⟩
      | some first => exact ⟨_, .recordLater error hcollector (by simp [hfirst])⟩
    | cancelling =>
      rw [hcollector] at hmove
      cases hmove
      exact ⟨_, .cancel hcollector⟩
    | idle | faulted =>
      rw [hcollector] at hmove
      cases hmove
  obtain ⟨state', hstep⟩ := hstep
  simp [step?, hmove, State.step?_of_step hstep]

/-- A choice that can be made is a `State.Step` of the move it stands for. -/
theorem exists_move_of_step? (h : evaluation.step? crew choice = some next) :
    ∃ move state', evaluation.move? crew choice = some move ∧
      State.Step evaluation.state move state' := by
  cases choice with
  | advance id =>
    obtain ⟨turn, hturn, h⟩ := Option.bind_eq_some_iff.mp h
    obtain ⟨state', hstate, -⟩ := Option.bind_eq_some_iff.mp h
    exact ⟨_, state', by rw [move?, hturn]; rfl, State.step_of_step? hstate⟩
  | giveUp id =>
    obtain ⟨event, hevent, h⟩ := Option.bind_eq_some_iff.mp h
    obtain ⟨state', hstate, -⟩ := Option.bind_eq_some_iff.mp h
    exact ⟨_, state', by rw [move?, hevent]; rfl, State.step_of_step? hstate⟩
  | collect id =>
    obtain ⟨state', hstate, -⟩ := Option.bind_eq_some_iff.mp h
    exact ⟨_, state', rfl, State.step_of_step? hstate⟩
  | collector =>
    obtain ⟨move, hmove, h⟩ := Option.bind_eq_some_iff.mp h
    obtain ⟨state', hstate, -⟩ := Option.bind_eq_some_iff.mp h
    exact ⟨move, state', hmove, State.step_of_step? hstate⟩

/-- A tracked evaluation that has not ended has a step, or a driver `Waits` in it. -/
theorem Tracks.waits_or_exists_step (h : evaluation.Tracks permits owns tasks start)
    (hkeeps : crew.Keeps owns) (hstart : State.start tasks.length options = .ok start)
    (hfinal : evaluation.state.isFinal = false) :
    (∃ id, evaluation.Waits crew id) ∨ ∃ choice next, evaluation.step? crew choice = some next := by
  cases hcollector : evaluation.state.collector with
  | faulted fault => simp [State.isFinal, hcollector] at hfinal
  | recording | cancelling =>
    exact .inr ⟨.collector, exists_step_collector (by rw [hcollector]; rfl)⟩
  | idle =>
    have hwaiting : ∃ driver ∈ evaluation.state.drivers, driver.phase ≠ .joined := by
      simpa [State.isFinal, hcollector] using hfinal
    obtain ⟨driver, hmem, hphase⟩ := hwaiting
    obtain ⟨id, hget⟩ := List.mem_iff_getElem?.mp hmem
    cases hcollectable : collectable driver with
    | true => exact .inr ⟨.collect id, exists_step_collect hcollector hget hcollectable⟩
    | false =>
      have hactive := isActive_of_not_collectable hcollectable hphase
      rcases h.waits_or_exists_turn hkeeps hstart hget hactive with
        hwaits | ⟨turn, hturn, shared', driver', hdriver, -⟩
      · exact .inl ⟨id, hwaits⟩
      · have hstep := State.Step.driver id turn.event driver driver' shared'
          (ne_faulted_of_idle hcollector) hget hdriver
        exact .inr ⟨.advance id, exists_step_advance hturn hstep⟩

/-! ## Taking turns by the clocks -/

/-- A driver with a choice to make is not `joined`, and `choiceOf` gives a choice it can make. -/
theorem exists_step_choiceOf (hidle : ∀ fault, evaluation.state.collector ≠ .faulted fault)
    (hchoice : choice = .advance id ∨ choice = .giveUp id)
    (hstep : evaluation.step? crew choice = some next) :
    ∃ driver, evaluation.state.drivers[id]? = some driver ∧ driver.phase ≠ .joined ∧
      ∃ next, evaluation.step? crew (evaluation.choiceOf id) = some next := by
  obtain ⟨move, state', hmove, hstate⟩ := exists_move_of_step? hstep
  obtain ⟨event, rfl⟩ : ∃ event, move = .driver id event := by
    rcases hchoice with rfl | rfl <;> obtain ⟨_, -, rfl⟩ := Option.map_eq_some_iff.mp hmove <;>
      exact ⟨_, rfl⟩
  cases hstate with
  | driver _ _ driver _ _ _ hget hdriver =>
    refine ⟨driver, hget, fun hphase => ?_, ?_⟩
    · cases hdriver <;> simp_all
    cases hgive : evaluation.state.shared.cancelled && (evaluation.giveUp? id).isSome with
    | true =>
      obtain ⟨hcancelled, hsome⟩ := Bool.and_eq_true_iff.mp hgive
      obtain ⟨given, hgiven⟩ := Option.isSome_iff_exists.mp hsome
      rw [choiceOf, hgive, if_pos rfl]
      exact exists_step_giveUp hidle hget hcancelled hgiven
    | false =>
      rw [choiceOf, hgive, if_neg Bool.false_ne_true]
      rcases hchoice with rfl | rfl
      · exact ⟨next, hstep⟩
      -- a driver only gives up when the evaluation is cancelled
      · obtain ⟨given, hgiven, heq⟩ := Option.map_eq_some_iff.mp hmove
        cases heq
        have hcancelled : evaluation.state.shared.cancelled = true := by
          rcases eq_of_giveUp? hgiven with rfl | rfl
          · cases hdriver with
            | skip _ hcancelled => exact hcancelled
          · cases hdriver with
            | abandon _ hcancelled => exact hcancelled
        simp [hcancelled, hgiven] at hgive

/-- If the evaluation has a step, it has one with a choice among the `candidates`. -/
theorem exists_mem_candidates {clocks : List Nat}
    (hclocks : clocks.length = evaluation.state.drivers.length)
    (hstep : evaluation.step? crew choice = some next) :
    ∃ choice ∈ evaluation.candidates clocks, ∃ next, evaluation.step? crew choice = some next := by
  obtain ⟨move, state', hmove, hstate⟩ := exists_move_of_step? hstep
  rw [candidates]
  cases hcollector : evaluation.state.collector with
  | faulted fault =>
    exfalso
    cases hstate <;> simp_all
  | recording | cancelling =>
    exact ⟨.collector, List.mem_singleton_self _, exists_step_collector (by rw [hcollector]; rfl)⟩
  | idle =>
    dsimp only
    split
    · rename_i id hfind
      obtain ⟨hlt, hcollectable, -⟩ := List.findIdx?_eq_some_iff_getElem.mp hfind
      exact ⟨.collect id, List.mem_singleton_self _,
        exists_step_collect hcollector (List.getElem?_eq_getElem hlt) hcollectable⟩
    · rename_i hfind
      have hmoves (id : Nat) (hchoice : choice = .advance id ∨ choice = .giveUp id) :
          ∃ choice ∈ (byTime evaluation.state.drivers clocks).map evaluation.choiceOf,
            ∃ next, evaluation.step? crew choice = some next := by
        obtain ⟨driver, hget, hphase, hnext⟩ :=
          exists_step_choiceOf (ne_faulted_of_idle hcollector) hchoice hstep
        exact ⟨_, List.mem_map_of_mem (mem_byTime hclocks hget hphase), hnext⟩
      cases choice with
      | advance id => exact hmoves id (.inl rfl)
      | giveUp id => exact hmoves id (.inr rfl)
      | collect id =>
        -- nobody waits to be collected
        cases hmove
        have hnone := List.findIdx?_eq_none_iff.mp hfind
        cases hstate with
        | collect _ driver _ _ hget hphase | overrun _ driver _ _ hget hphase
        | lose _ driver _ _ hget hphase =>
          have hcollectable := hnone driver (List.mem_of_getElem? hget)
          simp [collectable, hphase] at hcollectable
      | collector =>
        rw [move?, hcollector] at hmove
        cases hmove

/-- If `next?` is `none`, the evaluation has no step. -/
theorem step?_eq_none_of_next? {clocks : List Nat}
    (hclocks : clocks.length = evaluation.state.drivers.length)
    (h : evaluation.next? crew clocks = none) (choice : Choice) :
    evaluation.step? crew choice = none := by
  rw [← Option.not_isSome_iff_eq_none]
  intro hsome
  obtain ⟨next, hstep⟩ := Option.isSome_iff_exists.mp hsome
  obtain ⟨candidate, hmem, next, hnext⟩ := exists_mem_candidates hclocks hstep
  have hnone := List.findSome?_eq_none_iff.mp h candidate hmem
  rw [hnext] at hnone
  cases hnone

/-- `elapse` keeps the number of clocks. -/
theorem length_elapse (clocks : List Nat) (choice : Choice) :
    (evaluation.elapse crew clocks choice).length = clocks.length := by
  unfold elapse
  split
  · split
    · split
      · exact List.length_modify ..
      · rfl
    · rfl
  · rfl

/-- `complete` ends if `next?` is `none`. -/
theorem complete_of_next?_eq_none {clocks : List Nat} (h : evaluation.next? crew clocks = none) :
    evaluation.complete crew clocks = evaluation := by
  rw [complete]
  split
  · rfl
  · rename_i hnext
    rw [h] at hnext
    cases hnext

/-- `complete` continues with `next?`. -/
theorem complete_of_next?_eq_some {clocks : List Nat}
    (h : evaluation.next? crew clocks = some (choice, next)) :
    evaluation.complete crew clocks =
      next.complete crew (evaluation.elapse crew clocks choice) := by
  rw [complete]
  split
  · rename_i hnext
    rw [h] at hnext
    cases hnext
  · rename_i hnext
    rw [h] at hnext
    cases hnext
    rfl

/-- `complete` is the end of a run that cannot be extended. -/
theorem Tracks.exists_run_complete {clocks : List Nat}
    (h : evaluation.Tracks (fun _ _ _ => True) owns tasks start) (hkeeps : crew.Keeps owns)
    (hstart : State.start tasks.length options = .ok start)
    (hclocks : clocks.length = evaluation.state.drivers.length) :
    ∃ choices, evaluation.run? crew choices = some (evaluation.complete crew clocks) ∧
      ∀ choice, (evaluation.complete crew clocks).step? crew choice = none := by
  -- every step lowers the measure
  induction hm : evaluation.state.measure using Nat.strongRecOn generalizing evaluation clocks with
  | ind m ih =>
    cases hnext : evaluation.next? crew clocks with
    | none =>
      rw [complete_of_next?_eq_none hnext]
      exact ⟨[], rfl, step?_eq_none_of_next? hclocks hnext⟩
    | some found =>
      obtain ⟨choice, next⟩ := found
      have hstep := step?_of_next? hnext
      have htracks := h.step hkeeps hstart (fun _ _ _ _ _ => trivial) hstep
      have hclocks' :
          (evaluation.elapse crew clocks choice).length = next.state.drivers.length := by
        rw [length_elapse, hclocks, h.length_drivers, htracks.length_drivers]
      obtain ⟨choices, hrun, hrest⟩ :=
        ih _ (hm ▸ measure_step?_lt hstep) htracks hclocks' rfl
      rw [complete_of_next?_eq_some hnext]
      refine ⟨choice :: choices, ?_, hrest⟩
      rw [run?, hstep, Option.bind_some, hrun]

/-! ## Runs from the beginning -/

section Start

variable {start last : Evaluation W} {choices : List Choice}
  (hstart : Evaluation.start tasks options = .ok start)
include hstart

/-- For every crew, a run is no longer than `State.measure` of its beginning, and has a step unless
it has ended or a driver `Waits`. -/
theorem progress_of_run (hrun : start.run? crew choices = some last) :
    choices.length ≤ start.state.measure ∧
      (last.state.isFinal = false →
        (∃ id, last.Waits crew id) ∨ ∃ choice next, last.step? crew choice = some next) := by
  obtain ⟨hstate, htracks⟩ :=
    tracks_of_start (fun _ _ _ => True) (fun _ (_ : W) => True) hstart
  refine ⟨Nat.le_trans (Nat.le_add_right _ _) (length_add_measure_le hrun), fun hfinal => ?_⟩
  have hlast := htracks.run crew.keeps_true hstate (fun _ _ _ _ _ _ _ _ _ => trivial) hrun
  exact hlast.waits_or_exists_step crew.keeps_true hstate hfinal

/-- If the crew follows a conduct, no driver `Waits`. -/
theorem not_waits_of_follows (hfollows : crew.Follows conduct owns)
    (hrun : start.run? crew choices = some last) (id : Nat) : ¬ last.Waits crew id := by
  obtain ⟨hstate, htracks⟩ := tracks_of_start (fun _ _ _ => True) owns hstart
  have hstaffed :=
    (htracks.run hfollows.keeps hstate (fun _ _ _ _ _ _ _ _ _ => trivial) hrun).staffed
  intro hwaits
  cases hwaits with
  | spawn driver hget hphase hpending =>
    cases hrefusal : conduct.refusal id with
    | none =>
      obtain ⟨worker, hspawn, -⟩ := hfollows.starts id hrefusal
      cases hspawn.symm.trans hpending
    | some error => cases (hfollows.refuses id error hrefusal).symm.trans hpending
  | run driver position worker task hget hphase hworker htask hpending =>
    obtain ⟨worker', hin, howns⟩ := hstaffed.worker id driver hget (by rw [hphase]; rfl)
    cases hworker.symm.trans hin
    obtain ⟨worker', hanswer, -⟩ := hfollows.runs id worker task howns
    rw [hanswer] at hpending
    cases hpending
  | shutdown driver worker hget hphase hworker hpending =>
    obtain ⟨worker', hin, howns⟩ := hstaffed.worker id driver hget (by rw [hphase]; rfl)
    cases hworker.symm.trans hin
    cases hdefect : conduct.defect id with
    | none => cases (hfollows.closes id worker howns hdefect).symm.trans hpending
    | some error => cases (hfollows.sticks id worker error howns hdefect).symm.trans hpending

/-- If the crew follows a conduct, every run that has not ended has a step. -/
theorem exists_step_of_follows (hfollows : crew.Follows conduct owns)
    (hrun : start.run? crew choices = some last) (hfinal : last.state.isFinal = false) :
    ∃ choice next, last.step? crew choice = some next := by
  rcases (progress_of_run hstart hrun).2 hfinal with ⟨id, hwaits⟩ | hnext
  · exact absurd hwaits (not_waits_of_follows hstart hfollows hrun id)
  · exact hnext

/-- `Tracks.exists_run_complete` from the beginning of an evaluation. -/
theorem exists_run_complete (crew : Crew W) :
    let last := start.complete crew (List.replicate start.state.drivers.length 0)
    ∃ choices, start.run? crew choices = some last ∧
      ∀ choice, last.step? crew choice = none := by
  obtain ⟨hstate, htracks⟩ :=
    tracks_of_start (fun _ _ _ => True) (fun _ (_ : W) => True) hstart
  exact htracks.exists_run_complete crew.keeps_true hstate List.length_replicate

/-- The result of `carryOut` is that of a run that cannot be extended. -/
theorem exists_run_carryOut (crew : Crew W) :
    ∃ choices last, start.run? crew choices = some last ∧
      (∀ choice, last.step? crew choice = none) ∧
      (start.carryOut crew).result = last.outcome.result := by
  obtain ⟨choices, hrun, hrest⟩ := exists_run_complete hstart crew
  exact ⟨choices, _, hrun, hrest, rfl⟩

/-- If every run that has not ended has a step, then `carryOut` has the result of a run that has
ended. -/
theorem exists_run_carryOut_of_progress
    (hprogress : ∀ choices last, start.run? crew choices = some last →
      last.state.isFinal = false → ∃ choice next, last.step? crew choice = some next) :
    ∃ choices last, start.run? crew choices = some last ∧ last.state.isFinal ∧
      (start.carryOut crew).result = last.state.result := by
  obtain ⟨choices, last, hrun, hrest, hresult⟩ := exists_run_carryOut hstart crew
  cases hfinal : last.state.isFinal with
  | true =>
    refine ⟨choices, last, hrun, hfinal, ?_⟩
    rw [hresult, outcome, if_pos hfinal]
    rfl
  | false =>
    obtain ⟨choice, next, hnext⟩ := hprogress choices last hrun hfinal
    cases (hrest choice).symm.trans hnext

end Start

/-! ## Evaluations that can be computed -/

/-- `complete`, for at most `fuel` steps. -/
def completeWithin (crew : Crew W) (evaluation : Evaluation W) (clocks : List Nat) :
    (fuel : Nat) → Option (Evaluation W)
  | 0 => none
  | fuel + 1 =>
    match evaluation.next? crew clocks with
    | none => some evaluation
    | some (choice, next) => next.completeWithin crew (evaluation.elapse crew clocks choice) fuel

/-- If `completeWithin` has enough fuel, it returns `complete`. -/
theorem complete_eq_of_completeWithin {last : Evaluation W} {clocks : List Nat} {fuel : Nat}
    (h : evaluation.completeWithin crew clocks fuel = some last) :
    evaluation.complete crew clocks = last := by
  induction fuel generalizing evaluation clocks with
  | zero => cases h
  | succ fuel ih =>
    rw [completeWithin] at h
    split at h
    · rename_i hnext
      rw [complete_of_next?_eq_none hnext]
      exact Option.some.inj h
    · rename_i choice next hnext
      rw [complete_of_next?_eq_some hnext]
      exact ih h

end Evaluation

/-- `evaluate` has the result and the log that `Evaluation.completeWithin` computes. -/
theorem evaluate_of_completeWithin {crew : Crew W} {tasks : List Envelope} {options : Options}
    {start : Evaluation W} {outcome : Outcome} {fuel : Nat} (hne : tasks ≠ [])
    (hstart : Evaluation.start tasks options = .ok start)
    (h : (start.completeWithin crew (List.replicate start.state.drivers.length 0) fuel).map
      Evaluation.outcome = some outcome) :
    (evaluate crew tasks options).result = outcome.result ∧
      ∀ entry ∈ outcome.log, entry ∈ (evaluate crew tasks options).log := by
  obtain ⟨last, hlast, rfl⟩ := Option.map_eq_some_iff.mp h
  rw [evaluate, if_neg (by simpa using hne), hstart]
  dsimp only [Evaluation.carryOut]
  rw [Evaluation.complete_eq_of_completeWithin hlast]
  exact ⟨rfl, fun entry hmem => List.mem_append_right _ hmem⟩

end Fanout.Schedule

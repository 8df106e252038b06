import Fanout.Proofs.Schedule.Completion

/-!
# The result does not depend on the schedule

`outcome_independent_of_schedule`: if the workers follow a `Conduct`, every interleaving ends, and
either all of them end with the same outputs or all of them with an error.
-/

namespace Fanout.Schedule

namespace Evaluation

variable {W : Type} {crew : Crew W} {conduct : Conduct} {owns : Nat → W → Prop}
  {tasks : List Envelope} {options : Options} {start last : Evaluation W} {choices : List Choice}

/-- A run that has ended has the payloads of `conduct.respond` as its outputs, or a `Flaw` of the
conduct as its error. -/
theorem result_of_run (hfollows : crew.Follows conduct owns)
    (hindices : ∀ i (h : i < tasks.length), tasks[i].index.toNat = i)
    (hown : ∀ task ∈ tasks, (conduct.respond task).index = task.index)
    (hstart : Evaluation.start tasks options = .ok start)
    (hrun : start.run? crew choices = some last) (hfinal : last.state.isFinal) :
    (conduct.Flawless tasks start.state.drivers.length →
        ∃ outputs, last.state.result = .ok outputs ∧
          outputs.map some = tasks.map fun task => (conduct.respond task).payload?) ∧
      (¬ conduct.Flawless tasks start.state.drivers.length →
        ∃ error, last.state.result = .error (.error error) ∧
          conduct.Flaw tasks start.state.drivers.length error) := by
  obtain ⟨hstate, htracks⟩ := tracks_of_start (conduct.Permits tasks) owns hstart
  have hlast := htracks.run hfollows.keeps hstate
    (fun _ hstaffed htasks _ _ _ _ hmove hget =>
      htasks ▸ permits_of_follows hfollows hstaffed hmove hget) hrun
  obtain ⟨moves, state, hcourse, heq⟩ := hlast.course
  rw [heq] at hfinal ⊢
  exact ⟨hcourse.result_of_flawless hstate hindices hown hfinal,
    hcourse.result_of_not_flawless hstate hindices hown hfinal⟩

end Evaluation

/-- Let the crew follow a `Conduct` and answer each task under its index, which is its position.
Then every interleaving has at most `State.measure` steps and can go on until it has ended. If the
conduct is `Flawless`, each of them ends with the payloads of `conduct.respond`, in the order of the
tasks, and otherwise each ends with an error. `evaluate` has the result of one of them. If no worker
has a `refusal` or a `defect`, all settings lead to the same outputs. -/
theorem outcome_independent_of_schedule {W : Type} {crew : Crew W} {conduct : Conduct}
    {owns : Nat → W → Prop} {tasks : List Envelope} {options : Options}
    (hfollows : crew.Follows conduct owns) (hne : tasks ≠ [])
    (hindices : ∀ i (h : i < tasks.length), tasks[i].index.toNat = i)
    (hown : ∀ task, (conduct.respond task).index = task.index)
    (hlength : tasks.length < listLimit) (hchunk : options.chunkSize < wordLimit) :
    ∃ start : Evaluation W, Evaluation.start tasks options = .ok start ∧
      (∀ choices last, start.run? crew choices = some last →
        choices.length ≤ start.state.measure ∧
        (last.state.isFinal = false → ∃ choice next, last.step? crew choice = some next) ∧
        (last.state.isFinal →
          (conduct.Flawless tasks start.state.drivers.length →
            ∃ outputs, last.state.result = .ok outputs ∧
              outputs.map some = tasks.map fun task => (conduct.respond task).payload?) ∧
          (¬ conduct.Flawless tasks start.state.drivers.length →
            ∃ error, last.state.result = .error (.error error)))) ∧
      (∃ choices last, start.run? crew choices = some last ∧ last.state.isFinal ∧
        (evaluate crew tasks options).result = last.state.result) ∧
      ((∀ id, conduct.refusal id = none ∧ conduct.defect id = none) →
        ∀ (options' : Options) (start' last last' : Evaluation W) (choices choices' : List Choice),
          Evaluation.start tasks options' = .ok start' →
          start.run? crew choices = some last → last.state.isFinal →
          start'.run? crew choices' = some last' → last'.state.isFinal →
          ∀ outputs, last.state.result = .ok outputs ↔ last'.state.result = .ok outputs) := by
  obtain ⟨start, hstart⟩ := Evaluation.exists_start (W := W) hlength hchunk
  have hown' : ∀ task ∈ tasks, (conduct.respond task).index = task.index := fun task _ => hown task
  have hprogress (choices : List Choice) (last : Evaluation W)
      (hrun : start.run? crew choices = some last) :=
    Evaluation.exists_step_of_follows hstart hfollows hrun
  refine ⟨start, hstart, fun choices last hrun => ?_, ?_, ?_⟩
  · refine ⟨(Evaluation.progress_of_run hstart hrun).1, hprogress choices last hrun,
      fun hfinal => ?_⟩
    have hresult := Evaluation.result_of_run hfollows hindices hown' hstart hrun hfinal
    exact ⟨hresult.1, fun h => (hresult.2 h).imp fun _ h => h.1⟩
  · obtain ⟨choices, last, hrun, hfinal, hresult⟩ :=
      Evaluation.exists_run_carryOut_of_progress hstart hprogress
    refine ⟨choices, last, hrun, hfinal, ?_⟩
    rw [evaluate, if_neg (by simpa using hne), hstart]
    exact hresult
  · intro hsound options' start' last last' choices choices' hstart' hrun hfinal hrun' hfinal'
    have hresult := Evaluation.result_of_run hfollows hindices hown' hstart hrun hfinal
    have hresult' := Evaluation.result_of_run hfollows hindices hown' hstart' hrun' hfinal'
    by_cases hcompletes : ∀ task ∈ tasks, (conduct.respond task).payload?.isSome
    · have hflawless (workers : Nat) : conduct.Flawless tasks workers :=
        ⟨fun id _ => (hsound id).1, fun id _ => (hsound id).2, hcompletes⟩
      obtain ⟨outputs, heq, houtputs⟩ := hresult.1 (hflawless _)
      obtain ⟨outputs', heq', houtputs'⟩ := hresult'.1 (hflawless _)
      have : outputs = outputs' :=
        (List.map_inj_right fun _ _ => Option.some.inj).mp (houtputs.trans houtputs'.symm)
      intro result
      rw [heq, heq', this]
    · have hflawed (workers : Nat) : ¬ conduct.Flawless tasks workers :=
        fun h => hcompletes h.completes
      obtain ⟨error, heq, -⟩ := hresult.2 (hflawed _)
      obtain ⟨error', heq', -⟩ := hresult'.2 (hflawed _)
      intro result
      rw [heq, heq']
      constructor <;> (intro h; cases h)

/-- Two workers that hand every input back, and two tasks. -/
theorem outcome_independent_of_schedule_echo :
    let crew : Crew Nat :=
      { spawn := fun id => .value id
        run := fun worker task => (worker, .value (.completed task.index task.input))
        shutdown := fun _ => .value ()
        arrival := fun _ => []
        departure := fun _ _ => []
        delay := fun _ => 0 }
    let tasks : List Envelope := [⟨0, "echo", ⟨[]⟩, ⟨[5]⟩⟩, ⟨1, "echo", ⟨[]⟩, ⟨[6]⟩⟩]
    ∃ start : Evaluation Nat, Evaluation.start tasks ⟨2, 1, false⟩ = .ok start ∧
      ∀ choices last, start.run? crew choices = some last → last.state.isFinal →
        last.state.result = .ok [⟨[5]⟩, ⟨[6]⟩] := by
  intro crew tasks
  let conduct : Conduct :=
    ⟨fun _ => none, fun task => .completed task.index task.input, fun _ => none⟩
  have hfollows : crew.Follows conduct fun _ _ => True :=
    { starts := fun id _ => ⟨id, rfl, trivial⟩
      refuses := fun _ _ h => by cases h
      runs := fun _ worker _ _ => ⟨worker, rfl, trivial⟩
      closes := fun _ _ _ _ => rfl
      sticks := fun _ _ _ _ h => by cases h }
  obtain ⟨start, hstart, hruns, -⟩ := outcome_independent_of_schedule hfollows
    (List.cons_ne_nil _ _ : tasks ≠ []) (by decide) (fun _ => rfl) (by decide)
    (by decide : Options.chunkSize ⟨2, 1, false⟩ < wordLimit)
  refine ⟨start, hstart, fun choices last hrun hfinal => ?_⟩
  have hflawless : conduct.Flawless tasks start.state.drivers.length :=
    ⟨fun _ _ => rfl, fun _ _ => rfl, by simp [tasks, conduct, Response.payload?]⟩
  obtain ⟨outputs, hresult, houtputs⟩ := ((hruns choices last hrun).2.2 hfinal).1 hflawless
  rw [hresult]
  exact congrArg _ ((List.map_inj_right fun _ _ => Option.some.inj).mp
    (houtputs : outputs.map some = [⟨[5]⟩, ⟨[6]⟩].map some))

end Fanout.Schedule

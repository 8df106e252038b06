import Fanout.Schedule.Driver

/-!
# The lives of workers

A `Life` is a sequence of calls that a worker can have received, with the stage it has reached. In
every life a worker is started at most once, is shut down only after completed runs, and receives
nothing but a termination after a run that failed or was abandoned (`Life.orderly`). A life that has
ended contains exactly one shutdown or termination of a started worker (`Life.settled`).
-/

namespace Fanout.Schedule

/-- A call of a worker, or what comes of it. -/
inductive Mark where
  | spawn
  | started
  | refused
  /-- The worker is given the task at a position. -/
  | run (position : Nat)
  | completed
  /-- A run failed, or was answered with a failure. -/
  | failed
  /-- Its driver has seen the cancellation in the middle of a unit. -/
  | abandoned
  | shutdown
  | closed
  /-- It failed to shut down. -/
  | unclosed
  | terminate
deriving DecidableEq, Repr

namespace Mark

/-- Whether the mark is a call of the worker. -/
def isCall : Mark → Bool
  | spawn | run _ | shutdown | terminate => true
  | _ => false

/-- Whether the mark is `shutdown` or `terminate`. -/
def isDismissal : Mark → Bool
  | shutdown | terminate => true
  | _ => false

/-- Whether the mark is `failed` or `abandoned`, after which the worker can only be terminated. -/
def isSpoiling : Mark → Bool
  | failed | abandoned => true
  | _ => false

/-- The act that a call leaves among `Shared.acts`. -/
def act? (id : Nat) : Mark → Option Act
  | spawn => some (.spawn id)
  | started => some (.spawned id)
  | run position => some (.run id position)
  | shutdown => some (.shutdown id)
  | terminate => some (.terminate id)
  | _ => none

end Mark

/-- The marks of a worker that starts and completes the tasks at `positions` one by one. -/
def service (positions : List Nat) : List Mark :=
  .spawn :: .started :: positions.flatMap fun position => [.run position, .completed]

theorem service_concat (positions : List Nat) (position : Nat) :
    service (positions ++ [position]) = service positions ++ [.run position] ++ [.completed] := by
  simp [service]

/-! ## Lives -/

/-- The state a worker is in after some marks. -/
inductive Standing where
  | fresh
  /-- It has been asked to start. -/
  | asked
  | refused
  | idle
  /-- It runs a task. -/
  | busy
  /-- A run of it has failed or been abandoned. -/
  | spoilt
  /-- It has been asked to shut down. -/
  | closing
  | closed
  | unclosed
  | terminated
deriving DecidableEq, Repr

namespace Standing

/-- A worker that has been asked to start. -/
def isCalled : Standing → Bool
  | fresh => false
  | _ => true

/-- A worker that has been shut down or terminated. -/
def isDismissed : Standing → Bool
  | closing | closed | unclosed | terminated => true
  | _ => false

/-- A worker that is not up: it was never started, has failed to shut down, or is terminated. -/
def isOver : Standing → Bool
  | fresh | asked | refused | unclosed | terminated => true
  | _ => false

end Standing

/-- `Passage standing mark next`: a worker in `standing` can meet `mark`, and is in `next` then. -/
inductive Passage : Standing → Mark → Standing → Prop
  | spawn : Passage .fresh .spawn .asked
  | started : Passage .asked .started .idle
  | refused : Passage .asked .refused .refused
  | run (position : Nat) : Passage .idle (.run position) .busy
  | completed : Passage .busy .completed .idle
  | failed : Passage .busy .failed .spoilt
  | dropped : Passage .idle .abandoned .spoilt
  | abandoned : Passage .busy .abandoned .spoilt
  | shutdown : Passage .idle .shutdown .closing
  | closed : Passage .closing .closed .closed
  | unclosed : Passage .closing .unclosed .unclosed
  | expel : Passage .idle .terminate .terminated
  | terminate : Passage .spoilt .terminate .terminated

/-- `Life marks standing`: a worker can meet `marks`, one after the other, and is in `standing`
then. -/
inductive Life : List Mark → Standing → Prop
  | fresh : Life [] .fresh
  | pass {marks : List Mark} {mark : Mark} {standing next : Standing}
      (before : Life marks standing) (hpassage : Passage standing mark next) :
      Life (marks ++ [mark]) next

/-- The order of the marks of a worker, whatever comes of its runs. -/
structure Orderly (marks : List Mark) : Prop where
  /-- It is asked to start at most once. -/
  once : marks.count .spawn ≤ 1
  /-- No call follows a `shutdown` or a `terminate`. -/
  last : marks.Pairwise fun earlier later => earlier.isDismissal → later.isCall = false
  /-- Only `terminate` follows a `failed` or an `abandoned`. -/
  spoilt : marks.Pairwise fun earlier later => earlier.isSpoiling → later = .terminate
  /-- A `shutdown` follows completed runs only. -/
  clean : .shutdown ∈ marks → ∃ positions rest, marks = service positions ++ .shutdown :: rest

/-- Properties of the marks of a worker whose driver has returned. -/
structure Settled (marks : List Mark) : Prop where
  /-- A worker that has started meets one of `shutdown` and `terminate`, once. -/
  dismissed : .started ∈ marks → marks.countP Mark.isDismissal = 1
  /-- A worker with a `failed` or `abandoned` run is terminated. -/
  terminated : ∀ mark ∈ marks, mark.isSpoiling → .terminate ∈ marks

namespace Life

variable {marks : List Mark} {standing : Standing}

/-- A relation that every `Passage` establishes between all earlier marks and its own holds pairwise
of the marks of a `Life`. -/
theorem pairwise {R : Mark → Mark → Prop} (h : Life marks standing)
    (hpassage : ∀ {marks mark standing next}, Life marks standing → Passage standing mark next →
      ∀ earlier ∈ marks, R earlier mark) : marks.Pairwise R := by
  induction h with
  | fresh => exact .nil
  | pass before hmark ih =>
    rw [List.pairwise_append]
    refine ⟨ih, List.pairwise_singleton _ _, fun earlier hmem later hlater => ?_⟩
    rw [List.mem_singleton.mp hlater]
    exact hpassage before hmark earlier hmem

/-- `spawn` occurs once in a `Life`, unless its standing is `fresh`. -/
theorem count_spawn (h : Life marks standing) :
    marks.count .spawn = standing.isCalled.toNat := by
  induction h with
  | fresh => rfl
  | pass before hpassage ih =>
    rw [List.count_append, ih]
    cases hpassage <;> simp [Standing.isCalled]

/-- A dismissal occurs once in a `Life` iff its standing is `isDismissed`. -/
theorem countP_isDismissal (h : Life marks standing) :
    marks.countP Mark.isDismissal = standing.isDismissed.toNat := by
  induction h with
  | fresh => rfl
  | pass before hpassage ih =>
    rw [List.countP_append, ih]
    cases hpassage <;> rfl

/-- After `started` the standing is none of `fresh`, `asked` and `refused`. -/
theorem of_started (h : Life marks standing) (hmem : .started ∈ marks) :
    standing ≠ .fresh ∧ standing ≠ .asked ∧ standing ≠ .refused := by
  induction h with
  | fresh => cases hmem
  | pass before hpassage ih =>
    rcases List.mem_append.mp hmem with hmem | hmem
    -- from any other standing no passage leads to one of these
    · have hbefore := ih hmem
      cases hpassage <;> simp_all
    · cases hpassage <;> simp_all

/-- After a failed or abandoned run the standing is `spoilt` or `terminated`. -/
theorem of_isSpoiling (h : Life marks standing) {mark : Mark} (hmem : mark ∈ marks)
    (hmark : mark.isSpoiling) : standing = .spoilt ∨ standing = .terminated := by
  induction h with
  | fresh => cases hmem
  | pass before hpassage ih =>
    rcases List.mem_append.mp hmem with hmem | hmem
    -- from there a worker can only be terminated, and then there is no passage left
    · rcases ih hmem with rfl | rfl
      · cases hpassage
        exact .inr rfl
      · cases hpassage
    · rw [List.mem_singleton.mp hmem] at hmark
      cases hpassage <;> first | exact .inl rfl | cases hmark

/-- A `Life` that ends `terminated` has a `terminate`. -/
theorem terminate_mem (h : Life marks .terminated) : .terminate ∈ marks := by
  cases h with
  | pass before hpassage => cases hpassage <;> simp

/-- The marks of a `Life` without failure, by its standing. -/
theorem eq_service (h : Life marks standing) :
    match standing with
    | .fresh => marks = []
    | .asked => marks = [.spawn]
    | .idle => ∃ positions, marks = service positions
    | .busy => ∃ positions position, marks = service positions ++ [.run position]
    | .closing => ∃ positions, marks = service positions ++ [.shutdown]
    | .closed => ∃ positions, marks = service positions ++ [.shutdown, .closed]
    | _ => True := by
  induction h with
  | fresh => rfl
  | pass before hpassage ih =>
    -- each standing in question is only reached from another one of them
    cases hpassage with
    | spawn => exact congrArg (· ++ [.spawn]) ih
    | started => exact ⟨[], congrArg (· ++ [.started]) ih⟩
    | run position =>
      obtain ⟨positions, rfl⟩ := ih
      exact ⟨positions, position, rfl⟩
    | completed =>
      obtain ⟨positions, position, rfl⟩ := ih
      exact ⟨positions ++ [position], (service_concat positions position).symm⟩
    | shutdown =>
      obtain ⟨positions, rfl⟩ := ih
      exact ⟨positions, rfl⟩
    | closed =>
      obtain ⟨positions, rfl⟩ := ih
      exact ⟨positions, List.append_assoc ..⟩
    | _ => trivial

/-- A `shutdown` in a `Life` follows a `service`. -/
theorem service_of_shutdown (h : Life marks standing) (hmem : .shutdown ∈ marks) :
    ∃ positions rest, marks = service positions ++ .shutdown :: rest := by
  induction h with
  | fresh => cases hmem
  | @pass marks mark _ _ before hpassage ih =>
    rcases List.mem_append.mp hmem with hmem | hmem
    · obtain ⟨positions, rest, hmarks⟩ := ih hmem
      refine ⟨positions, rest ++ [mark], ?_⟩
      rw [hmarks, List.append_assoc, List.cons_append]
    -- only an idle worker is asked to shut down
    · cases List.mem_singleton.mp hmem
      cases hpassage
      obtain ⟨positions, rfl⟩ := before.eq_service
      exact ⟨positions, [], rfl⟩

/-- Every `Life` is `Orderly`. -/
theorem orderly (h : Life marks standing) : Orderly marks where
  once := by
    rw [h.count_spawn]
    exact Bool.toNat_le _
  last := by
    apply h.pairwise
    intro marks mark standing next before hpassage earlier hmem hdismissal
    -- whoever has been dismissed has at most its closing left
    have hpos : 0 < marks.countP Mark.isDismissal :=
      List.countP_pos_iff.mpr ⟨earlier, hmem, hdismissal⟩
    rw [before.countP_isDismissal] at hpos
    cases hpassage <;> first | rfl | cases hpos
  spoilt := by
    apply h.pairwise
    intro marks mark standing next before hpassage earlier hmem hspoiling
    rcases before.of_isSpoiling hmem hspoiling with rfl | rfl
    · cases hpassage
      rfl
    · cases hpassage
  clean := h.service_of_shutdown

/-- A `Life` that ends `closed` or in a standing that `isOver` is `Settled`. -/
theorem settled (h : Life marks standing) (hover : standing = .closed ∨ standing.isOver) :
    Settled marks where
  dismissed := by
    intro hmem
    have hstarted := h.of_started hmem
    rw [h.countP_isDismissal]
    cases standing <;> simp_all [Standing.isDismissed, Standing.isOver]
  terminated := by
    intro mark hmem hspoiling
    rcases h.of_isSpoiling hmem hspoiling with rfl | rfl
    · simp [Standing.isOver] at hover
    · exact h.terminate_mem

end Life

end Fanout.Schedule

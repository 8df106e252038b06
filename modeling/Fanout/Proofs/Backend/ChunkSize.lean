import Fanout.Config.Settings
import Fanout.Proofs.Backend.Plan

/-!
# How pools size their chunks

The chunk size of a pool that was given none is the least one that makes at most four chunks for
each worker, and if there are at least as many computations as workers, there is a chunk for each
worker (`Backend.default_size_least`).

The rules of a pool accept every positive worker count, but `4 * workers` can overflow.
`Backend.sizes_chunks_iff` gives the exact condition under which a pool (`Backend.IsPool`) can size
its chunks, and `Backend.greatest_count_cannot_size` a count that violates it.
-/

namespace Fanout

namespace Backend

/-- An evaluation by a pool has a driver for each worker and a unit for each chunk. -/
theorem start_of_options {backend : Backend} (hkind : backend.kind = .processPool)
    {tasks size : Nat} {units : List Span} (hsize : backend.chunkSizeFor tasks = .ok size)
    (hunits : Partition.chunkRanges tasks size = .ok units) (htasks : tasks ≠ 0) :
    ∃ options start, backend.options tasks = .ok options ∧
      Schedule.State.start tasks options = .ok start ∧
      start.drivers.length = backend.workerCount ∧ start.shared.queue = units := by
  have hoptions : backend.options tasks = .ok ⟨backend.workerCount, size, true⟩ := by
    rw [options, hsize, hkind]
    rfl
  refine ⟨_, _, hoptions,
    (Schedule.State.start_eq_ok_iff htasks).mpr ⟨units, hunits, rfl⟩, ?_, rfl⟩
  have hpos := backend.workerCount_pos
  simp only [Schedule.State.initial, List.length_replicate, Schedule.Options.driverCount, if_true]
  omega

/-- For fewer than `listLimit` positions, `defaultChunkSize` is the least size that makes at most
four chunks for each worker. It makes at least two for each worker, or one for each position if that
is less. So there is a unit for each worker of a pool if there are as many tasks as workers. -/
theorem default_size_least {length workers : Nat} (hlength : length < listLimit)
    (hworkers : 4 * max workers 1 < wordLimit) :
    ∃ size, Partition.defaultChunkSize length workers = .ok size ∧ 1 ≤ size ∧ size < wordLimit ∧
      (∀ other, 1 ≤ other → other < wordLimit →
        ∃ units, Partition.chunkRanges length other = .ok units ∧
          (units.length ≤ 4 * max workers 1 ↔ size ≤ other)) ∧
      (∃ units, Partition.chunkRanges length size = .ok units ∧
        min length (2 * max workers 1) ≤ units.length) ∧
      ∀ (backend : Backend) (command : Option WorkerCommand),
        backend.strategy = .processPool none command → backend.workerCount = workers →
          workers ≤ length → ∃ options start, backend.options length = .ok options ∧
            Schedule.State.start length options = .ok start ∧
            start.drivers.length = workers ∧ workers ≤ start.shared.queue.length := by
  obtain ⟨size, units, hsize, hpos, hlt, hunits, hmany⟩ :=
    Partition.exists_default_chunks hlength hworkers
  refine ⟨size, hsize, hpos, hlt, ?_, ⟨units, hunits, hmany⟩, ?_⟩
  · intro other hpos' hother
    obtain ⟨units', hunits'⟩ := Partition.exists_chunkRanges hlength hother
    exact ⟨units', hunits', Partition.length_le_iff_default_le hsize hworkers hunits' hpos'⟩
  · intro backend command hstrategy hcount henough
    have hkind : backend.kind = .processPool := by
      rw [kind, hstrategy]
      rfl
    have hfor : backend.chunkSizeFor length = .ok size := by
      rw [chunkSizeFor, hstrategy, hcount]
      exact hsize
    have hworker := backend.workerCount_pos
    obtain ⟨options, start, hoptions, hstart, hdrivers, rfl⟩ :=
      start_of_options hkind hfor hunits (by omega)
    exact ⟨options, start, hoptions, hstart, hdrivers.trans hcount, by omega⟩

/-- Of seventeen computations, a pool of four workers makes nine chunks of at most two. -/
theorem default_size_least_of_seventeen :
    17 < listLimit ∧ 4 * max 4 1 < wordLimit ∧ Partition.defaultChunkSize 17 4 = .ok 2 ∧
      (∀ other, 1 ≤ other → other < wordLimit →
        ∃ units, Partition.chunkRanges 17 other = .ok units ∧
          (units.length ≤ 4 * max 4 1 ↔ 2 ≤ other)) ∧
      let pool : Backend := ⟨.processPool none none, 4, [], rfl⟩
      ∃ options start, pool.options 17 = .ok options ∧
        Schedule.State.start 17 options = .ok start ∧
        start.drivers.length = 4 ∧ 4 ≤ start.shared.queue.length := by
  have hlength : 17 < listLimit := by decide
  have hworkers : 4 * max 4 1 < wordLimit := by decide
  obtain ⟨size, hsize, -, -, hleast, -, hpool⟩ := default_size_least hlength hworkers
  have htwo : Partition.defaultChunkSize 17 4 = .ok 2 := rfl
  rw [htwo] at hsize
  cases hsize
  exact ⟨hlength, hworkers, htwo, hleast,
    hpool ⟨.processPool none none, 4, [], rfl⟩ none rfl rfl (by decide)⟩

/-- A pool for `workers` workers with the chunk size `setting`, if any, that the rules accepted. -/
inductive IsPool (setting : Option Nat) (workers : Int64) (backend : Backend) : Prop
  /-- It was built by `construct`. -/
  | constructed (command : Option WorkerCommand)
      (h : (construct (.ofKind .processPool setting command) workers).value = .ok backend)
  /-- It was built from a configuration. -/
  | configured (parallelism : Option Int64) (config : Config)
      (hkind : config.backend = .processPool) (hsetting : config.chunkSize = setting)
      (hworkers : config.requestedWorkers parallelism = .ok workers)
      (h : (config.construct parallelism).value = .ok backend)

/-- `construct` keeps the strategy and the worker count. -/
theorem of_construct_eq_ok {strategy : Strategy} {workers : Int64} {backend : Backend}
    (h : (construct strategy workers).value = .ok backend) :
    backend.strategy = strategy ∧ backend.workers = workers := by
  unfold construct at h
  dsimp only at h
  split at h
  · cases h
  · cases h
    exact ⟨rfl, rfl⟩

variable {setting : Option Nat} {workers : Int64} {backend : Backend}

/-- A pool keeps its chunk size and its worker count, however it was built. -/
theorem IsPool.kept (h : backend.IsPool setting workers) :
    (∃ command, backend.strategy =
      .processPool (setting.map Strategy.chunkSizeSetting) command) ∧
      backend.workers = workers := by
  cases h with
  | constructed command h =>
    obtain ⟨hstrategy, hworkers⟩ := of_construct_eq_ok h
    exact ⟨⟨command, hstrategy⟩, hworkers⟩
  | configured parallelism config hkind hsetting hworkers h =>
    rw [Config.construct, hworkers] at h
    obtain ⟨hstrategy, hworkers⟩ := of_construct_eq_ok h
    rw [Config.strategy, hkind, hsetting] at hstrategy
    exact ⟨⟨config.worker, hstrategy⟩, hworkers⟩

/-- A pool can size chunks iff it has a chunk size, or four chunks for each worker are below
`wordLimit`. Otherwise `chunkSizeFor` faults with an overflow, whatever the list. -/
theorem sizes_chunks_iff (h : backend.IsPool setting workers) (computations : Nat) :
    ((∃ size, 1 ≤ size ∧ backend.chunkSizeFor computations = .ok size) ↔
        setting ≠ none ∨ 4 * workers.toInt < wordLimit) ∧
      (backend.chunkSizeFor computations = .error .mulOverflow ↔
        setting = none ∧ wordLimit ≤ 4 * workers.toInt) := by
  obtain ⟨⟨command, hstrategy⟩, hworkers⟩ := h.kept
  have hpos := backend.workerCount_pos
  have hcount : (4 * max backend.workerCount 1 : Nat) = 4 * workers.toInt := by
    rw [workerCount, hworkers] at hpos ⊢
    omega
  rw [chunkSizeFor, hstrategy]
  cases setting with
  | some size =>
    -- a setting is clamped, not computed, so nothing can overflow
    have hsize : 1 ≤ Strategy.chunkSizeSetting size := Nat.le_max_right size 1
    simp [hsize]
  | none =>
    dsimp only [Option.map_none]
    by_cases hfits : 4 * max backend.workerCount 1 < wordLimit
    · rw [Partition.defaultChunkSize_eq_ok hfits]
      constructor
      · exact iff_of_true ⟨_, Nat.le_max_right _ 1, rfl⟩ (.inr (by omega))
      · exact iff_of_false (by simp) (by omega)
    · rw [Partition.defaultChunkSize_eq_error (Nat.le_of_not_lt hfits)]
      constructor
      · refine iff_of_false (by simp) ?_
        rintro (hsetting | hlt)
        · exact hsetting rfl
        · omega
      · exact iff_of_true rfl ⟨rfl, by omega⟩

/-- One pool without a chunk size has the greatest worker count that can size chunks, and one from a
configuration has the next one, which cannot. -/
theorem sizes_chunks_iff_at_the_limit :
    let widest : Backend := ⟨.processPool none none, 4611686018427387903, [], rfl⟩
    let wider : Backend := ⟨.processPool none none, 4611686018427387904, [], rfl⟩
    widest.IsPool none 4611686018427387903 ∧ wider.IsPool none 4611686018427387904 ∧
      (∃ size, 1 ≤ size ∧ widest.chunkSizeFor 10 = .ok size) ∧
      wider.chunkSizeFor 10 = .error .mulOverflow := by
  intro widest wider
  have hwidest : widest.IsPool none 4611686018427387903 := .constructed none rfl
  have hwider : wider.IsPool none 4611686018427387904 :=
    .configured none ⟨.processPool, some (.integer 4611686018427387904), none, none, .standard⟩
      rfl rfl rfl rfl
  exact ⟨hwidest, hwider, (sizes_chunks_iff hwidest 10).1.mpr (.inr (by decide)),
    (sizes_chunks_iff hwider 10).2.mpr ⟨rfl, by decide⟩⟩

/-- The rules accept the greatest worker count without a warning, and the pool cannot size the
chunks of ten computations. -/
theorem greatest_count_cannot_size :
    ∃ backend : Backend, backend.IsPool none 9223372036854775807 ∧ backend.warnings = [] ∧
      backend.chunkSizeFor 10 = .error .mulOverflow :=
  ⟨⟨.processPool none none, 9223372036854775807, [], rfl⟩, .constructed none rfl, rfl, rfl⟩

end Backend

end Fanout

import Fanout.CommandLine.Run
import Fanout.Proofs.Backend.Agreement
import Fanout.Proofs.Partition.Groups
import Mathlib.Algebra.BigOperators.Intervals
import Mathlib.Algebra.Order.BigOperators.Group.Finset

/-!
# The sum of all squares is exact

The checked sum returns the sum of the squares if it fits a word and an error otherwise, within a
group (`Builtin.addSquares_eq`) and over the groups (`CommandLine.total_eq`). `sum_of_squares_exact`
states this for the command, for every number of frames and every number of groups.
-/

namespace Fanout

/-- The sum of the squares from `start * start` up to, but not including, `stop * stop`. -/
def squareSum (start stop : Nat) : Nat := ∑ i ∈ Finset.Ico start stop, i * i

theorem squareSum_self (start : Nat) : squareSum start start = 0 := by
  simp [squareSum]

theorem squareSum_succ {start stop : Nat} (h : start < stop) :
    squareSum start stop = start * start + squareSum (start + 1) stop :=
  Finset.sum_eq_sum_Ico_succ_bot h _

/-- The `squareSum` over consecutive spans is that between their ends. -/
theorem Consecutive.sum_squareSum {start last : Nat} {spans : List Span}
    (h : Consecutive start spans last) :
    (spans.map fun span => squareSum span.start span.stop).sum = squareSum start last := by
  induction h with
  | nil start => simp [squareSum_self]
  | @cons start stop last spans hlt hrest ih =>
    rw [List.map_cons, List.sum_cons, ih]
    exact Finset.sum_Ico_consecutive _ (Nat.le_of_lt hlt) hrest.start_le_last

namespace Builtin

/-- `addSquares` is the sum if it is below `wordLimit`, and `none` otherwise. -/
theorem addSquares_eq {total : Nat} (i count : Nat) (htotal : total < wordLimit) :
    addSquares total i count =
      if total + squareSum i (i + count) < wordLimit then some (total + squareSum i (i + count))
      else none := by
  induction count generalizing total i with
  | zero => simp [addSquares, squareSum_self, htotal]
  | succ count ih =>
    have hsum : squareSum i (i + (count + 1)) = i * i + squareSum (i + 1) (i + 1 + count) := by
      rw [squareSum_succ (by omega), show i + (count + 1) = i + 1 + count by omega]
    rw [addSquares, hsum, ← Nat.add_assoc]
    by_cases hfits : total + i * i < wordLimit
    · rw [if_pos ⟨by omega, hfits⟩, ih (i + 1) hfits]
    -- what has left the word here does not come back, as the rest only adds to it
    · rw [if_neg (fun h => hfits h.2), if_neg (by omega)]

/-- The failure text for a range whose `squareSum` is not below `wordLimit`. -/
def overflowText (start stop : Nat) : String :=
  s!"sum of squares over {start}..{stop} overflows u64"

/-- The function `sumOfSquares` has the `squareSum` of its range if it is below `wordLimit`, and
fails otherwise. -/
theorem callCaught_sumOfSquares {start stop : Nat} (hle : start ≤ stop)
    (hstop : stop < wordLimit) :
    sumOfSquares.callCaught () (UInt64.ofNat start, UInt64.ofNat stop) =
      if squareSum start stop < wordLimit then .ok (UInt64.ofNat (squareSum start stop))
      else .error (overflowText start stop) := by
  have hstart : (UInt64.ofNat start).toNat = start :=
    UInt64.toNat_ofNat_of_lt' (Nat.lt_of_le_of_lt hle hstop)
  have hstop : (UInt64.ofNat stop).toNat = stop := UInt64.toNat_ofNat_of_lt' hstop
  have hcount : start + (stop - start) = stop := by omega
  simp only [WorkFunction.callCaught, sumOfSquares, hstart, hstop]
  rw [addSquares_eq start (stop - start) (by decide), hcount, Nat.zero_add]
  by_cases hfits : squareSum start stop < wordLimit
  · rw [if_pos hfits, if_pos hfits]
    rfl
  · rw [if_neg hfits, if_neg hfits]
    rfl

end Builtin

namespace CommandLine

/-- `total` is the sum if it is below `wordLimit`, and `none` otherwise. -/
theorem total_eq (sums : List UInt64) :
    total sums =
      if (sums.map UInt64.toNat).sum < wordLimit then some (sums.map UInt64.toNat).sum
      else none := by
  -- the same for a total that has been reached by then
  have hfrom (start : Nat) (hstart : start < wordLimit) :
      (sums.foldlM (fun total sum =>
        if total + sum.toNat < wordLimit then some (total + sum.toNat) else none) start) =
      if start + (sums.map UInt64.toNat).sum < wordLimit then
        some (start + (sums.map UInt64.toNat).sum) else none := by
    induction sums generalizing start with
    | nil => simp [hstart]
    | cons sum sums ih =>
      rw [List.foldlM_cons, List.map_cons, List.sum_cons, ← Nat.add_assoc]
      by_cases hfits : start + sum.toNat < wordLimit
      · rw [if_pos hfits, Option.bind_eq_bind, Option.bind_some, ih _ hfits]
      · rw [if_neg hfits, if_neg (by omega)]
        rfl
  have hzero := hfrom 0 (by decide)
  rwa [Nat.zero_add] at hzero

/-- The inputs of `Builtin.sumOfSquares` for some groups. -/
def words (groups : List Span) : List Builtin.sumOfSquares.Input :=
  groups.map fun group => (UInt64.ofNat group.start, UInt64.ofNat group.stop)

/-- The `squareSum` of each group. -/
def groupSums (groups : List Span) : List UInt64 :=
  groups.map fun group => UInt64.ofNat (squareSum group.start group.stop)

@[simp]
theorem length_words (groups : List Span) : (words groups).length = groups.length :=
  List.length_map _

section Groups

variable {frames : Nat} {groups : List Span}
  (hframes : frames < wordLimit) (hgroups : Consecutive 0 groups frames)

include hframes hgroups

/-- `Builtin.sumOfSquares` on the input of a group has the `squareSum` of the group, or fails. -/
theorem callCaught_words {i : Nat} (hi : i < groups.length) (hi' : i < (words groups).length) :
    Builtin.sumOfSquares.callCaught () (words groups)[i] =
      if squareSum groups[i].start groups[i].stop < wordLimit then
        .ok (UInt64.ofNat (squareSum groups[i].start groups[i].stop))
      else .error (Builtin.overflowText groups[i].start groups[i].stop) := by
  obtain ⟨-, hlt, hlast⟩ := hgroups.bounds (List.getElem_mem hi)
  have hword : (words groups)[i] =
      (UInt64.ofNat groups[i].start, UInt64.ofNat groups[i].stop) := List.getElem_map _
  rw [hword]
  exact Builtin.callCaught_sumOfSquares (Nat.le_of_lt hlt) (Nat.lt_of_le_of_lt hlast hframes)

/-- If no `squareSum` of a group overflows, `applySerially` has all of them. -/
theorem applySerially_words
    (hfits : ∀ group ∈ groups, squareSum group.start group.stop < wordLimit) :
    Backend.applySerially Builtin.sumOfSquares () (words groups) =
      .ok (groupSums groups) := by
  refine Backend.applySerially_eq_ok_iff.mpr ⟨?_, fun i hi hi' => ?_⟩
  · rw [length_words]
    exact List.length_map _
  · have hlt : i < groups.length := by simpa using hi
    rw [callCaught_words hframes hgroups hlt hi, if_pos (hfits _ (List.getElem_mem hlt))]
    have hsum : (groupSums groups)[i] =
        UInt64.ofNat (squareSum groups[i].start groups[i].stop) := List.getElem_map _
    exact congrArg Except.ok hsum.symm

/-- If the `squareSum` of some group overflows, `applySerially` reports the first such group. -/
theorem exists_error_applySerially_words
    (hover : ∃ group ∈ groups, wordLimit ≤ squareSum group.start group.stop) :
    ∃ i, ∃ hi : i < groups.length, wordLimit ≤ squareSum groups[i].start groups[i].stop ∧
      Backend.applySerially Builtin.sumOfSquares () (words groups) = .error (.error
        (.workerExecution i (Builtin.overflowText groups[i].start groups[i].stop))) := by
  cases hresult : Backend.applySerially Builtin.sumOfSquares () (words groups) with
  | ok sums =>
    -- with a result for every group, none of the sums would leave the word
    obtain ⟨group, hmem, hle⟩ := hover
    obtain ⟨i, hi, rfl⟩ := List.getElem_of_mem hmem
    obtain ⟨hlength, hcalls⟩ := Backend.applySerially_eq_ok_iff.mp hresult
    have hi' : i < (words groups).length := by simpa using hi
    have hcall := hcalls i hi' (hlength ▸ hi')
    rw [callCaught_words hframes hgroups hi hi', if_neg (Nat.not_lt.mpr hle)] at hcall
    cases hcall
  | error failure =>
    obtain ⟨i, hi', message, hcall, rfl, -⟩ := Backend.applySerially_eq_error_iff.mp hresult
    have hi : i < groups.length := by simpa using hi'
    rw [callCaught_words hframes hgroups hi hi'] at hcall
    by_cases hfits : squareSum groups[i].start groups[i].stop < wordLimit
    · rw [if_pos hfits] at hcall
      cases hcall
    · rw [if_neg hfits] at hcall
      cases hcall
      exact ⟨i, hi, Nat.le_of_not_lt hfits, rfl⟩

omit hframes in
/-- `total` of `groupSums` is the `squareSum` of all frames, if it is below `wordLimit`. -/
theorem total_words (hfits : ∀ group ∈ groups, squareSum group.start group.stop < wordLimit) :
    total (groupSums groups) =
      if squareSum 0 frames < wordLimit then some (squareSum 0 frames) else none := by
  have hsums : (groupSums groups).map UInt64.toNat =
      groups.map fun group => squareSum group.start group.stop := by
    rw [groupSums, List.map_map]
    exact List.map_congr_left fun group hmem => UInt64.toNat_ofNat_of_lt' (hfits group hmem)
  rw [total_eq, hsums, hgroups.sum_squareSum]

omit hframes in
/-- The `squareSum` of a group is at most that of all frames. -/
theorem squareSum_lt_of_mem (hfits : squareSum 0 frames < wordLimit) :
    ∀ group ∈ groups, squareSum group.start group.stop < wordLimit := by
  intro group hmem
  have hle : squareSum group.start group.stop ≤
      (groups.map fun group => squareSum group.start group.stop).sum :=
    List.single_le_sum (fun _ _ => Nat.zero_le _) _ (List.mem_map_of_mem hmem)
  rw [hgroups.sum_squareSum] at hle
  exact Nat.lt_of_le_of_lt hle hfits

/-- `applySerially` has all `groupSums`, or the `squareSum` of a group overflows, and that of all
frames with it. -/
theorem applySerially_words_cases :
    (∀ group ∈ groups, squareSum group.start group.stop < wordLimit) ∧
        Backend.applySerially Builtin.sumOfSquares () (words groups) = .ok (groupSums groups) ∨
      wordLimit ≤ squareSum 0 frames ∧
        ∃ i, ∃ hi : i < groups.length, wordLimit ≤ squareSum groups[i].start groups[i].stop ∧
          Backend.applySerially Builtin.sumOfSquares () (words groups) = .error (.error
            (.workerExecution i (Builtin.overflowText groups[i].start groups[i].stop))) := by
  by_cases hfits : ∀ group ∈ groups, squareSum group.start group.stop < wordLimit
  · exact .inl ⟨hfits, applySerially_words hframes hgroups hfits⟩
  · simp only [not_forall, Nat.not_lt] at hfits
    obtain ⟨group, hmem, hle⟩ := hfits
    refine .inr ⟨?_, exists_error_applySerially_words hframes hgroups ⟨group, hmem, hle⟩⟩
    by_contra hlt
    exact absurd (squareSum_lt_of_mem hgroups (Nat.lt_of_not_le hlt) group hmem)
      (Nat.not_lt.mpr hle)

end Groups

/-- The total of `frames` frames in `parts` groups, by the serial backend. -/
def squaresTotal (frames parts : Nat) : Except Failure (Option Nat) := do
  let groups ← (Partition.groups frames parts).mapError .fault
  let sums ← Backend.applySerially Builtin.sumOfSquares () (words groups)
  return total sums

theorem squaresTotal_eq {frames parts : Nat} {groups : List Span}
    (hgroups : Partition.groups frames parts = .ok groups) :
    squaresTotal frames parts =
      (Backend.applySerially Builtin.sumOfSquares () (words groups)).map total := by
  rw [squaresTotal, hgroups]
  rfl

/-- A line for each group, with its `squareSum`. -/
def groupLines (groups : List Span) : List String :=
  groups.map fun group =>
    s!"   frames {group.start}..{group.stop}: {squareSum group.start group.stop}"

/-- The lines of the results are `groupLines`. -/
theorem map_zip_groupSums {groups : List Span}
    (hfits : ∀ group ∈ groups, squareSum group.start group.stop < wordLimit) :
    ((groups.zip (groupSums groups)).map fun ((group, sum) : Span × UInt64) =>
      s!"   frames {group.start}..{group.stop}: {sum.toNat}") = groupLines groups := by
  induction groups with
  | nil => rfl
  | cons group groups ih =>
    obtain ⟨hgroup, hrest⟩ := List.forall_mem_cons.mp hfits
    rw [groupSums, List.map_cons, List.zip_cons_cons, List.map_cons, ← groupSums, ih hrest]
    dsimp only
    rw [UInt64.toNat_ofNat_of_lt' hgroup]
    rfl

/-- The output of the command for the sums of `groups`. -/
def summary (groups : List Span) : Except Failure (List UInt64) → Transcript
  | .error failure => .failed (.ofFailure failure)
  | .ok sums =>
    let results := (groups.zip sums).map fun ((group, sum) : Span × UInt64) =>
      s!"   frames {group.start}..{group.stop}: {sum.toNat}"
    match total sums with
    | none => ⟨resultsHeading ++ results, .error .totalOverflow⟩
    | some total => ⟨resultsHeading ++ results ++ [s!"   total: {total}"], .ok ()⟩

/-- Over a serial backend the command prints the `summary` of the groups, one for each worker. -/
theorem sumOfSquares_eq {host : Host} {backend : Backend} {operand : String} {frames : Nat}
    {groups : List Span} (hserial : backend.strategy = .serial)
    (hcount : Operand.count operand = .ok frames)
    (hgroups : Partition.groups frames backend.workerCount = .ok groups) :
    sumOfSquares host backend [operand] =
      summary groups (Backend.applySerially Builtin.sumOfSquares () (words groups)) := calc
  sumOfSquares host backend [operand]
  _ = summary groups (backend.apply host Builtin.sumOfSquares () (words groups)).value := by
    simp only [sumOfSquares, hcount, Traversal.mapError_ok, Traversal.ok_bind, hgroups]
    rfl
  _ = summary groups (Backend.applySerially Builtin.sumOfSquares () (words groups)) :=
    congrArg _ (Backend.value_apply_serial hserial)

/-- For every `frames < wordLimit` and every positive number of parts, `squaresTotal` is the
`squareSum` of all frames iff this is below `wordLimit`, and otherwise there is no total, be it that
a group or that the addition of the groups overflows. Over a serial backend the command prints
`groupLines` and the total, or `groupLines` alone if only the total overflows, or no results if a
group does. -/
theorem sum_of_squares_exact {frames parts : Nat} (hframes : frames < wordLimit)
    (hparts : 0 < parts) :
    ∃ groups, Partition.groups frames parts = .ok groups ∧ Consecutive 0 groups frames ∧
      (∀ total, squaresTotal frames parts = .ok (some total) ↔
        total = ∑ i ∈ Finset.range frames, i * i ∧ total < wordLimit) ∧
      (wordLimit ≤ ∑ i ∈ Finset.range frames, i * i →
        squaresTotal frames parts = .ok none ∨
        ∃ i, ∃ hi : i < groups.length, wordLimit ≤ squareSum groups[i].start groups[i].stop ∧
          squaresTotal frames parts = .error (.error
            (.workerExecution i (Builtin.overflowText groups[i].start groups[i].stop)))) ∧
      ∀ host backend operand, backend.strategy = .serial → backend.workerCount = parts →
        Operand.count operand = .ok frames →
        (∑ i ∈ Finset.range frames, i * i < wordLimit →
          sumOfSquares host backend [operand] =
            ⟨resultsHeading ++ groupLines groups ++
              [s!"   total: {∑ i ∈ Finset.range frames, i * i}"], .ok ()⟩) ∧
        (wordLimit ≤ ∑ i ∈ Finset.range frames, i * i →
          sumOfSquares host backend [operand] =
            ⟨resultsHeading ++ groupLines groups, .error .totalOverflow⟩ ∨
          ∃ i, ∃ hi : i < groups.length, wordLimit ≤ squareSum groups[i].start groups[i].stop ∧
            sumOfSquares host backend [operand] = .failed (.backend
              (.workerExecution i (Builtin.overflowText groups[i].start groups[i].stop)))) := by
  obtain ⟨groups, hgroups, hconsecutive⟩ := Partition.exists_groups hframes hparts
  have hsum : squareSum 0 frames = ∑ i ∈ Finset.range frames, i * i := by
    rw [squareSum, Finset.range_eq_Ico]
  rw [← hsum]
  refine ⟨groups, hgroups, hconsecutive, ?_⟩
  rw [squaresTotal_eq hgroups]
  rcases applySerially_words_cases hframes hconsecutive with
    ⟨hfits, happly⟩ | ⟨hover, i, hi, hgroup, happly⟩
  -- all groups have been summed up, and their total is the sum over all frames
  · have htotal := total_words hconsecutive hfits
    rw [happly]
    refine ⟨fun total => ?_, fun hover => .inl ?_, ?_⟩
    · simp only [Except.map, htotal, Except.ok.injEq, Option.ite_none_right_eq_some,
        Option.some.injEq]
      constructor
      · rintro ⟨hlt, rfl⟩
        exact ⟨rfl, hlt⟩
      · rintro ⟨rfl, hlt⟩
        exact ⟨hlt, rfl⟩
    · simp only [Except.map, htotal, if_neg (Nat.not_lt.mpr hover)]
    · intro host backend operand hserial hworkers hcount
      rw [sumOfSquares_eq hserial hcount (hworkers ▸ hgroups), happly]
      simp only [summary, htotal, map_zip_groupSums hfits]
      refine ⟨fun hlt => by rw [if_pos hlt], fun hover => .inl ?_⟩
      rw [if_neg (Nat.not_lt.mpr hover)]
  -- some group's sum leaves the word, so the sum over all frames does, too
  · rw [happly]
    refine ⟨fun total => ⟨?_, ?_⟩, fun _ => .inr ⟨i, hi, hgroup, rfl⟩, ?_⟩
    · intro h
      cases h
    · rintro ⟨rfl, hlt⟩
      exact absurd hlt (Nat.not_lt.mpr hover)
    · intro host backend operand hserial hworkers hcount
      rw [sumOfSquares_eq hserial hcount (hworkers ▸ hgroups), happly]
      exact ⟨fun hlt => absurd hlt (Nat.not_lt.mpr hover), fun _ => .inr ⟨i, hi, hgroup, rfl⟩⟩

/-- The serial backend, asked for three workers. -/
def threeSerialWorkers : Backend :=
  ⟨.serial, 3, [⟨"serial", "n_workers is ignored when executing with backend='serial'"⟩], rfl⟩

/-- Ten frames in three groups, and frames whose total overflows. -/
theorem sum_of_squares_exact_in_three_groups :
    squaresTotal 10 3 = .ok (some 285) ∧
      (∀ host, sumOfSquares host threeSerialWorkers ["10"] =
        ⟨["", "📊 Results:", "   frames 0..4: 14", "   frames 4..7: 77", "   frames 7..10: 194",
          "   total: 285"], .ok ()⟩) ∧
      (squaresTotal (2 ^ 40) 3 = .ok none ∨
        ∃ i message, squaresTotal (2 ^ 40) 3 = .error (.error (.workerExecution i message))) := by
  have hsum : ∑ i ∈ Finset.range 10, i * i = 285 := by decide
  have hover : wordLimit ≤ ∑ i ∈ Finset.range (2 ^ 40), i * i := calc
    wordLimit ≤ (2 ^ 40 - 1) * (2 ^ 40 - 1) := by decide
    _ ≤ ∑ i ∈ Finset.range (2 ^ 40), i * i :=
      Finset.single_le_sum (f := fun i => i * i) (fun _ _ => Nat.zero_le _)
        (Finset.mem_range.mpr (by decide))
  have hten : 10 < wordLimit := by decide
  obtain ⟨groups, hgroups, -, htotal, -, hcommand⟩ :=
    sum_of_squares_exact hten (by decide : 0 < 3)
  obtain ⟨_, -, -, -, hmany, -⟩ :=
    sum_of_squares_exact (by decide : 2 ^ 40 < wordLimit) (by decide : 0 < 3)
  have hthree : Partition.groups 10 3 = .ok [⟨0, 4⟩, ⟨4, 7⟩, ⟨7, 10⟩] := rfl
  obtain rfl := Except.ok.inj (hthree.symm.trans hgroups)
  refine ⟨(htotal 285).mpr ⟨hsum.symm, by decide⟩, fun host => ?_, ?_⟩
  · rw [(hcommand host threeSerialWorkers "10" rfl rfl rfl).1 (by rw [hsum]; decide), hsum]
    rfl
  · exact (hmany hover).imp_right fun ⟨i, _, _, h⟩ => ⟨i, _, h⟩

end CommandLine

end Fanout

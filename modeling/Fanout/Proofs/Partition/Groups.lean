import Fanout.Proofs.Partition

/-!
# Groups cover the frames

`groups_eq` gives the groups by a formula. With `base` frames for each part and one more for each of
the first `extra` parts, group `part` begins at `part * base + min part extra` and ends where the
next one begins. So no step overflows, and the groups are consecutive and cover all frames
(`Partition.exists_groups`).
-/

namespace Fanout

/-- Spans of which each begins where the one before ends, and none is empty, are `Consecutive`. -/
theorem Consecutive.map_range' {span : Nat → Span} {i k : Nat}
    (hlt : ∀ j, j < i + k → (span j).start < (span j).stop)
    (hnext : ∀ j, (span (j + 1)).start = (span j).stop) :
    Consecutive (span i).start ((List.range' i k).map span) (span (i + k)).start := by
  induction k generalizing i with
  | zero => exact .nil _
  | succ k ih =>
    have hrest := @ih (i + 1) (fun j hj => hlt j (by omega))
    rw [hnext, Nat.add_right_comm, Nat.add_assoc] at hrest
    rw [List.range'_succ, List.map_cons]
    exact .cons (hlt i (by omega)) hrest

namespace Partition

/-- The group of `part`, when each part has `base` frames and the first `extra` parts have one
more. -/
def group (base extra part : Nat) : Span :=
  ⟨part * base + min part extra, (part + 1) * base + min (part + 1) extra⟩

@[simp]
theorem start_group_zero (base extra : Nat) : (group base extra 0).start = 0 := by
  simp [group]

/-- A group ends where the next one begins. -/
theorem start_group_succ (base extra part : Nat) :
    (group base extra (part + 1)).start = (group base extra part).stop := rfl

/-- The length of a group. -/
theorem stop_group (base extra part : Nat) :
    (group base extra part).stop =
      (group base extra part).start + (base + if part < extra then 1 else 0) := by
  simp only [group, Nat.succ_mul]
  split <;> omega

/-- `groupsFrom` makes the groups of the remaining parts, without the empty ones. -/
theorem groupsFrom_eq {base extra part remaining : Nat} (hextra : extra ≤ part + remaining)
    (hfits : (part + remaining) * base + extra < wordLimit) :
    groupsFrom base extra part (group base extra part).start remaining =
      .ok ((List.range' part (if base = 0 then extra - part else remaining)).map
        (group base extra)) := by
  induction remaining generalizing part with
  | zero =>
    have hnone : (if base = 0 then extra - part else 0) = 0 := by split <;> omega
    rw [hnone]
    rfl
  | succ remaining ih =>
    have hstop := stop_group base extra part
    -- no group ends behind the last frame
    have hbound : (group base extra part).stop ≤ (part + (remaining + 1)) * base + extra := by
      have : (part + 1) * base ≤ (part + (remaining + 1)) * base :=
        Nat.mul_le_mul_right base (by omega)
      simp only [group]
      omega
    generalize hlength : base + (if part < extra then 1 else 0) = length at hstop
    rw [groupsFrom, checkedAdd_eq_ok (by omega), Traversal.ok_bind, hlength]
    by_cases hempty : length = 0
    · -- the first empty part ends the list, and no part behind it is due any frames
      have hbase : base = 0 := by omega
      have hnone : extra - part = 0 := by
        rw [← hlength] at hempty
        split at hempty <;> omega
      rw [if_pos hempty, if_pos hbase, hnone]
      rfl
    · rw [if_neg hempty, checkedAdd_eq_ok (by omega), Traversal.ok_bind, ← hstop,
        ← start_group_succ, ih (by omega) (by rwa [Nat.add_right_comm, Nat.add_assoc part])]
      have hcount : (if base = 0 then extra - part else remaining + 1) =
          (if base = 0 then extra - (part + 1) else remaining) + 1 := by
        rw [← hlength] at hempty
        split at hempty <;> split <;> omega
      rw [hcount, List.range'_succ, List.map_cons]
      rfl

variable {frames parts : Nat}

/-- `groups` makes the first `min frames parts` groups. -/
theorem groups_eq (hframes : frames < wordLimit) (parts : Nat) :
    groups frames parts = .ok ((List.range (min frames parts)).map
      (group (frames / parts) (frames % parts))) := by
  rw [groups]
  by_cases hnone : frames = 0 ∨ parts = 0
  · have hmin : min frames parts = 0 := by omega
    rw [if_pos hnone, hmin]
    rfl
  · have hparts : 0 < parts := by omega
    have hall : parts * (frames / parts) + frames % parts = frames := Nat.div_add_mod frames parts
    have hextra := Nat.mod_lt frames hparts
    have hcount : (if frames / parts = 0 then frames % parts - 0 else parts) =
        min frames parts := by
      by_cases hfew : frames < parts
      · rw [if_pos (Nat.div_eq_of_lt hfew), Nat.mod_eq_of_lt hfew]
        omega
      · have : 0 < frames / parts := Nat.div_pos (by omega) hparts
        rw [if_neg (by omega)]
        omega
    have hfrom := @groupsFrom_eq (frames / parts) (frames % parts) 0 parts (by omega)
      (by rwa [Nat.zero_add, hall])
    rw [start_group_zero, hcount] at hfrom
    rw [if_neg hnone, hfrom, List.range_eq_range']

/-- None of these is empty. -/
theorem start_lt_stop_group {part : Nat} (h : part < min frames parts) :
    (group (frames / parts) (frames % parts) part).start <
      (group (frames / parts) (frames % parts) part).stop := by
  rw [stop_group]
  by_cases hfew : frames < parts
  · rw [Nat.div_eq_of_lt hfew, Nat.mod_eq_of_lt hfew, if_pos (by omega)]
    omega
  · have : 0 < frames / parts := Nat.div_pos (by omega) (by omega)
    omega

/-- The group after these would begin at `frames`. -/
theorem start_group_min (hparts : 0 < parts) :
    (group (frames / parts) (frames % parts) (min frames parts)).start = frames := by
  rw [group]
  by_cases hfew : frames < parts
  · rw [Nat.min_eq_left (Nat.le_of_lt hfew), Nat.div_eq_of_lt hfew, Nat.mod_eq_of_lt hfew,
      Nat.mul_zero, Nat.zero_add, Nat.min_self]
  · have hextra := Nat.mod_lt frames hparts
    rw [Nat.min_eq_right (by omega), Nat.min_eq_right (Nat.le_of_lt hextra), Nat.div_add_mod]

/-- `groups` succeeds below `wordLimit` and makes `Consecutive` spans from 0 to `frames`. -/
theorem exists_groups (hframes : frames < wordLimit) (hparts : 0 < parts) :
    ∃ spans, groups frames parts = .ok spans ∧ Consecutive 0 spans frames := by
  refine ⟨_, groups_eq hframes parts, ?_⟩
  have hconsecutive := @Consecutive.map_range' (group (frames / parts) (frames % parts)) 0
    (min frames parts) (fun j hj => start_lt_stop_group (by omega))
    (start_group_succ (frames / parts) (frames % parts))
  rwa [start_group_zero, Nat.zero_add, start_group_min hparts, ← List.range_eq_range']
    at hconsecutive

end Partition

end Fanout

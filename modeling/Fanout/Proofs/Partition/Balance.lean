import Fanout.Proofs.Partition.Groups

/-!
# Groups are balanced

`Partition.groups_balanced`: for all numbers of frames and parts, `groups` returns as many groups as
there are parts and frames for. They are nonempty and consecutive, they cover all frames, and their
lengths differ by at most one (`Partition.Balanced`).
-/

namespace Fanout

/-- A position between the ends is in exactly one of some `Consecutive` spans. -/
theorem Consecutive.exists_index {start last : Nat} {spans : List Span}
    (h : Consecutive start spans last) {position : Nat} (hstart : start ≤ position)
    (hlast : position < last) :
    ∃ p, p < spans.length ∧ ∀ q (hq : q < spans.length),
      spans[q].start ≤ position ∧ position < spans[q].stop ↔ q = p := by
  induction h with
  | nil start => omega
  | @cons start stop last spans hlt hrest ih =>
    -- the spans behind the first one begin where it ends
    have hbehind (q : Nat) (hq : q < spans.length) : stop ≤ spans[q].start :=
      (hrest.bounds (List.getElem_mem hq)).1
    by_cases hfirst : position < stop
    · refine ⟨0, by simp, fun q hq => ?_⟩
      cases q with
      | zero => simp [hstart, hfirst]
      | succ q =>
        have := hbehind q (by simpa using hq)
        simp only [List.getElem_cons_succ]
        omega
    · obtain ⟨p, hp, honly⟩ := ih (by omega) hlast
      refine ⟨p + 1, by simpa using hp, fun q hq => ?_⟩
      cases q with
      | zero => simp [hfirst]
      | succ q =>
        simp only [List.getElem_cons_succ, Nat.add_right_cancel_iff]
        exact honly q (by simpa using hq)

namespace Partition

theorem length_group (base extra part : Nat) :
    (group base extra part).length = base + if part < extra then 1 else 0 := by
  rw [Span.length, stop_group, Nat.add_sub_cancel_left]

/-- `spans` deal `frames` frames out to `parts` parts, as evenly as it goes. -/
structure Balanced (frames parts : Nat) (spans : List Span) : Prop where
  /-- There is a group for each part, as long as there are frames. -/
  length_eq : spans.length = min frames parts
  /-- The ends of a group, from the number of its part. -/
  getElem_eq : ∀ p (h : p < spans.length), spans[p] =
    ⟨p * (frames / parts) + min p (frames % parts),
      (p + 1) * (frames / parts) + min (p + 1) (frames % parts)⟩
  /-- No group is empty. -/
  start_lt_stop : ∀ p (h : p < spans.length), spans[p].start < spans[p].stop
  /-- The first group begins at 0. -/
  start_first : ∀ h : 0 < spans.length, spans[0].start = 0
  /-- Every other group begins where the one before ends. -/
  start_next : ∀ p (h : p + 1 < spans.length), spans[p + 1].start = spans[p].stop
  /-- The last group ends at `frames`. -/
  stop_last : ∀ p (h : p < spans.length), p + 1 = spans.length → spans[p].stop = frames
  /-- Unless there are no parts, each frame is in exactly one group. -/
  covers : parts ≠ 0 → ∀ frame, frame < frames → ∃ p, p < spans.length ∧
    ∀ q (h : q < spans.length), spans[q].start ≤ frame ∧ frame < spans[q].stop ↔ q = p
  /-- Longer groups come first, and lengths differ by one frame at most. -/
  lengths : ∀ p q (hpq : p ≤ q) (h : q < spans.length),
    spans[q].length ≤ spans[p].length ∧ spans[p].length ≤ spans[q].length + 1

/-- For every `frames < wordLimit` and every number of parts, no step of `groups` overflows, and the
result is `Balanced`. -/
theorem groups_balanced {frames : Nat} (hframes : frames < wordLimit) (parts : Nat) :
    ∃ spans, groups frames parts = .ok spans ∧ Balanced frames parts spans := by
  have hgroups := groups_eq hframes parts
  refine ⟨_, hgroups, ?_⟩
  generalize hspans : (List.range (min frames parts)).map
    (group (frames / parts) (frames % parts)) = spans at hgroups
  have hlength : spans.length = min frames parts := by simp [← hspans]
  have hget (p : Nat) (h : p < spans.length) :
      spans[p] = group (frames / parts) (frames % parts) p := by simp [← hspans]
  constructor
  case length_eq => exact hlength
  case getElem_eq => exact hget
  case start_lt_stop =>
    intro p h
    rw [hget]
    exact start_lt_stop_group (hlength ▸ h)
  case start_first =>
    intro h
    rw [hget, start_group_zero]
  case start_next =>
    intro p h
    rw [hget, hget, start_group_succ]
  case stop_last =>
    intro p h hlast
    rw [hget, ← start_group_succ, hlast, hlength, start_group_min (by omega)]
  case covers =>
    intro hparts frame hframe
    obtain ⟨spans', hgroups', hconsecutive⟩ := exists_groups hframes (Nat.pos_of_ne_zero hparts)
    rw [hgroups] at hgroups'
    cases hgroups'
    exact hconsecutive.exists_index (Nat.zero_le frame) hframe
  case lengths =>
    intro p q hpq h
    rw [hget, hget, length_group, length_group]
    constructor <;> split <;> split <;> omega

/-- The greatest number of frames in two groups, of which the first is longer. -/
theorem groups_balanced_of_greatest_count :
    18446744073709551615 < wordLimit ∧
      groups 18446744073709551615 2 =
        .ok [⟨0, 9223372036854775808⟩, ⟨9223372036854775808, 18446744073709551615⟩] ∧
      Balanced 18446744073709551615 2
        [⟨0, 9223372036854775808⟩, ⟨9223372036854775808, 18446744073709551615⟩] := by
  have hframes : 18446744073709551615 < wordLimit := by decide
  obtain ⟨spans, hgroups, hbalanced⟩ := groups_balanced hframes 2
  have hspans : groups 18446744073709551615 2 =
      .ok [⟨0, 9223372036854775808⟩, ⟨9223372036854775808, 18446744073709551615⟩] := rfl
  rw [hspans] at hgroups
  cases hgroups
  exact ⟨hframes, hspans, hbalanced⟩

end Partition

end Fanout

import Fanout.Proofs.Schedule.Course

/-!
# Chunks cut a list exactly

`Partition.ExactCut` says of the chunks of a list that they are consecutive, cover the list, have
one size except perhaps the last one, and have the expected number. `Partition.chunks_cut_exactly`
shows it of `chunkRanges` for every length and chunk size for which no step overflows.

A chunk that begins at `start` ends at the minimum of `start + size` and the length, and the sum can
overflow even if the length does not. The theorem gives the exact condition, which no list that fits
into memory satisfies.
-/

namespace Fanout.Partition

variable {length chunkSize : Nat} {units : List Span}

/-- `spans` cut a list of `length` positions into pieces of `size`, the last of which may be
shorter. -/
structure ExactCut (length size : Nat) (spans : List Span) : Prop where
  /-- They lead from 0 to `length` without gaps, and none is empty. -/
  consecutive : Consecutive 0 spans length
  /-- All but the last one have the size. -/
  length_eq : ∀ i (h : i + 1 < spans.length), spans[i].length = size
  /-- The last one is not longer. -/
  length_le : ∀ i (h : i < spans.length), spans[i].length ≤ size
  /-- Their number is that of full pieces, and one more if something is left. -/
  count : spans.length = length / size + if length % size = 0 then 0 else 1
  /-- There are none iff the list is empty. -/
  eq_nil_iff : spans = [] ↔ length = 0

/-- `ceilDiv` is the quotient, and one more if there is a rest. -/
theorem ceilDiv_eq {size : Nat} (hsize : 0 < size) :
    ceilDiv length size = length / size + if length % size = 0 then 0 else 1 := by
  have hall : size * (length / size) + length % size = length := Nat.div_add_mod length size
  have hrest := Nat.mod_lt length hsize
  have hsum : length + (size - 1) =
      size * (length / size) + (length % size + (size - 1)) := by omega
  rw [ceilDiv, hsum, Nat.mul_add_div hsize]
  split
  case isTrue hnone =>
    have : (length % size + (size - 1)) / size = 0 := Nat.div_eq_of_lt (by omega)
    rw [this]
  case isFalse hsome =>
    have : (length % size + (size - 1)) / size = 1 := Nat.div_eq_of_lt_le (by omega) (by omega)
    rw [this]

theorem length_chunk (length size i : Nat) :
    (chunk length size i).length = min size (length - i * size) := by
  simp only [chunk, Span.length]
  omega

/-- The result of `chunkRanges` is an `ExactCut`. -/
theorem exactCut_chunkRanges (h : chunkRanges length chunkSize = .ok units) :
    ExactCut length (max chunkSize 1) units := by
  have hsize : 0 < max chunkSize 1 := by omega
  have hlength := length_chunkRanges h
  have hget (i : Nat) (hi : i < units.length) : units[i] = chunk length (max chunkSize 1) i := by
    simp [eq_map_of_chunkRanges h]
  constructor
  case consecutive => exact consecutive_chunkRanges h
  case length_eq =>
    intro i hi
    -- the chunk behind it begins inside the list, so this one ends there, too
    have hnext : (i + 1) * max chunkSize 1 < length :=
      (lt_ceilDiv_iff hsize).mp (hlength ▸ hi)
    rw [Nat.succ_mul] at hnext
    rw [hget, length_chunk]
    omega
  case length_le =>
    intro i hi
    rw [hget, length_chunk]
    exact Nat.min_le_left _ _
  case count => rw [hlength, ceilDiv_eq hsize]
  case eq_nil_iff =>
    constructor
    · intro hnil
      exact Nat.eq_zero_of_not_pos fun hpos => chunkRanges_ne_nil h hpos hnil
    · rintro rfl
      rw [← List.length_eq_zero_iff, hlength, ceilDiv_eq hsize, Nat.zero_div, Nat.zero_mod,
        if_pos rfl]

/-- For every length and every size, the result of `chunkRanges` is an `ExactCut` into pieces of
`max chunkSize 1`. It fails iff some multiple of this size is below the length and overflows when
the size is added, and not for fewer than `listLimit` positions; so an evaluation of so many tasks
can start with any chunk size. -/
theorem chunks_cut_exactly (length chunkSize : Nat) :
    (∀ units, chunkRanges length chunkSize = .ok units → ExactCut length (max chunkSize 1) units) ∧
      (∀ fault, chunkRanges length chunkSize = .error fault ↔ fault = .addOverflow ∧
        ∃ m, max chunkSize 1 ∣ m ∧ m < length ∧ wordLimit ≤ m + max chunkSize 1) ∧
      (length < listLimit → chunkSize < wordLimit →
        (∃ units, chunkRanges length chunkSize = .ok units) ∧
          ∀ options : Schedule.Options, options.chunkSize = chunkSize →
            ∃ start, Schedule.State.start length options = .ok start) := by
  refine ⟨fun units => exactCut_chunkRanges, fun fault => ?_, fun hlength hsize => ?_⟩
  · rw [chunkRanges_eq_error_iff]
    refine and_congr_right fun _ => ⟨?_, ?_⟩
    · rintro ⟨i, hi, hlimit⟩
      exact ⟨_, Nat.dvd_mul_left _ i, hi, hlimit⟩
    · rintro ⟨m, ⟨i, rfl⟩, hm, hlimit⟩
      rw [Nat.mul_comm] at hm hlimit
      exact ⟨i, hm, hlimit⟩
  · refine ⟨exists_chunkRanges hlength hsize, ?_⟩
    rintro options rfl
    exact Schedule.State.exists_start hlength hsize

/-- Seven positions in chunks of three; the longest list in one chunk of the greatest size; and a
range on which the second chunk overflows. -/
theorem chunks_cut_exactly_up_to_the_limit :
    (chunkRanges 7 3 = .ok [⟨0, 3⟩, ⟨3, 6⟩, ⟨6, 7⟩] ∧ ExactCut 7 3 [⟨0, 3⟩, ⟨3, 6⟩, ⟨6, 7⟩]) ∧
      (9223372036854775807 < listLimit ∧ 18446744073709551615 < wordLimit ∧
        ∃ start, Schedule.State.start 9223372036854775807 ⟨1, 18446744073709551615, true⟩ =
          .ok start) ∧
      chunkRanges 18446744073709551615 9223372036854775808 = .error .addOverflow := by
  have hseven : chunkRanges 7 3 = .ok [⟨0, 3⟩, ⟨3, 6⟩, ⟨6, 7⟩] := rfl
  have hlength : 9223372036854775807 < listLimit := by decide
  have hsize : 18446744073709551615 < wordLimit := by decide
  obtain ⟨-, hstart⟩ :=
    (chunks_cut_exactly 9223372036854775807 18446744073709551615).2.2 hlength hsize
  refine ⟨⟨hseven, (chunks_cut_exactly 7 3).1 _ hseven⟩, ⟨hlength, hsize, hstart _ rfl⟩, ?_⟩
  exact ((chunks_cut_exactly 18446744073709551615 9223372036854775808).2.1 _).mpr
    ⟨rfl, 9223372036854775808, by decide, by decide, by decide⟩

end Fanout.Partition

import Fanout.Partition
import Fanout.Proofs.Traversal

/-!
# Chunks cover a list

`chunkRanges` cuts a list into consecutive ranges (`consecutive_chunkRanges`), which together
contain each position once (`Consecutive.flatMap_toList`), and it never overflows for a list that
fits into memory (`exists_chunkRanges`).
-/

namespace Fanout

/-- No list has as many entries: each takes up at least one byte of the lower half of a word's
addresses. -/
def listLimit : Nat := Nat.pow 2 63

theorem listLimit_lt_wordLimit : listLimit < wordLimit := by decide

/-- `Consecutive start spans last`: the spans lead from `start` to `last` without gaps, and none is
empty. -/
inductive Consecutive : Nat → List Span → Nat → Prop
  | nil (start : Nat) : Consecutive start [] start
  | cons {start stop last : Nat} {spans : List Span} (hlt : start < stop)
      (hrest : Consecutive stop spans last) : Consecutive start (⟨start, stop⟩ :: spans) last

namespace Consecutive

variable {start last : Nat} {spans : List Span}

theorem start_le_last (h : Consecutive start spans last) : start ≤ last := by
  induction h with
  | nil => exact Nat.le_refl _
  | cons hlt _ ih => exact Nat.le_trans (Nat.le_of_lt hlt) ih

/-- Each span is between the ends and is not empty. -/
theorem bounds (h : Consecutive start spans last) {span : Span} (hmem : span ∈ spans) :
    start ≤ span.start ∧ span.start < span.stop ∧ span.stop ≤ last := by
  induction h with
  | nil => simp at hmem
  | cons hlt hrest ih =>
    rcases List.mem_cons.mp hmem with rfl | hmem
    · exact ⟨Nat.le_refl _, hlt, hrest.start_le_last⟩
    · have := ih hmem
      omega

/-- Each span ends before the later ones begin. -/
theorem pairwise (h : Consecutive start spans last) :
    spans.Pairwise fun a b => a.stop ≤ b.start := by
  induction h with
  | nil => exact List.Pairwise.nil
  | cons hlt hrest ih => exact List.pairwise_cons.mpr ⟨fun b hb => (hrest.bounds hb).1, ih⟩

/-- The positions of consecutive spans are those between the ends, in order. -/
theorem flatMap_toList (h : Consecutive start spans last) :
    spans.flatMap Span.toList = List.range' start (last - start) := by
  induction h with
  | nil => simp
  | @cons start stop last spans hlt hrest ih =>
    have hle := hrest.start_le_last
    have hjoin := List.range'_append_1 (s := start) (m := stop - start) (n := last - stop)
    rw [show start + (stop - start) = stop by omega,
      show stop - start + (last - stop) = last - start by omega] at hjoin
    rw [List.flatMap_cons, ih, ← hjoin]
    rfl

end Consecutive

namespace Partition

variable {length chunkSize : Nat} {units : List Span}

/-- The chunk with number `i` of a list. -/
def chunk (length size i : Nat) : Span := ⟨i * size, min (i * size + size) length⟩

/-- A chunk begins inside the list iff its number is below `ceilDiv`. -/
theorem lt_ceilDiv_iff {length size i : Nat} (hsize : 0 < size) :
    i < ceilDiv length size ↔ i * size < length := by
  rw [ceilDiv, ← Nat.succ_le_iff, Nat.le_div_iff_mul_le hsize, Nat.succ_mul]
  omega

/-- `ceilDiv length size` is at most `n` iff `n` chunks have room for the list. -/
theorem ceilDiv_le_iff {length size n : Nat} (hsize : 0 < size) :
    ceilDiv length size ≤ n ↔ length ≤ n * size := by
  rw [← Nat.not_lt, lt_ceilDiv_iff hsize, Nat.not_lt]

/-- One step of the cut gives a `chunk`, or overflows if the sum of its start and its size does. -/
theorem cut_eq (length size i : Nat) :
    (do let stop ← checkedAdd (i * size) size; return ⟨i * size, min stop length⟩ :
      Except Fault Span) =
      if i * size + size < wordLimit then .ok (chunk length size i) else .error .addOverflow := by
  unfold checkedAdd
  split
  · rfl
  · rfl

/-- `chunkRanges` is the list of all chunks iff no sum of a start inside the list and the size
overflows. -/
theorem chunkRanges_eq_ok_iff : chunkRanges length chunkSize = .ok units ↔
    (∀ i, i * max chunkSize 1 < length → i * max chunkSize 1 + max chunkSize 1 < wordLimit) ∧
      units = (List.range (ceilDiv length (max chunkSize 1))).map
        (chunk length (max chunkSize 1)) := by
  have hsize : 0 < max chunkSize 1 := by omega
  rw [chunkRanges]
  simp only [cut_eq, Traversal.mapM_eq_ok_iff, List.length_range, List.getElem_range]
  constructor
  · rintro ⟨hlen, hget⟩
    have hstep (i : Nat) (hi : i < ceilDiv length (max chunkSize 1)) :
        i * max chunkSize 1 + max chunkSize 1 < wordLimit ∧
          chunk length (max chunkSize 1) i = units[i] := by
      have h := hget i hi (hlen ▸ hi)
      split at h
      case isTrue hfits => exact ⟨hfits, Except.ok.inj h⟩
      case isFalse => cases h
    refine ⟨fun i hi => (hstep i ((lt_ceilDiv_iff hsize).mpr hi)).1, ?_⟩
    refine List.ext_getElem (by simpa using hlen) fun i hi _ => ?_
    rw [List.getElem_map, List.getElem_range, (hstep i (hlen ▸ hi)).2]
  · rintro ⟨hfits, rfl⟩
    refine ⟨by simp, fun i hi _ => ?_⟩
    rw [if_pos (hfits i ((lt_ceilDiv_iff hsize).mp hi)), List.getElem_map, List.getElem_range]

/-- The result of `chunkRanges` is the list of all chunks. -/
theorem eq_map_of_chunkRanges (h : chunkRanges length chunkSize = .ok units) :
    units = (List.range (ceilDiv length (max chunkSize 1))).map
      (chunk length (max chunkSize 1)) :=
  (chunkRanges_eq_ok_iff.mp h).2

/-- `chunkRanges` fails iff the sum of a start inside the list and the size overflows. -/
theorem chunkRanges_eq_error_iff {fault : Fault} :
    chunkRanges length chunkSize = .error fault ↔ fault = .addOverflow ∧
      ∃ i, i * max chunkSize 1 < length ∧
        wordLimit ≤ i * max chunkSize 1 + max chunkSize 1 := by
  have hsize : 0 < max chunkSize 1 := by omega
  have hmp {fault : Fault} (h : chunkRanges length chunkSize = .error fault) :
      fault = .addOverflow ∧ ∃ i, i * max chunkSize 1 < length ∧
        wordLimit ≤ i * max chunkSize 1 + max chunkSize 1 := by
    obtain ⟨i, hi, hstep, -⟩ := Traversal.mapM_eq_error_iff.mp h
    rw [cut_eq, List.getElem_range] at hstep
    split at hstep
    case isTrue => cases hstep
    case isFalse hlimit =>
      cases hstep
      exact ⟨rfl, i, (lt_ceilDiv_iff hsize).mp (by simpa using hi), Nat.le_of_not_lt hlimit⟩
  refine ⟨hmp, ?_⟩
  rintro ⟨rfl, i, hi, hlimit⟩
  cases h : chunkRanges length chunkSize with
  | ok units => exact absurd ((chunkRanges_eq_ok_iff.mp h).1 i hi) (Nat.not_lt_of_le hlimit)
  | error fault => rw [(hmp h).1]

theorem length_chunkRanges (h : chunkRanges length chunkSize = .ok units) :
    units.length = ceilDiv length (max chunkSize 1) := by
  rw [eq_map_of_chunkRanges h, List.length_map, List.length_range]

/-- The chunks from number `i` on are `Consecutive`. -/
theorem consecutive_chunks {length size : Nat} (hsize : 0 < size) (k i : Nat)
    (hk : i + k = ceilDiv length size) :
    Consecutive (min (i * size) length) ((List.range' i k).map (chunk length size)) length := by
  induction k generalizing i with
  | zero =>
    have hge : ¬ i * size < length := by
      rw [← lt_ceilDiv_iff hsize]
      omega
    rw [Nat.min_eq_right (Nat.le_of_not_lt hge)]
    exact .nil length
  | succ k ih =>
    have hlt : i * size < length := (lt_ceilDiv_iff hsize).mp (by omega)
    have hnext := ih (i + 1) (by omega)
    rw [Nat.succ_mul] at hnext
    rw [Nat.min_eq_left (Nat.le_of_lt hlt), List.range'_succ, List.map_cons, chunk]
    exact .cons (by omega) hnext

/-- `chunkRanges` makes `Consecutive` spans from 0 to the length. -/
theorem consecutive_chunkRanges (h : chunkRanges length chunkSize = .ok units) :
    Consecutive 0 units length := by
  have hsize : 0 < max chunkSize 1 := by omega
  have := consecutive_chunks hsize _ 0 (Nat.zero_add (ceilDiv length (max chunkSize 1)))
  rw [eq_map_of_chunkRanges h, List.range_eq_range']
  simpa using this

theorem chunkRanges_ne_nil (h : chunkRanges length chunkSize = .ok units) (hpos : 0 < length) :
    units ≠ [] := by
  rintro rfl
  have := consecutive_chunkRanges h
  cases this
  exact Nat.lt_irrefl _ hpos

/-- `chunkRanges` succeeds for fewer than `listLimit` positions, whatever the size. -/
theorem exists_chunkRanges (hlen : length < listLimit) (hsize : chunkSize < wordLimit) :
    ∃ units, chunkRanges length chunkSize = .ok units := by
  refine ⟨_, chunkRanges_eq_ok_iff.mpr ⟨fun i hi => ?_, rfl⟩⟩
  have hmax : max chunkSize 1 < wordLimit := by
    have : 1 < wordLimit := by decide
    omega
  have hdouble : listLimit + listLimit = wordLimit := by decide
  rcases Nat.eq_zero_or_pos i with rfl | hpos
  · simpa using hmax
  -- a second chunk begins inside the list, so a chunk is shorter than the list
  · have : max chunkSize 1 ≤ i * max chunkSize 1 := Nat.le_mul_of_pos_left _ hpos
    omega

end Partition

end Fanout

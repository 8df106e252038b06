import Fanout.Proofs.Partition

/-!
# The default chunk size

`defaultChunkSize` is `length ⌈/⌉ (4 * workers)` if the product does not overflow
(`defaultChunkSize_eq_ok`), and an error otherwise (`defaultChunkSize_eq_error`).
`length_le_iff_ceilDiv_le` relates the number of chunks to their size, so the default is the least
size that makes at most four chunks for each worker (`length_le_iff_default_le`).
`min_le_ceilDiv_ceilDiv` bounds the number of chunks from below (`exists_default_chunks`).
-/

namespace Fanout.Partition

variable {length workers : Nat}

/-- `defaultChunkSize` is the rounded quotient of the length by four times the workers, and at least
1. -/
theorem defaultChunkSize_eq_ok (h : 4 * max workers 1 < wordLimit) :
    defaultChunkSize length workers = .ok (max (ceilDiv length (4 * max workers 1)) 1) := by
  have hchunks : max workers 1 * chunksPerWorker = 4 * max workers 1 := Nat.mul_comm _ _
  rw [defaultChunkSize, checkedMul_eq_ok (by rwa [hchunks]), hchunks]
  rfl

/-- `defaultChunkSize` overflows if four times the workers do. -/
theorem defaultChunkSize_eq_error (h : wordLimit ≤ 4 * max workers 1) :
    defaultChunkSize length workers = .error .mulOverflow := by
  have hchunks : max workers 1 * chunksPerWorker = 4 * max workers 1 := Nat.mul_comm _ _
  rw [defaultChunkSize, checkedMul, if_neg (by rw [hchunks]; exact Nat.not_lt_of_le h)]
  rfl

theorem ceilDiv_le_self {size : Nat} (hsize : 0 < size) : ceilDiv length size ≤ length :=
  (ceilDiv_le_iff hsize).mpr (Nat.le_mul_of_pos_right length hsize)

/-- The default size is below `wordLimit`. -/
theorem max_ceilDiv_lt {size : Nat} (hsize : 0 < size) (hlength : length < wordLimit) :
    max (ceilDiv length size) 1 < wordLimit := by
  have hceil : ceilDiv length size ≤ length := ceilDiv_le_self hsize
  have hone : 1 < wordLimit := by decide
  omega

/-- A size makes at most `n` chunks iff it is at least `ceilDiv length n`. -/
theorem length_le_iff_ceilDiv_le {chunkSize n : Nat} {units : List Span}
    (h : chunkRanges length chunkSize = .ok units) (hn : 0 < n) :
    units.length ≤ n ↔ ceilDiv length n ≤ max chunkSize 1 := by
  rw [length_chunkRanges h, ceilDiv_le_iff (by omega), ceilDiv_le_iff hn, Nat.mul_comm]

/-- The least size for at most `2 * n` chunks makes at least `n`, or one for each position. -/
theorem min_le_ceilDiv_ceilDiv {n : Nat} (hn : 0 < n) :
    min length n ≤ ceilDiv length (max (ceilDiv length (2 * n)) 1) := by
  generalize hsize : max (ceilDiv length (2 * n)) 1 = size
  generalize hcount : ceilDiv length size = count
  have hroom : length ≤ count * size := (ceilDiv_le_iff (by omega)).mp (by omega)
  by_cases hone : size = 1
  · rw [hone, Nat.mul_one] at hroom
    omega
  · -- a smaller size would not do, so the list is longer than its chunks would be
    have hshort : (size - 1) * (2 * n) < length :=
      (lt_ceilDiv_iff (by omega)).mp (by omega)
    have hlt : n < count := by
      refine Nat.lt_of_not_le fun hle => Nat.lt_irrefl length ?_
      calc
        length ≤ count * size := hroom
        _ ≤ n * size := Nat.mul_le_mul_right size hle
        _ ≤ n * (2 * (size - 1)) := Nat.mul_le_mul_left n (by omega)
        _ = (size - 1) * (2 * n) := by rw [← Nat.mul_assoc, Nat.mul_comm n 2, Nat.mul_comm]
        _ < length := hshort
    omega

/-- A size makes at most four chunks for each worker iff it is at least the default size. -/
theorem length_le_iff_default_le {size other : Nat} {units : List Span}
    (hsize : defaultChunkSize length workers = .ok size) (hworkers : 4 * max workers 1 < wordLimit)
    (hunits : chunkRanges length other = .ok units) (hother : 1 ≤ other) :
    units.length ≤ 4 * max workers 1 ↔ size ≤ other := by
  rw [defaultChunkSize_eq_ok hworkers] at hsize
  cases hsize
  rw [length_le_iff_ceilDiv_le hunits (by omega)]
  omega

/-- The default size makes at least two chunks for each worker, or one for each position. -/
theorem exists_default_chunks (hlength : length < listLimit)
    (hworkers : 4 * max workers 1 < wordLimit) :
    ∃ size units, defaultChunkSize length workers = .ok size ∧ 1 ≤ size ∧ size < wordLimit ∧
      chunkRanges length size = .ok units ∧ min length (2 * max workers 1) ≤ units.length := by
  have hword : length < wordLimit := Nat.lt_trans hlength listLimit_lt_wordLimit
  have hlt := max_ceilDiv_lt (by omega : 0 < 4 * max workers 1) hword
  have hmin := @min_le_ceilDiv_ceilDiv length (2 * max workers 1) (by omega)
  obtain ⟨units, hunits⟩ := exists_chunkRanges hlength hlt
  refine ⟨_, units, defaultChunkSize_eq_ok hworkers, Nat.le_max_right _ 1, hlt, hunits, ?_⟩
  rw [length_chunkRanges hunits, Nat.max_eq_left (Nat.le_max_right _ 1)]
  rwa [← Nat.mul_assoc] at hmin

end Fanout.Partition

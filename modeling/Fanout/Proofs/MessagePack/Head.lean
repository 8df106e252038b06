import Fanout.MessagePack.Read
import Fanout.Proofs.Text
import Mathlib.Algebra.Group.Int.Defs
import Mathlib.Algebra.Group.Nat.Defs

/-!
# Heads that were written are read

Numbers and lengths are written in one of several forms, chosen by size. `readHead` reads each form
back, whatever follows it; lengths have at most 32 bits.
-/

namespace Fanout.MessagePack

/-- Lengths are written modulo this. -/
def lengthLimit : Nat := 0x100000000

/-! ## Bytes of numbers -/

theorem length_bigEndian (width n : Nat) : (bigEndian width n).length = width := by
  induction width generalizing n with
  | zero => rfl
  | succ width ih => rw [bigEndian, List.length_append, ih, List.length_singleton]

/-- `ofBigEndian` inverts `bigEndian`. -/
theorem ofBigEndian_bigEndian {width n : Nat} (h : n < 256 ^ width) :
    ofBigEndian (bigEndian width n) = n := by
  induction width generalizing n with
  | zero =>
    rw [Nat.pow_zero, Nat.lt_one_iff] at h
    rw [h]
    rfl
  | succ width ih =>
    -- the last byte is the remainder, and those in front of it are the quotient
    have hhigh : n / 256 < 256 ^ width := Nat.div_lt_of_lt_mul (by rwa [Nat.pow_succ'] at h)
    have hlow : (UInt8.ofNat (n % 256)).toNat = n % 256 :=
      Utf8.toNat_ofNat (Nat.mod_lt _ (by decide))
    have hfront : List.foldl (fun n (b : UInt8) => n * 256 + b.toNat) 0
        (bigEndian width (n / 256)) = n / 256 := ih hhigh
    rw [bigEndian, ofBigEndian, List.foldl_append, hfront, List.foldl_cons, List.foldl_nil, hlow]
    omega

theorem takeExact_append (bytes rest : Bytes) :
    takeExact bytes.length (bytes ++ rest) = some (bytes, rest) := by
  induction bytes with
  | nil => rfl
  | cons b bytes ih =>
    rw [List.cons_append, List.length_cons, takeExact, ih]
    rfl

/-- `withNumber` reads the number that `bigEndian` has written. -/
theorem withNumber_bigEndian {width n : Nat} (h : n < 256 ^ width) (make : Nat → Head)
    (rest : Bytes) : withNumber width make (bigEndian width n ++ rest) = .ok (make n, rest) := by
  have htake := takeExact_append (bigEndian width n) rest
  rw [length_bigEndian] at htake
  rw [withNumber, htake]
  simp only [ofBigEndian_bigEndian h]

/-- `signed` inverts the two's complement of a negative number. -/
theorem signed_of_neg {width : Nat} {n : Int} (hneg : n < 0)
    (h : -(2 ^ (8 * width - 1)) ≤ n) (hwidth : 0 < width) :
    signed width (n + 2 ^ (8 * width)).toNat = n := by
  obtain ⟨k, hk⟩ : ∃ k, 8 * width = k + 1 := ⟨8 * width - 1, by omega⟩
  rw [hk, Nat.add_sub_cancel] at h
  rw [signed, hk, Nat.add_sub_cancel, Nat.pow_eq, Nat.pow_eq]
  have hdouble : (2 : Int) ^ (k + 1) = 2 * 2 ^ k := by rw [Int.pow_succ, Int.mul_comm]
  have hcast : ((2 ^ k : Nat) : Int) = 2 ^ k := by simp
  have hcast' : ((2 ^ (k + 1) : Nat) : Int) = 2 ^ (k + 1) := by simp
  -- the sign bit is set, so the power that was added is taken off again
  rw [if_neg (by omega), hcast']
  omega

/-! ## Markers -/

theorem Marker.ofByte_fixPos {n : Nat} (h : n < 0x80) : ofByte (UInt8.ofNat n) = fixPos n := by
  rw [ofByte, Utf8.toNat_ofNat (by omega)]
  rw [if_pos h]

theorem Marker.ofByte_fixNeg {n : Int} (hneg : n < 0) (h : -32 ≤ n) :
    ofByte (UInt8.ofNat (n + 256).toNat) = fixNeg n := by
  have hlow : 0xE0 ≤ (n + 256).toNat := by omega
  rw [ofByte, Utf8.toNat_ofNat (by omega)]
  -- the bytes of small negative numbers come last
  iterate 16 rw [if_neg (by omega)]
  congr
  omega

theorem Marker.ofByte_fixMap {n : Nat} (h : n < 16) :
    ofByte (UInt8.ofNat (0x80 + n)) = fixMap n := by
  rw [ofByte, Utf8.toNat_ofNat (by omega)]
  rw [if_neg (by omega), if_pos (by omega), Nat.add_sub_cancel_left]

theorem Marker.ofByte_fixArray {n : Nat} (h : n < 16) :
    ofByte (UInt8.ofNat (0x90 + n)) = fixArray n := by
  rw [ofByte, Utf8.toNat_ofNat (by omega)]
  rw [if_neg (by omega), if_neg (by omega), if_pos (by omega), Nat.add_sub_cancel_left]

theorem Marker.ofByte_fixStr {n : Nat} (h : n < 32) :
    ofByte (UInt8.ofNat (0xA0 + n)) = fixStr n := by
  rw [ofByte, Utf8.toNat_ofNat (by omega)]
  rw [if_neg (by omega), if_neg (by omega), if_neg (by omega), if_pos (by omega),
    Nat.add_sub_cancel_left]

/-! ## Numbers -/

section Numbers

variable {b : UInt8} {width n : Nat} (rest : Bytes)

theorem readScalarHead_uint (hmarker : Marker.ofByte b = .uint width) (h : n < 256 ^ width) :
    readScalarHead (b :: bigEndian width n ++ rest) = .ok (.nat n, rest) := by
  rw [List.cons_append, readScalarHead, hmarker]
  exact withNumber_bigEndian h _ rest

theorem readScalarHead_int (hmarker : Marker.ofByte b = .int width) (h : n < 256 ^ width) :
    readScalarHead (b :: bigEndian width n ++ rest) = .ok (.int (signed width n), rest) := by
  rw [List.cons_append, readScalarHead, hmarker]
  exact withNumber_bigEndian h (fun n => .int (signed width n)) rest

theorem readScalarHead_writeNat (h : n < 0x10000000000000000) :
    readScalarHead (writeNat n ++ rest) = .ok (.nat n, rest) := by
  rw [writeNat]
  split
  next hsmall =>
    rw [List.singleton_append, readScalarHead, Marker.ofByte_fixPos hsmall]
    rfl
  split
  next hbyte => exact readScalarHead_uint rest (by decide) hbyte
  split
  next hshort => exact readScalarHead_uint rest (by decide) hshort
  split
  next hlong => exact readScalarHead_uint rest (by decide) hlong
  exact readScalarHead_uint rest (by decide) h

theorem readScalarHead_writeInt {n : Int} (hneg : n < 0) (h : -0x8000000000000000 ≤ n) :
    readScalarHead (writeInt n ++ rest) = .ok (.int n, rest) := by
  -- the same number, in a form of each width
  have hread {b : UInt8} {width : Nat} (hmarker : Marker.ofByte b = .int width)
      (hwidth : 0 < width) (hlow : -(2 ^ (8 * width - 1)) ≤ n) :
      readScalarHead (b :: bigEndian width (n + 2 ^ (8 * width)).toNat ++ rest) =
        .ok (.int n, rest) := by
    have hpow : (256 : Nat) ^ width = 2 ^ (8 * width) := by rw [Nat.pow_mul]
    have hcast : ((2 ^ (8 * width) : Nat) : Int) = 2 ^ (8 * width) := by simp
    have hpos : 0 < 2 ^ (8 * width) := Nat.two_pow_pos _
    rw [readScalarHead_int rest hmarker (by omega), signed_of_neg hneg hlow hwidth]
  rw [writeInt, if_neg (Int.not_le.mpr hneg)]
  split
  next hsmall =>
    rw [List.singleton_append, readScalarHead, Marker.ofByte_fixNeg hneg hsmall]
    rfl
  split
  next hbyte => exact hread (by decide) (by decide) hbyte
  split
  next hshort => exact hread (by decide) (by decide) hshort
  split
  next hlong => exact hread (by decide) (by decide) hlong
  exact hread (by decide) (by decide) h

theorem readScalarHead_writeFloat (x : Binary64) :
    readScalarHead (writeFloat x ++ rest) = .ok (.float x, rest) := by
  have hmarker : Marker.ofByte 0xCB = .float 8 := by decide
  rw [writeFloat, List.cons_append, readScalarHead, hmarker]
  dsimp only [Head.ofMarker]
  rw [withNumber_bigEndian x.bits.toNat_lt, if_neg (by decide), UInt64.ofNat_toNat]

theorem readScalarHead_writeBool (b : Bool) :
    readScalarHead (writeBool b ++ rest) = .ok (.bool b, rest) := by
  cases b <;> rfl

end Numbers

/-! ## Lengths -/

section Lengths

variable (length : Nat) (rest : Bytes)

theorem mod_lt_lengthLimit : length % lengthLimit < lengthLimit := Nat.mod_lt _ (by decide)

variable {length} in
/-- `readHead` reads the length behind a marker. -/
theorem readHead_length {b : UInt8} {width : Nat} (marker : Marker) {make : Nat → Head}
    (hmarker : Marker.ofByte b = marker)
    (hhead : Head.ofMarker marker = withNumber width make) (h : length < 256 ^ width) :
    readHead (b :: bigEndian width length ++ rest) = .ok (make length, rest) := by
  rw [List.cons_append, readHead, hmarker, hhead, withNumber_bigEndian h]

theorem readHead_writeStrHead :
    readHead (writeStrHead length ++ rest) = .ok (.str (length % lengthLimit), rest) := by
  have h := mod_lt_lengthLimit length
  rw [writeStrHead, ← lengthLimit]
  generalize length % lengthLimit = length at h ⊢
  split
  next hsmall =>
    rw [List.singleton_append, readHead, Marker.ofByte_fixStr hsmall]
    rfl
  split
  next hbyte => exact readHead_length rest (.str 1) (by decide) rfl hbyte
  split
  next hshort => exact readHead_length rest (.str 2) (by decide) rfl hshort
  exact readHead_length rest (.str 4) (by decide) rfl h

theorem readHead_writeArrayHead :
    readHead (writeArrayHead length ++ rest) = .ok (.array (length % lengthLimit), rest) := by
  have h := mod_lt_lengthLimit length
  rw [writeArrayHead, ← lengthLimit]
  generalize length % lengthLimit = length at h ⊢
  split
  next hsmall =>
    rw [List.singleton_append, readHead, Marker.ofByte_fixArray hsmall]
    rfl
  split
  next hshort => exact readHead_length rest (.array 2) (by decide) rfl hshort
  exact readHead_length rest (.array 4) (by decide) rfl h

theorem readHead_writeMapHead :
    readHead (writeMapHead length ++ rest) = .ok (.map (length % lengthLimit), rest) := by
  have h := mod_lt_lengthLimit length
  rw [writeMapHead, ← lengthLimit]
  generalize length % lengthLimit = length at h ⊢
  split
  next hsmall =>
    rw [List.singleton_append, readHead, Marker.ofByte_fixMap hsmall]
    rfl
  split
  next hshort => exact readHead_length rest (.map 2) (by decide) rfl hshort
  exact readHead_length rest (.map 4) (by decide) rfl h

end Lengths

end Fanout.MessagePack

import Fanout.Function.Basic

/-!
# Built-in work functions

Squares, scaling, a function that fails on a chosen value, and the sum of the squares of a range of
numbers. Results that leave 64 bits are errors, never wrapped.
-/

namespace Fanout.Builtin

open MessagePack

/-- The square of a number. -/
def square : WorkFunction where
  name := "square"
  State := Unit
  Input := Int64
  Output := Int64
  stateCodec := .ofSchema (.unitStruct "Square")
  inputCodec := .ofSchema .int64
  outputCodec := .ofSchema .int64
  call _ input :=
    let n := input.toInt * input.toInt
    if n < Nat.pow 2 63 then .ok (Int64.ofInt n)
    else .error (.error s!"square of {input.toInt} overflows i64")

/-- The product with a fixed factor. -/
def scale : WorkFunction where
  name := "scale"
  State := Binary64
  Input := Binary64
  Output := Binary64
  stateCodec := .ofSchema (.record₁ "Scale" "factor" .float)
  inputCodec := .ofSchema .float
  outputCodec := .ofSchema .float
  call factor input := .ok (input.mul factor)

/-- The same number, except that one value is refused. -/
def failOn : WorkFunction where
  name := "fail_on"
  State := Int64
  Input := Int64
  Output := Int64
  stateCodec := .ofSchema (.record₁ "FailOn" "value" .int64)
  inputCodec := .ofSchema .int64
  outputCodec := .ofSchema .int64
  call value input :=
    if input = value then .error (.error s!"invalid value {input.toInt}") else .ok input

/-- Add the squares of the `count` numbers from `i` on to `total`, while all fits a word. -/
def addSquares (total i : Nat) : (count : Nat) → Option Nat
  | 0 => some total
  | count + 1 =>
    if i * i < wordLimit ∧ total + i * i < wordLimit then addSquares (total + i * i) (i + 1) count
    else none

/-- The sum of the squares of a half-open range of numbers. -/
def sumOfSquares : WorkFunction where
  name := "sum_of_squares"
  State := Unit
  Input := UInt64 × UInt64
  Output := UInt64
  stateCodec := .ofSchema (.unitStruct "SumOfSquares")
  inputCodec := .ofSchema .range
  outputCodec := .ofSchema .uint64
  call _ range :=
    match addSquares 0 range.1.toNat (range.2.toNat - range.1.toNat) with
    | some total => .ok (UInt64.ofNat total)
    | none =>
      .error (.error s!"sum of squares over {range.1.toNat}..{range.2.toNat} overflows u64")

end Fanout.Builtin

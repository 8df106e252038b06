/-!
# Binary64 values

A binary64 value is its 64 bits: NaN payloads, the sign of zero and the infinities are all kept, so
two values are equal exactly when nothing can tell them apart. Arithmetic decodes the bits into
`m * 2 ^ q`, computes exactly on integers and rounds once, to nearest with ties to even.
-/

namespace Fanout

/-- A binary64 value, as its bits. -/
structure Binary64 where
  /-- Sign, eleven exponent bits and fifty-two fraction bits. -/
  bits : UInt64
deriving DecidableEq, Repr, Inhabited

namespace Binary64

/-- The number of values of the fraction field. -/
def fractionCount : Nat := Nat.pow 2 52

/-- The exponent field of the infinities and NaNs. -/
def specialExponent : Nat := 2047

def isNegative (x : Binary64) : Bool := x.bits.toNat / Nat.pow 2 63 = 1

def exponentField (x : Binary64) : Nat := x.bits.toNat / fractionCount % 2048

def fractionField (x : Binary64) : Nat := x.bits.toNat % fractionCount

def isNaN (x : Binary64) : Bool := x.exponentField = specialExponent ∧ x.fractionField ≠ 0

/-- One of the two infinities. -/
def isInfinite (x : Binary64) : Bool := x.exponentField = specialExponent ∧ x.fractionField = 0

/-- Neither an infinity nor a NaN. -/
def isFinite (x : Binary64) : Bool := x.exponentField ≠ specialExponent

/-- One of the two zeros. -/
def isZero (x : Binary64) : Bool := x.exponentField = 0 ∧ x.fractionField = 0

/-- The value with the given sign and the bits `magnitude` below the sign bit. -/
def ofMagnitude (negative : Bool) (magnitude : Nat) : Binary64 :=
  ⟨UInt64.ofNat ((if negative then Nat.pow 2 63 else 0) + magnitude)⟩

def zero (negative : Bool) : Binary64 := ofMagnitude negative 0

def infinity (negative : Bool) : Binary64 :=
  ofMagnitude negative (specialExponent * fractionCount)

/-- The result of an invalid operation on numbers: a quiet NaN with the sign bit set. -/
def invalid : Binary64 := ofMagnitude true (specialExponent * fractionCount + Nat.pow 2 51)

/-- The same NaN with its quiet bit set. -/
def quiet (x : Binary64) : Binary64 := ⟨x.bits ||| 0x8000000000000⟩

/-- The integer `m` of a finite value's magnitude `m * 2 ^ q`. -/
def significand (x : Binary64) : Nat :=
  if x.exponentField = 0 then x.fractionField else fractionCount + x.fractionField

/-- The exponent `q` of a finite value's magnitude `m * 2 ^ q`. -/
def scale (x : Binary64) : Int :=
  if x.exponentField = 0 then -1074 else (x.exponentField : Int) - 1075

/-- The integer nearest to `num / den`, ties to even. -/
def roundHalfEven (num den : Nat) : Nat :=
  let floor := num / den
  match compare (2 * (num % den)) den with
  | .lt => floor
  | .gt => floor + 1
  | .eq => if floor % 2 = 0 then floor else floor + 1

/-- The integer nearest to `num / (den * 2 ^ q)`, ties to even. -/
def roundScaled (num den : Nat) (q : Int) : Nat :=
  roundHalfEven (num * Nat.pow 2 (-q).toNat) (den * Nat.pow 2 q.toNat)

/-- The exponent at which `num / den` has 53 significant bits, or the least exponent there is. -/
def targetScale (num den : Nat) : Int :=
  -- at `guess` the ratio has 53 or 54 significant bits
  let guess : Int := (Nat.log2 num : Int) - (Nat.log2 den : Int) - 53
  let whole := num * Nat.pow 2 (-guess).toNat / (den * Nat.pow 2 guess.toNat)
  max (if whole < Nat.pow 2 53 then guess else guess + 1) (-1074)

/-- The value nearest to the ratio `num / den`, with the given sign. -/
def ofRatio (negative : Bool) (num den : Nat) : Binary64 :=
  if num = 0 then zero negative
  else
    let q := targetScale num den
    -- a significand that rounds up to `2 ^ 53` carries into the exponent field, as it should
    let magnitude := (q + 1074).toNat * fractionCount + roundScaled num den q
    if magnitude < specialExponent * fractionCount then ofMagnitude negative magnitude
    else infinity negative

/-- The value nearest to a natural number. -/
def ofNat (n : Nat) : Binary64 := ofRatio false n 1

/-- The value nearest to an integer. -/
def ofInt (n : Int) : Binary64 := ofRatio (n < 0) n.natAbs 1

/-- The value nearest to `digits * 10 ^ exponent`, with the given sign. -/
def ofDecimal (negative : Bool) (digits : Nat) (exponent : Int) : Binary64 :=
  if digits = 0 then zero negative
  else
    -- beyond these bounds the result is settled, and the power of ten need not be formed
    let leading : Int := exponent + (Nat.log2 digits / 3 + 1 : Nat)
    if leading < -400 then zero negative
    else if exponent > 400 then infinity negative
    else ofRatio negative (digits * Nat.pow 10 exponent.toNat) (Nat.pow 10 (-exponent).toNat)

/-- The same value as a 32-bit float with the bits `bits`, a NaN made quiet. -/
def ofBinary32 (bits : UInt32) : Binary64 :=
  let n := bits.toNat
  let negative : Bool := n / Nat.pow 2 31 = 1
  let exponent := n / Nat.pow 2 23 % 256
  let fraction := n % Nat.pow 2 23
  if exponent = 255 then
    -- a NaN keeps its fraction, at the upper end of the wider field
    if fraction = 0 then infinity negative
    else (ofMagnitude negative (specialExponent * fractionCount + fraction * Nat.pow 2 29)).quiet
  else if exponent = 0 then ofRatio negative fraction (Nat.pow 2 149)
  else ofRatio negative ((Nat.pow 2 23 + fraction) * Nat.pow 2 exponent) (Nat.pow 2 150)

/-- The NaN an operation answers with when an operand is one: the first such operand, made quiet. -/
def propagate (a b : Binary64) : Binary64 := if a.isNaN then a.quiet else b.quiet

/-- The rounded product. -/
def mul (a b : Binary64) : Binary64 :=
  let negative := a.isNegative != b.isNegative
  if a.isNaN || b.isNaN then propagate a b
  else if a.isInfinite || b.isInfinite then
    if a.isZero || b.isZero then invalid else infinity negative
  else
    let q := a.scale + b.scale
    ofRatio negative (a.significand * b.significand * Nat.pow 2 q.toNat) (Nat.pow 2 (-q).toNat)

/-- The rounded quotient. -/
def div (a b : Binary64) : Binary64 :=
  let negative := a.isNegative != b.isNegative
  if a.isNaN || b.isNaN then propagate a b
  else if a.isInfinite then
    if b.isInfinite then invalid else infinity negative
  else if b.isInfinite then zero negative
  else if b.isZero then
    if a.isZero then invalid else infinity negative
  else
    let q := a.scale - b.scale
    ofRatio negative (a.significand * Nat.pow 2 q.toNat) (b.significand * Nat.pow 2 (-q).toNat)

def neg (x : Binary64) : Binary64 := ⟨x.bits ^^^ 0x8000000000000000⟩

end Binary64

end Fanout

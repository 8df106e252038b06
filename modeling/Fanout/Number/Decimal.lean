import Fanout.Number.Binary64

/-!
# Decimal text of binary64 values

`shortest` picks the decimal with the fewest digits that reads back as the given value, and of two
such the nearer one. How those digits are laid out is a `Layout`: from which power of ten on an
exponent is written, and which way a tie between two equally near candidates goes.
-/

namespace Fanout

/-- The positive decimal `digits * 10 ^ exponent`. -/
structure Decimal where
  /-- The digits, as a number without trailing zeros. -/
  digits : Nat
  /-- The power of ten they are multiplied by. -/
  exponent : Int
deriving DecidableEq, Repr

namespace Decimal

/-- The order of `a * 10 ^ i` and `n * 2 ^ j`. -/
def compareScaled (a : Nat) (i : Int) (n : Nat) (j : Int) : Ordering :=
  compare (a * Nat.pow 10 i.toNat * Nat.pow 2 (-j).toNat)
    (n * Nat.pow 2 j.toNat * Nat.pow 10 (-i).toNat)

/-- Whether `digits * 10 ^ exponent` lies among the reals that round to the magnitude of `x`. Below
a power of two the neighbour is only half as far away; the ends count when the significand is
even. -/
def readsBack (x : Binary64) (digits : Nat) (exponent : Int) : Bool :=
  let m := x.significand
  let narrow := x.fractionField = 0 ∧ 1 < x.exponentField
  -- in quarters of the last place
  let low := if narrow then 4 * m - 1 else 4 * m - 2
  let q := x.scale - 2
  let fromLow := compareScaled digits exponent low q
  let fromHigh := compareScaled digits exponent (4 * m + 2) q
  let even := m % 2 = 0
  (fromLow = .gt ∨ (even ∧ fromLow = .eq)) ∧ (fromHigh = .lt ∨ (even ∧ fromHigh = .eq))

/-- Which of two equally near candidates is written. -/
inductive Tie where
  /-- The one whose last digit is even. -/
  | toEven
  /-- The greater one. -/
  | up
deriving DecidableEq, Repr

/-- The number of decimal digits of a natural number, at least one. -/
def digitCount (n : Nat) : Nat := (Nat.toDigits 10 n).length

/-- The least `k` with magnitude of `x` below `10 ^ k`. -/
def magnitudeOf (x : Binary64) : Int :=
  let q := x.scale
  if q ≥ 0 then (digitCount (x.significand * Nat.pow 2 q.toNat) : Int)
  else
    -- `m / 2 ^ p = m * 5 ^ p / 10 ^ p`
    let p := (-q).toNat
    (digitCount (x.significand * Nat.pow 5 p) : Int) - p

/-- The neighbour of `x` with `count` digits that reads back, the nearer one if both do. -/
def candidate (tie : Tie) (x : Binary64) (k : Int) (count : Nat) : Option Decimal :=
  let exponent := k - count
  let num := x.significand * Nat.pow 2 x.scale.toNat * Nat.pow 10 (-exponent).toNat
  let den := Nat.pow 2 (-x.scale).toNat * Nat.pow 10 exponent.toNat
  -- the neighbours on the grid of the multiples of `10 ^ exponent`
  let below := num / den
  let above := below + 1
  match below != 0 && readsBack x below exponent, readsBack x above exponent with
  | false, false => none
  | true, false => some ⟨below, exponent⟩
  | false, true => some ⟨above, exponent⟩
  | true, true =>
    match compare (2 * num) ((below + above) * den), tie with
    | .lt, _ => some ⟨below, exponent⟩
    | .gt, _ => some ⟨above, exponent⟩
    | .eq, .up => some ⟨above, exponent⟩
    | .eq, .toEven => some ⟨if below % 2 = 0 then below else above, exponent⟩

/-- Move trailing zeros, at most `fuel` of them, from the digits to the exponent. -/
def strip (d : Decimal) : (fuel : Nat) → Decimal
  | 0 => d
  | fuel + 1 =>
    if d.digits ≠ 0 ∧ d.digits % 10 = 0 then strip ⟨d.digits / 10, d.exponent + 1⟩ fuel else d

/-- The shortest decimal that reads back as the magnitude of a finite nonzero value. -/
def shortest (tie : Tie) (x : Binary64) : Decimal :=
  let k := magnitudeOf x
  let exact : Decimal :=
    ⟨x.significand * Nat.pow 2 x.scale.toNat * Nat.pow 5 (-x.scale).toNat,
      -((-x.scale).toNat : Int)⟩
  -- seventeen digits tell any two values apart
  let found := ((List.range 17).findSome? fun i => candidate tie x k (i + 1)).getD exact
  found.strip (digitCount found.digits)

/-- The decisions that lay a number out as text. -/
structure Layout where
  /-- Positional notation is used for leading digits of at least this power of ten, if any bound. -/
  plainFrom : Option Int
  /-- Positional notation is used for leading digits below this power of ten, if any bound. -/
  plainBelow : Option Int
  /-- What is written between the last digit and a positive exponent. -/
  exponentMark : String
  /-- Which of two equally near candidates is written. -/
  tie : Tie

/-- Positional text of a decimal, with a point and at least one digit on each side of it. -/
def positional (d : Decimal) : String :=
  let text := toString d.digits
  if d.exponent ≥ 0 then text ++ String.ofList (List.replicate d.exponent.toNat '0') ++ ".0"
  else
    let places := (-d.exponent).toNat
    let padded := List.replicate (places + 1 - text.length) '0' ++ text.toList
    let whole := padded.take (padded.length - places)
    let fraction := padded.drop (padded.length - places)
    String.ofList whole ++ "." ++ String.ofList fraction

/-- Text with one digit before the point, if there is one, and an exponent. -/
def scientific (mark : String) (d : Decimal) : String :=
  let text := (toString d.digits).toList
  let exponent := d.exponent + ((text.length - 1 : Nat) : Int)
  let lead := match text with
    | [] => ""
    | [c] => String.singleton c
    | c :: rest => String.singleton c ++ "." ++ String.ofList rest
  if exponent < 0 then lead ++ "e-" ++ toString exponent.natAbs
  else lead ++ mark ++ toString exponent.natAbs

/-- Text of a positive decimal in a layout. -/
def render (layout : Layout) (d : Decimal) : String :=
  let leading := d.exponent + ((digitCount d.digits - 1 : Nat) : Int)
  let plain := (layout.plainFrom.all (· ≤ leading)) && (layout.plainBelow.all (leading < ·))
  if plain then positional d else scientific layout.exponentMark d

end Decimal

namespace Binary64

/-- Text of a finite value in a layout. -/
def renderFinite (layout : Decimal.Layout) (x : Binary64) : String :=
  let magnitude := if x.isZero then "0.0" else (Decimal.shortest layout.tie x).render layout
  if x.isNegative then "-" ++ magnitude else magnitude

/-- Numbers in messages about a value of the wrong type are written out in full. -/
def messageLayout : Decimal.Layout where
  plainFrom := none
  plainBelow := none
  exponentMark := "e"
  tie := .up

/-- Text of any value in a message. -/
def toMessage (x : Binary64) : String :=
  if x.isNaN then "NaN"
  else if x.isInfinite then (if x.isNegative then "-inf" else "inf")
  else x.renderFinite messageLayout

end Binary64

end Fanout

import Fanout.Number.Binary64

/-!
# Number literals

Whole numbers in a given base and decimal numbers with a point or an exponent, as configuration
formats write them.
-/

namespace Fanout.Literal

/-- The value of a digit in bases up to sixteen. -/
def digit? (base : Nat) (c : Char) : Option Nat := do
  let d ←
    if c.isDigit then some (c.toNat - 48)
    else if 'a' ≤ c ∧ c ≤ 'f' then some (c.toNat - 87)
    else if 'A' ≤ c ∧ c ≤ 'F' then some (c.toNat - 55)
    else none
  if d < base then some d else none

/-- The number written in some digits, of which there is at least one. -/
def natural? (base : Nat) (digits : List Char) : Option Nat :=
  if digits.isEmpty then none
  else digits.foldlM (fun n c => do return n * base + (← digit? base c)) 0

/-- An exponent: decimal digits with or without a sign. -/
def exponent? : List Char → Option Int
  | '+' :: digits => (natural? 10 digits).map Int.ofNat
  | '-' :: digits => (natural? 10 digits).map fun n => -(n : Int)
  | digits => (natural? 10 digits).map Int.ofNat

/-- A decimal number without sign: digits with or without a point, and possibly an exponent. -/
def unsigned? (negative : Bool) (chars : List Char) : Option Binary64 := do
  let whole := chars.takeWhile Char.isDigit
  let rest := chars.dropWhile Char.isDigit
  let (fraction, rest) := match rest with
    | '.' :: rest => (rest.takeWhile Char.isDigit, rest.dropWhile Char.isDigit)
    | _ => ([], rest)
  let digits ← natural? 10 (whole ++ fraction)
  let exponent ← match rest with
    | [] => some 0
    | 'e' :: rest | 'E' :: rest => exponent? rest
    | _ => none
  return .ofDecimal negative digits (exponent - fraction.length)

/-- A decimal number, possibly after a minus sign. -/
def decimal? : List Char → Option Binary64
  | '-' :: rest => unsigned? true rest
  | chars => unsigned? false chars

end Fanout.Literal

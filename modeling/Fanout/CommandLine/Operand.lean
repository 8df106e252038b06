import Fanout.Fault

/-!
# Numbers on the command line

A number is written in ASCII digits, possibly after a sign. Reading goes from left to right and
stops at the first thing wrong: a character that is no digit, or a digit that takes the number out
of its range.
-/

namespace Fanout.Operand

/-- Why an operand is not a number of the kind asked for. -/
inductive Problem where
  | empty
  /-- A character is no digit, or there are no digits. -/
  | badDigit
  | tooLarge
  | tooSmall
deriving DecidableEq, Repr

/-- The text of a problem. -/
def Problem.message : Problem → String
  | empty => "cannot parse integer from empty string"
  | badDigit => "invalid digit found in string"
  | tooLarge => "number too large to fit in target type"
  | tooSmall => "number too small to fit in target type"

/-- Append digits to a number that may not exceed `limit`; `beyond` is the problem when it does. -/
def appendDigits (limit : Nat) (beyond : Problem) (n : Nat) : List Char → Except Problem Nat
  | [] => .ok n
  | c :: cs =>
    if !c.isDigit then .error .badDigit
    else
      let next := n * 10 + (c.toNat - 48)
      if limit < next then .error beyond else appendDigits limit beyond next cs

/-- Read one or more digits. -/
def digits (limit : Nat) (beyond : Problem) (cs : List Char) : Except Problem Nat :=
  if cs.isEmpty then .error .badDigit else appendDigits limit beyond 0 cs

/-- Read an integer of 64 bits. -/
def integer (text : String) : Except Problem Int64 :=
  let positive (cs : List Char) : Except Problem Int64 :=
    (digits (Nat.pow 2 63 - 1) .tooLarge cs).map Int64.ofNat
  match text.toList with
  | [] => .error .empty
  | '+' :: cs => positive cs
  | '-' :: cs => (digits (Nat.pow 2 63) .tooSmall cs).map fun n => Int64.ofInt (-n)
  | cs => positive cs

/-- Read a count of one machine word. -/
def count (text : String) : Except Problem Nat :=
  match text.toList with
  | [] => .error .empty
  | '+' :: cs => digits (wordLimit - 1) .tooLarge cs
  | cs => digits (wordLimit - 1) .tooLarge cs

end Fanout.Operand

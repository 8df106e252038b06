/-!
# Faults

Counts and positions live in one machine word. A step whose exact result does not fit, or that
reaches outside a table, stops the whole operation with a `Fault`. The checked operations below are
the only places where a count grows, so "no step overflows" is a statement about them.
-/

namespace Fanout

/-- One more than the greatest count a word holds. -/
def wordLimit : Nat := Nat.pow 2 64

/-- Why an operation stopped for good, instead of answering or reporting an error. -/
inductive Fault where
  | addOverflow
  | mulOverflow
  /-- A table of `length` entries was asked for entry `index`. -/
  | indexOutOfBounds (length index : Nat)
  /-- Caller-supplied code gave up with a message. -/
  | raised (message : String)
deriving DecidableEq, Repr

namespace Fault

def message : Fault → String
  | addOverflow => "attempt to add with overflow"
  | mulOverflow => "attempt to multiply with overflow"
  | indexOutOfBounds length index =>
    s!"index out of bounds: the len is {length} but the index is {index}"
  | raised text => text

end Fault

/-- The sum of two counts, when it fits a word. -/
def checkedAdd (a b : Nat) : Except Fault Nat :=
  if a + b < wordLimit then .ok (a + b) else .error .addOverflow

/-- The product of two counts, when it fits a word. -/
def checkedMul (a b : Nat) : Except Fault Nat :=
  if a * b < wordLimit then .ok (a * b) else .error .mulOverflow

theorem checkedAdd_eq_ok {a b : Nat} (h : a + b < wordLimit) : checkedAdd a b = .ok (a + b) := by
  simp [checkedAdd, h]

theorem checkedMul_eq_ok {a b : Nat} (h : a * b < wordLimit) : checkedMul a b = .ok (a * b) := by
  simp [checkedMul, h]

end Fanout

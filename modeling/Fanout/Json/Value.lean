import Fanout.Mismatch
import Fanout.OrderedMap

/-!
# JSON values

A JSON document as a value. Members of an object keep the order they were written in, repeated names
included, because what is reported about an object depends on it.

The compact text of a value has no blanks and gives the members in the order of the value; in a text
only quotes, backslashes and control characters are escaped.
-/

namespace Fanout.Json

inductive Value where
  | null
  | bool (b : Bool)
  /-- A number without fraction or exponent, from `-2 ^ 63` up to `2 ^ 64`. -/
  | integer (n : Int)
  /-- Any other number. -/
  | float (x : Binary64)
  | string (s : String)
  | array (elements : List Value)
  /-- An object, its members in the order they were written in. -/
  | object (members : List (String × Value))
deriving Repr

/-- The object whose members stand in ascending order of their names, the last of equal ones. -/
def Value.sortedObject (members : List (String × Value)) : Value :=
  .object (OrderedMap.ofList members : OrderedMap KeyOrder.text Value).entries

/-- Floats are written in the fewest digits that read back, positionally from `1e-5` below
`1e16`. -/
def layout : Decimal.Layout where
  plainFrom := some (-5)
  plainBelow := some 16
  exponentMark := "e+"
  tie := .toEven

/-- Text of a float; what is not finite has none and is written as `null`. -/
def floatText (x : Binary64) : String := if x.isFinite then x.renderFinite layout else "null"

/-- How values met in a JSON document are worded. -/
def wording : Wording := ⟨floatText, "null"⟩

/-- What a value is, when it is not what was expected. -/
def Value.found : Value → Found
  | null => .unit
  | bool b => .boolean b
  | integer n => .integer n
  | float x => .float x
  | string s => .string s
  | array _ => .sequence
  | object _ => .map

/-! ## Writing -/

/-- One character inside a quoted text. -/
def escapeChar (c : Char) : List Char :=
  if c = '"' then ['\\', '"']
  else if c = '\\' then ['\\', '\\']
  else if c = '\n' then ['\\', 'n']
  else if c = '\r' then ['\\', 'r']
  else if c = '\t' then ['\\', 't']
  else if c.toNat = 8 then ['\\', 'b']
  else if c.toNat = 12 then ['\\', 'f']
  else if c.toNat < 32 then
    ['\\', 'u', '0', '0', Nat.digitChar (c.toNat / 16), Nat.digitChar (c.toNat % 16)]
  else [c]

/-- A text as a JSON string. -/
def quote (s : String) : String :=
  String.ofList ('"' :: s.toList.flatMap escapeChar ++ ['"'])

mutual

/-- The compact text of a value. -/
def Value.compact : Value → String
  | .null => "null"
  | .bool b => if b then "true" else "false"
  | .integer n => toString n
  | .float x => floatText x
  | .string s => quote s
  | .array elements => "[" ++ String.intercalate "," (compactElements elements) ++ "]"
  | .object members => "\x7b" ++ String.intercalate "," (compactMembers members) ++ "\x7d"

/-- The compact texts of the elements of an array. -/
def compactElements : List Value → List String
  | [] => []
  | value :: rest => value.compact :: compactElements rest

/-- The compact texts of the members of an object. -/
def compactMembers : List (String × Value) → List String
  | [] => []
  | (name, value) :: rest => (quote name ++ ":" ++ value.compact) :: compactMembers rest

end

end Fanout.Json

import Fanout.Number.Decimal
import Fanout.Text.Characters

/-!
# Values of the wrong shape

Reading a document into typed values fails in the same few ways whatever the format: a value of the
wrong type or out of range, a sequence of the wrong length, a field that is missing, repeated or not
known. `Mismatch` lists them and `Mismatch.message` words them.
-/

namespace Fanout

/-- What was found where something else was expected. -/
inductive Found where
  | integer (value : Int)
  | float (value : Binary64)
  | boolean (value : Bool)
  /-- The absent value. -/
  | unit
  | string (value : String)
  | bytes
  | sequence
  | map
  /-- A wrapped value with a type of its own. -/
  | wrapped
  /-- A value that selects a case by a tag. -/
  | tagged
  /-- One character where a text was expected. -/
  | character (value : Char)
deriving DecidableEq, Repr

/-- How a format words the kinds of value it can hold. -/
structure Wording where
  /-- The text of a number with a fraction. -/
  float : Binary64 → String
  /-- The word for the absent value. -/
  unit : String

/-- The wording most formats share. -/
def Wording.standard : Wording := ⟨Binary64.toMessage, "unit value"⟩

/-- What was found, in words. -/
def Found.describe (wording : Wording) : Found → String
  | integer value => s!"integer `{value}`"
  | float value => "floating point `" ++ wording.float value ++ "`"
  | boolean value => s!"boolean `{value}`"
  | unit => wording.unit
  | string value => "string " ++ Text.quoted value
  | bytes => "byte array"
  | sequence => "sequence"
  | map => "map"
  | wrapped => "newtype struct"
  | tagged => "enum"
  | character value => s!"character `{value}`"

/-- How a value failed to have the shape asked for. -/
inductive Mismatch where
  | invalidType (found : Found) (expected : String)
  /-- A value of the right type that does not fit. -/
  | invalidValue (found : Found) (expected : String)
  | invalidLength (length : Nat) (expected : String)
  | missingField (name : String)
  | duplicateField (name : String)
  | unknownField (name : String) (expected : List String)
  | unknownVariant (name : String) (expected : List String)
  /-- Anything else, in its own words. -/
  | other (message : String)
deriving DecidableEq, Repr

namespace Mismatch

/-- A choice of names, each between backticks. -/
def choice : List String → String
  | [] => "there are no variants"
  | [a] => s!"`{a}`"
  | [a, b] => s!"`{a}` or `{b}`"
  | names => "one of " ++ String.intercalate ", " (names.map fun name => s!"`{name}`")

def message (wording : Wording) : Mismatch → String
  | invalidType found expected =>
    "invalid type: " ++ found.describe wording ++ ", expected " ++ expected
  | invalidValue found expected =>
    "invalid value: " ++ found.describe wording ++ ", expected " ++ expected
  | invalidLength length expected => s!"invalid length {length}, expected {expected}"
  | missingField name => s!"missing field `{name}`"
  | duplicateField name => s!"duplicate field `{name}`"
  | unknownField name expected => s!"unknown field `{name}`, expected " ++ choice expected
  | unknownVariant name expected => s!"unknown variant `{name}`, expected " ++ choice expected
  | other message => message

end Mismatch

end Fanout

import Fanout.Json.Value
import Fanout.Toml.Moment

/-!
# TOML values

A document is a table of tables. How a table came to be decides what may still be added to it, so
every table remembers it.
-/

namespace Fanout.Toml

/-- How a table came to be. -/
inductive Origin where
  /-- The document, or a table with a header of its own. -/
  | header
  /-- Named on the way to a table with a header. -/
  | implied
  /-- Named on the way to a value, in a dotted key. -/
  | dotted
  /-- Written in braces. -/
  | braces
deriving DecidableEq, Repr

/-- A value. -/
inductive Value where
  | string (s : String)
  | integer (n : Int64)
  | float (x : Binary64)
  | boolean (b : Bool)
  | moment (moment : Moment)
  /-- An array written in brackets. -/
  | array (elements : List Value)
  /-- A table, its entries in the order of their first mention. -/
  | table (origin : Origin) (entries : List (String × Value))
  /-- Tables with one common header. -/
  | tables (elements : List Value)
deriving Repr

namespace Value

/-- The name of a value's type. -/
def typeName : Value → String
  | string _ => "string"
  | integer _ => "integer"
  | float _ => "float"
  | boolean _ => "boolean"
  | moment _ => "datetime"
  | array _ => "array"
  | table .braces _ => "inline table"
  | table .. => "table"
  | tables _ => "array of tables"

/-- What a value is, when it is not what was expected. -/
def found : Value → Found
  | string s => .string s
  | integer n => .integer n.toInt
  | float x => .float x
  | boolean b => .boolean b
  | moment _ | table .. => .map
  | array _ | tables _ => .sequence

end Value

/-! ## Changing a document -/

/-- Put `value` in the place of what stands under `key`. -/
def replaceEntry (key : String) (value : Value) (entries : List (String × Value)) :
    List (String × Value) :=
  entries.map fun entry => if entry.1 = key then (key, value) else entry

/-- Change the table that `path` leads to from a table; of tables with one header it is the last
one. Tables on the way are made where there are none. A table in braces is closed, and a dotted key
does not lead into a table with a header. -/
def Value.alter (dotted : Bool) (change : Value → Option Value) :
    List String → Value → Option Value
  | [], target => change target
  | key :: path, table origin entries =>
    match entries.lookup key with
    | none => do
      let child ← alter dotted change path (table (if dotted then .dotted else .implied) [])
      return table origin (entries ++ [(key, child)])
    | some (table childOrigin children) =>
      if childOrigin = .braces ∨ (dotted ∧ childOrigin = .header) then none
      else do
        let child ← alter dotted change path (table childOrigin children)
        return table origin (replaceEntry key child entries)
    -- what comes under a common header belongs to the table opened last
    | some (tables elements) => do
      let last ← alter dotted change path (← elements.getLast?)
      return table origin (replaceEntry key (tables (elements.dropLast ++ [last])) entries)
    | some _ => none
  | _ :: _, _ => none

/-- Add an entry to a table. A key without dots does not add to a table made by a dotted key, nor a
dotted key to any other. -/
def Value.insert (dotted : Bool) (key : String) (value : Value) : Value → Option Value
  | table origin entries =>
    if (origin == .dotted) != dotted ∨ (entries.lookup key).isSome then none
    else some (table origin (entries ++ [(key, value)]))
  | _ => none

/-- Add an entry under a key of one or more parts. -/
def Value.insertAt (target : Value) (path : List String) (value : Value) : Option Value := do
  let parents := path.dropLast
  let dotted := !parents.isEmpty
  target.alter true (insert dotted (← path.getLast?) value) parents

/-- Open a table under a header. One that was only implied so far keeps its entries, and is counted
as mentioned now. -/
def Value.openTable (key : String) : Value → Option Value
  | table origin entries =>
    match entries.lookup key with
    | none => some (table origin (entries ++ [(key, table .header [])]))
    -- an entry mentioned again moves behind all others
    | some (table .implied children) =>
      let others := entries.filter fun entry => entry.1 != key
      some (table origin (others ++ [(key, table .header children)]))
    | some _ => none
  | _ => none

/-- Open one more table under a header that several tables have in common. -/
def Value.openElement (key : String) : Value → Option Value
  | table origin entries =>
    match entries.lookup key with
    | none => some (table origin (entries ++ [(key, tables [table .header []])]))
    | some (tables elements) =>
      some (table origin (replaceEntry key (tables (elements ++ [table .header []])) entries))
    | some _ => none
  | _ => none

/-! ## JSON -/

/-- The name under which a date or time is given to a reader that knows no such values. -/
def momentName : String := "$__toml_private_datetime"

mutual

/-- The JSON value that stands for a value. -/
def Value.toJson : Value → Json.Value
  | .string s => .string s
  | .integer n => .integer n.toInt
  | .float x => if x.isFinite then .float x else .null
  | .boolean b => .bool b
  | .moment m => .object [(momentName, .string m.text)]
  | .array elements => .array (elementsToJson elements)
  | .table _ entries => .sortedObject (entriesToJson entries)
  | .tables elements => .array (elementsToJson elements)

/-- The JSON values that stand for some values. -/
def elementsToJson : List Value → List Json.Value
  | [] => []
  | value :: rest => value.toJson :: elementsToJson rest

/-- The JSON members that stand for the entries of a table. -/
def entriesToJson : List (String × Value) → List (String × Json.Value)
  | [] => []
  | (key, value) :: rest => (key, value.toJson) :: entriesToJson rest

end

end Fanout.Toml

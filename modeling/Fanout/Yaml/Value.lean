import Fanout.Json.Value
import Fanout.Number.Literal
import Fanout.Yaml.Node

/-!
# YAML values

What a node stands for. A plain scalar may be a null, a truth value or a number; any other scalar is
a text, unless a tag of the core schema says otherwise. A tag of a document's own wraps a value.
References are replaced by the nodes they refer to, up to a limit, and nesting is limited, too.
-/

namespace Fanout.Yaml

inductive Value where
  | null
  | bool (b : Bool)
  /-- A whole number, from `-2 ^ 63` up to `2 ^ 64`. -/
  | integer (n : Int)
  /-- Any other number. -/
  | float (x : Binary64)
  | string (s : String)
  | sequence (elements : List Value)
  /-- A mapping: the text of each key, if it is a scalar, with the key and the value. -/
  | mapping (entries : List (Option String × Value × Value))
  | tagged (tag : String) (value : Value)
deriving Repr, Inhabited

mutual

/-- Whether two values are the same. -/
def Value.same : Value → Value → Bool
  | .null, .null => true
  | .bool a, .bool b => a == b
  | .integer a, .integer b => a == b
  | .float a, .float b => a == b
  | .string a, .string b => a == b
  | .sequence as, .sequence bs => sameElements as bs
  | .mapping as, .mapping bs => sameEntries as bs
  | .tagged s a, .tagged t b => s == t && a.same b
  | _, _ => false

/-- Whether two sequences have the same elements. -/
def sameElements : List Value → List Value → Bool
  | [], [] => true
  | a :: as, b :: bs => a.same b && sameElements as bs
  | _, _ => false

/-- Whether two mappings have the same entries in the same order. -/
def sameEntries :
    List (Option String × Value × Value) → List (Option String × Value × Value) → Bool
  | [], [] => true
  | (label, key, value) :: as, (label', key', value') :: bs =>
    label == label' && key.same key' && value.same value' && sameEntries as bs
  | _, _ => false

end

/-! ## Scalars -/

/-- Whether a text is a word for null. -/
def isNull (text : String) : Bool := ["null", "Null", "NULL", "~"].contains text

/-- The truth value a word stands for. -/
def bool? (text : String) : Option Bool :=
  if ["true", "True", "TRUE"].contains text then some true
  else if ["false", "False", "FALSE"].contains text then some false
  else none

/-- The mark in front of a number in another base than ten, and the base. -/
def basedDigits : List Char → Option (Nat × List Char)
  | '0' :: 'x' :: rest => some (16, rest)
  | '0' :: 'o' :: rest => some (8, rest)
  | '0' :: 'b' :: rest => some (2, rest)
  | _ => none

/-- Digits that are no number, because the first of several is a zero. -/
def hasLeadingZero : List Char → Bool
  | '0' :: rest => !rest.isEmpty && rest.all Char.isDigit
  | _ => false

/-- A whole number without sign, of at most 128 bits if it is not decimal. -/
def natural? (chars : List Char) : Option Nat :=
  match basedDigits chars with
  | some (base, digits) => (Literal.natural? base digits).filter (· < Nat.pow 2 128)
  | none => if hasLeadingZero chars then none else Literal.natural? 10 chars

/-- A whole number, possibly after a sign. -/
def integer? (text : String) : Option Int :=
  match text.toList with
  | '-' :: rest => (natural? rest).map fun n => -(n : Int)
  | '+' :: rest => (natural? rest).map Int.ofNat
  | chars => (natural? chars).map Int.ofNat

/-- A finite or infinite number with a point or an exponent, or one that does not fit 128 bits. -/
def float? (text : String) : Option Binary64 :=
  if [".inf", ".Inf", ".INF", "+.inf", "+.Inf", "+.INF"].contains text then some (.infinity false)
  else if ["-.inf", "-.Inf", "-.INF"].contains text then some (.infinity true)
  else if [".nan", ".NaN", ".NAN"].contains text then some ⟨0x7FF8000000000000⟩
  else
    let chars := match text.toList with
      | '+' :: '-' :: _ => none
      | '+' :: rest => some rest
      | chars => some chars
    (chars.bind Literal.decimal?).filter Binary64.isFinite

/-- The value of a whole number; one between 64 and 128 bits cannot be held. -/
def ofInteger? (n : Int) : Option (Option Value) :=
  if Int64.minValue.toInt ≤ n ∧ n < Nat.pow 2 64 then some (some (.integer n))
  else if -Nat.pow 2 127 ≤ n ∧ n < Nat.pow 2 128 then some none
  else none

/-- What a plain scalar without tag stands for; `none` if it cannot be held. -/
def Value.ofPlain? (text : String) : Option Value :=
  if text.isEmpty || isNull text then some .null
  else
    match bool? text with
    | some b => some (.bool b)
    | none =>
      match (integer? text).bind ofInteger? with
      | some value => value
      -- no whole number, or one so great that it counts as a float
      | none =>
        let digits := match text.toList with
          | '-' :: rest | '+' :: rest => rest
          | chars => chars
        match if hasLeadingZero digits then none else float? text with
        | some x => some (.float x)
        | none => some (.string text)

/-- The name that a tag of a document's own has. -/
def ownTag? (tag : Option String) : Option String :=
  match tag.map String.toList with
  | some ['!'] => some "!"
  | some ('!' :: rest) => some (String.ofList rest)
  | _ => none

/-- What a scalar stands for when a tag of a document's own does not matter; `none` if its text does
not suit its tag, or cannot be held. -/
def Value.ofScalar? (text : String) (style : Style) (tag : Option String) : Option Value :=
  let untagged := if style = .plain then Value.ofPlain? text else some (.string text)
  match tag with
  | none => untagged
  | some "tag:yaml.org,2002:bool" => (bool? text).map .bool
  | some "tag:yaml.org,2002:int" => ((integer? text).bind ofInteger?).join
  | some "tag:yaml.org,2002:float" => (float? text).map .float
  | some "tag:yaml.org,2002:null" => if isNull text then some .null else none
  -- any other tag of the core schema, and an unknown one, leaves a text
  | some _ => if (ownTag? tag).isSome then untagged else some (.string text)

/-- A value with the tag of a document's own, if there is one. -/
def Value.underTag (tag : Option String) (value : Value) : Value :=
  match ownTag? tag with
  | some name => .tagged name value
  | none => value

/-! ## Documents -/

mutual

/-- How many events a node is: one for a scalar or a reference, two more than its parts for a
collection. -/
def Node.size : Node → Nat
  | .scalar .. | .alias _ => 1
  | .sequence elements _ => sizeOfNodes elements + 2
  | .mapping entries _ => sizeOfEntries entries + 2

/-- How many events some nodes are. -/
def sizeOfNodes : List Node → Nat
  | [] => 0
  | node :: rest => node.size + sizeOfNodes rest

/-- How many events the entries of a mapping are. -/
def sizeOfEntries : List (Node × Node) → Nat
  | [] => 0
  | (key, value) :: rest => key.size + value.size + sizeOfEntries rest

end

/-- The text of a key that is a scalar. -/
def Node.label : Node → Option String
  | .scalar text _ _ => some text
  | _ => none

namespace Document

/-- The node a reference refers to; any other node is itself. -/
def deref (document : Document) : Node → Node
  | .alias anchor => (document.anchors.lookup anchor).getD (.omitted none)
  | node => node

/-- How many collections may be nested. -/
def maxDepth : Nat := 128

/-- How many references may be followed. -/
def maxReferences (document : Document) : Nat := (document.root.map Node.size).getD 1 * 100

/-- The value of a node under at most `depth` further levels, when `used` references have been
followed; and the number of references followed by then. -/
def expand (document : Document) (depth used : Nat) (node : Node) : Option (Value × Nat) :=
  let used := match node with
    | .alias _ => used + 1
    | _ => used
  if document.maxReferences < used then none
  else
    match document.deref node, depth with
    | .scalar text style tag, _ => do
      return ((← Value.ofScalar? text style tag).underTag tag, used)
    | .sequence elements tag, depth + 1 => do
      let (values, used) ← elements.foldlM (fun (values, used) element => do
        let (value, used) ← document.expand depth used element
        return (value :: values, used)) (([] : List Value), used)
      return ((Value.sequence values.reverse).underTag tag, used)
    | .mapping entries tag, depth + 1 => do
      let (members, used) ← entries.foldlM (fun (members, used) entry => do
        let (key, used) ← document.expand depth used entry.1
        let (value, used) ← document.expand depth used entry.2
        return ((entry.1.label, key, value) :: members, used))
        (([] : List (Option String × Value × Value)), used)
      return ((Value.mapping members.reverse).underTag tag, used)
    | _, _ => none

end Document

mutual

/-- Whether no mapping in a value has a key twice. -/
def Value.hasDistinctKeys : Value → Bool
  | .sequence elements => haveDistinctKeys elements
  | .mapping entries => entriesHaveDistinctKeys [] entries
  | .tagged _ value => value.hasDistinctKeys
  | _ => true

/-- Whether no mapping in some values has a key twice. -/
def haveDistinctKeys : List Value → Bool
  | [] => true
  | value :: rest => value.hasDistinctKeys && haveDistinctKeys rest

/-- Whether no key of some entries is among the `earlier` ones, and none stands twice in them. -/
def entriesHaveDistinctKeys (earlier : List Value) : List (Option String × Value × Value) → Bool
  | [] => true
  | (_, key, value) :: rest =>
    key.hasDistinctKeys && value.hasDistinctKeys && !earlier.any key.same &&
      entriesHaveDistinctKeys (key :: earlier) rest

end

/-- Whether a document can be read as a value. -/
def Document.isReadable (document : Document) : Bool :=
  match document.root with
  | none => true
  | some node =>
    match document.expand Document.maxDepth 0 node with
    | some (value, _) => value.hasDistinctKeys
    | none => false

/-! ## Paths and JSON -/

/-- Where something stands in a document: keys after points and positions in brackets. -/
structure Path where
  /-- The text; it is empty for the whole document. -/
  text : String
deriving DecidableEq, Repr

namespace Path

/-- The whole document. -/
def root : Path := ⟨""⟩

/-- An entry of a mapping; a key that is no scalar is a question mark. -/
def key (path : Path) (label : Option String) : Path :=
  let name := label.getD "?"
  ⟨if path.text.isEmpty then name else path.text ++ "." ++ name⟩

/-- An element of a sequence. -/
def element (path : Path) (index : Nat) : Path := ⟨path.text ++ s!"[{index}]"⟩

end Path

mutual

/-- Where the first tag of a document's own is met in a value. -/
def Value.firstTag (path : Path) : Value → Option Path
  | .sequence elements => firstTagOfElements path 0 elements
  | .mapping entries => firstTagOfEntries path entries
  | .tagged .. => some path
  | _ => none

/-- Where the first tag is met in the elements of a sequence from a position on. -/
def firstTagOfElements (path : Path) (index : Nat) : List Value → Option Path
  | [] => none
  | value :: rest =>
    (value.firstTag (path.element index)).or (firstTagOfElements path (index + 1) rest)

/-- Where the first tag is met in the entries of a mapping. -/
def firstTagOfEntries (path : Path) : List (Option String × Value × Value) → Option Path
  | [] => none
  | (label, key, value) :: rest =>
    ((key.firstTag path).or (value.firstTag (path.key label))).or (firstTagOfEntries path rest)

end

mutual

/-- The JSON value that stands for a value; there is none if a key is not a text. -/
def Value.toJson? : Value → Option Json.Value
  | .null => some .null
  | .bool b => some (.bool b)
  | .integer n => some (.integer n)
  | .float x => some (if x.isFinite then .float x else .null)
  | .string s => some (.string s)
  | .sequence elements => (elementsToJson? elements).map .array
  | .mapping entries => (entriesToJson? entries).map .sortedObject
  | .tagged .. => none

/-- The JSON values that stand for some values. -/
def elementsToJson? : List Value → Option (List Json.Value)
  | [] => some []
  | value :: rest => do return (← value.toJson?) :: (← elementsToJson? rest)

/-- The JSON members that stand for the entries of a mapping. -/
def entriesToJson? : List (Option String × Value × Value) → Option (List (String × Json.Value))
  | [] => some []
  | (_, .string name, value) :: rest => do
    return (name, ← value.toJson?) :: (← entriesToJson? rest)
  | _ => none

end

end Fanout.Yaml

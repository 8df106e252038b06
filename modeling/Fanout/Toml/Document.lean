import Fanout.Toml.Scalar

/-!
# TOML documents

A document is read line by line: a line is empty, opens a table under a header, or adds a value to
the table opened last. Arrays may go over several lines; tables in braces may not.
-/

namespace Fanout.Toml

/-! ## Keys -/

/-- Whether a character may stand in a key without quotes. -/
def isBare (c : Char) : Bool := c.isAlphanum || c == '_' || c == '-'

/-- Read one part of a key. -/
def readPart (cs : List Char) : Option (String × List Char) :=
  match cs with
  | '"' :: rest => readQuoted '"' rest
  | '\'' :: rest => readQuoted '\'' rest
  | _ =>
    let name := cs.takeWhile isBare
    if name.isEmpty then none else some (String.ofList name, cs.dropWhile isBare)

/-- Read the parts of a key, and the blanks around them. No key has more than `fuel` parts. -/
def readParts : (fuel : Nat) → List Char → Option (List String × List Char)
  | 0, _ => none
  | fuel + 1, cs => do
    let (name, rest) ← readPart (skipBlanks cs)
    match skipBlanks rest with
    | '.' :: rest =>
      let (names, rest) ← readParts fuel rest
      return (name :: names, rest)
    | rest => return ([name], rest)

/-- The greatest number of parts of a key, and of arrays and tables in braces that may be open at
once. -/
def depthLimit : Nat := 79

/-- Read a key. -/
def readKey (cs : List Char) : Option (List String × List Char) := readParts depthLimit cs

/-! ## Values -/

/-- Drop blanks, ends of lines and comments; `inComment` says whether the text begins in a comment.
A character that no comment may hold is left over. -/
def skipBreaks (inComment : Bool) : List Char → List Char
  | [] => []
  | '\n' :: rest => skipBreaks false rest
  | '\r' :: '\n' :: rest => skipBreaks false rest
  | c :: rest =>
    if inComment then (if isPlain c then skipBreaks true rest else c :: rest)
    else if isBlank c then skipBreaks false rest
    else if c = '#' then skipBreaks true rest
    else c :: rest

/-- A reader of values. -/
abbrev ValueReader := List Char → Option (Value × List Char)

/-- Read the elements of an array up to its end. A comma may follow the last one. -/
def readElements (read : ValueReader) : (fuel : Nat) → List Char → Option (List Value × List Char)
  | 0, _ => none
  | fuel + 1, cs =>
    match skipBreaks false cs with
    | ']' :: rest => some ([], rest)
    | cs => do
      let (value, rest) ← read cs
      match skipBreaks false rest with
      | ',' :: rest =>
        let (values, rest) ← readElements read fuel rest
        return (value :: values, rest)
      | ']' :: rest => return ([value], rest)
      | _ => none

/-- Read a key, an equals sign and a value. -/
def readPair (read : ValueReader) (cs : List Char) :
    Option ((List String × Value) × List Char) := do
  let (path, rest) ← readKey cs
  match rest with
  | '=' :: rest =>
    let (value, rest) ← read (skipBlanks rest)
    return ((path, value), rest)
  | _ => none

/-- Read the entries of a table in braces up to its end, and add them to `table`. -/
def readEntries (read : ValueReader) (table : Value) :
    (fuel : Nat) → List Char → Option (Value × List Char)
  | 0, _ => none
  | fuel + 1, cs => do
    let ((path, value), rest) ← readPair read cs
    let table ← table.insertAt path value
    match skipBlanks rest with
    | ',' :: rest => readEntries read table fuel rest
    | '\x7d' :: rest => return (table, rest)
    | _ => none

/-- Read a table in braces, from behind the opening one. -/
def readBraces (read : ValueReader) (cs : List Char) : Option (Value × List Char) :=
  let empty : Value := .table .braces []
  match skipBlanks cs with
  | '\x7d' :: rest => some (empty, rest)
  | cs => readEntries read empty (cs.length + 1) cs

/-- Read a value, in which `depth` arrays and tables in braces may be open at once. -/
def readValue : (depth : Nat) → ValueReader
  | 0 => readScalar
  | depth + 1 => fun cs =>
    match cs with
    | '[' :: rest =>
      (readElements (readValue depth) (rest.length + 1) rest).map fun (elements, rest) =>
        (.array elements, rest)
    | '\x7b' :: rest => readBraces (readValue depth) rest
    | _ => readScalar cs

/-! ## Lines -/

/-- Read the end of a line with an optional comment before it. The document may end here, too. -/
def readLineEnd (cs : List Char) : Option (List Char) :=
  let rest := match skipBlanks cs with
    | '#' :: rest => rest.dropWhile isPlain
    | rest => rest
  if rest.isEmpty then some [] else readNewline rest

/-- What a line with something on it says. -/
inductive Line where
  /-- A table with a header of its own. -/
  | header (path : List String)
  /-- One more of several tables with one header. -/
  | element (path : List String)
  /-- A value. -/
  | pair (path : List String) (value : Value)
deriving Repr

/-- Read a line with something on it. -/
def readLine (cs : List Char) : Option (Line × List Char) := do
  match cs with
  | '[' :: '[' :: rest =>
    match ← readKey rest with
    | (path, ']' :: ']' :: rest) => return (.element path, ← readLineEnd rest)
    | _ => none
  | '[' :: rest =>
    match ← readKey rest with
    | (path, ']' :: rest) => return (.header path, ← readLineEnd rest)
    | _ => none
  | _ =>
    let ((path, value), rest) ← readPair (readValue depthLimit) cs
    return (.pair path value, ← readLineEnd rest)

/-- Read all lines with something on them. There are no more lines than `fuel`. -/
def readLines : (fuel : Nat) → List Char → Option (List Line)
  | 0, _ => none
  | fuel + 1, cs =>
    match skipBreaks false cs with
    | [] => some []
    | cs => do
      let (line, rest) ← readLine cs
      return line :: (← readLines fuel rest)

/-! ## Documents -/

/-- A document as far as it is read, and the header it is under. -/
structure Draft where
  root : Value
  /-- The path of the table opened last. -/
  opened : List String

/-- The document before its first line. -/
def Draft.empty : Draft := ⟨.table .header [], []⟩

/-- Add a line to a document. -/
def Draft.add (draft : Draft) (line : Line) : Option Draft := do
  let under (path : List String) (change : String → Value → Option Value) : Option Draft := do
    let root ← draft.root.alter false (change (← path.getLast?)) path.dropLast
    return ⟨root, path⟩
  match line with
  | .header path => under path Value.openTable
  | .element path => under path Value.openElement
  -- a value goes into the table opened last
  | .pair path value =>
    let root ← draft.root.alter false (·.insertAt path value) draft.opened
    return { draft with root }

/-- The table a text states. A byte order mark may stand in front of it. -/
def ofText? (text : String) : Option Value := do
  let cs := match text.toList with
    | '\ufeff' :: rest => rest
    | cs => cs
  let draft ← (← readLines (cs.length + 1) cs).foldlM Draft.add .empty
  return draft.root

end Fanout.Toml

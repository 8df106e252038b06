import Fanout.Yaml.Cursor

/-!
# Scalars in a YAML text

The four ways to write a scalar: plain, between single or double quotes, and as a block of lines.
Each reader starts at the scalar and yields its text and the position after it; `none` means that
the text is malformed.
-/

namespace Fanout.Yaml

/-- How a scalar is written. -/
inductive Style where
  /-- Without marks. -/
  | plain
  /-- Between quotes. -/
  | quoted
  /-- As a block whose line breaks are kept. -/
  | literal
  /-- As a block whose lines are joined. -/
  | folded
deriving DecidableEq, Repr

/-- Blanks and line breaks between the words of a scalar. -/
structure Gap where
  /-- Blanks before any line break. -/
  blanks : List Char
  /-- Whether there is a line break. -/
  broken : Bool
  /-- What the first line break stands for; nothing if it is escaped. -/
  first : List Char
  /-- What the other line breaks stand for. -/
  others : List Char

namespace Gap

def empty : Gap := ⟨[], false, [], []⟩

/-- What a gap stands for: one line break is a space, several are all but the first. -/
def text (gap : Gap) : List Char :=
  if gap.broken then
    if gap.first = ['\n'] then
      if gap.others.isEmpty then [' '] else gap.others
    else gap.first ++ gap.others
  else gap.blanks

/-- Take blanks and line breaks up to the next word. Tabs may not indent a line further than
`indent` columns, if that is given. -/
def take (indent : Option Nat) (gap : Gap) (cursor : Cursor) : (fuel : Nat) → Option (Gap × Cursor)
  | 0 => some (gap, cursor)
  | fuel + 1 =>
    match cursor.head? with
    | none => some (gap, cursor)
    | some c =>
      if isBlank c then
        if gap.broken && c == '\t' && indent.any (cursor.column < ·) then none
        else
          let gap := if gap.broken then gap else { gap with blanks := gap.blanks ++ [c] }
          gap.take indent (cursor.advance 1) fuel
      else if isBreak c then
        let (kept, cursor) := cursor.takeBreak
        let gap := if gap.broken then { gap with others := gap.others ++ kept }
          else ⟨[], true, kept, []⟩
        gap.take indent cursor fuel
      else some (gap, cursor)

end Gap

/-! ## Plain scalars -/

/-- Whether a plain scalar ends here, in front of a character that is no blank. -/
def endsPlain (inFlow : Bool) (cursor : Cursor) : Bool :=
  (cursor.head? == some ':' && cursor.spaceAt 1) || (inFlow && cursor.next isFlowIndicator)

/-- Whether there is a colon here that may not stand in a flow collection. -/
def strayColon (inFlow : Bool) (cursor : Cursor) : Bool :=
  inFlow && cursor.head? == some ':' &&
    (cursor.at? 1).any fun c => isFlowIndicator c || c == '?'

/-- The next word of a plain scalar. -/
def takeWord (inFlow : Bool) (cursor : Cursor) (word : List Char) :
    (fuel : Nat) → Option (List Char × Cursor)
  | 0 => some (word.reverse, cursor)
  | fuel + 1 =>
    match cursor.head? with
    | none => some (word.reverse, cursor)
    | some c =>
      if isBlank c || isBreak c then some (word.reverse, cursor)
      else if strayColon inFlow cursor then none
      else if endsPlain inFlow cursor then some (word.reverse, cursor)
      else takeWord inFlow (cursor.advance 1) (c :: word) fuel

/-- What reading a plain scalar yields. -/
structure PlainScalar where
  text : List Char
  /-- Whether a line break follows it. -/
  broken : Bool
  /-- The position after it and what is blank behind it. -/
  cursor : Cursor

/-- The words of a plain scalar from `gap` on, after `text`. In block context a line indented less
than `indent` columns ends the scalar. -/
def plainFrom (inFlow : Bool) (indent : Nat) (text : List Char) (gap : Gap) (cursor : Cursor) :
    (fuel : Nat) → Option PlainScalar
  | 0 => some ⟨text, gap.broken, cursor⟩
  | fuel + 1 => do
    -- after a gap, a number sign begins a comment
    if cursor.atDocumentMarker || cursor.head? == some '#' then
      return ⟨text, gap.broken, cursor⟩
    let (word, cursor) ← takeWord inFlow cursor [] cursor.rest.length
    let (text, gap) := if word.isEmpty then (text, gap) else (text ++ gap.text ++ word, .empty)
    if !cursor.next fun c => isBlank c || isBreak c then
      return ⟨text, gap.broken, cursor⟩
    let (gap, cursor) ← gap.take (some indent) cursor cursor.rest.length
    if !inFlow && cursor.column < indent then
      return ⟨text, gap.broken, cursor⟩
    plainFrom inFlow indent text gap cursor fuel

def plainScalar (inFlow : Bool) (indent : Nat) (cursor : Cursor) : Option PlainScalar :=
  plainFrom inFlow indent [] .empty cursor (cursor.rest.length + 1)

/-! ## Quoted scalars -/

/-- What the character after a backslash stands for, if it stands for one character. -/
def simpleEscape : Char → Option Char
  | '0' => some (Char.ofNat 0)
  | 'a' => some (Char.ofNat 7)
  | 'b' => some (Char.ofNat 8)
  | 't' | '\t' => some '\t'
  | 'n' => some '\n'
  | 'v' => some (Char.ofNat 11)
  | 'f' => some (Char.ofNat 12)
  | 'r' => some '\r'
  | 'e' => some (Char.ofNat 27)
  | ' ' => some ' '
  | '"' => some '"'
  | '/' => some '/'
  | '\\' => some '\\'
  | 'N' => some (Char.ofNat 0x85)
  | '_' => some (Char.ofNat 0xA0)
  | 'L' => some (Char.ofNat 0x2028)
  | 'P' => some (Char.ofNat 0x2029)
  | _ => none

/-- How many hexadecimal digits follow a backslash and this character. -/
def escapeDigits : Char → Option Nat
  | 'x' => some 2
  | 'u' => some 4
  | 'U' => some 8
  | _ => none

/-- The value of a hexadecimal digit. -/
def hexDigit? (c : Char) : Option Nat :=
  if c.isDigit then some (c.toNat - 48)
  else if 'a' ≤ c ∧ c ≤ 'f' then some (c.toNat - 87)
  else if 'A' ≤ c ∧ c ≤ 'F' then some (c.toNat - 55)
  else none

/-- The number written in hexadecimal digits. -/
def hexValue? (digits : List Char) : Option Nat :=
  digits.foldlM (fun n c => do return n * 16 + (← hexDigit? c)) 0

/-- The character an escape sequence stands for, and the position after it. -/
def takeEscape (cursor : Cursor) : Option (Char × Cursor) := do
  let c ← cursor.at? 1
  match simpleEscape c with
  | some e => return (e, cursor.advance 2)
  | none =>
    let count ← escapeDigits c
    let digits := (cursor.rest.drop 2).take count
    if digits.length < count then
      none
    let n ← hexValue? digits
    if h : n.isValidChar then
      return (Char.ofNatAux n h, cursor.advance (2 + count))
    none

/-- The next word of a quoted scalar, and whether an escaped line break ends it. -/
def takeQuotedWord (single : Bool) (cursor : Cursor) (word : List Char) :
    (fuel : Nat) → Option (List Char × Bool × Cursor)
  | 0 => some (word.reverse, false, cursor)
  | fuel + 1 =>
    match cursor.head? with
    | none => some (word.reverse, false, cursor)
    | some c =>
      if isBlank c || isBreak c then some (word.reverse, false, cursor)
      else if single then
        if c == '\'' then
          if cursor.at? 1 == some '\'' then
            takeQuotedWord single (cursor.advance 2) ('\'' :: word) fuel
          else some (word.reverse, false, cursor)
        else takeQuotedWord single (cursor.advance 1) (c :: word) fuel
      else if c == '"' then some (word.reverse, false, cursor)
      else if c == '\\' then
        if (cursor.at? 1).any isBreak then
          some (word.reverse, true, (cursor.advance 1).takeBreak.2)
        else
          match takeEscape cursor with
          | some (e, cursor) => takeQuotedWord single cursor (e :: word) fuel
          | none => none
      else takeQuotedWord single (cursor.advance 1) (c :: word) fuel

/-- The words of a quoted scalar after `text`, up to the closing quote. -/
def quotedFrom (single : Bool) (text : List Char) (cursor : Cursor) :
    (fuel : Nat) → Option (List Char × Cursor)
  | 0 => none
  | fuel + 1 => do
    if cursor.atDocumentMarker || cursor.atEnd then
      none
    let (word, escaped, cursor) ← takeQuotedWord single cursor [] cursor.rest.length
    let text := text ++ word
    if cursor.head? == some (if single then '\'' else '"') then
      return (text, cursor.advance 1)
    let gap : Gap := if escaped then ⟨[], true, [], []⟩ else .empty
    let (gap, cursor) ← gap.take none cursor cursor.rest.length
    quotedFrom single (text ++ gap.text) cursor fuel

def quotedScalar (single : Bool) (cursor : Cursor) : Option (List Char × Cursor) :=
  quotedFrom single [] (cursor.advance 1) (cursor.rest.length + 1)

/-! ## Block scalars -/

/-- What becomes of the line breaks at the end of a block. -/
inductive Chomping where
  /-- All are dropped. -/
  | strip
  /-- One is kept. -/
  | clip
  /-- All are kept. -/
  | keep
deriving DecidableEq, Repr

/-- The chomping an indicator stands for. -/
def Chomping.ofChar? : Char → Option Chomping
  | '-' => some strip
  | '+' => some keep
  | _ => none

/-- The indentation an indicator stands for; it may not be zero. -/
def takeIndentation (cursor : Cursor) : Option (Option Nat × Cursor) :=
  match cursor.head? with
  | some c =>
    if c == '0' then none
    else if c.isDigit then some (some (c.toNat - 48), cursor.advance 1)
    else some (none, cursor)
  | none => some (none, cursor)

/-- The chomping an indicator stands for, if there is one here. -/
def takeChomping (cursor : Cursor) : Option Chomping × Cursor :=
  match cursor.head?.bind Chomping.ofChar? with
  | some chomping => (some chomping, cursor.advance 1)
  | none => (none, cursor)

/-- The indicators at the head of a block, in either order. -/
def takeHeader (cursor : Cursor) : Option (Chomping × Option Nat × Cursor) := do
  match takeChomping cursor with
  | (some chomping, cursor) =>
    let (indentation, cursor) ← takeIndentation cursor
    return (chomping, indentation, cursor)
  | (none, cursor) =>
    let (indentation, cursor) ← takeIndentation cursor
    if indentation.isNone then
      return (.clip, none, cursor)
    let (chomping, cursor) := takeChomping cursor
    return (chomping.getD .clip, indentation, cursor)

/-- Take indentation and empty lines; `widest` is the greatest indentation met. Without a given
`indent` any number of spaces is indentation. -/
def takeEmptyLines (indent : Option Nat) (breaks : List Char) (widest : Nat) (cursor : Cursor) :
    (fuel : Nat) → Option (List Char × Nat × Cursor)
  | 0 => some (breaks, widest, cursor)
  | fuel + 1 =>
    let inside (column : Nat) : Bool := indent.all (column < ·)
    let spaces := cursor.rest.takeWhile (· == ' ')
    let count := match indent with
      | some n => min spaces.length (n - cursor.column)
      | none => spaces.length
    let cursor := cursor.advance count
    let widest := max widest cursor.column
    if inside cursor.column && cursor.head? == some '\t' then none
    else if cursor.next isBreak then
      let (kept, cursor) := cursor.takeBreak
      takeEmptyLines indent (breaks ++ kept) widest cursor fuel
    else some (breaks, widest, cursor)

/-- A block on its way. -/
structure Block where
  /-- The text so far. -/
  text : List Char
  /-- The line break after the last line. -/
  lineBreak : List Char
  /-- The empty lines after it. -/
  breaks : List Char
  /-- Whether the last line begins with a blank. -/
  startsBlank : Bool

/-- The lines of a block that is indented by `indent` columns. -/
def blockLines (literal : Bool) (indent : Nat) (block : Block) (cursor : Cursor) :
    (fuel : Nat) → Option (Block × Cursor)
  | 0 => some (block, cursor)
  | fuel + 1 => do
    if cursor.column != indent || cursor.atEnd then
      return (block, cursor)
    let blank := cursor.next isBlank
    -- lines that begin with words are joined; lines that begin with blanks stay apart
    let joined := !literal && block.lineBreak == ['\n'] && !block.startsBlank && !blank
    let separator :=
      if joined then (if block.breaks.isEmpty then [' '] else []) else block.lineBreak
    let (line, cursor) := cursor.takeWhile fun c => !isBreak c
    let (lineBreak, cursor) := cursor.takeBreak
    let (breaks, _, cursor) ← takeEmptyLines (some indent) [] 0 cursor (cursor.rest.length + 1)
    blockLines literal indent ⟨block.text ++ separator ++ block.breaks ++ line, lineBreak, breaks,
      blank⟩ cursor fuel

/-- A block scalar inside a node that is indented by `parent` columns, if there is such a node. -/
def blockScalar (literal : Bool) (parent : Option Nat) (cursor : Cursor) :
    Option (List Char × Cursor) := do
  let (chomping, indentation, cursor) ← takeHeader (cursor.advance 1)
  let cursor := (cursor.skipWhile isBlank).skipComment
  if !cursor.spaceAt 0 then
    none
  let cursor := cursor.takeBreak.2
  let given := indentation.map fun n => parent.getD 0 + n
  let (breaks, widest, cursor) ← takeEmptyLines given [] 0 cursor (cursor.rest.length + 1)
  let least := match parent with
    | some n => n + 1
    | none => 1
  -- without a given indentation the first line that is not empty decides
  let indent := given.getD (max widest least)
  let (block, cursor) ← blockLines literal indent ⟨[], [], breaks, false⟩ cursor
    (cursor.rest.length + 1)
  let kept := match chomping with
    | .strip => []
    | .clip => block.lineBreak
    | .keep => block.lineBreak ++ block.breaks
  return (block.text ++ kept, cursor)

end Fanout.Yaml

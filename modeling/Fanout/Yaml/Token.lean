import Fanout.Text.Utf8
import Fanout.Yaml.Scalar

/-!
# YAML tokens

A YAML text as a list of tokens. Indentation becomes tokens of its own: a block collection is opened
by the first entry that is indented further than what encloses it, and closed by the first line that
is indented less. That something is a key is known only when the colon behind it is met, so the
position of every possible key is remembered, and its token is put in there afterwards.
-/

namespace Fanout.Yaml

/-- The tokens of a YAML text. -/
inductive Token where
  /-- The version of YAML the text is written in. -/
  | version (major minor : Nat)
  /-- What a tag handle stands for. -/
  | handle (name expansion : String)
  | documentStart
  | documentEnd
  /-- A sequence begins whose entries are lines. -/
  | blockSequence
  /-- A mapping begins whose entries are lines. -/
  | blockMapping
  /-- One of these two ends. -/
  | blockEnd
  | openSequence
  | closeSequence
  | openMapping
  | closeMapping
  | entry
  | comma
  | key
  | value
  | alias (name : String)
  | anchor (name : String)
  | tag (handle suffix : String)
  | scalar (text : String) (style : Style)
deriving DecidableEq, Repr

/-- Where a key may have begun. -/
structure PossibleKey where
  /-- How many tokens are before it. -/
  position : Nat
  column : Nat
  line : Nat
  /-- How many characters are before it. -/
  index : Nat
  /-- Whether nothing but a key can stand here. -/
  required : Bool
deriving Repr

/-- A text that is being cut into tokens. -/
structure Lexer where
  cursor : Cursor
  /-- The tokens so far, the last one first. -/
  tokens : List Token
  /-- How many there are. -/
  count : Nat
  /-- The columns of the open block collections, the innermost first. -/
  indents : List Nat
  /-- The possible key of the innermost flow collection. -/
  possibleKey : Option PossibleKey
  /-- Those of the flow collections and the block around it, the innermost first. -/
  outerKeys : List (Option PossibleKey)
  /-- Whether a key may begin here. -/
  keyAllowed : Bool
deriving Repr

namespace Lexer

/-- A text of which nothing has been read. -/
def start (cursor : Cursor) : Lexer := ⟨cursor, [], 0, [], none, [], true⟩

/-- Whether a flow collection is open. -/
def inFlow (lexer : Lexer) : Bool := !lexer.outerKeys.isEmpty

/-- The column of the innermost block collection. -/
def indent? (lexer : Lexer) : Option Nat := lexer.indents.head?

def emit (lexer : Lexer) (token : Token) : Lexer :=
  { lexer with tokens := token :: lexer.tokens, count := lexer.count + 1 }

/-- Put a token in after the first `position` tokens. -/
def emitAt (lexer : Lexer) (position : Nat) (token : Token) : Lexer :=
  -- the last token comes first, so the later ones are in front
  let later := lexer.count - position
  { lexer with
    tokens := lexer.tokens.take later ++ token :: lexer.tokens.drop later
    count := lexer.count + 1 }

/-- Add a token that is some characters long. -/
def emitOver (lexer : Lexer) (token : Token) (length : Nat) : Lexer :=
  { lexer.emit token with cursor := lexer.cursor.advance length }

/-- Close the block collections that are indented further than `column`; `none` closes all. -/
def unroll (column : Option Nat) : (indents : List Nat) → Lexer → Lexer
  | [], lexer => { lexer with indents := [] }
  | indent :: outer, lexer =>
    if column.all (· < indent) then unroll column outer (lexer.emit .blockEnd)
    else { lexer with indents := indent :: outer }

/-- Close the block collections that end in front of a column; a flow collection has no columns. -/
def closeBlocks (lexer : Lexer) (column : Option Nat) : Lexer :=
  if lexer.inFlow then lexer else unroll column lexer.indents lexer

/-- Open a block collection at a column unless one is open there. -/
def openBlock (lexer : Lexer) (column position : Nat) (token : Token) : Lexer :=
  if lexer.inFlow || lexer.indent?.any (column ≤ ·) then lexer
  else { lexer.emitAt position token with indents := column :: lexer.indents }

/-- Give up the possible key, which must not be required. -/
def dropKey (lexer : Lexer) : Option Lexer :=
  if lexer.possibleKey.any (·.required) then none else some { lexer with possibleKey := none }

/-- Remember that a key may begin here. -/
def saveKey (lexer : Lexer) : Option Lexer := do
  if !lexer.keyAllowed then
    return lexer
  let cursor := lexer.cursor
  let required := !lexer.inFlow && lexer.indent? == some cursor.column
  let lexer ← lexer.dropKey
  return { lexer with
    possibleKey := some ⟨lexer.count, cursor.column, cursor.line, cursor.index, required⟩ }

/-- Longest key, in characters, that is written without a question mark. -/
def maxKeyLength : Nat := 1024

/-- Whether a possible key is too far away to be one. -/
def isStale (cursor : Cursor) (key : PossibleKey) : Bool :=
  key.line < cursor.line || key.index + maxKeyLength < cursor.index

/-- Give up one possible key if it is too far away. -/
def refresh (cursor : Cursor) : Option PossibleKey → Option (Option PossibleKey)
  | none => some none
  | some key =>
    if !isStale cursor key then some (some key) else if key.required then none else some none

/-- Give up all possible keys that are too far away. -/
def dropStaleKeys (lexer : Lexer) : Option Lexer := do
  return { lexer with
    possibleKey := ← refresh lexer.cursor lexer.possibleKey
    outerKeys := ← lexer.outerKeys.mapM (refresh lexer.cursor) }

/-- Pass over blanks, comments and line breaks. After a line break outside flow collections a key
may begin. -/
def skipBlanks (lexer : Lexer) : (fuel : Nat) → Lexer
  | 0 => lexer
  | fuel + 1 =>
    -- where a key may begin, a tab would count as indentation
    let tabs := lexer.inFlow || !lexer.keyAllowed
    let cursor := lexer.cursor.skipWhile fun c => c == ' ' || (tabs && c == '\t')
    let cursor := cursor.skipComment
    if cursor.next isBreak then
      skipBlanks { lexer with
        cursor := cursor.takeBreak.2
        keyAllowed := lexer.keyAllowed || !lexer.inFlow } fuel
    else { lexer with cursor }

/-! ## Directives -/

/-- A decimal number of a version, of at most nine digits. -/
def takeNumber (cursor : Cursor) : Option (Nat × Cursor) :=
  let (digits, cursor) := cursor.takeWhile Char.isDigit
  if digits.isEmpty || digits.length > 9 then none
  else some (digits.foldl (fun n c => n * 10 + (c.toNat - 48)) 0, cursor)

/-- A tag handle: an exclamation mark, and possibly a name and a second one. -/
def takeHandle (inDirective : Bool) (cursor : Cursor) : Option (List Char × Cursor) := do
  if cursor.head? != some '!' then
    none
  let (name, cursor) := (cursor.advance 1).takeWhile isNameChar
  if cursor.head? == some '!' then
    return ('!' :: name ++ ['!'], cursor.advance 1)
  if inDirective && !name.isEmpty then
    none
  return ('!' :: name, cursor)

/-- A character of a tag; some are allowed only where the tag is marked off. -/
def isTagChar (markedOff : Bool) (c : Char) : Bool :=
  isNameChar c || ";/?:@&=+$.%!~*'()".toList.contains c || (markedOff && [',', '[', ']'].contains c)

/-- Decode the escapes of a tag: each `%` is followed by two digits for one byte. -/
def unescapeTag : List Char → Option (List UInt8)
  | [] => some []
  | '%' :: a :: b :: rest => do
    let n ← hexValue? [a, b]
    return UInt8.ofNat n :: (← unescapeTag rest)
  | '%' :: _ => none
  | c :: rest => do return Utf8.encodeChar c ++ (← unescapeTag rest)

/-- The characters of a tag after `head`, of which the first one does not belong to it. -/
def takeTagText (markedOff : Bool) (head : List Char) (cursor : Cursor) :
    Option (String × Cursor) := do
  let (chars, cursor) := cursor.takeWhile (isTagChar markedOff)
  if head.isEmpty && chars.isEmpty then
    none
  let bytes ← unescapeTag (head.drop 1 ++ chars)
  match Utf8.decode bytes with
  | .ok text => return (text, cursor)
  | .error _ => none

/-- The token of a directive, from its name on. -/
def takeDirective (cursor : Cursor) : Option (Token × Cursor) := do
  let (name, cursor) := cursor.takeWhile isNameChar
  if !cursor.spaceAt 0 then
    none
  let cursor := cursor.skipWhile isBlank
  if name == "YAML".toList then
    let (major, cursor) ← takeNumber cursor
    if cursor.head? != some '.' then
      none
    let (minor, cursor) ← takeNumber (cursor.advance 1)
    return (.version major minor, cursor)
  if name == "TAG".toList then
    let (handle, cursor) ← takeHandle true cursor
    if !cursor.next isBlank then
      none
    let (expansion, cursor) ← takeTagText true [] (cursor.skipWhile isBlank)
    if !cursor.spaceAt 0 then
      none
    return (.handle (String.ofList handle) expansion, cursor)
  none

/-- A line that begins with a percent sign. -/
def directive (lexer : Lexer) : Option Lexer := do
  let lexer ← (lexer.closeBlocks none).dropKey
  let (token, cursor) ← takeDirective (lexer.cursor.advance 1)
  let cursor := (cursor.skipWhile isBlank).skipComment
  if !cursor.spaceAt 0 then
    none
  return { lexer.emit token with cursor := cursor.takeBreak.2, keyAllowed := false }

/-! ## Indicators -/

/-- The line that begins or ends a document. -/
def documentMarker (lexer : Lexer) (token : Token) : Option Lexer := do
  let lexer ← (lexer.closeBlocks none).dropKey
  return { lexer.emitOver token 3 with keyAllowed := false }

/-- An opening bracket or brace. -/
def openFlow (lexer : Lexer) (token : Token) : Option Lexer := do
  let lexer ← lexer.saveKey
  return { lexer.emitOver token 1 with
    possibleKey := none
    outerKeys := lexer.possibleKey :: lexer.outerKeys
    keyAllowed := true }

/-- A closing bracket or brace. -/
def closeFlow (lexer : Lexer) (token : Token) : Option Lexer := do
  let lexer ← lexer.dropKey
  let lexer := { lexer.emitOver token 1 with keyAllowed := false }
  match lexer.outerKeys with
  | [] => return lexer
  | key :: outer => return { lexer with possibleKey := key, outerKeys := outer }

/-- A comma in a flow collection, or out of place. -/
def comma (lexer : Lexer) : Option Lexer := do
  let lexer ← lexer.dropKey
  return { lexer.emitOver .comma 1 with keyAllowed := true }

/-- The hyphen before an entry. -/
def blockEntry (lexer : Lexer) : Option Lexer := do
  if !lexer.inFlow && !lexer.keyAllowed then
    none
  let lexer ← (lexer.openBlock lexer.cursor.column lexer.count .blockSequence).dropKey
  return { lexer.emitOver .entry 1 with keyAllowed := true }

/-- The question mark before a key. -/
def explicitKey (lexer : Lexer) : Option Lexer := do
  if !lexer.inFlow && !lexer.keyAllowed then
    none
  let lexer ← (lexer.openBlock lexer.cursor.column lexer.count .blockMapping).dropKey
  return { lexer.emitOver .key 1 with keyAllowed := !lexer.inFlow }

/-- The colon before a value, which turns what is before it into a key if it can be one. -/
def value (lexer : Lexer) : Option Lexer := do
  match lexer.possibleKey with
  -- the key is put in where it began, and a mapping before it if none is open there
  | some key =>
    let lexer := (lexer.emitAt key.position .key).openBlock key.column key.position .blockMapping
    return { lexer.emitOver .value 1 with possibleKey := none, keyAllowed := false }
  | none =>
    if !lexer.inFlow && !lexer.keyAllowed then
      none
    let lexer := lexer.openBlock lexer.cursor.column lexer.count .blockMapping
    return { lexer.emitOver .value 1 with keyAllowed := !lexer.inFlow }

/-! ## Properties and scalars -/

/-- Add a token with which a key may begin. -/
def content (lexer : Lexer) (take : Cursor → Option (Token × Cursor)) : Option Lexer := do
  let lexer ← lexer.saveKey
  let (token, cursor) ← take lexer.cursor
  return { lexer.emit token with cursor, keyAllowed := false }

/-- The name of an anchor after its mark. -/
def takeAnchor (make : String → Token) (cursor : Cursor) : Option (Token × Cursor) :=
  let (name, cursor) := (cursor.advance 1).takeWhile isNameChar
  if name.isEmpty || !(cursor.spaceAt 0 || cursor.next "?:,]\x7d%@`".toList.contains) then none
  else some (make (String.ofList name), cursor)

/-- A tag, by itself or between angle brackets. -/
def takeTag (inFlow : Bool) (cursor : Cursor) : Option (Token × Cursor) := do
  let (token, cursor) ←
    if cursor.at? 1 == some '<' then do
      let (text, cursor) ← takeTagText true [] (cursor.advance 2)
      if cursor.head? != some '>' then
        none
      pure (Token.tag "" text, cursor.advance 1)
    else do
      let (handle, cursor) ← takeHandle false cursor
      if handle.length > 1 && handle.getLast? == some '!' then
        let (suffix, cursor) ← takeTagText false [] cursor
        pure (Token.tag (String.ofList handle) suffix, cursor)
      else
        let (suffix, cursor) ← takeTagText false handle cursor
        -- a lone exclamation mark is a tag, not a handle
        if suffix.isEmpty then
          pure (Token.tag "" "!", cursor)
        else
          pure (Token.tag "!" suffix, cursor)
  if cursor.spaceAt 0 || (inFlow && cursor.head? == some ',') then
    return (token, cursor)
  none

/-- A quoted scalar. -/
def takeQuoted (single : Bool) (cursor : Cursor) : Option (Token × Cursor) := do
  let (text, cursor) ← quotedScalar single cursor
  return (.scalar (String.ofList text) .quoted, cursor)

/-- A block scalar, after which a key may begin. -/
def block (lexer : Lexer) (literal : Bool) : Option Lexer := do
  let lexer ← lexer.dropKey
  let (text, cursor) ← blockScalar literal lexer.indent? lexer.cursor
  let style := if literal then Style.literal else Style.folded
  return { lexer.emit (.scalar (String.ofList text) style) with cursor, keyAllowed := true }

/-- A plain scalar; if a line break follows it, a key may begin there. -/
def plain (lexer : Lexer) : Option Lexer := do
  let lexer ← lexer.saveKey
  let indent := match lexer.indent? with
    | some n => n + 1
    | none => 0
  let scalar ← plainScalar lexer.inFlow indent lexer.cursor
  return { lexer.emit (.scalar (String.ofList scalar.text) .plain) with
    cursor := scalar.cursor
    keyAllowed := scalar.broken }

/-- Whether a plain scalar may begin with the next character. -/
def canBeginPlain (lexer : Lexer) (c : Char) : Bool :=
  !(isBlank c || "-?:,[]\x7b\x7d#&*!|>'\"%@`".toList.contains c) ||
    (c == '-' && !(lexer.cursor.at? 1).any isBlank) ||
    (!lexer.inFlow && (c == '?' || c == ':') && !lexer.cursor.spaceAt 1)

/-- The token that begins with the next character. -/
def takeToken (lexer : Lexer) (c : Char) : Option Lexer :=
  let cursor := lexer.cursor
  let indicates := lexer.inFlow || cursor.spaceAt 1
  if c == '%' && cursor.column == 0 then lexer.directive
  else if cursor.marker '-' then lexer.documentMarker .documentStart
  else if cursor.marker '.' then lexer.documentMarker .documentEnd
  else if c == '[' then lexer.openFlow .openSequence
  else if c == '\x7b' then lexer.openFlow .openMapping
  else if c == ']' then lexer.closeFlow .closeSequence
  else if c == '\x7d' then lexer.closeFlow .closeMapping
  else if c == ',' then lexer.comma
  else if c == '-' && cursor.spaceAt 1 then lexer.blockEntry
  else if c == '?' && indicates then lexer.explicitKey
  else if c == ':' && indicates then lexer.value
  else if c == '*' then lexer.content (takeAnchor .alias)
  else if c == '&' then lexer.content (takeAnchor .anchor)
  else if c == '!' then lexer.content (takeTag lexer.inFlow)
  else if c == '|' && !lexer.inFlow then lexer.block true
  else if c == '>' && !lexer.inFlow then lexer.block false
  else if c == '\'' then lexer.content (takeQuoted true)
  else if c == '"' then lexer.content (takeQuoted false)
  else if lexer.canBeginPlain c then lexer.plain
  else none

/-- The tokens of the text, in order. Every round reads at least one character. -/
def finish (lexer : Lexer) : (fuel : Nat) → Option (List Token)
  | 0 => none
  | fuel + 1 => do
    let lexer ← (lexer.skipBlanks (lexer.cursor.rest.length + 1)).dropStaleKeys
    match lexer.cursor.head? with
    | none =>
      let lexer ← (lexer.closeBlocks none).dropKey
      return lexer.tokens.reverse
    | some c =>
      let lexer ← (lexer.closeBlocks (some lexer.cursor.column)).takeToken c
      lexer.finish fuel

end Lexer

/-- The tokens of a YAML text. A byte order mark in front of it is passed over, but takes up a
column. -/
def tokens? (text : String) : Option (List Token) :=
  let chars := text.toList
  if chars.all isPrintable then
    let cursor := Cursor.start chars
    let cursor := if cursor.next (·.toNat == 0xFEFF) then cursor.advance 1 else cursor
    (Lexer.start cursor).finish (chars.length + 1)
  else none

end Fanout.Yaml

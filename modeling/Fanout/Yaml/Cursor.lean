/-!
# Positions in a YAML text

The classes of characters that YAML tells apart, and a cursor that moves over a text and knows its
line and column. A carriage return followed by a line feed is one line break.
-/

namespace Fanout.Yaml

/-- A character a YAML text may hold. -/
def isPrintable (c : Char) : Bool :=
  let n := c.toNat
  n == 9 || n == 10 || n == 13 || (0x20 ≤ n && n ≤ 0x7E) || n == 0x85 || (0xA0 ≤ n && n ≤ 0xD7FF) ||
    (0xE000 ≤ n && n ≤ 0xFFFD) || 0x10000 ≤ n

/-- A space or a tab. -/
def isBlank (c : Char) : Bool := c == ' ' || c == '\t'

/-- A line break. -/
def isBreak (c : Char) : Bool :=
  c == '\n' || c == '\r' || c.toNat == 0x85 || c.toNat == 0x2028 || c.toNat == 0x2029

/-- A flow indicator: brackets, braces and the comma. -/
def isFlowIndicator (c : Char) : Bool := [',', '[', ']', '\x7b', '\x7d'].contains c

/-- A character of a name: ASCII letters and digits, the underscore and the hyphen. -/
def isNameChar (c : Char) : Bool := c.isAlphanum || c == '_' || c == '-'

/-- A position in a text, with all that follows. -/
structure Cursor where
  rest : List Char
  /-- How many characters are before it. -/
  index : Nat
  /-- The line it is in, from 0. -/
  line : Nat
  /-- How many characters of the line are before it. -/
  column : Nat
deriving Repr

namespace Cursor

/-- The start of a text. -/
def start (chars : List Char) : Cursor := ⟨chars, 0, 0, 0⟩

/-- The next character. -/
def head? (cursor : Cursor) : Option Char := cursor.rest.head?

/-- The character `n` places further on. -/
def at? (cursor : Cursor) (n : Nat) : Option Char := cursor.rest[n]?

/-- Whether the next character satisfies a test. -/
def next (cursor : Cursor) (test : Char → Bool) : Bool := cursor.head?.any test

/-- Whether `n` places further on there is a blank, a line break or the end of the text. -/
def spaceAt (cursor : Cursor) (n : Nat) : Bool :=
  match cursor.at? n with
  | some c => isBlank c || isBreak c
  | none => true

/-- Whether the text ends here. -/
def atEnd (cursor : Cursor) : Bool := cursor.rest.isEmpty

/-- The position `n` characters further on in the same line. -/
def advance (cursor : Cursor) (n : Nat) : Cursor :=
  ⟨cursor.rest.drop n, cursor.index + n, cursor.line, cursor.column + n⟩

/-- What a line break stands for, and the position after it; nothing if there is none here. -/
def takeBreak (cursor : Cursor) : List Char × Cursor :=
  match cursor.rest with
  | '\r' :: '\n' :: rest => (['\n'], ⟨rest, cursor.index + 2, cursor.line + 1, 0⟩)
  | c :: rest =>
    if isBreak c then
      let kept := if c.toNat == 0x2028 || c.toNat == 0x2029 then [c] else ['\n']
      (kept, ⟨rest, cursor.index + 1, cursor.line + 1, 0⟩)
    else ([], cursor)
  | [] => ([], cursor)

/-- Characters of the line as long as they satisfy a test, and the position after them. -/
def takeWhile (cursor : Cursor) (test : Char → Bool) : List Char × Cursor :=
  let taken := cursor.rest.takeWhile test
  (taken, cursor.advance taken.length)

/-- The position after characters of the line that satisfy a test. -/
def skipWhile (cursor : Cursor) (test : Char → Bool) : Cursor := (cursor.takeWhile test).2

/-- The position after a comment, if one begins here. -/
def skipComment (cursor : Cursor) : Cursor :=
  if cursor.head? = some '#' then cursor.skipWhile fun c => !isBreak c else cursor

/-- Whether a line begins here with three times the given character, alone. -/
def marker (cursor : Cursor) (c : Char) : Bool :=
  cursor.column == 0 && cursor.rest.take 3 == [c, c, c] && cursor.spaceAt 3

/-- Whether a line begins here with the start or the end of a document. -/
def atDocumentMarker (cursor : Cursor) : Bool := cursor.marker '-' || cursor.marker '.'

end Cursor

end Fanout.Yaml

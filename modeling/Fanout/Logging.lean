import Fanout.Config.Settings
import Fanout.Text.Characters
import Fanout.Text.Utf8

/-!
# Logging

A filter says which records are logged. It is a list of directives between commas, each of which
gives a level, a target, or a target, a span with fields and a level:

    directive := level | target | target '=' level | target? '[' span ']' ('=' level)?
    span      := name ('{' field '}')?

Blanks around a directive do not take part in finding its pieces, but the pieces are cut out of the
directive as it was written, blanks included.

To set logging up the filter is read first, then the log file is opened, and last the log is put in
place, which happens at most once.
-/

namespace Fanout

/-! ## Filters -/

/-- From which level on records are logged. -/
inductive LogLevel where
  /-- Nothing is logged. -/
  | off
  /-- Failures. -/
  | error
  /-- What should be looked at, too. -/
  | warn
  /-- Steps of normal operation, too. -/
  | info
  /-- Diagnostic detail, too. -/
  | debug
  /-- Everything. -/
  | trace
deriving DecidableEq, Repr

namespace LogLevel

/-- The levels by their numbers. -/
def all : List (Nat × LogLevel) :=
  [(0, off), (1, error), (2, warn), (3, info), (4, debug), (5, trace)]

def name : LogLevel → String
  | off => "off"
  | error => "error"
  | warn => "warn"
  | info => "info"
  | debug => "debug"
  | trace => "trace"

/-- A natural number in decimal digits, possibly after a plus sign. -/
def number? (text : String) : Option Nat :=
  let digits := match text.toList with
    | '+' :: rest => rest
    | cs => cs
  if digits.isEmpty || !digits.all Char.isDigit then none
  else some (digits.foldl (fun n c => n * 10 + (c.toNat - 48)) 0)

/-- The level of a name, in any case, or of a number. -/
def parse? (text : String) : Option LogLevel :=
  match (number? text).bind fun n => all.lookup n with
  | some level => some level
  | none => (all.map Prod.snd).find? fun level => level.name = Text.lowerAscii text

end LogLevel

/-- Why a text is no filter. -/
inductive FilterError where
  | directive
  | level
deriving DecidableEq, Repr

def FilterError.message : FilterError → String
  | directive => "invalid filter directive"
  | level =>
    "error parsing level filter: expected one of \"off\", \"error\", \"warn\", \"info\", " ++
      "\"debug\", \"trace\", or a number 0-5"

/-- A demand on a field of a span. -/
structure FieldFilter where
  name : String
  /-- The value it must have, as it was written. -/
  value : Option String
deriving DecidableEq, Repr

/-- The demand a text states. -/
def FieldFilter.ofText (text : String) : FieldFilter :=
  match text.splitOn "=" with
  | name :: value :: _ => ⟨name, some value⟩
  | _ => ⟨text, none⟩

/-- One part of a filter. -/
structure Directive where
  level : LogLevel
  /-- The target it is about. -/
  target : Option String
  /-- The span it is about. -/
  span : Option String
  /-- What is demanded of the span. -/
  fields : List FieldFilter
deriving DecidableEq, Repr

namespace Directive

/-- A character of the blocks that hold punctuation, symbols and pictures only. -/
def isSymbol (c : Char) : Bool :=
  let n := c.toNat
  (0x80 ≤ n && n ≤ 0xA9) || (0xAB ≤ n && n ≤ 0xB1) || n == 0xB4 || (0xB6 ≤ n && n ≤ 0xB8) ||
    n == 0xBB || n == 0xBF || n == 0xD7 || n == 0xF7 || (0x2000 ≤ n && n ≤ 0x206F) ||
    (0x20A0 ≤ n && n ≤ 0x20FF) || (0x2190 ≤ n && n ≤ 0x245F) || (0x2500 ≤ n && n ≤ 0x2775) ||
    (0x2794 ≤ n && n ≤ 0x2BFF) || (0x2E00 ≤ n && n ≤ 0x2FFF) || (0x3000 ≤ n && n ≤ 0x3004) ||
    (0x3008 ≤ n && n ≤ 0x3020) || (0xE000 ≤ n && n ≤ 0xF8FF) || (0xFE00 ≤ n && n ≤ 0xFE6F) ||
    (0xFF00 ≤ n && n ≤ 0xFF0F) || (0x1F000 ≤ n && n ≤ 0x1F0FF) || (0x1F300 ≤ n && n ≤ 0x1FAFF)

/-- A character a level or a target may begin with: a letter, a digit, or one of three marks. -/
def canBegin (c : Char) : Bool :=
  if c.toNat < 128 then c.isAlphanum || c == '-' || c == ':' || c == '_'
  else !(isSymbol c || Text.isBlank c)

/-- A directive on its way: the text as it was written, and its characters without blanks around
them. -/
structure Draft where
  bytes : List UInt8
  /-- The characters that count. -/
  chars : List Char

namespace Draft

/-- The draft of a text. -/
def ofText (text : String) : Draft :=
  ⟨Utf8.encode text, Text.trimEnd (Text.trimStart text.toList)⟩

/-- Where a character stands among the bytes when no blanks are in front. -/
def offset (draft : Draft) (position : Nat) : Nat :=
  ((draft.chars.take position).flatMap Utf8.encodeChar).length

/-- The piece of the text from one character up to another; `none` goes to the end of the text. -/
def piece (draft : Draft) (start : Nat) (stop : Option Nat) : Except FilterError String :=
  let bytes := match stop with
    | some position => draft.bytes.take (draft.offset position)
    | none => draft.bytes
  (Utf8.decode (bytes.drop (draft.offset start))).mapError fun _ => .directive

/-- The position of the first of some characters from a position on. -/
def find? (draft : Draft) (start : Nat) (wanted : List Char) : Option Nat :=
  ((draft.chars.drop start).findIdx? wanted.contains).map (start + ·)

/-- The level in the piece from a character on; nothing stands for everything. -/
def level (draft : Draft) (start : Nat) : Except FilterError LogLevel := do
  let text ← draft.piece start none
  if text.isEmpty then
    return .trace
  match LogLevel.parse? text with
  | some level => return level
  | none => throw .level

/-- A directive from the end of its span on. -/
def afterSpan (draft : Draft) (directive : Directive) (start : Nat) :
    Except FilterError Directive := do
  match draft.chars[start]? with
  | none => return directive
  | some '=' => return { directive with level := ← draft.level (start + 1) }
  | some _ => throw .directive

/-- A directive from the fields of its span on. -/
def fields (draft : Draft) (directive : Directive) (start : Nat) :
    Except FilterError Directive := do
  match draft.find? start ['\x7d'] with
  | none => throw .directive
  | some stop =>
    let text ← draft.piece start (some stop)
    if text.isEmpty then
      throw .directive
    match draft.chars[stop + 1]? with
    | some ']' => draft.afterSpan { directive with fields := [.ofText text] } (stop + 2)
    | _ => throw .directive

/-- A directive from its span on. -/
def span (draft : Draft) (directive : Directive) (start : Nat) : Except FilterError Directive := do
  match draft.find? start [']', '\x7b'] with
  | none => throw .directive
  | some stop =>
    let name ← draft.piece start (some stop)
    if draft.chars[stop]? = some ']' then
      draft.afterSpan { directive with span := some name } (stop + 1)
    else
      let directive := { directive with span := if name.isEmpty then none else some name }
      draft.fields directive (stop + 1)

/-- The directive a draft makes. -/
def finish (draft : Draft) : Except FilterError Directive := do
  let plain : Directive := ⟨.trace, none, none, []⟩
  match draft.chars.head? with
  | none => throw .directive
  | some '[' => draft.span plain 1
  | some c =>
    if !canBegin c then
      throw .directive
    match draft.find? 0 ['=', '['] with
    -- a single word is a level if it can be one, and a target otherwise
    | none =>
      let text ← draft.piece 0 none
      match LogLevel.parse? text with
      | some level => return { plain with level }
      | none => return { plain with target := some text }
    | some stop =>
      let target := some (← draft.piece 0 (some stop))
      if draft.chars[stop]? = some '=' then
        return { plain with target, level := ← draft.level (stop + 1) }
      else draft.span { plain with target } (stop + 1)

end Draft

/-- The directive a text states. -/
def parse (text : String) : Except FilterError Directive := (Draft.ofText text).finish

end Directive

/-- Which records are logged. -/
structure LogFilter where
  directives : List Directive
deriving DecidableEq, Repr

/-- The filter a text states; what is empty between commas is passed over. -/
def LogFilter.parse (text : String) : Except FilterError LogFilter := do
  let parts := (text.splitOn ",").filter fun part => !part.isEmpty
  return ⟨← parts.mapM Directive.parse⟩

/-! ## Setting up -/

/-- Where log records go, and which. -/
structure Logger where
  filter : LogFilter
  /-- A file that receives them, too. -/
  file : Option String
deriving DecidableEq, Repr

/-- Set logging up. `openFile` opens a file for appending, and `installed` says whether there is a
log in place already. -/
def LoggingSettings.initialise {m : Type → Type} [Monad m] (settings : LoggingSettings)
    (openFile : String → m (Except IoError Unit)) (installed : Bool) :
    ExceptT ConfigError m Logger := do
  let filter ← ExceptT.mk (pure ((LogFilter.parse settings.level).mapError fun e =>
    ConfigError.logging e.message))
  if let some path := settings.file then
    ExceptT.mk (do return (← openFile path).mapError fun cause => ConfigError.io path cause)
  if installed then
    throw (.logging "a global default trace dispatcher has already been set")
  return ⟨filter, settings.file⟩

end Fanout

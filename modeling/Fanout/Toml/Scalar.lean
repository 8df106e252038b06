import Fanout.Toml.Value

/-!
# Texts and numbers in TOML

Each reader takes what it reads from the front of a text and gives the rest. What a reader leaves
over is refused by whoever called it, so a number is read as far as it goes and no further.
-/

namespace Fanout.Toml

/-- The blanks inside a line. -/
def isBlank (c : Char) : Bool := c == ' ' || c == '\t'

/-- Drop leading blanks. -/
def skipBlanks (cs : List Char) : List Char := cs.dropWhile isBlank

/-- Whether a character may stand in a text or comment as it is: any but control characters other
than the tab. -/
def isPlain (c : Char) : Bool := c == '\t' || (32 ≤ c.toNat && c.toNat != 127)

/-- Read the end of a line. -/
def readNewline : List Char → Option (List Char)
  | '\n' :: rest => some rest
  | '\r' :: '\n' :: rest => some rest
  | _ => none

/-- Drop blanks and ends of lines. -/
def skipLines : List Char → List Char
  | '\n' :: rest => skipLines rest
  | '\r' :: '\n' :: rest => skipLines rest
  | c :: rest => if isBlank c then skipLines rest else c :: rest
  | [] => []

/-! ## Texts -/

/-- Read a character given by its number, in so many digits of base sixteen. -/
def readNumbered (count : Nat) (cs : List Char) : Option (Char × List Char) := do
  let digits := cs.take count
  if digits.length < count then none
  else
    let n ← Literal.natural? 16 digits
    if n.isValidChar then return (Char.ofNat n, cs.drop count) else none

/-- Read an escape, from behind its backslash. -/
def readEscape : List Char → Option (Char × List Char)
  | 'b' :: rest => some ('\x08', rest)
  | 'f' :: rest => some ('\x0c', rest)
  | 'n' :: rest => some ('\n', rest)
  | 'r' :: rest => some ('\r', rest)
  | 't' :: rest => some ('\t', rest)
  | '"' :: rest => some ('"', rest)
  | '\\' :: rest => some ('\\', rest)
  | 'u' :: rest => readNumbered 4 rest
  | 'U' :: rest => readNumbered 8 rest
  | _ => none

/-- Read a text on one line up to its closing quote. Only between double quotes are there escapes.
No text is longer than `fuel`. -/
def readLineText (quote : Char) : (fuel : Nat) → List Char → Option (List Char × List Char)
  | 0, _ | _ + 1, [] => none
  | fuel + 1, c :: cs =>
    if c = quote then some ([], cs)
    else if c = '\\' ∧ quote = '"' then do
      let (a, rest) ← readEscape cs
      let (as, rest) ← readLineText quote fuel rest
      return (a :: as, rest)
    else if isPlain c then do
      let (as, rest) ← readLineText quote fuel cs
      return (c :: as, rest)
    else none

/-- The quotes that belong to a text which ends in three quotes: one or two more may stand before
them. -/
def trailingQuotes (quote : Char) : List Char → List Char × List Char
  | a :: b :: rest =>
    if a = quote ∧ b = quote then ([a, b], rest)
    else if a = quote then ([a], b :: rest)
    else ([], a :: b :: rest)
  | [a] => if a = quote then ([a], []) else ([], [a])
  | [] => ([], [])

/-- What three quotes in a row leave over. -/
def afterQuotes (quote : Char) : List Char → Option (List Char)
  | a :: b :: c :: rest => if a = quote ∧ b = quote ∧ c = quote then some rest else none
  | _ => none

/-- What an escaped end of line leaves over: the blanks and lines behind it are dropped. -/
def afterEscapedNewline (cs : List Char) : Option (List Char) :=
  (readNewline (skipBlanks cs)).map skipLines

/-- Read a text on several lines up to its closing quotes. -/
def readLinesText (quote : Char) : (fuel : Nat) → List Char → Option (List Char × List Char)
  | 0, _ | _ + 1, [] => none
  | fuel + 1, c :: cs =>
    match afterQuotes quote (c :: cs) with
    | some rest => some (trailingQuotes quote rest)
    | none =>
      if c = '\\' ∧ quote = '"' then
        match afterEscapedNewline cs with
        | some rest => readLinesText quote fuel rest
        | none => do
          let (a, rest) ← readEscape cs
          let (as, rest) ← readLinesText quote fuel rest
          return (a :: as, rest)
      else
        match readNewline (c :: cs) with
        | some rest => do
          let (as, rest) ← readLinesText quote fuel rest
          return ('\n' :: as, rest)
        | none =>
          if isPlain c then do
            let (as, rest) ← readLinesText quote fuel cs
            return (c :: as, rest)
          else none

/-- Read a text on one line, from behind its opening quote. -/
def readQuoted (quote : Char) (cs : List Char) : Option (String × List Char) :=
  (readLineText quote (cs.length + 1) cs).map fun (as, rest) => (String.ofList as, rest)

/-- Read a text between quotes of one kind, on one line or several. An end of line right behind
three opening quotes does not count. -/
def readText (quote : Char) (cs : List Char) : Option (String × List Char) :=
  match afterQuotes quote cs with
  | some rest =>
    let rest := (readNewline rest).getD rest
    (readLinesText quote (rest.length + 1) rest).map fun (as, rest) => (String.ofList as, rest)
  | none =>
    match cs with
    | c :: rest => if c = quote then readQuoted quote rest else none
    | [] => none

/-! ## Numbers -/

/-- The digits at the front of a text, with single underscores between them left out. -/
def digitRun (base : Nat) : List Char → List Char × List Char
  | [] => ([], [])
  | '_' :: c :: rest =>
    if (Literal.digit? base c).isSome then digitRun base (c :: rest) else ([], '_' :: c :: rest)
  | c :: rest =>
    if (Literal.digit? base c).isSome then
      let (digits, rest) := digitRun base rest
      (c :: digits, rest)
    else ([], c :: rest)

/-- Read some digits, of which there is at least one. -/
def readRun (base : Nat) (cs : List Char) : Option (List Char × List Char) :=
  match cs with
  | '_' :: _ => none
  | _ =>
    match digitRun base cs with
    | ([], _) => none
    | run => some run

/-- Read a sign; none means plus. The answer is whether it is a minus. -/
def readSign : List Char → Bool × List Char
  | '+' :: rest => (false, rest)
  | '-' :: rest => (true, rest)
  | cs => (false, cs)

/-- Read the digits of a decimal integer, which has no leading zeros. -/
def readWhole : List Char → Option (List Char × List Char)
  | '0' :: rest => some (['0'], rest)
  | cs => readRun 10 cs

/-- An integer, if it fits 64 bits. -/
def integer? (n : Int) : Option Value :=
  if Int64.minValue.toInt ≤ n ∧ n ≤ Int64.maxValue.toInt then some (.integer (Int64.ofInt n))
  else none

/-- Read an integer. -/
def readInteger (cs : List Char) : Option (Value × List Char) :=
  let inBase (base : Nat) (rest : List Char) : Option (Value × List Char) := do
    let (digits, rest) ← readRun base rest
    return (← integer? (← Literal.natural? base digits), rest)
  match cs with
  | '0' :: 'x' :: rest => inBase 16 rest
  | '0' :: 'o' :: rest => inBase 8 rest
  | '0' :: 'b' :: rest => inBase 2 rest
  | _ => do
    let (negative, rest) := readSign cs
    let (digits, rest) ← readWhole rest
    let n ← Literal.natural? 10 digits
    return (← integer? (if negative then -n else n), rest)

/-- Read the exponent of a number, with its mark. -/
def readExponent (cs : List Char) : Option (Int × List Char) :=
  let signed (rest : List Char) : Option (Int × List Char) := do
    let (negative, rest) := readSign rest
    let (digits, rest) ← readRun 10 rest
    let n ← Literal.natural? 10 digits
    return (if negative then -n else n, rest)
  match cs with
  | 'e' :: rest | 'E' :: rest => signed rest
  | _ => none

/-- Read a number with a point or an exponent. One that rounds to positive infinity is refused. -/
def readDecimal (cs : List Char) : Option (Value × List Char) := do
  let (negative, rest) := readSign cs
  let (whole, rest) ← readWhole rest
  let (fraction, exponent, rest) ← match rest with
    | '.' :: rest => do
      let (fraction, rest) ← readRun 10 rest
      match readExponent rest with
      | some (exponent, rest) => some (fraction, exponent, rest)
      | none => some (fraction, 0, rest)
    | _ => (readExponent rest).map fun (exponent, rest) => ([], exponent, rest)
  let digits ← Literal.natural? 10 (whole ++ fraction)
  -- the fraction's digits count as whole ones under a smaller exponent
  let x := Binary64.ofDecimal negative digits (exponent - fraction.length)
  if x.isInfinite && !negative then none else return (.float x, rest)

/-- Read infinity or the value that is no number. -/
def readSpecial (cs : List Char) : Option (Value × List Char) :=
  let (negative, rest) := readSign cs
  let signed (x : Binary64) : Value := .float (if negative then x.neg else x)
  match rest with
  | 'i' :: 'n' :: 'f' :: rest => some (signed (.infinity false), rest)
  | 'n' :: 'a' :: 'n' :: rest => some (signed ⟨0x7FF8000000000000⟩, rest)
  | _ => none

/-- Read a value that is neither an array nor a table in braces. -/
def readScalar (cs : List Char) : Option (Value × List Char) :=
  match cs with
  | '"' :: _ => (readText '"' cs).map fun (s, rest) => (.string s, rest)
  | '\'' :: _ => (readText '\'' cs).map fun (s, rest) => (.string s, rest)
  | 't' :: 'r' :: 'u' :: 'e' :: rest => some (.boolean true, rest)
  | 'f' :: 'a' :: 'l' :: 's' :: 'e' :: rest => some (.boolean false, rest)
  | _ =>
    match readMoment cs with
    | some (moment, rest) => some (.moment moment, rest)
    | none => (readDecimal cs).or ((readSpecial cs).or (readInteger cs))

end Fanout.Toml

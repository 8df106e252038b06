import Fanout.Json.Value

/-!
# Reading JSON

The reader works from left to right and stops at the first thing wrong. A text that merely ends too
early is told apart from one that is malformed. Whole numbers within 64 bits are kept exactly; other
numbers are read as their leading digits, as many as fit 64 bits, scaled by a power of ten.
-/

namespace Fanout.Json

/-- Why a text could not be read as the value asked for. -/
inductive ReadError where
  | endOfInput
  | malformed
  /-- The text is JSON so far, but not of the shape asked for. -/
  | mismatch (mismatch : Mismatch)
deriving DecidableEq, Repr

/-- The text of a reading error. -/
def ReadError.message : ReadError → String
  | endOfInput => "EOF while parsing a value"
  | malformed => "expected value"
  | mismatch m => m.message wording

/-- The blanks of JSON. -/
def isBlank (c : Char) : Bool := c == ' ' || c == '\t' || c == '\n' || c == '\r'

/-- Drop leading blanks. -/
def skipBlanks (cs : List Char) : List Char := cs.dropWhile isBlank

/-- The value of a decimal digit. -/
def digit? (c : Char) : Option Nat :=
  if '0' ≤ c ∧ c ≤ '9' then some (c.toNat - 48) else none

/-- Whether a text begins with a decimal digit. -/
def startsWithDigit : List Char → Bool
  | c :: _ => (digit? c).isSome
  | [] => false

/-- Drop leading decimal digits. -/
def skipDigits (cs : List Char) : List Char := cs.dropWhile fun c => (digit? c).isSome

/-! ## Numbers -/

/-- Append digits to `significand` while the result fits 64 bits. The answer counts those
appended. -/
def takeDigits (significand count : Nat) : List Char → Nat × Nat × List Char
  | [] => (significand, count, [])
  | c :: cs =>
    match digit? c with
    | none => (significand, count, c :: cs)
    | some d =>
      if significand * 10 + d < Nat.pow 2 64 then takeDigits (significand * 10 + d) (count + 1) cs
      else (significand, count, c :: cs)

/-- Divide by `10 ^ 308` as often as `fuel` says and the exponent, given without sign, requires. -/
def scaleDown (x : Binary64) (exponent : Nat) : (fuel : Nat) → Binary64
  | 0 => x.div (.ofNat (Nat.pow 10 (min exponent 308)))
  | fuel + 1 =>
    if exponent ≤ 308 ∨ x.isZero then x.div (.ofNat (Nat.pow 10 (min exponent 308)))
    else scaleDown (x.div (.ofNat (Nat.pow 10 308))) (exponent - 308) fuel

/-- The float `significand * 10 ^ exponent`, rounded once for each factor. It has to be finite. -/
def scaled (negative : Bool) (significand : Nat) (exponent : Int) : Except ReadError Value :=
  let sign (x : Binary64) : Value := .float (if negative then x.neg else x)
  let x := Binary64.ofNat significand
  if exponent < 0 then .ok (sign (scaleDown x (-exponent).toNat 4))
  else if x.isZero then .ok (sign x)
  else if exponent > 308 then .error .malformed
  else
    let y := x.mul (.ofNat (Nat.pow 10 exponent.toNat))
    if y.isFinite then .ok (sign y) else .error .malformed

/-- The greatest exponent that is taken as written. -/
def exponentLimit : Nat := Nat.pow 2 31 - 1

/-- The digits of an exponent, or none if they say more than `exponentLimit`; and the rest. -/
def takeExponent (value : Nat) : List Char → Option Nat × List Char
  | [] => (some value, [])
  | c :: cs =>
    match digit? c with
    | none => (some value, c :: cs)
    | some d =>
      if value * 10 + d ≤ exponentLimit then takeExponent (value * 10 + d) cs
      else (none, skipDigits (c :: cs))

/-- Read the exponent of a number, from behind its mark. -/
def readExponent (negative : Bool) (significand : Nat) (exponent : Int) (cs : List Char) :
    Except ReadError (Value × List Char) :=
  let (down, cs) := match cs with
    | '+' :: rest => (false, rest)
    | '-' :: rest => (true, rest)
    | _ => (false, cs)
  match cs with
  | [] => .error .endOfInput
  | c :: _ =>
    if (digit? c).isNone then .error .malformed
    else
      match takeExponent 0 cs with
      | (some e, rest) =>
        (scaled negative significand (if down then exponent - e else exponent + e)).map (·, rest)
      -- the result is beyond all floats, or zero
      | (none, rest) =>
        if significand ≠ 0 ∧ !down then .error .malformed
        else .ok (.float (.zero negative), rest)

/-- Read what may follow the digits of a number that is not a whole one. -/
def readTail (negative : Bool) (significand : Nat) (exponent : Int) (cs : List Char) :
    Except ReadError (Value × List Char) :=
  match cs with
  | 'e' :: rest | 'E' :: rest => readExponent negative significand exponent rest
  | _ => (scaled negative significand exponent).map (·, cs)

/-- Read the digits behind the point of a number. -/
def readFraction (negative : Bool) (significand : Nat) (exponent : Int) (cs : List Char) :
    Except ReadError (Value × List Char) :=
  match takeDigits significand 0 cs with
  | (_, 0, []) => .error .endOfInput
  | (significand, count, rest) =>
    if count = 0 ∧ !startsWithDigit rest then .error .malformed
    else readTail negative significand (exponent - count) (skipDigits rest)

/-- A whole number, as far as 64 bits hold it. -/
def wholeNumber (negative : Bool) (significand : Nat) : Value :=
  if !negative then .integer significand
  -- no integer is a negative zero
  else if significand = 0 ∨ Nat.pow 2 63 < significand then .float (Binary64.ofNat significand).neg
  else .integer (-significand)

/-- Read a number, from behind its sign. -/
def readNumber (negative : Bool) (cs : List Char) : Except ReadError (Value × List Char) :=
  match cs with
  | [] => .error .endOfInput
  | c :: rest =>
    if (digit? c).isNone then .error .malformed
    else if c = '0' ∧ startsWithDigit rest then .error .malformed
    else
      let (significand, _, rest) := takeDigits 0 0 cs
      -- digits that no longer fit only raise the exponent
      let skipped := skipDigits rest
      let exponent := rest.length - skipped.length
      match skipped with
      | '.' :: rest => readFraction negative significand exponent rest
      | 'e' :: rest | 'E' :: rest => readExponent negative significand exponent rest
      | _ =>
        if exponent = 0 then .ok (wholeNumber negative significand, skipped)
        else (scaled negative significand exponent).map (·, skipped)

/-! ## Texts -/

/-- The value of a digit in base sixteen, of either case. -/
def hexDigit? (c : Char) : Option Nat :=
  let n := c.toNat
  if 48 ≤ n ∧ n ≤ 57 then some (n - 48)
  else if 65 ≤ n ∧ n ≤ 70 then some (n - 55)
  else if 97 ≤ n ∧ n ≤ 102 then some (n - 87)
  else none

/-- The bytes of a text, as far as four of them. -/
def bytesAhead : List Char → Nat
  | a :: b :: c :: d :: _ => a.utf8Size + b.utf8Size + c.utf8Size + d.utf8Size
  | cs => cs.foldl (fun total c => total + c.utf8Size) 0

/-- Read the four digits of an escaped code unit. -/
def readCodeUnit (cs : List Char) : Except ReadError (Nat × List Char) :=
  if bytesAhead cs < 4 then .error .endOfInput
  else
    match cs with
    | a :: b :: c :: d :: rest =>
      match hexDigit? a, hexDigit? b, hexDigit? c, hexDigit? d with
      | some a, some b, some c, some d => .ok (((a * 16 + b) * 16 + c) * 16 + d, rest)
      | _, _, _, _ => .error .malformed
    | _ => .error .malformed

/-- Read the character that an escaped code unit begins: one outside the basic plane takes two. -/
def readEscapedUnit (cs : List Char) : Except ReadError (Char × List Char) := do
  let (high, rest) ← readCodeUnit cs
  -- the second half of a pair cannot come first
  if 0xDC00 ≤ high ∧ high < 0xE000 then
    throw .malformed
  if high < 0xD800 ∨ 0xE000 ≤ high then
    return (Char.ofNat high, rest)
  match rest with
  | [] => throw .endOfInput
  | '\\' :: [] => throw .endOfInput
  | '\\' :: 'u' :: rest =>
    let (low, rest) ← readCodeUnit rest
    if low < 0xDC00 ∨ 0xE000 ≤ low then
      throw .malformed
    return (Char.ofNat (0x10000 + (high - 0xD800) * 0x400 + (low - 0xDC00)), rest)
  | _ => throw .malformed

/-- The character behind a backslash, other than by its number. -/
def shortEscape? (c : Char) : Option Char :=
  if c = '"' ∨ c = '\\' ∨ c = '/' then some c
  else if c = 'b' then some (Char.ofNat 8)
  else if c = 'f' then some (Char.ofNat 12)
  else if c = 'n' then some '\n'
  else if c = 'r' then some '\r'
  else if c = 't' then some '\t'
  else none

/-- Read a text up to its closing quote. No text is longer than `fuel`. -/
def readChars : (fuel : Nat) → List Char → Except ReadError (List Char × List Char)
  | 0, _ => .error .endOfInput
  | _ + 1, [] => .error .endOfInput
  | fuel + 1, c :: cs =>
    if c = '"' then .ok ([], cs)
    else if c = '\\' then
      match cs with
      | [] => .error .endOfInput
      | 'u' :: cs => do
        let (a, rest) ← readEscapedUnit cs
        let (as, rest) ← readChars fuel rest
        return (a :: as, rest)
      | e :: cs =>
        match shortEscape? e with
        | none => .error .malformed
        | some a => do
          let (as, rest) ← readChars fuel cs
          return (a :: as, rest)
    else if c.toNat < 32 then .error .malformed
    else do
      let (as, rest) ← readChars fuel cs
      return (c :: as, rest)

/-- Read a text, from behind its opening quote. -/
def readString (cs : List Char) : Except ReadError (String × List Char) := do
  let (as, rest) ← readChars (cs.length + 1) cs
  return (String.ofList as, rest)

/-! ## Values -/

/-- Read the rest of a literal. -/
def readLiteral (value : Value) : List Char → List Char → Except ReadError (Value × List Char)
  | [], cs => .ok (value, cs)
  | _ :: _, [] => .error .endOfInput
  | l :: ls, c :: cs => if l = c then readLiteral value ls cs else .error .malformed

/-- Go on to the next element of an array, if there is one. -/
def nextElement (first : Bool) (cs : List Char) : Except ReadError (Bool × List Char) :=
  match skipBlanks cs with
  | [] => .error .endOfInput
  | ']' :: rest => .ok (false, rest)
  | c :: rest =>
    if first then .ok (true, c :: rest)
    else if c = ',' then
      match skipBlanks rest with
      | [] => .error .endOfInput
      | ']' :: _ => .error .malformed
      | rest => .ok (true, rest)
    else .error .malformed

/-- Read the name of the next member of an object, if there is one. -/
def nextName (first : Bool) (cs : List Char) : Except ReadError (Option String × List Char) :=
  let name : List Char → Except ReadError (Option String × List Char)
    | [] => .error .endOfInput
    | '"' :: rest => (readString rest).map fun r => (some r.1, r.2)
    | _ => .error .malformed
  match skipBlanks cs with
  | [] => .error .endOfInput
  | '\x7d' :: rest => .ok (none, rest)
  | c :: rest =>
    if first then name (c :: rest)
    else if c = ',' then name (skipBlanks rest)
    else .error .malformed

/-- Read the colon behind a name. -/
def readColon (cs : List Char) : Except ReadError (List Char) :=
  match skipBlanks cs with
  | [] => .error .endOfInput
  | ':' :: rest => .ok rest
  | _ => .error .malformed

/-- Arrays and objects that may be open at once, plus one. -/
def depthLimit : Nat := 128

mutual

/-- Read a value, inside containers of which `depth - 1` more may be opened. -/
def readValue (depth : Nat) : (fuel : Nat) → List Char → Except ReadError (Value × List Char)
  | 0, _ => .error .endOfInput
  | fuel + 1, cs =>
    match skipBlanks cs with
    | [] => .error .endOfInput
    | 'n' :: rest => readLiteral .null ['u', 'l', 'l'] rest
    | 't' :: rest => readLiteral (.bool true) ['r', 'u', 'e'] rest
    | 'f' :: rest => readLiteral (.bool false) ['a', 'l', 's', 'e'] rest
    | '-' :: rest => readNumber true rest
    | '"' :: rest => (readString rest).map fun r => (.string r.1, r.2)
    | '[' :: rest =>
      if depth ≤ 1 then .error .malformed
      else (readElements (depth - 1) true fuel rest).map fun r => (.array r.1, r.2)
    | '\x7b' :: rest =>
      if depth ≤ 1 then .error .malformed
      else (readMembers (depth - 1) true fuel rest).map fun r => (.object r.1, r.2)
    | c :: rest => if (digit? c).isSome then readNumber false (c :: rest) else .error .malformed

/-- Read the elements of an array up to its end. -/
def readElements (depth : Nat) (first : Bool) :
    (fuel : Nat) → List Char → Except ReadError (List Value × List Char)
  | 0, _ => .error .endOfInput
  | fuel + 1, cs => do
    match ← nextElement first cs with
    | (false, rest) => return ([], rest)
    | (true, rest) =>
      let (value, rest) ← readValue depth fuel rest
      let (values, rest) ← readElements depth false fuel rest
      return (value :: values, rest)

/-- Read the members of an object up to its end. -/
def readMembers (depth : Nat) (first : Bool) :
    (fuel : Nat) → List Char → Except ReadError (List (String × Value) × List Char)
  | 0, _ => .error .endOfInput
  | fuel + 1, cs => do
    match ← nextName first cs with
    | (none, rest) => return ([], rest)
    | (some name, rest) =>
      let rest ← readColon rest
      let (value, rest) ← readValue depth fuel rest
      let (members, rest) ← readMembers depth false fuel rest
      return ((name, value) :: members, rest)

end

/-- Fuel that no value at the front of a text uses up: every step but two reads a character. -/
def fuelFor (cs : List Char) : Nat := 2 * cs.length + 2

/-- Nothing but blanks may follow a document. -/
def finish (cs : List Char) : Except ReadError Unit :=
  if (skipBlanks cs).isEmpty then .ok () else .error .malformed

end Fanout.Json

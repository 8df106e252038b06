import Fanout.Text.Utf8

/-!
# Base64

Byte strings as text in the standard alphabet, padded to groups of four symbols. Every byte string
has one text, and `decode` accepts no other: padding is required where it belongs and nowhere else,
and bits that the last symbol does not need must be zero.
-/

namespace Fanout.Base64

/-- Why a text is not the base64 form of any byte string. -/
inductive Error where
  /-- A byte that is no symbol, or padding out of place. -/
  | invalidByte (offset : Nat) (byte : UInt8)
  /-- One symbol is left over, which cannot hold a byte. -/
  | invalidLength
  /-- The last symbol has bits that belong to no byte. -/
  | invalidLastSymbol (offset : Nat) (byte : UInt8)
  /-- Padding is missing or incomplete. -/
  | invalidPadding
deriving DecidableEq, Repr

def Error.message : Error → String
  | invalidByte offset byte => s!"Invalid byte {byte.toNat}, offset {offset}."
  | invalidLength => "Encoded text cannot have a 6-bit remainder."
  | invalidLastSymbol offset byte => s!"Invalid last symbol {byte.toNat}, offset {offset}."
  | invalidPadding => "Invalid padding"

def pad : UInt8 := 61

/-- The symbol for a six-bit number. -/
def symbol (n : Nat) : UInt8 :=
  if n < 26 then UInt8.ofNat (65 + n)
  else if n < 52 then UInt8.ofNat (97 + (n - 26))
  else if n < 62 then UInt8.ofNat (48 + (n - 52))
  else if n = 62 then 43
  else 47

/-- The six-bit number a symbol stands for. -/
def value? (b : UInt8) : Option Nat :=
  let n := b.toNat
  if 65 ≤ n ∧ n ≤ 90 then some (n - 65)
  else if 97 ≤ n ∧ n ≤ 122 then some (n - 97 + 26)
  else if 48 ≤ n ∧ n ≤ 57 then some (n - 48 + 52)
  else if n = 43 then some 62
  else if n = 47 then some 63
  else none

/-- The symbols of a byte string, padded. -/
def encodeBytes : List UInt8 → List UInt8
  | [] => []
  | [a] => [symbol (a.toNat / 4), symbol (a.toNat % 4 * 16), pad, pad]
  | [a, b] =>
    [symbol (a.toNat / 4), symbol (a.toNat % 4 * 16 + b.toNat / 16), symbol (b.toNat % 16 * 4), pad]
  | a :: b :: c :: rest =>
    symbol (a.toNat / 4) :: symbol (a.toNat % 4 * 16 + b.toNat / 16) ::
      symbol (b.toNat % 16 * 4 + c.toNat / 64) :: symbol (c.toNat % 64) :: encodeBytes rest

/-- The base64 text of a byte string. -/
def encode (bytes : List UInt8) : String :=
  String.ofList ((encodeBytes bytes).map fun b => Char.ofNat b.toNat)

/-- The bytes that six-bit numbers spell, and the bits left over at the end. -/
def pack : List Nat → List UInt8 × Nat
  | v :: w :: x :: y :: rest =>
    let r := pack rest
    (UInt8.ofNat (v * 4 + w / 16) :: UInt8.ofNat (w % 16 * 16 + x / 4) ::
      UInt8.ofNat (x % 4 * 64 + y) :: r.1, r.2)
  | [v, w, x] => ([UInt8.ofNat (v * 4 + w / 16), UInt8.ofNat (w % 16 * 16 + x / 4)], x % 4)
  | [v, w] => ([UInt8.ofNat (v * 4 + w / 16)], w % 16)
  | _ => ([], 0)

/-- The six-bit numbers of symbols, none of which may be padding; the first stands at `offset`. -/
def values (offset : Nat) : List UInt8 → Except Error (List Nat)
  | [] => .ok []
  | b :: rest =>
    match value? b with
    | some v => (values (offset + 1) rest).map (v :: ·)
    | none => .error (.invalidByte offset b)

/-- The six-bit numbers of the last symbols, which padding may follow. The first one stands at
`start`, the next one at `start + i`, and `padding` is the place of the first padding byte and the
number of them so far. -/
def lastValues (start i : Nat) (padding : Option (Nat × Nat)) :
    List UInt8 → Except Error (List Nat × Nat)
  | [] => .ok ([], padding.elim 0 Prod.snd)
  | b :: rest =>
    if b = pad then
      if i % 4 < 2 then .error (.invalidByte (start + padding.elim i Prod.fst) pad)
      else
        let seen := match padding with
          | none => (i, 1)
          | some (first, count) => (first, count + 1)
        lastValues start (i + 1) (some seen) rest
    else
      match padding with
      | some (first, _) => .error (.invalidByte (start + first) pad)
      | none =>
        match value? b with
        | none => .error (.invalidByte (start + i) b)
        | some v => (lastValues start (i + 1) none rest).map fun r => (v :: r.1, r.2)

/-- The last one to eight bytes of a text are the ones in which padding may occur. -/
def lastStart (length : Nat) : Nat := (length - 1) / 8 * 8

/-- The bytes that a padded run of symbols stands for. -/
def decodeBytes (text : List UInt8) : Except Error (List UInt8) := do
  -- one symbol is left over; that the last byte is none at all is the better report
  if text.length % 4 = 1 then
    match text.getLast? with
    | some b =>
      if b ≠ pad ∧ value? b = none then throw (.invalidByte (text.length - 1) b)
      throw .invalidLength
    | none => throw .invalidLength
  let start := lastStart text.length
  let front ← values 0 (text.take start)
  let (back, padding) ← lastValues start 0 none (text.drop start)
  if (back.length + padding) % 4 ≠ 0 then
    throw .invalidPadding
  -- bits that belong to no byte would give one byte string several texts
  let (bytes, spare) := pack (front ++ back)
  if spare ≠ 0 then
    let offset := start + back.length - 1
    throw (.invalidLastSymbol offset (text.getD offset pad))
  return bytes

/-- The byte string a base64 text stands for. -/
def decode (text : String) : Except Error (List UInt8) := decodeBytes (Utf8.encode text)

end Fanout.Base64

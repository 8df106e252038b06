import Fanout.Number.Binary64
import Fanout.Text.Utf8

/-!
# Writing MessagePack

Each value has one written form: numbers in the fewest bytes that hold them, lengths likewise.
Integers that are not negative are written without a sign. Lengths are counted modulo `2 ^ 32`, the
most the format can express.
-/

namespace Fanout.MessagePack

abbrev Bytes := List UInt8

/-- The `width` low bytes of a number, most significant first. -/
def bigEndian : (width : Nat) → Nat → Bytes
  | 0, _ => []
  | width + 1, n => bigEndian width (n / 256) ++ [UInt8.ofNat (n % 256)]

/-- The number whose bytes these are, most significant first. -/
def ofBigEndian (bytes : Bytes) : Nat := bytes.foldl (fun n b => n * 256 + b.toNat) 0

/-- A number without a sign. -/
def writeNat (n : Nat) : Bytes :=
  if n < 0x80 then [UInt8.ofNat n]
  else if n < 0x100 then 0xCC :: bigEndian 1 n
  else if n < 0x10000 then 0xCD :: bigEndian 2 n
  else if n < 0x100000000 then 0xCE :: bigEndian 4 n
  else 0xCF :: bigEndian 8 n

/-- A number that may be negative. -/
def writeInt (n : Int) : Bytes :=
  if 0 ≤ n then writeNat n.toNat
  else if -32 ≤ n then [UInt8.ofNat (n + 256).toNat]
  else if -0x80 ≤ n then 0xD0 :: bigEndian 1 (n + 0x100).toNat
  else if -0x8000 ≤ n then 0xD1 :: bigEndian 2 (n + 0x10000).toNat
  else if -0x80000000 ≤ n then 0xD2 :: bigEndian 4 (n + 0x100000000).toNat
  else 0xD3 :: bigEndian 8 (n + 0x10000000000000000).toNat

/-- A float, always in eight bytes. -/
def writeFloat (x : Binary64) : Bytes := 0xCB :: bigEndian 8 x.bits.toNat

def writeBool (b : Bool) : Bytes := [if b then 0xC3 else 0xC2]

def writeNil : Bytes := [0xC0]

/-- The head of a text of `length` bytes. -/
def writeStrHead (length : Nat) : Bytes :=
  let n := length % 0x100000000
  if n < 32 then [UInt8.ofNat (0xA0 + n)]
  else if n < 0x100 then 0xD9 :: bigEndian 1 n
  else if n < 0x10000 then 0xDA :: bigEndian 2 n
  else 0xDB :: bigEndian 4 n

def writeStr (s : String) : Bytes :=
  let body := Utf8.encode s
  writeStrHead body.length ++ body

/-- The head of an array of `length` elements. -/
def writeArrayHead (length : Nat) : Bytes :=
  let n := length % 0x100000000
  if n < 16 then [UInt8.ofNat (0x90 + n)]
  else if n < 0x10000 then 0xDC :: bigEndian 2 n
  else 0xDD :: bigEndian 4 n

/-- The head of a map of `length` entries. -/
def writeMapHead (length : Nat) : Bytes :=
  let n := length % 0x100000000
  if n < 16 then [UInt8.ofNat (0x80 + n)]
  else if n < 0x10000 then 0xDE :: bigEndian 2 n
  else 0xDF :: bigEndian 4 n

/-- A map with the given fields, each already written. -/
def writeRecord (fields : List (String × Bytes)) : Bytes :=
  writeMapHead fields.length ++ fields.flatMap fun field => writeStr field.1 ++ field.2

end Fanout.MessagePack

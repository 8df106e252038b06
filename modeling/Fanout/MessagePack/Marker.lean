/-!
# MessagePack markers

The first byte of every MessagePack value says what follows. `Marker.ofByte` reads all 256 of them.
-/

namespace Fanout.MessagePack

/-- What the first byte of a value announces. -/
inductive Marker where
  /-- A number from 0 to 127, in the marker itself. -/
  | fixPos (n : Nat)
  /-- A number from -32 to -1, in the marker itself. -/
  | fixNeg (n : Int)
  /-- A map of up to fifteen entries. -/
  | fixMap (n : Nat)
  /-- An array of up to fifteen elements. -/
  | fixArray (n : Nat)
  /-- A text of up to thirty-one bytes. -/
  | fixStr (n : Nat)
  /-- The absent value. -/
  | null
  /-- The one byte the format never uses. -/
  | reserved
  | bool (b : Bool)
  /-- A byte string, its length in `width` bytes. -/
  | bin (width : Nat)
  /-- An extension value, its length in `width` bytes. -/
  | ext (width : Nat)
  /-- A float of `width` bytes. -/
  | float (width : Nat)
  /-- A number of `width` bytes without a sign. -/
  | uint (width : Nat)
  /-- A number of `width` bytes with a sign. -/
  | int (width : Nat)
  /-- An extension value of `length` bytes. -/
  | fixExt (length : Nat)
  /-- A text, its length in `width` bytes. -/
  | str (width : Nat)
  /-- An array, its length in `width` bytes. -/
  | array (width : Nat)
  /-- A map, its length in `width` bytes. -/
  | map (width : Nat)
deriving DecidableEq, Repr

namespace Marker

/-- The marker a byte stands for. -/
def ofByte (b : UInt8) : Marker :=
  let n := b.toNat
  if n < 0x80 then fixPos n
  else if n < 0x90 then fixMap (n - 0x80)
  else if n < 0xA0 then fixArray (n - 0x90)
  else if n < 0xC0 then fixStr (n - 0xA0)
  else if n = 0xC0 then null
  else if n = 0xC1 then reserved
  else if n < 0xC4 then bool (n = 0xC3)
  else if n < 0xC7 then bin (Nat.pow 2 (n - 0xC4))
  else if n < 0xCA then ext (Nat.pow 2 (n - 0xC7))
  else if n < 0xCC then float (Nat.pow 2 (n - 0xCA + 2))
  else if n < 0xD0 then uint (Nat.pow 2 (n - 0xCC))
  else if n < 0xD4 then int (Nat.pow 2 (n - 0xD0))
  else if n < 0xD9 then fixExt (Nat.pow 2 (n - 0xD4))
  else if n < 0xDC then str (Nat.pow 2 (n - 0xD9))
  else if n < 0xDE then array (Nat.pow 2 (n - 0xDC + 1))
  else if n < 0xE0 then map (Nat.pow 2 (n - 0xDE + 1))
  else fixNeg ((n : Int) - 256)

/-- The name of a marker in messages. -/
def name : Marker → String
  | fixPos n => s!"FixPos({n})"
  | fixNeg n => s!"FixNeg({n})"
  | fixMap n => s!"FixMap({n})"
  | fixArray n => s!"FixArray({n})"
  | fixStr n => s!"FixStr({n})"
  | null => "Null"
  | reserved => "Reserved"
  | bool b => if b then "True" else "False"
  | bin width => s!"Bin{8 * width}"
  | ext width => s!"Ext{8 * width}"
  | float width => s!"F{8 * width}"
  | uint width => s!"U{8 * width}"
  | int width => s!"I{8 * width}"
  | fixExt length => s!"FixExt{length}"
  | str width => s!"Str{8 * width}"
  | array width => s!"Array{8 * width}"
  | map width => s!"Map{8 * width}"

end Marker

end Fanout.MessagePack

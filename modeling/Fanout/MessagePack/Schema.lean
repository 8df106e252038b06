import Fanout.OrderedMap
import Fanout.Fault
import Fanout.Partition
import Fanout.MessagePack.Read

/-!
# Schemas

A `Schema` pairs how the values of a type are written with how they are read back. There is one for
each type that crosses a process boundary, built from the schemas of its parts. A byte string is
accepted wherever a sequence is, as the sequence of its bytes; a record is read from a map by field
names or field numbers, or from a sequence in field order.
-/

namespace Fanout.MessagePack

/-- How values of a type are written, and read back. -/
structure Schema (α : Type) where
  write : α → Bytes
  read : Reader α

namespace Schema

/-- Numbers from `-2 ^ 63` up to `2 ^ 63`. -/
def int64 : Schema Int64 where
  write n := writeInt n.toInt
  read := do
    match ← readScalarHead with
    | .nat n =>
      if n < Nat.pow 2 63 then return Int64.ofNat n else refuse (.invalidValue (.integer n) "i64")
    | .int n => return Int64.ofInt n
    | head => reject head "i64"

/-- Numbers from zero up to `2 ^ 64`. -/
def uint64 : Schema UInt64 where
  write n := writeNat n.toNat
  read := do
    match ← readScalarHead with
    | .nat n => return UInt64.ofNat n
    | .int n =>
      if 0 ≤ n then return UInt64.ofNat n.toNat else refuse (.invalidValue (.integer n) "u64")
    | head => reject head "u64"

/-- Floats; a number without a fraction is read as the nearest float. -/
def float : Schema Binary64 where
  write := writeFloat
  read := do
    match ← readScalarHead with
    | .nat n => return .ofNat n
    | .int n => return .ofInt n
    | .float x => return x
    | head => reject head "f64"

def bool : Schema Bool where
  write := writeBool
  read := do
    match ← readScalarHead with
    | .bool b => return b
    | head => reject head "a boolean"

/-- The absent value. -/
def unit : Schema Unit where
  write _ := writeNil
  read := do
    match ← readHead with
    | .nil => return ()
    | head => reject head "unit"

/-- Texts; a byte string that is UTF-8 will do. -/
def string : Schema String where
  write := writeStr
  read := do
    match ← readHead with
    | .str length => readText length
    | .bin length =>
      match Utf8.decode (← readBody length) with
      | .ok s => return s
      | .error _ => refuse (.invalidValue .bytes "a string")
    | head => reject head "a string"

/-- An absent value or one of another type. -/
def option {α : Type} (some : Schema α) : Schema (Option α) where
  write
    | none => writeNil
    | .some a => some.write a
  read
    -- the marker alone decides, so an absent value inside a present one is lost
    | 0xC0 :: bytes => .ok (none, bytes)
    | bytes => (some.read bytes).map fun r => (.some r.1, r.2)

/-- Read a sequence, or hand a map to `entries`. `items` is told how many elements there are and
answers how many it left; those left over in an array are too many. -/
def readSequenceOr {α : Type} (expected : String) (items : Nat → Reader (α × Nat))
    (entries : Nat → Reader α) : Reader α := do
  match ← readHead with
  | .array length => do
    let (a, left) ← items length
    if left = 0 then return a else throw (.excess (length - left))
  | .bin length => do
    let body ← readBody length
    -- each byte counts as a number of its own
    match items length (body.flatMap fun b => [0xCC, b]) with
    | .ok ((a, _), _) => return a
    | .error e => throw e
  | .map length => entries length
  | head => reject head expected

/-- Read a sequence. -/
def readSequence {α : Type} (expected : String) (items : Nat → Reader (α × Nat)) : Reader α :=
  readSequenceOr expected items fun length => reject (.map length) expected

/-- Read a value `count` times. -/
def readMany {α : Type} (read : Reader α) : (count : Nat) → Reader (List α)
  | 0 => return []
  | count + 1 => do
    let a ← read
    let rest ← readMany read count
    return a :: rest

/-- Pairs, as sequences of two. -/
def pair {α β : Type} (first : Schema α) (second : Schema β) : Schema (α × β) where
  write p := writeArrayHead 2 ++ first.write p.1 ++ second.write p.2
  read :=
    let expected := "a tuple of size 2"
    readSequence expected fun
      | 0 => refuse (.invalidLength 0 expected)
      | 1 => do
        let _ ← first.read
        refuse (.invalidLength 1 expected)
      | n + 2 => do
        let a ← first.read
        let b ← second.read
        return ((a, b), n)

/-- Lists, as sequences. -/
def list {α : Type} (element : Schema α) : Schema (List α) where
  write as := writeArrayHead as.length ++ as.flatMap element.write
  read := readSequence "a sequence" fun count => do return (← readMany element.read count, 0)

/-- Maps, written in ascending key order; of several entries for one key the last is read. -/
def map {κ ν : Type} {order : KeyOrder κ} (key : Schema κ) (value : Schema ν) :
    Schema (OrderedMap order ν) where
  write m := writeMapHead m.entries.length ++
    m.entries.flatMap fun entry => key.write entry.1 ++ value.write entry.2
  read := do
    match ← readHead with
    | .map count =>
      let entry : Reader (κ × ν) := do
        let k ← key.read
        let v ← value.read
        return (k, v)
      return .ofList (← readMany entry count)
    | head => reject head "a map"

/-- A type with one value and a name; the value is written as an empty array. -/
def unitStruct (name : String) : Schema Unit where
  write _ := writeArrayHead 0
  read
    | 0x90 :: bytes => .ok ((), bytes)
    | bytes => (do
      match ← readHead with
      | .nil => return ()
      | head => reject head s!"unit struct {name}" : Reader Unit) bytes

/-- The number of the field a key names: by name, by its bytes, or by the number itself. -/
def readFieldKey (names : List String) : Reader (Option Nat) := do
  let byName (length : Nat) : Reader (Option Nat) := do
    let body ← readBody length
    return names.findIdx? fun name => Utf8.encode name == body
  match ← readHead with
  | .nat n => return if n < names.length then some n else none
  | .str length => byName length
  | .bin length => byName length
  | head => reject head "field identifier"

/-- What is expected of a record with `count` fields that is read from a sequence. -/
def elementsOf (name : String) (count : Nat) : String :=
  s!"struct {name} with {count} element" ++ if count = 1 then "" else "s"

/-- The entries of a record with one field, of which `slot` has been read. -/
def readFields₁ {α : Type} (field : String) (a : Schema α) :
    (count : Nat) → Option α → Reader α
  | 0, some value => return value
  | 0, none => refuse (.missingField field)
  | count + 1, slot => do
    match ← readFieldKey [field] with
    -- a field of another name is no error
    | none =>
      skipValue
      readFields₁ field a count slot
    | some _ =>
      if slot.isSome then refuse (.duplicateField field)
      else do
        let value ← a.read
        readFields₁ field a count (some value)

/-- A record with one field. -/
def record₁ {α : Type} (name field : String) (a : Schema α) : Schema α where
  write value := writeRecord [(field, a.write value)]
  read :=
    readSequenceOr s!"struct {name}"
      (fun
        | 0 => refuse (.invalidLength 0 (elementsOf name 1))
        | n + 1 => do
          let value ← a.read
          return (value, n))
      fun count => readFields₁ field a count none

/-- The entries of a record with two fields, of which the slots have been read. -/
def readFields₂ {α β : Type} (key : Reader (Option Nat)) (first second : String) (a : Schema α)
    (b : Schema β) : (count : Nat) → Option α → Option β → Reader (α × β)
  | 0, some x, some y => return (x, y)
  | 0, none, _ => refuse (.missingField first)
  | 0, some _, none => refuse (.missingField second)
  | count + 1, x, y => do
    match ← key with
    | none =>
      skipValue
      readFields₂ key first second a b count x y
    | some 0 =>
      if x.isSome then refuse (.duplicateField first)
      else do
        let value ← a.read
        readFields₂ key first second a b count (some value) y
    | some _ =>
      if y.isSome then refuse (.duplicateField second)
      else do
        let value ← b.read
        readFields₂ key first second a b count x (some value)

/-- A record with two fields. -/
def record₂ {α β : Type} (name first second : String) (a : Schema α) (b : Schema β) :
    Schema (α × β) where
  write value := writeRecord [(first, a.write value.1), (second, b.write value.2)]
  read :=
    let expected := elementsOf name 2
    readSequenceOr s!"struct {name}"
      (fun
        | 0 => refuse (.invalidLength 0 expected)
        | 1 => do
          let _ ← a.read
          refuse (.invalidLength 1 expected)
        | n + 2 => do
          let x ← a.read
          let y ← b.read
          return ((x, y), n))
      fun count => readFields₂ (readFieldKey [first, second]) first second a b count none none

/-- The key of a range's bound, which has no other fields and no field numbers. -/
def readBoundKey : Reader (Option Nat) := do
  let byName (name : String) : Reader (Option Nat) :=
    match ["start", "end"].findIdx? (· == name) with
    | some i => return some i
    | none => refuse (.unknownField name ["start", "end"])
  match ← readHead with
  | .str length => do byName (← readText length)
  | .bin length => do byName (Utf8.decodeLossy (← readBody length))
  | head => reject head "`start` or `end`"

/-- Half-open ranges of numbers, given by their bounds. -/
def range : Schema (UInt64 × UInt64) where
  write value :=
    writeRecord [("start", uint64.write value.1), ("end", uint64.write value.2)]
  read :=
    readSequenceOr "struct Range"
      (fun
        | 0 => refuse (.invalidLength 0 "struct Range")
        | 1 => do
          let _ ← uint64.read
          refuse (.invalidLength 1 "struct Range")
        | n + 2 => do
          let x ← uint64.read
          let y ← uint64.read
          return ((x, y), n))
      fun count => readFields₂ readBoundKey "start" "end" uint64 uint64 count none none

/-- Read one value from a byte string and ignore what follows it. -/
def decode {α : Type} (schema : Schema α) (bytes : Bytes) : Except ReadError α :=
  (schema.read bytes).map Prod.fst

end Schema

end Fanout.MessagePack

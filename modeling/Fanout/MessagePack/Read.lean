import Fanout.Mismatch
import Fanout.MessagePack.Marker
import Fanout.MessagePack.Write

/-!
# Reading MessagePack

A `Reader` takes a value off the front of a byte string. Values are read by their marker: `readHead`
reads a marker with the numbers that belong to it, and what is not wanted is reported by what was
found (`reject`) or stepped over (`skipValue`). Bytes after the value are no concern of a reader.
-/

namespace Fanout.MessagePack

/-- Why a byte string could not be read. -/
inductive ReadError where
  /-- There is no byte where a value should begin. -/
  | noMarker
  /-- The bytes end inside a number or a length. -/
  | shortData
  /-- The bytes end inside a text or a byte string. -/
  | shortBody
  /-- A value begins with a marker that is out of place. -/
  | wrongMarker (marker : Marker)
  /-- An array has more elements than the `used` ones. -/
  | excess (used : Nat)
  /-- Containers are nested too deeply. -/
  | tooDeep
  /-- A text is no UTF-8. -/
  | notText (error : Utf8.Error)
  /-- The value does not have the shape asked for. -/
  | mismatch (mismatch : Mismatch)
deriving DecidableEq, Repr

def ReadError.message : ReadError → String
  | noMarker => "IO error while reading marker: failed to fill whole buffer"
  | shortData => "IO error while reading data: failed to fill whole buffer"
  | shortBody => "IO error while reading data: unexpected end of file"
  | wrongMarker marker => "wrong msgpack marker " ++ marker.name
  | excess used => s!"array had incorrect length, expected {used}"
  | tooDeep => "depth limit exceeded"
  | notText error => "string found to be invalid utf8: " ++ error.message
  | mismatch m => m.message .standard

/-- Takes a value off the front of a byte string. -/
abbrev Reader (α : Type) := StateT Bytes (Except ReadError) α

/-- Report a mismatch. -/
def refuse {α : Type} (m : Mismatch) : Reader α := throw (.mismatch m)

/-- The first `count` bytes and the rest, if there are so many. -/
def takeExact : (count : Nat) → Bytes → Option (Bytes × Bytes)
  | 0, bytes => some ([], bytes)
  | _ + 1, [] => none
  | count + 1, b :: bytes => (takeExact count bytes).map fun r => (b :: r.1, r.2)

/-- What is left after taking bytes is no longer than before. -/
theorem length_takeExact_le {count : Nat} {bytes : Bytes} {r : Bytes × Bytes}
    (h : takeExact count bytes = some r) : r.2.length ≤ bytes.length := by
  induction count generalizing bytes r with
  | zero => simp [takeExact] at h; simp [← h]
  | succ count ih =>
    cases bytes with
    | nil => simp [takeExact] at h
    | cons b bytes =>
      simp only [takeExact, Option.map_eq_some_iff] at h
      obtain ⟨r', hr, rfl⟩ := h
      have := ih hr
      exact Nat.le_succ_of_le this

/-- A marker with the numbers that belong to it, but not the elements or bytes that follow. -/
inductive Head where
  /-- The absent value. -/
  | nil
  | bool (b : Bool)
  /-- A number written without a sign. -/
  | nat (n : Nat)
  /-- A number written with a sign. -/
  | int (n : Int)
  | float (x : Binary64)
  /-- A text of so many bytes. -/
  | str (length : Nat)
  /-- A byte string of so many bytes. -/
  | bin (length : Nat)
  /-- An array of so many elements. -/
  | array (length : Nat)
  /-- A map of so many entries. -/
  | map (length : Nat)
  /-- An extension value of so many bytes. -/
  | ext (length : Nat)
deriving DecidableEq, Repr

/-- The number in the next `width` bytes, handed to `make`. -/
def withNumber (width : Nat) (make : Nat → Head) (bytes : Bytes) :
    Except ReadError (Head × Bytes) :=
  match takeExact width bytes with
  | some r => .ok (make (ofBigEndian r.1), r.2)
  | none => .error .shortData

/-- The number in two's complement of `width` bytes that is `n` without a sign. -/
def signed (width n : Nat) : Int :=
  if n < Nat.pow 2 (8 * width - 1) then n else (n : Int) - Nat.pow 2 (8 * width)

/-- Read the numbers that belong to a marker. -/
def Head.ofMarker (marker : Marker) (bytes : Bytes) : Except ReadError (Head × Bytes) :=
  match marker with
  | .fixPos n => .ok (.nat n, bytes)
  | .fixNeg n => .ok (.int n, bytes)
  | .fixMap n => .ok (.map n, bytes)
  | .fixArray n => .ok (.array n, bytes)
  | .fixStr n => .ok (.str n, bytes)
  | .null => .ok (.nil, bytes)
  | .reserved => .error (.wrongMarker .reserved)
  | .bool b => .ok (.bool b, bytes)
  | .bin width => withNumber width .bin bytes
  | .ext width => withNumber width .ext bytes
  | .float width =>
    withNumber width
      (fun n => .float (if width = 4 then .ofBinary32 (.ofNat n) else ⟨.ofNat n⟩)) bytes
  | .uint width => withNumber width .nat bytes
  | .int width => withNumber width (fun n => .int (signed width n)) bytes
  | .fixExt length => .ok (.ext length, bytes)
  | .str width => withNumber width .str bytes
  | .array width => withNumber width .array bytes
  | .map width => withNumber width .map bytes

/-- Read a marker and the numbers that belong to it. -/
def readHead : Reader Head
  | [] => .error .noMarker
  | b :: bytes => Head.ofMarker (.ofByte b) bytes

/-- Reading a number leaves no more than before. -/
theorem length_withNumber_le {width : Nat} {make : Nat → Head} {bytes rest : Bytes} {head : Head}
    (h : withNumber width make bytes = .ok (head, rest)) : rest.length ≤ bytes.length := by
  unfold withNumber at h
  split at h
  · rename_i r hr
    simp only [Except.ok.injEq, Prod.mk.injEq] at h
    rw [← h.2]
    exact length_takeExact_le hr
  · simp at h

/-- Reading a head uses up at least one byte. -/
theorem length_readHead_lt {bytes rest : Bytes} {head : Head}
    (h : readHead bytes = .ok (head, rest)) : rest.length < bytes.length := by
  cases bytes with
  | nil => simp [readHead] at h
  | cons b bytes =>
    simp only [readHead, Head.ofMarker] at h
    refine Nat.lt_succ_of_le ?_
    split at h <;>
      first
        | (simp only [Except.ok.injEq, Prod.mk.injEq] at h; exact h.2 ▸ Nat.le_refl _)
        | exact length_withNumber_le h
        | simp at h

/-- The next `length` bytes. -/
def readBody (length : Nat) : Reader Bytes := fun bytes =>
  match takeExact length bytes with
  | some r => .ok r
  | none => .error .shortBody

/-- The text in the next `length` bytes. -/
def readText (length : Nat) : Reader String := do
  match Utf8.decode (← readBody length) with
  | .ok s => return s
  | .error e => throw (.notText e)

/-- Report what was found instead of what was expected. -/
def reject {α : Type} (head : Head) (expected : String) : Reader α := do
  let found : Found ← match head with
    | .nil => pure .unit
    | .bool b => pure (.boolean b)
    | .nat n => pure (.integer n)
    | .int n => pure (.integer n)
    | .float x => pure (.float x)
    | .str length => do pure (.string (← readText length))
    | .bin length => do
      let _ ← readBody length
      pure .bytes
    | .array _ => pure .sequence
    | .map _ => pure .map
    | .ext _ => pure .wrapped
  refuse (.invalidType found expected)

/-- Read the head of a number, a truth value or the absent value; no other marker is looked into. -/
def readScalarHead : Reader Head
  | [] => .error .noMarker
  | b :: bytes =>
    match Marker.ofByte b with
    | marker@(.fixPos _) | marker@(.fixNeg _) | marker@(.uint _) | marker@(.int _)
    | marker@(.float _) | marker@.null | marker@(.bool _) => Head.ofMarker marker bytes
    | marker => .error (.wrongMarker marker)

/-- Containers that may be open at once, plus one. -/
def depthLimit : Nat := 1024

/-- Step over values: `pending` holds how many are left in each open container, innermost first, and
`outside` containers are open around them. -/
def skipPending (outside : Nat) (pending : List Nat) (bytes : Bytes) :
    Except ReadError (Unit × Bytes) :=
  match pending with
  | [] => .ok ((), bytes)
  -- the innermost container is done
  | 0 :: rest => skipPending outside rest bytes
  | (n + 1) :: rest =>
    match h : readHead bytes with
    | .error e => .error e
    | .ok (head, bytes') =>
      have := length_readHead_lt h
      let enter (count : Nat) : Except ReadError (Unit × Bytes) :=
        if outside + rest.length + 1 ≥ depthLimit then .error .tooDeep
        else skipPending outside (count :: n :: rest) bytes'
      let stepOver (length : Nat) : Except ReadError (Unit × Bytes) :=
        match hb : takeExact length bytes' with
        | none => .error .shortBody
        | some r =>
          have := length_takeExact_le hb
          skipPending outside (n :: rest) r.2
      match head with
      | .array count => enter count
      | .map count => enter (2 * count)
      | .str length => stepOver length
      | .bin length => stepOver length
      -- an extension value has one byte more, which tells its type
      | .ext length =>
        if bytes'.isEmpty then .error .shortData else stepOver (length + 1)
      | _ => skipPending outside (n :: rest) bytes'
termination_by (bytes.length, pending.length)
decreasing_by all_goals (simp_wf; omega)

/-- Step over one value inside a single open container. -/
def skipValue : Reader Unit := skipPending 1 [1]

end Fanout.MessagePack

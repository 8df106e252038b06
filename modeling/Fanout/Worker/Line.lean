import Fanout.Json.Read
import Fanout.Json.Value
import Fanout.Text.Characters
import Fanout.Worker.Message

/-!
# Lines

Each message travels as one line: a JSON object whose member `type` says what the message is.
`encode` writes the members in a fixed order; `decode` takes them in any order, ignores members it
does not know, and also takes the members' values as an array. The type is looked at as soon as it
is met, everything else once the whole object has been read.
-/

namespace Fanout

/-- A message of two kinds or more, told apart by its type. -/
structure Tagged where
  tag : String
  /-- The other members, or the elements that stand for them. -/
  content : Json.Value

namespace Json

/-- The member that says what a message is. -/
def tagName : String := "type"

/-- The tag at the front of a text; anything but one of the known tags is an error. -/
def readTag (tags : List String) (depth fuel : Nat) (cs : List Char) :
    Except ReadError (String × List Char) := do
  let expected := "variant identifier"
  match skipBlanks cs with
  | '[' :: _ => throw (.mismatch (.invalidType .sequence expected))
  | '\x7b' :: _ => throw (.mismatch (.invalidType .map expected))
  | cs =>
    match ← readValue depth fuel cs with
    | (.string tag, rest) =>
      if tags.contains tag then return (tag, rest)
      else throw (.mismatch (.unknownVariant tag tags))
    | (value, _) => throw (.mismatch (.invalidType value.found expected))

/-- Read the members of a tagged object: its tag, if it has one, and the others. -/
def readTaggedMembers (tags : List String) (depth : Nat) (first : Bool) (tag : Option String) :
    (fuel : Nat) → List Char →
      Except ReadError ((Option String × List (String × Value)) × List Char)
  | 0, _ => .error .endOfInput
  | fuel + 1, cs => do
    match ← nextName first cs with
    | (none, rest) => return ((tag, []), rest)
    | (some name, rest) =>
      if name = tagName then
        -- a second tag is refused whatever it says
        if tag.isSome then
          throw (.mismatch (.duplicateField tagName))
        let rest ← readColon rest
        let (found, rest) ← readTag tags depth fuel rest
        readTaggedMembers tags depth false (some found) fuel rest
      else
        let rest ← readColon rest
        let (value, rest) ← readValue depth fuel rest
        let ((tag, members), rest) ← readTaggedMembers tags depth false tag fuel rest
        return ((tag, (name, value) :: members), rest)

/-- Read a tagged message of the kind `kind`, with one of the given tags. -/
def readTagged (kind : String) (tags : List String) (cs : List Char) :
    Except ReadError (Tagged × List Char) := do
  let fuel := fuelFor cs
  -- the members are inside one container already
  let depth := depthLimit - 1
  let missing : Mismatch := .missingField tagName
  match skipBlanks cs with
  | '\x7b' :: rest =>
    match ← readTaggedMembers tags depth true none fuel rest with
    | ((some tag, members), rest) => return (⟨tag, .object members⟩, rest)
    | ((none, _), _) => throw (.mismatch missing)
  | '[' :: rest =>
    match ← nextElement true rest with
    | (false, _) => throw (.mismatch missing)
    | (true, rest) =>
      let (tag, rest) ← readTag tags depth fuel rest
      let (elements, rest) ← readElements depth false fuel rest
      return (⟨tag, .array elements⟩, rest)
  | cs =>
    let (value, _) ← readValue depthLimit fuel cs
    throw (.mismatch (.invalidType value.found s!"internally tagged enum {kind}"))

/-! ## Members -/

/-- A computation's position. -/
def Value.toIndex : Value → Except Mismatch UInt64
  | .integer n =>
    if 0 ≤ n then .ok (UInt64.ofNat n.toNat) else .error (.invalidValue (.integer n) "usize")
  | value => .error (.invalidType value.found "usize")

/-- A text. -/
def Value.toText : Value → Except Mismatch String
  | .string s => .ok s
  | value => .error (.invalidType value.found "a string")

/-- A payload, from its text form. -/
def Value.toPayload (value : Value) : Except Mismatch Payload := do
  match Payload.ofText (← value.toText) with
  | .ok payload => return payload
  | .error e => throw (.other e.message)

/-- A failure kind by its name. -/
def failureKindOf (name : String) : Except Mismatch FailureKind :=
  if name = "transfer" then .ok .transfer
  else if name = "execution" then .ok .execution
  else .error (.unknownVariant name ["transfer", "execution"])

/-- A failure kind: its name, or an object whose one member has that name and says nothing. -/
def Value.toFailureKind : Value → Except Mismatch FailureKind
  | .string name => failureKindOf name
  | .object [(name, value)] => do
    let kind ← failureKindOf name
    match value with
    | .null | .object [] => return kind
    | value => throw (.invalidType value.found "unit")
  | .object _ => .error (.invalidValue .map "map with a single key")
  | value => .error (.invalidType value.found "string or map")

/-- Put the value of a member into a slot that has to be empty. -/
def fill {α : Type} (slot : Option α) (name : String) (read : Value → Except Mismatch α)
    (value : Value) : Except Mismatch (Option α) :=
  match slot with
  | some _ => .error (.duplicateField name)
  | none => (read value).map some

/-- The value of a slot that has to be filled. -/
def filled {α : Type} (slot : Option α) (name : String) : Except Mismatch α :=
  match slot with
  | some a => .ok a
  | none => .error (.missingField name)

/-- The element at a place of an array in which there have to be enough. -/
def element {α : Type} (elements : List Value) (place : Nat) (expected : String)
    (read : Value → Except Mismatch α) : Except Mismatch α :=
  match elements[place]? with
  | some value => read value
  | none => .error (.invalidLength place expected)

/-- A sequence of `used` elements may have no more. -/
def noMore (elements : List Value) (used : Nat) : Except Mismatch Unit :=
  if elements.length ≤ used then .ok ()
  else
    let plural := if used = 1 then "" else "s"
    .error (.invalidLength elements.length s!"{used} element{plural} in sequence")

/-- What has been read of an envelope. -/
structure EnvelopeSlots where
  index : Option UInt64 := none
  function : Option String := none
  state : Option Payload := none
  input : Option Payload := none

/-- Read a member into the slot it belongs to. -/
def EnvelopeSlots.add (slots : EnvelopeSlots) (member : String × Value) :
    Except Mismatch EnvelopeSlots :=
  match member with
  | ("index", value) => do
    return { slots with index := ← fill slots.index "index" Value.toIndex value }
  | ("function", value) => do
    return { slots with function := ← fill slots.function "function" Value.toText value }
  | ("state", value) => do
    return { slots with state := ← fill slots.state "state" Value.toPayload value }
  | ("input", value) => do
    return { slots with input := ← fill slots.input "input" Value.toPayload value }
  | _ => .ok slots

/-- The envelope of a call's members. -/
def Value.toEnvelope : Value → Except Mismatch Envelope
  | .object members => do
    let slots ← members.foldlM EnvelopeSlots.add {}
    return {
      index := ← filled slots.index "index"
      function := ← filled slots.function "function"
      state := ← filled slots.state "state"
      input := ← filled slots.input "input" }
  | .array elements => do
    let expected := "struct TaskEnvelope with 4 elements"
    let envelope : Envelope := {
      index := ← element elements 0 expected Value.toIndex
      function := ← element elements 1 expected Value.toText
      state := ← element elements 2 expected Value.toPayload
      input := ← element elements 3 expected Value.toPayload }
    noMore elements 4
    return envelope
  | value => .error (.invalidType value.found "struct TaskEnvelope")

/-- What has been read of a response. -/
structure ResponseSlots where
  index : Option UInt64 := none
  output : Option Payload := none
  kind : Option FailureKind := none
  message : Option String := none

/-- Read a member of a completed response into the slot it belongs to. -/
def ResponseSlots.addCompleted (slots : ResponseSlots) (member : String × Value) :
    Except Mismatch ResponseSlots :=
  match member with
  | ("index", value) => do
    return { slots with index := ← fill slots.index "index" Value.toIndex value }
  | ("output", value) => do
    return { slots with output := ← fill slots.output "output" Value.toPayload value }
  | _ => .ok slots

/-- Read a member of a failed response into the slot it belongs to. -/
def ResponseSlots.addFailed (slots : ResponseSlots) (member : String × Value) :
    Except Mismatch ResponseSlots :=
  match member with
  | ("index", value) => do
    return { slots with index := ← fill slots.index "index" Value.toIndex value }
  | ("kind", value) => do
    return { slots with kind := ← fill slots.kind "kind" Value.toFailureKind value }
  | ("message", value) => do
    return { slots with message := ← fill slots.message "message" Value.toText value }
  | _ => .ok slots

/-- The response of a completed response's members. -/
def Value.toCompleted : Value → Except Mismatch Response
  | .object members => do
    let slots ← members.foldlM ResponseSlots.addCompleted {}
    return .completed (← filled slots.index "index") (← filled slots.output "output")
  | .array elements => do
    let expected := "struct variant WorkerResponse::Completed with 2 elements"
    let index ← element elements 0 expected Value.toIndex
    let output ← element elements 1 expected Value.toPayload
    noMore elements 2
    return .completed index output
  | value => .error (.invalidType value.found "struct variant WorkerResponse::Completed")

/-- The response of a failed response's members. -/
def Value.toFailed : Value → Except Mismatch Response
  | .object members => do
    let slots ← members.foldlM ResponseSlots.addFailed {}
    return .failed (← filled slots.index "index") (← filled slots.kind "kind")
      (← filled slots.message "message")
  | .array elements => do
    let expected := "struct variant WorkerResponse::Failed with 3 elements"
    let index ← element elements 0 expected Value.toIndex
    let kind ← element elements 1 expected Value.toFailureKind
    let message ← element elements 2 expected Value.toText
    noMore elements 3
    return .failed index kind message
  | value => .error (.invalidType value.found "struct variant WorkerResponse::Failed")

/-- A message without members of its own. -/
def Value.toNothing : Value → Except Mismatch Unit
  | .array elements => noMore elements 0
  | _ => .ok ()

/-- Read one tagged message from a line, blanks at its end aside, and make it of its content. -/
def readLine {α : Type} (kind : String) (tags : List String)
    (make : Tagged → Except Mismatch α) (line : String) : Except ReadError α := do
  let (tagged, rest) ← readTagged kind tags (Text.trimEnd line.toList)
  let message ← (make tagged).mapError .mismatch
  finish rest
  return message

end Json

/-- The members of an envelope. -/
def Envelope.members (envelope : Envelope) : List (String × Json.Value) :=
  [("index", .integer envelope.index.toNat), ("function", .string envelope.function),
    ("state", .string envelope.state.toText), ("input", .string envelope.input.toText)]

namespace Request

/-- A request as a JSON object. -/
def toJson : Request → Json.Value
  | call envelope => .object ((Json.tagName, .string "call") :: envelope.members)
  | shutdown => .object [(Json.tagName, .string "shutdown")]

/-- A request as a line, its newline included. -/
def encode (request : Request) : String := request.toJson.compact ++ "\n"

/-- The request on a line. -/
def decode (line : String) : Except Json.ReadError Request :=
  Json.readLine "WorkerRequest" ["call", "shutdown"]
    (fun tagged =>
      if tagged.tag = "call" then tagged.content.toEnvelope.map call
      else tagged.content.toNothing.map fun _ => shutdown)
    line

end Request

namespace Response

/-- A response as a JSON object. -/
def toJson : Response → Json.Value
  | completed index output =>
    .object [(Json.tagName, .string "completed"), ("index", .integer index.toNat),
      ("output", .string output.toText)]
  | failed index kind message =>
    .object [(Json.tagName, .string "failed"), ("index", .integer index.toNat),
      ("kind", .string kind.name), ("message", .string message)]

/-- A response as a line, its newline included. -/
def encode (response : Response) : String := response.toJson.compact ++ "\n"

/-- The response on a line. -/
def decode (line : String) : Except Json.ReadError Response :=
  Json.readLine "WorkerResponse" ["completed", "failed"]
    (fun tagged =>
      if tagged.tag = "completed" then tagged.content.toCompleted else tagged.content.toFailed)
    line

end Response

end Fanout

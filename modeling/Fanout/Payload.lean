import Fanout.Base64
import Fanout.MessagePack.Schema

/-!
# Payloads and codecs

What crosses a process boundary is a `Payload`: a byte string, shown as base64 text. A `Codec` turns
the values of a type into payloads and back. Most codecs come from a MessagePack schema; a type may
also have a codec of its own, whose two directions are an `Attempt` each: code that a caller
supplies may answer, report an error, or panic.
-/

namespace Fanout

/-! ## Attempts -/

/-- What a panicking piece of code left behind. -/
inductive Panic where
  | text (message : String)
  | other
deriving DecidableEq, Repr

/-- The text a panic is described with. -/
def Panic.message : Panic → String
  | text message => message
  | other => "non-string panic payload"

/-- Why an attempt did not yield a value. -/
inductive Mishap where
  | error (message : String)
  | panic (cause : Panic)
deriving DecidableEq, Repr

/-- A computation that may report an error or panic. -/
abbrev Attempt (α : Type) := Except Mishap α

/-- Say in which context an error arose; the context comes first in its text. -/
def Attempt.inContext {α : Type} (context : String) : Attempt α → Attempt α
  | .error (.error message) => .error (.error s!"{context}: {message}")
  | attempt => attempt

/-! ## Payloads -/

/-- One value in transfer form: a function state, a computation or a result. -/
structure Payload where
  bytes : List UInt8
deriving DecidableEq, Repr, Inhabited

namespace Payload

/-- The text form of a payload. -/
def toText (payload : Payload) : String := Base64.encode payload.bytes

/-- The payload a text stands for. -/
def ofText (text : String) : Except Base64.Error Payload := (Base64.decode text).map Payload.mk

end Payload

/-- How values of a type are brought into transfer form and back. -/
structure Codec (α : Type) where
  encode : α → Attempt Payload
  decode : Payload → Attempt α

namespace Codec

/-- The codec of a schema: encoding never fails, and decoding reports why it does. -/
def ofSchema {α : Type} (schema : MessagePack.Schema α) : Codec α where
  encode value := .ok ⟨schema.write value⟩
  decode payload := (schema.decode payload.bytes).mapError fun e => .error e.message

end Codec

end Fanout

import Fanout.Config.Fields
import Fanout.Error
import Fanout.Toml.Document

/-!
# Configurations in TOML

How the tables of a TOML document become a configuration. What is wrong is reported without a place,
and of several things the one met first in the document. A record may be given as an array of its
fields' values, in their order.
-/

namespace Fanout.Toml

/-- Report that a value is not what was expected. -/
def reject {α : Type} (value : Value) (expected : String) : Except Mismatch α :=
  .error (.invalidType value.found expected)

/-- A text. -/
def readString (expected : String) (value : Value) : Except Mismatch String :=
  match value with
  | .string s => .ok s
  | value => reject value expected

/-- A list of texts. -/
def readStrings (value : Value) : Except Mismatch (List String) :=
  match value with
  | .array elements | .tables elements => elements.mapM (readString "a string")
  | value => reject value "a sequence"

/-- A count of one machine word. -/
def readCount (value : Value) : Except Mismatch Nat :=
  match value with
  | .integer n =>
    if 0 ≤ n.toInt then .ok n.toInt.toNat else .error (.invalidValue (.integer n.toInt) "usize")
  | value => reject value "usize"

/-- A kind of backend: a name, or a table that has an empty table under that name. -/
def readBackend (value : Value) : Except Mismatch BackendKind := do
  let named (name : String) : Except Mismatch BackendKind :=
    match BackendKind.named? name with
    | some kind => .ok kind
    | none => .error (.unknownVariant name BackendKind.names)
  match value with
  | .string name => named name
  | .table _ [] => throw (.other "wanted exactly 1 element, found 0 elements")
  | .table _ [(name, content)] =>
    let kind ← named name
    match content with
    | .table _ [] => return kind
    | .table .. => throw (.other "expected empty table")
    | content => throw (.other s!"expected table, found {content.typeName}")
  | .table .. => throw (.other "wanted exactly 1 element, more than 1 element")
  | _ => throw (.other "wanted string or table")

/-- A worker count: an integer, or any other value. -/
def readWorkers : Value → WorkerCount
  | .integer n => .integer n
  | value => .other value.toJson

/-- The fields of a record written as a table. A date or time is a table without any field that a
record has. -/
def entries? : Value → Option (List (String × Value))
  | .table _ entries => some entries
  | .moment _ => some []
  | _ => none

/-- A worker command. -/
def readCommand (value : Value) : Except Mismatch WorkerCommand := do
  let program := readString "path string"
  if let some entries := entries? value then
    let fields ← entries.foldlM (fun (fields : CommandFields) (name, value) => do
      match name with
      | "program" => return { fields with program := some (← program value) }
      | "args" => return { fields with args := some (← readStrings value) }
      | _ => return fields) .empty
    return ← fields.toCommand
  match value with
  | .array elements | .tables elements =>
    match elements with
    | [] => throw (.invalidLength 0 "struct WorkerCommand with 2 elements")
    | [first] => return ⟨← program first, []⟩
    | first :: second :: _ => return ⟨← program first, ← readStrings second⟩
  | value => reject value "struct WorkerCommand"

/-- Logging settings. -/
def readLogging (value : Value) : Except Mismatch LoggingSettings := do
  let level (value : Value) : Except Mismatch (Option String) :=
    (readString "a string" value).map some
  let file (value : Value) : Except Mismatch (Option (Option String)) :=
    (readString "path string" value).map fun path => some (some path)
  if let some entries := entries? value then
    let fields ← entries.foldlM (fun (fields : LoggingFields) (name, value) => do
      match name with
      | "level" => return { fields with level := ← level value }
      | "file" => return { fields with file := ← file value }
      | _ => return fields) .empty
    return fields.toSettings
  match value with
  | .array elements | .tables elements =>
    match elements with
    | [] => return .standard
    | [first] => return (⟨← level first, none⟩ : LoggingFields).toSettings
    | first :: second :: _ =>
      return (⟨← level first, ← file second⟩ : LoggingFields).toSettings
  | value => reject value "struct LoggingConfig"

/-- Read a field of a configuration, when some others have been met. -/
def readEntry (fields : ConfigFields) (entry : String × Value) : Except Mismatch ConfigFields := do
  let (name, value) := entry
  match name with
  | "backend" => return { fields with backend := some (← readBackend value) }
  | "n_workers" => return { fields with workers := some (some (readWorkers value)) }
  | "chunksize" => return { fields with chunkSize := some (some (← readCount value)) }
  | "worker" => return { fields with worker := some (some (← readCommand value)) }
  | "logging" => return { fields with logging := some (← readLogging value) }
  | _ => return fields

/-- A configuration. -/
def readConfig (document : Value) : Except Mismatch Config := do
  if let some entries := entries? document then
    let fields ← entries.foldlM readEntry .empty
    return ← fields.toConfig
  reject document "struct Config"

end Fanout.Toml

namespace Fanout.Config

/-- The configuration a TOML text states. A text that is not even a readable document is told apart
from one that is no configuration. -/
def ofToml (text : String) : Except DocumentError Config :=
  match Toml.ofText? text with
  | none => .error .unreadable
  | some document =>
    (Toml.readConfig document).mapError fun mismatch => .misshapen (mismatch.message .standard)

end Fanout.Config

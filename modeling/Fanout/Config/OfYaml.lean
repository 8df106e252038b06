import Fanout.Config.Fields
import Fanout.Yaml.Value

/-!
# Configurations in YAML

How the nodes of a YAML document become a configuration. What is wrong is reported with the path to
it. A text is taken from any scalar as it was written, whatever it would stand for by itself.
-/

namespace Fanout.Yaml

/-- Something wrong at some place of a document. -/
structure Complaint where
  path : Path
  mismatch : Mismatch
deriving Repr

/-- The text of a complaint. -/
def Complaint.message (complaint : Complaint) : String :=
  let text := complaint.mismatch.message .standard
  if complaint.path.text.isEmpty then text else complaint.path.text ++ ": " ++ text

/-- What a value is, when it is not what was expected. -/
def Value.found : Value → Found
  | null => .unit
  | bool b => .boolean b
  | integer n => .integer n
  | float x => .float x
  | string s => .string s
  | sequence _ => .sequence
  | mapping _ => .map
  | tagged .. => .tagged

/-- What a node is, when it is not what was expected. -/
def Node.found : Node → Found
  | .scalar text style tag => ((Value.ofScalar? text style tag).getD (.string text)).found
  | .sequence .. => .sequence
  | .mapping .. => .map
  | .alias _ => .unit

/-- Whether a node is a plain scalar without text. -/
def Node.isBlank : Node → Bool
  | .scalar text style _ => text.isEmpty && style == .plain
  | _ => false

/-- Whether a node says that there is no value. -/
def Node.isAbsent : Node → Bool
  | .scalar text .plain none => text.isEmpty || isNull text
  | .scalar text .plain (some tag) => tag == "tag:yaml.org,2002:null" && isNull text
  | _ => false

/-- The tag of a node. -/
def Node.tag : Node → Option String
  | .scalar _ _ tag | .sequence _ tag | .mapping _ tag => tag
  | .alias _ => none

/-! ## Readers

Each reads the node it is given, which is no reference, at the given path. -/

/-- Report that a node is not what was expected. -/
def reject {α : Type} (path : Path) (node : Node) (expected : String) : Except Complaint α :=
  .error ⟨path, .invalidType node.found expected⟩

/-- A text. -/
def readText (expected : String) (path : Path) (node : Node) : Except Complaint String :=
  match node with
  | .scalar text .. => .ok text
  | node => reject path node expected

/-- A count of one machine word. -/
def readCount (path : Path) (node : Node) : Except Complaint Nat :=
  let number (text : String) : Option Nat :=
    (match text.toList with
      | '+' :: rest => natural? rest
      | chars => natural? chars).filter (· < Nat.pow 2 64)
  let count := match node with
    | .scalar text .plain _ => number text
    | .scalar text .literal (some "tag:yaml.org,2002:int") => number text
    | _ => none
  match count with
  | some n => .ok n
  | none => reject path node "usize"

/-- Nothing, or what another reader reads. -/
def readOptional {α : Type} (read : Path → Node → Except Complaint α) (path : Path) (node : Node) :
    Except Complaint (Option α) :=
  if node.isAbsent then .ok none else (read path node).map some

/-- A list of texts. -/
def readTexts (document : Document) (path : Path) (node : Node) : Except Complaint (List String) :=
  match node with
  | .sequence elements _ =>
    elements.zipIdx.mapM fun (element, index) =>
      readText "a string" (path.element index) (document.deref element)
  | node => if node.isBlank then .ok [] else reject path node "a sequence"

/-- The variant a backend is chosen by. -/
def readBackendName (path : Path) (name : String) : Except Complaint BackendKind :=
  match BackendKind.named? name with
  | some kind => .ok kind
  | none => .error ⟨path, .unknownVariant name BackendKind.names⟩

/-- A kind of backend: a name, or a tag that is one, with nothing behind it. A tag that is no name
is reported without a path. -/
def readBackend (path : Path) (node : Node) : Except Complaint BackendKind := do
  match ownTag? node.tag with
  | some name =>
    let kind ← readBackendName .root name
    match node with
    | .scalar text style _ =>
      if style == .plain && (text.isEmpty || isNull text) then
        return kind
      throw ⟨path, .invalidValue (.string text) "null"⟩
    | node => reject path node "unit"
  | none =>
    match node with
    | .scalar text .. => readBackendName path text
    | node => reject path node "a YAML tag starting with '!'"

/-- A worker count: an integer, or any other value. -/
def readWorkers (document : Document) (path : Path) (node : Node) :
    Except Complaint WorkerCount := do
  let unmatched : Complaint :=
    ⟨.root, .other "data did not match any variant of untagged enum WorkerCountSetting"⟩
  match document.expand (Document.maxDepth - 1) 0 node with
  | none => throw unmatched
  | some (value, _) =>
    if let some place := value.firstTag path then
      throw ⟨place, .other "untagged and internally tagged enums do not support enum input"⟩
    match value with
    | .integer n =>
      if Int64.minValue.toInt ≤ n ∧ n ≤ Int64.maxValue.toInt then
        return .integer (Int64.ofInt n)
      return .other (.integer n)
    | value =>
      match value.toJson? with
      | some json => return .other json
      | none => throw unmatched

/-- The fields of a record: the known ones among the entries of a mapping, each given at most once.
Every entry changes the record so far. -/
def readFields {ρ : Type} (document : Document) (path : Path) (expected : String) (empty : ρ)
    (read : ρ → String → Path → Node → Except Complaint ρ) (node : Node) : Except Complaint ρ :=
  match node with
  | .mapping entries _ =>
    entries.foldlM (fun record entry => do
      let name ← readText "field identifier" path (document.deref entry.1)
      read record name (path.key entry.1.label) (document.deref entry.2)) empty
  | node => if node.isBlank then .ok empty else reject path node expected

/-- Put a value into a field that may not have one yet. -/
def setField {α : Type} (path : Path) (name : String) (old : Option α)
    (read : Except Complaint α) : Except Complaint (Option α) :=
  if old.isSome then .error ⟨path, .duplicateField name⟩ else read.map some

/-- A worker command. -/
def readCommand (document : Document) (path : Path) (node : Node) :
    Except Complaint WorkerCommand := do
  let fields ← readFields document path "struct WorkerCommand" CommandFields.empty
    (fun fields name place node => do
      match name with
      | "program" =>
        let program ← setField path name fields.program (readText "path string" place node)
        return { fields with program }
      | "args" =>
        let args ← setField path name fields.args (readTexts document place node)
        return { fields with args }
      | _ => return fields) node
  fields.toCommand.mapError (⟨path, ·⟩)

/-- Logging settings. -/
def readLogging (document : Document) (path : Path) (node : Node) :
    Except Complaint LoggingSettings := do
  let fields ← readFields document path "struct LoggingConfig" LoggingFields.empty
    (fun fields name place node => do
      match name with
      | "level" =>
        let level ← setField path name fields.level (readText "a string" place node)
        return { fields with level }
      | "file" =>
        let file ← setField path name fields.file
          (readOptional (readText "path string") place node)
        return { fields with file }
      | _ => return fields) node
  return fields.toSettings

/-- Read a field of the configuration at `path`, when some others have been met. -/
def readEntry (document : Document) (path : Path) (fields : ConfigFields) (name : String)
    (place : Path) (node : Node) : Except Complaint ConfigFields := do
  match name with
  | "backend" =>
    let backend ← setField path name fields.backend (readBackend place node)
    return { fields with backend }
  | "n_workers" =>
    let workers ← setField path name fields.workers
      (readOptional (readWorkers document) place node)
    return { fields with workers }
  | "chunksize" =>
    let chunkSize ← setField path name fields.chunkSize (readOptional readCount place node)
    return { fields with chunkSize }
  | "worker" =>
    let worker ← setField path name fields.worker
      (readOptional (readCommand document) place node)
    return { fields with worker }
  | "logging" =>
    let logging ← setField path name fields.logging (readLogging document place node)
    return { fields with logging }
  | _ => return fields

/-- A configuration. -/
def readConfig (document : Document) (path : Path) (node : Node) : Except Complaint Config := do
  let fields ← readFields document path "struct Config" ConfigFields.empty
    (readEntry document path) node
  fields.toConfig.mapError (⟨path, ·⟩)

end Fanout.Yaml

namespace Fanout.Config

/-- The configuration a YAML text states. A text that is not even a readable document is told apart
from one that is no configuration. -/
def ofYaml (text : String) : Except DocumentError Config :=
  match Yaml.Document.ofText? text with
  | none => .error .unreadable
  | some document =>
    let root := document.root.getD (.omitted none)
    match Yaml.readConfig document .root (document.deref root) with
    | .ok config => .ok config
    -- a document that is not even readable is so whatever the configuration lacks
    | .error complaint =>
      if document.isReadable then .error (.misshapen complaint.message) else .error .unreadable

end Fanout.Config

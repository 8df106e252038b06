import Fanout.Config.Settings
import Fanout.Mismatch

/-!
# Fields of a configuration

A configuration file states a configuration field by field. Here are the fields met so far of each
record in it, and what they amount to in the end: a field that is not given has a default, or is
missed. A field whose value may be absent is given when it has been met at all.
-/

namespace Fanout

/-- A field that has to be there. -/
def requireField {α : Type} (name : String) : Option α → Except Mismatch α
  | some a => .ok a
  | none => .error (.missingField name)

/-- The fields of a worker command. -/
structure CommandFields where
  program : Option String
  args : Option (List String)

namespace CommandFields

/-- No fields. -/
def empty : CommandFields := ⟨none, none⟩

/-- The command the fields amount to. -/
def toCommand (fields : CommandFields) : Except Mismatch WorkerCommand := do
  return ⟨← requireField "program" fields.program, fields.args.getD []⟩

end CommandFields

/-- The fields of logging settings. -/
structure LoggingFields where
  level : Option String
  file : Option (Option String)

namespace LoggingFields

/-- No fields. -/
def empty : LoggingFields := ⟨none, none⟩

/-- The settings the fields amount to. -/
def toSettings (fields : LoggingFields) : LoggingSettings :=
  ⟨fields.level.getD LoggingSettings.defaultLevel, fields.file.join⟩

end LoggingFields

/-- The fields of a configuration. -/
structure ConfigFields where
  backend : Option BackendKind
  workers : Option (Option WorkerCount)
  chunkSize : Option (Option Nat)
  worker : Option (Option WorkerCommand)
  logging : Option LoggingSettings

namespace ConfigFields

/-- No fields. -/
def empty : ConfigFields := ⟨none, none, none, none, none⟩

/-- The configuration the fields amount to. -/
def toConfig (fields : ConfigFields) : Except Mismatch Config := do
  return ⟨← requireField "backend" fields.backend, fields.workers.join, fields.chunkSize.join,
    fields.worker.join, fields.logging.getD .standard⟩

end ConfigFields

end Fanout

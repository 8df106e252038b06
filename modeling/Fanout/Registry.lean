import Fanout.Function.Builtin
import Fanout.Text.Characters

/-!
# Registries

The work functions a worker can carry out, by name. Registering a second function under a name takes
the place of the first; the names are listed in ascending order.
-/

namespace Fanout

/-- Work functions by name. -/
structure Registry where
  /-- The functions, no two of one name. -/
  functions : List WorkFunction

namespace Registry

def empty : Registry := ⟨[]⟩

/-- Functions with one added, in place of the one of its name. -/
def replace (f : WorkFunction) : List WorkFunction → List WorkFunction
  | [] => [f]
  | g :: rest => if g.name = f.name then f :: rest else g :: replace f rest

/-- Register a function. -/
def register (registry : Registry) (f : WorkFunction) : Registry :=
  ⟨replace f registry.functions⟩

/-- The registry of some functions, registered in order. -/
def ofList (functions : List WorkFunction) : Registry := functions.foldl register empty

/-- The function of a name. -/
def find? (registry : Registry) (name : String) : Option WorkFunction :=
  registry.functions.find? fun f => f.name = name

/-- Whether there is a function of a name. -/
def contains (registry : Registry) (name : String) : Bool :=
  registry.functions.any fun f => f.name = name

/-- The names of the functions, in ascending order. -/
def names (registry : Registry) : List String :=
  (registry.functions.map WorkFunction.name).mergeSort fun a b => decide (a ≤ b)

/-- A registry described for a diagnostic. -/
def describe (registry : Registry) : String :=
  "FunctionRegistry \x7b functions: [" ++
    String.intercalate ", " (registry.names.map Text.quoted) ++ "] \x7d"

/-- Carry out the computation in an envelope. -/
def invoke (registry : Registry) (envelope : Envelope) : Response :=
  match registry.find? envelope.function with
  | none =>
    .failed envelope.index .transfer
      s!"work function '{envelope.function}' is not registered in this worker"
  | some f =>
    match f.handle envelope.state envelope.input with
    | .ok output => .completed envelope.index output
    | .error (kind, message) => .failed envelope.index kind message

/-- The functions every worker of this library offers. -/
def builtin : Registry :=
  ofList [Builtin.square, Builtin.scale, Builtin.failOn, Builtin.sumOfSquares]

end Registry

end Fanout

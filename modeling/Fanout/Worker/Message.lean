import Fanout.Error
import Fanout.Payload

/-!
# Messages

What a backend and a worker say to each other. A backend asks for one computation at a time, or asks
the worker to stop; a worker answers each call with an output or with a failure.
-/

namespace Fanout

/-- One computation to carry out, complete in itself. -/
structure Envelope where
  /-- The position of the computation in the caller's list. -/
  index : UInt64
  function : String
  state : Payload
  input : Payload
deriving DecidableEq, Repr

/-- What a backend sends to a worker. -/
inductive Request where
  | call (envelope : Envelope)
  | shutdown
deriving DecidableEq, Repr

/-- Where a computation failed in a worker. -/
inductive FailureKind where
  /-- The function or its input could not be rebuilt, or its output not be sent. -/
  | transfer
  /-- The function itself failed. -/
  | execution
deriving DecidableEq, Repr

/-- The name of a failure kind. -/
def FailureKind.name : FailureKind → String
  | transfer => "transfer"
  | execution => "execution"

/-- What a worker sends back. -/
inductive Response where
  | completed (index : UInt64) (output : Payload)
  | failed (index : UInt64) (kind : FailureKind) (message : String)
deriving DecidableEq, Repr

namespace Response

/-- The computation a response is about. -/
def index : Response → UInt64
  | completed index _ => index
  | failed index _ _ => index

/-- The output a response carries, or the error it stands for. -/
def output : Response → Except BackendError (UInt64 × Payload)
  | completed index output => .ok (index, output)
  | failed index .transfer message => .error (.transfer s!"computation {index.toNat}" message)
  | failed index .execution message => .error (.workerExecution index.toNat message)

end Response

end Fanout

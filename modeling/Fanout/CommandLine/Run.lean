import Fanout.Backend.Apply
import Fanout.CommandLine.Failure
import Fanout.Config.Load
import Fanout.Logging

/-!
# Commands

The program has two modes. As a worker it serves the built-in functions on its standard streams. As
a runner it loads a configuration, builds the backend it describes, applies a built-in function to
the operands and prints the results. What a runner meets outside is given by a `Machine`, in any
monad.
-/

namespace Fanout.CommandLine

/-- What the arguments ask for. -/
inductive Command where
  | worker
  /-- To apply a function with the backend a file describes. -/
  | run (path function : String) (operands : List String)
  | unknown
deriving DecidableEq, Repr

/-- The command of a list of arguments. A worker takes no notice of further ones. -/
def Command.ofArguments : List String → Command
  | "run" :: path :: function :: operands => .run path function operands
  | mode :: _ => if mode = WorkerCommand.workerMode then .worker else .unknown
  | [] => .unknown

/-- How to use the program, which goes by a name. -/
def usage (program : String) : List String := [
  s!"Usage: {program} {WorkerCommand.workerMode}",
  s!"       {program} run <config.yaml|config.toml> square <int>...",
  s!"       {program} run <config.yaml|config.toml> sum-of-squares <n_frames>",
  s!"Example: {program} run configs/process-pool.yaml square 1 2 3 4 5",
  s!"Example: {program} run configs/task-graph.toml sum-of-squares 1000"]

/-- What a command prints, and how it ends. -/
structure Transcript where
  output : List String
  /-- Whether it ends well. -/
  result : Except CommandError Unit

namespace Transcript

/-- Nothing is printed, and the command fails. -/
def failed (e : CommandError) : Transcript := ⟨[], .error e⟩

/-- Print something first. -/
def after (lines : List String) (transcript : Transcript) : Transcript :=
  { transcript with output := lines ++ transcript.output }

end Transcript

/-- What the whole program leaves behind. -/
structure Outcome where
  output : List String
  /-- The lines on standard error, other than the log. -/
  errors : List String
  /-- The exit status; `none` if the program does not end. -/
  status : Option Nat
deriving DecidableEq, Repr

namespace Outcome

/-- The outcome of a command the program does not know. -/
def misused (program : String) : Outcome := ⟨[], usage program, some 2⟩

/-- The outcome of a command that was carried out. -/
def ofTranscript (transcript : Transcript) : Outcome :=
  match transcript.result with
  | .ok _ => ⟨transcript.output, [], some 0⟩
  | .error e => ⟨transcript.output, e.line?.toList, e.status?⟩

end Outcome

/-! ## The runner -/

/-- What is said about a configuration and the backend built from it. -/
def header (path : String) (config : Config) (backend : Backend) : List String :=
  [s!"📋 Configuration: {path}", s!"🔧 Backend: {config.backend.name}",
    s!"⚙️  Workers: {backend.workerCount}"] ++
    backend.warnings.map fun warning => "⚠️  " ++ warning.display

/-- The lines that open the results. -/
def resultsHeading : List String := ["", "📊 Results:"]

/-- Square each operand. -/
def square (host : Host) (backend : Backend) (operands : List String) : Transcript :=
  let items := operands.mapM fun operand =>
    (Operand.integer operand).mapError (CommandError.notAnInteger operand)
  match items with
  | .error e => .failed e
  | .ok items =>
    match (backend.apply host Builtin.square () items).value with
    | .error failure => .failed (.ofFailure failure)
    | .ok squares =>
      let results := (items.zip squares).map fun ((item, squared) : Int64 × Int64) =>
        s!"   {item.toInt} -> {squared.toInt}"
      ⟨resultsHeading ++ results, .ok ()⟩

/-- The sum of some words, as long as it fits one. -/
def total (sums : List UInt64) : Option Nat :=
  sums.foldlM (fun total sum =>
    if total + sum.toNat < wordLimit then some (total + sum.toNat) else none) 0

/-- Sum the squares of the frames' numbers, in one group for each worker. -/
def sumOfSquares (host : Host) (backend : Backend) (operands : List String) : Transcript :=
  match operands with
  | [operand] =>
    let groups : Except CommandError (List Span) := do
      let frames ← (Operand.count operand).mapError (.notACount operand)
      (Partition.groups frames backend.workerCount).mapError .fault
    match groups with
    | .error e => .failed e
    | .ok groups =>
      let words := groups.map fun group => (UInt64.ofNat group.start, UInt64.ofNat group.stop)
      match (backend.apply host Builtin.sumOfSquares () words).value with
      | .error failure => .failed (.ofFailure failure)
      | .ok sums =>
        let results := (groups.zip sums).map fun ((group, sum) : Span × UInt64) =>
          s!"   frames {group.start}..{group.stop}: {sum.toNat}"
        match total sums with
        -- the groups have been printed by then
        | none => ⟨resultsHeading ++ results, .error .totalOverflow⟩
        | some total => ⟨resultsHeading ++ results ++ [s!"   total: {total}"], .ok ()⟩
  | _ => .failed .operandCount

/-- Apply the function of a name to operands. -/
def call (host : Host) (backend : Backend) (function : String) (operands : List String) :
    Transcript :=
  if function = "square" then square host backend operands
  else if function = "sum-of-squares" then sumOfSquares host backend operands
  else .failed (.unknownFunction function)

/-- What a runner meets outside. -/
structure Machine (m : Type → Type) where
  /-- What a file holds. -/
  contentsOf : String → m (Except IoError (List UInt8))
  openLog : String → m (Except IoError Unit)
  /-- How many threads run at once, if that is known. -/
  parallelism : Option Int64
  host : Host
  /-- How long the runner has been at work. -/
  elapsed : m Duration

/-- Apply a function with the backend that a file describes. -/
def run {m : Type → Type} [Monad m] (machine : Machine m) (path function : String)
    (operands : List String) : m Transcript := do
  match Config.load path (← machine.contentsOf path) with
  | .error e => return .failed (.loading path e)
  | .ok config =>
    match ← (config.logging.initialise machine.openLog false).run with
    | .error e => return .failed (.logging e)
    | .ok _ =>
      match (config.construct machine.parallelism).value with
      | .error e => return .failed (.backend e)
      | .ok backend =>
        let transcript := (call machine.host backend function operands).after
          (header path config backend)
        match transcript.result with
        | .error _ => return transcript
        -- only a run that ends well says how long it took
        | .ok _ =>
          let elapsed ← machine.elapsed
          return { transcript with
            output := transcript.output ++ [s!"⏱️  Execution Time: {elapsed.text}"] }

/-! ## The worker -/

/-- Serve the built-in functions until the end of the input. -/
def serve (input : List UInt8) : Transcript :=
  let service := Registry.builtin.serve .unlimited input
  ⟨service.responses.map fun response => String.ofList (response.encode.toList.dropLast),
    service.result.mapError .serving |>.map fun _ => ()⟩

end Fanout.CommandLine

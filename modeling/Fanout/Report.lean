/-!
# Reports

Everything this library reports is a `Notice`, one constructor each. A notice has a text, an event
that carries the text with the notice's fields, and a span for the activity it stands for; a log
receives these as records. `Logged` is something that was done, with what was reported meanwhile.
-/

namespace Fanout

/-! ## Durations -/

structure Duration where
  seconds : Nat
  /-- Nanoseconds beyond them, fewer than `10 ^ 9`. -/
  nanoseconds : Nat
deriving DecidableEq, Repr, Inhabited

namespace Duration

/-- Whole milliseconds, as far as a word holds them. -/
def milliseconds (d : Duration) : Nat :=
  (d.seconds * 1000 + d.nanoseconds / 1000000) % Nat.pow 2 64

/-- `whole` units and `part` of `10 ^ places` parts of a unit, without trailing zeros. -/
def decimals (whole part places : Nat) (unit : String) : String :=
  let digits := (toString part).toList
  let padded := List.replicate (places - digits.length) '0' ++ digits
  let kept := (padded.reverse.dropWhile (· == '0')).reverse
  let fraction := if kept.isEmpty then "" else "." ++ String.ofList kept
  s!"{whole}{fraction}{unit}"

def text (d : Duration) : String :=
  let n := d.nanoseconds
  if d.seconds > 0 then decimals d.seconds n 9 "s"
  else if n ≥ 1000000 then decimals (n / 1000000) (n % 1000000) 6 "ms"
  else if n ≥ 1000 then decimals (n / 1000) (n % 1000) 3 "µs"
  else decimals n 0 0 "ns"

end Duration

/-! ## Records -/

/-- How important a record is. -/
inductive Level where
  | debug
  | info
  | warn
  | error
deriving DecidableEq, Repr

def Level.name : Level → String
  | debug => "DEBUG"
  | info => "INFO"
  | warn => "WARN"
  | error => "ERROR"

inductive FieldValue where
  | text (s : String)
  /-- A count or a position. -/
  | count (n : Nat)
  | flag (b : Bool)
deriving DecidableEq, Repr

/-- The fields of a record, in order. -/
abbrev Fields := List (String × FieldValue)

/-- One entry of a log. -/
inductive Record where
  | event (level : Level) (fields : Fields) (message : String)
  /-- An activity begins. -/
  | span (name : String) (level : Level) (fields : Fields)
deriving DecidableEq, Repr

/-! ## Notices -/

/-- Something worth reporting. -/
inductive Notice where
  | backendConstructed (backend : String) (workers warnings : Nat)
  | applyStarted (backend function : String) (computations workers : Nat)
  | applyCompleted (backend function : String) (computations : Nat) (duration : Duration)
  | applyFailed (backend function error : String)
  /-- A rule that must hold does not. -/
  | validationFailed (backend message : String)
  /-- A rule that should hold does not. -/
  | configurationWarning (backend message : String)
  | taskGraphBuilt (function : String) (tasks : Nat)
  /-- The scheduler is about to start. -/
  | evaluationStarted (tasks units workers : Nat)
  | evaluationCancelled (completed tasks : Nat)
  | workerSpawned (worker pid : Nat) (program : String)
  | workerTerminated (worker completed : Nat) (forced : Bool)
  | workerServing (functions : List String)
  | taskFailed (function : String) (index : Nat) (kind message : String)
deriving DecidableEq, Repr

namespace Notice

def text : Notice → String
  | backendConstructed backend workers warnings =>
    s!"Constructed {backend} backend: n_workers={workers}, warnings={warnings}"
  | applyStarted backend function computations workers =>
    s!"Applying '{function}' with {backend} backend: {computations} computations, " ++
      s!"n_workers={workers}"
  | applyCompleted backend function computations duration =>
    s!"Applied '{function}' with {backend} backend: {computations} computations in {duration.text}"
  | applyFailed backend function error =>
    s!"Applying '{function}' with {backend} backend failed: {error}"
  | validationFailed backend message => s!"Validation of {backend} backend failed: {message}"
  | configurationWarning backend message => s!"{backend} backend: {message}"
  | taskGraphBuilt function tasks =>
    s!"Built task graph for '{function}': {tasks} independent tasks"
  | evaluationStarted tasks units workers =>
    s!"Evaluating {tasks} tasks in {units} dispatch units, n_workers={workers}"
  | evaluationCancelled completed tasks =>
    s!"Evaluation cancelled after {completed} of {tasks} tasks"
  | workerSpawned worker pid program => s!"Spawned worker {worker} (pid {pid}) from '{program}'"
  | workerTerminated worker completed forced =>
    let how := if forced then "killed" else "shut down"
    s!"Worker {worker} {how} after {completed} tasks"
  | workerServing functions =>
    "Worker serving functions: [" ++ String.intercalate ", " functions ++ "]"
  | taskFailed function index kind message =>
    s!"Task {index} of '{function}' failed ({kind}): {message}"

def level : Notice → Level
  | applyStarted .. | applyCompleted .. | evaluationStarted .. => .info
  | applyFailed .. | validationFailed .. => .error
  | configurationWarning .. | evaluationCancelled .. | taskFailed .. => .warn
  | workerTerminated _ _ forced => if forced then .warn else .debug
  | backendConstructed .. | taskGraphBuilt .. | workerSpawned .. | workerServing .. => .debug

def fields : Notice → Fields
  | backendConstructed backend workers warnings =>
    [("backend", .text backend), ("n_workers", .count workers), ("warning_count", .count warnings)]
  | applyStarted backend function computations workers =>
    [("backend", .text backend), ("function", .text function),
      ("computation_count", .count computations), ("n_workers", .count workers)]
  | applyCompleted backend function computations duration =>
    [("backend", .text backend), ("function", .text function),
      ("computation_count", .count computations), ("duration_ms", .count duration.milliseconds)]
  | applyFailed backend function error =>
    [("backend", .text backend), ("function", .text function), ("error", .text error)]
  | validationFailed backend message | configurationWarning backend message =>
    [("backend", .text backend), ("reason", .text message)]
  | taskGraphBuilt function tasks => [("function", .text function), ("task_count", .count tasks)]
  | evaluationStarted tasks units workers =>
    [("task_count", .count tasks), ("unit_count", .count units), ("n_workers", .count workers)]
  | evaluationCancelled completed tasks =>
    [("completed", .count completed), ("task_count", .count tasks)]
  | workerSpawned worker pid program =>
    [("worker", .count worker), ("pid", .count pid), ("program", .text program)]
  | workerTerminated worker completed forced =>
    [("worker", .count worker), ("tasks_completed", .count completed), ("forced", .flag forced)]
  | workerServing functions =>
    [("functions", .text (String.intercalate "," functions)),
      ("function_count", .count functions.length)]
  | taskFailed function index kind _ =>
    [("function", .text function), ("index", .count index), ("kind", .text kind)]

/-- The event that reports a notice. -/
def event (notice : Notice) : Record := .event notice.level notice.fields notice.text

/-- The name, the level and the fields of a notice's span. -/
def spanParts : Notice → String × Level × Fields
  | backendConstructed backend workers _ =>
    ("backend_constructed", .debug, [("backend", .text backend), ("n_workers", .count workers)])
  | notice@(applyStarted ..) => ("apply", .info, notice.fields)
  | applyCompleted backend function _ duration =>
    ("apply_completed", .info,
      [("backend", .text backend), ("function", .text function), ("duration", .text duration.text)])
  | notice@(applyFailed ..) => ("apply_failed", .error, notice.fields)
  | validationFailed backend _ => ("validation_failed", .error, [("backend", .text backend)])
  | configurationWarning backend _ => ("configuration_warning", .warn, [("backend", .text backend)])
  | notice@(taskGraphBuilt ..) => ("task_graph", .debug, notice.fields)
  | evaluationStarted tasks _ workers =>
    ("evaluation", .info, [("task_count", .count tasks), ("n_workers", .count workers)])
  | notice@(evaluationCancelled ..) => ("evaluation_cancelled", .warn, notice.fields)
  | workerSpawned worker pid _ =>
    ("worker", .debug, [("worker", .count worker), ("pid", .count pid)])
  | workerTerminated worker _ forced =>
    ("worker_terminated", .debug, [("worker", .count worker), ("forced", .flag forced)])
  | workerServing functions =>
    ("worker_serving", .debug, [("function_count", .count functions.length)])
  | taskFailed function index _ _ =>
    ("task_failed", .warn, [("function", .text function), ("index", .count index)])

/-- The span for the activity a notice stands for, under a name given by the caller. -/
def span (notice : Notice) (name : String) : Record :=
  let (kind, level, fields) := notice.spanParts
  .span kind level (("span_name", .text name) :: fields)

end Notice

/-! ## Logs -/

/-- One entry of a log. -/
inductive LogEntry where
  | notice (notice : Notice)
  /-- The activity a notice stands for begins, under a name. -/
  | activity (name : String) (notice : Notice)
deriving DecidableEq, Repr

/-- The record of an entry. -/
def LogEntry.record : LogEntry → Record
  | notice n => n.event
  | activity name n => n.span name

/-- Something that was done, with what was reported meanwhile. -/
structure Logged (α : Type) where
  /-- What was reported, in order. -/
  log : List LogEntry
  value : α
deriving Repr

namespace Logged

/-- Nothing was reported. -/
def silent {α : Type} (value : α) : Logged α := ⟨[], value⟩

/-- Do one thing after another. -/
def andThen {α β : Type} (first : Logged α) (next : α → Logged β) : Logged β :=
  let second := next first.value
  ⟨first.log ++ second.log, second.value⟩

end Logged

end Fanout

import Fanout.Function.Basic
import Fanout.Schedule.Crew
import Fanout.Worker.Peer

/-!
# Links

One end of the pipes to a worker process. A request is written as one line, and the next line the
process has written is its answer; the answer counts only if it is well formed and about the
computation that was asked for. Anything else means that the worker is lost. A worker may also be
waited for without end, because it takes no line, because it leaves its output open and ends no line
on it, or because it does not exit; then the call comes to `Failure.stalled`.
-/

namespace Fanout

/-- The connection to a worker process. -/
structure Link (peer : Peer) where
  worker : Nat
  /-- What the process remembers. -/
  state : peer.State
  /-- What the process has written and nobody has read. -/
  unread : List UInt8
  /-- How many answers have been accepted. -/
  completed : Nat

namespace Link

variable {peer : Peer}

/-- The connection to a process that has just started. -/
def start (peer : Peer) (worker : Nat) : Link peer := ⟨worker, peer.initial worker, [], 0⟩

/-- Bytes up to the first newline, which belongs to them, and the bytes after it. -/
def splitLine : List UInt8 → List UInt8 × List UInt8
  | [] => ([], [])
  | b :: rest =>
    if b = 10 then ([b], rest)
    else
      let (line, rest) := splitLine rest
      (b :: line, rest)

/-- The next line and the bytes behind it. A line without a newline is only there once the output
has ended, and it may be empty then. -/
def nextLine (ended : Bool) (bytes : List UInt8) : Option (List UInt8 × List UInt8) :=
  if ended || bytes.contains 10 then some (splitLine bytes) else none

/-- The process has taken a line. -/
def send (link : Link peer) (line : String) : Link peer :=
  let (state, output) := peer.receive link.state (Utf8.encode line)
  { link with state, unread := link.unread ++ output }

/-- What a line says about a computation, or why the worker counts as lost. -/
def accept (index : UInt64) (line : List UInt8) : Except String Response := do
  if line.isEmpty then
    throw "worker closed its output before answering"
  let text ← (Utf8.decode line).mapError fun e => s!"failed to read response: {e.message}"
  let response ← (Response.decode text).mapError fun e => s!"malformed response: {e.message}"
  if response.index ≠ index then
    throw (s!"answered computation {response.index.toNat} " ++
      s!"while computation {index.toNat} was outstanding")
  return response

/-- The error about a worker that is lost; it tells how the process has exited, if it has. -/
def lost (link : Link peer) (reason : String) : BackendError :=
  .workerLost link.worker <| match peer.exited link.state with
    | some status => s!"{reason} (exited with {status.describe})"
    | none => reason

/-- Read the answer to a computation. -/
def read (link : Link peer) (index : UInt64) : Link peer × Except Failure Response :=
  match nextLine (peer.outputEnded link.state) link.unread with
  | none => (link, .error .stalled)
  | some (line, unread) =>
    let link := { link with unread }
    match accept index line with
    | .ok response => ({ link with completed := link.completed + 1 }, .ok response)
    | .error reason => (link, .error (.error (link.lost reason)))

/-- Have a worker carry out a computation. -/
def run (link : Link peer) (envelope : Envelope) : Link peer × Except Failure Response :=
  match peer.inlet link.state with
  | .taken => (link.send (Request.call envelope).encode).read envelope.index
  | .closed =>
    let reason := s!"failed to send request: {IoError.pipeClosed.message}"
    (link, .error (.error (link.lost reason)))
  | .full => (link, .error .stalled)

/-- Wait for a process whose input has ended; it has to exit with success. -/
def await (link : Link peer) : Except Failure Unit :=
  match peer.exitStatus link.state with
  | none => .error .stalled
  | some status =>
    if status.success then .ok ()
    else .error (.error (.workerLost link.worker s!"exited with {status.describe}"))

/-- Ask a worker to stop and wait until it has. -/
def shutdown (link : Link peer) : Except Failure Unit :=
  match peer.inlet link.state with
  | .taken => (link.send Request.shutdown.encode).await
  -- a process that reads no more can only be waited for
  | .closed => link.await
  | .full => .error .stalled

end Link

/-- The answer that a call comes to. -/
def Schedule.Answer.ofExcept {α : Type} : Except Failure α → Schedule.Answer α
  | .ok a => .value a
  | .error (.error e) => .error e
  | .error (.fault f) => .panic f.message
  | .error .stalled => .pending

/-- Worker processes started by a command, which runs `program`. Their process numbers are told by
`pid`. -/
def Program.crew (program : Program) (command : WorkerCommand) (pid : Nat → Nat) :
    Schedule.Crew (Link program.peer) where
  spawn worker :=
    match program.refusal worker with
    | some cause => .error (.workerSpawn command.program cause)
    | none => .value (.start program.peer worker)
  run link task :=
    let (link, answer) := link.run task
    (link, .ofExcept answer)
  shutdown link := .ofExcept link.shutdown
  arrival link := [.notice (.workerSpawned link.worker (pid link.worker) command.program)]
  departure link forced := [.notice (.workerTerminated link.worker link.completed forced)]
  delay _ := 1

end Fanout

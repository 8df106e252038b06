import Fanout.Error
import Fanout.Registry
import Fanout.Report
import Fanout.Worker.Line

/-!
# Serving

A worker reads requests line by line and answers each call with one line. It stops at a shutdown
request, at the end of its input, at a line it cannot make sense of, or when an answer cannot be
written; what follows is never looked at. Blank lines are passed over.
-/

namespace Fanout

/-- Where answers go: some number of them is taken, and the next one fails. -/
structure Sink where
  /-- How many answers are taken, if there is a limit. -/
  capacity : Option Nat
  /-- How writing one more fails. -/
  failure : IoError

/-- A sink that takes every answer. -/
def Sink.unlimited : Sink := ⟨none, .pipeClosed⟩

/-- Why serving stopped early. -/
inductive ServeError where
  /-- A line is not a request. -/
  | malformed (error : Json.ReadError)
  /-- A line cannot be read, or an answer cannot be written. -/
  | io (error : IoError)
deriving DecidableEq, Repr

/-- What one line of a worker's input amounts to. -/
inductive Reading where
  /-- Nothing. -/
  | blank
  | call (envelope : Envelope)
  | shutdown
  /-- Nothing a worker can make sense of. -/
  | error (error : ServeError)
deriving DecidableEq, Repr

/-- Read one line. -/
def Reading.ofLine (line : List UInt8) : Reading :=
  match Utf8.decode line with
  | .error _ => .error (.io .notText)
  | .ok text =>
    if text.toList.all Text.isBlank then .blank
    else
      match Request.decode text with
      | .error e => .error (.malformed e)
      | .ok .shutdown => .shutdown
      | .ok (.call envelope) => .call envelope

/-- What came of serving. -/
structure Service where
  responses : List Response
  /-- How many there are, or why serving stopped early. -/
  result : Except ServeError Nat
  notices : List Notice

namespace Service

/-- The lines of a byte string. A line ends before its newline and before one carriage return in
front of that; bytes after the last newline are a line, too. `line` holds the line so far,
reversed. -/
def linesFrom (line : List UInt8) : List UInt8 → List (List UInt8)
  | [] => if line.isEmpty then [] else [line.reverse]
  | b :: rest =>
    if b = 10 then
      let ended := match line with
        | 13 :: before => before
        | _ => line
      ended.reverse :: linesFrom [] rest
    else linesFrom (b :: line) rest

/-- The lines of a byte string. -/
def lines (bytes : List UInt8) : List (List UInt8) := linesFrom [] bytes

/-- What is reported about an answer. -/
def noticesOf (function : String) : Response → List Notice
  | .completed .. => []
  | .failed index kind message => [.taskFailed function index.toNat kind.name message]

/-- Serve the given lines after `served` answers. -/
def serveLines (registry : Registry) (sink : Sink) (served : Nat) : List (List UInt8) → Service
  | [] => ⟨[], .ok served, []⟩
  | line :: rest =>
    match Reading.ofLine line with
    | .blank => serveLines registry sink served rest
    | .shutdown => ⟨[], .ok served, []⟩
    | .error e => ⟨[], .error e, []⟩
    | .call envelope =>
      let response := registry.invoke envelope
      let notices := noticesOf envelope.function response
      -- the computation has been carried out even if its answer cannot be written
      if sink.capacity.any (· ≤ served) then ⟨[], .error (.io sink.failure), notices⟩
      else
        let later := serveLines registry sink (served + 1) rest
        ⟨response :: later.responses, later.result, notices ++ later.notices⟩

end Service

/-- Serve the requests in a byte string. -/
def Registry.serve (registry : Registry) (sink : Sink) (input : List UInt8) : Service :=
  let service := Service.serveLines registry sink 0 (Service.lines input)
  { service with notices := .workerServing registry.names :: service.notices }

end Fanout

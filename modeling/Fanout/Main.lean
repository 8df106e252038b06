import Fanout.CommandLine.Run

/-!
# The program

Hands the arguments, files and streams of this process to the commands, and writes out what they
come to. The workers of a runner are played by this process itself; no other program can be one.
-/

namespace Fanout.CommandLine

/-- What the system says about an operation that failed. Its error number may have been negated. -/
def systemError : IO.Error → IoError
  | .noFileOrDirectory _ code _ | .permissionDenied _ code _ | .inappropriateType _ code _ =>
    .ofCode (min code.toNat (Nat.pow 2 32 - code.toNat))
  | e => ⟨.other, toString e⟩

/-- Do something that may fail. -/
def attempt {α : Type} (action : IO α) : IO (Except IoError α) := do
  match ← action.toBaseIO with
  | .ok a => return .ok a
  | .error e => return .error (systemError e)

/-- This process, which runs a program since a moment. -/
def ownMachine (program : String) (start : Nat) : Machine IO where
  contentsOf path := attempt do return (← IO.FS.readBinFile path).toList
  openLog path := attempt do
    let _ ← IO.FS.Handle.mk path .append
  parallelism := none
  host :=
    { running := .ok program
      program := fun command =>
        if command = .own program then .ofPeer (.serving .builtin) else .missing
      pid := fun _ => 0
      elapsed := ⟨0, 0⟩
      nested := false }
  elapsed := do
    let nanoseconds := (← IO.monoNanosNow) - start
    return ⟨nanoseconds / Nat.pow 10 9, nanoseconds % Nat.pow 10 9⟩

/-- Answer requests as they come in. -/
partial def serveStream (input output : IO.FS.Stream) : IO (Except CommandError Unit) := do
  match ← attempt input.getLine with
  | .error _ => return .error (.serving (.io .notText))
  | .ok line =>
    if line.isEmpty then
      return .ok ()
    match Reading.ofLine ((Service.lines (Utf8.encode line)).headD []) with
    | .blank => serveStream input output
    | .shutdown => return .ok ()
    | .error e => return .error (.serving e)
    | .call envelope =>
      let written ← attempt do
        output.putStr (Registry.builtin.invoke envelope).encode
        output.flush
      match written with
      | .error e => return .error (.serving (.io e))
      | .ok _ => serveStream input output

/-- Wait for ever. -/
partial def waitOn : IO UInt32 := do
  IO.sleep 1000
  waitOn

/-- Carry out a command. -/
def execute (args : List String) : IO Outcome := do
  let start ← IO.monoNanosNow
  let program := (← IO.appPath).toString
  match Command.ofArguments args with
  | .unknown => return .misused program
  | .worker => return .ofTranscript ⟨[], ← serveStream (← IO.getStdin) (← IO.getStdout)⟩
  | .run path function operands =>
    return .ofTranscript (← run (ownMachine program start) path function operands)

end Fanout.CommandLine

/-- The program. -/
def main (args : List String) : IO UInt32 := do
  let outcome ← Fanout.CommandLine.execute args
  outcome.output.forM fun line => IO.println line
  outcome.errors.forM fun line => IO.eprintln line
  match outcome.status with
  | some status => return status.toUInt32
  | none => Fanout.CommandLine.waitOn

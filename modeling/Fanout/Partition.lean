import Fanout.Fault

/-!
# Cutting work

How a run of positions is divided: `groups` deals frames out to a fixed number of parts, as evenly
as possible and longer parts first; `chunkRanges` cuts a list into chunks of one size; and
`defaultChunkSize` picks the size that gives every worker about four chunks.
-/

namespace Fanout

/-- A half-open range of positions: `start` is inside, `stop` is not. -/
structure Span where
  /-- The first position. -/
  start : Nat
  /-- The position after the last one. -/
  stop : Nat
deriving DecidableEq, Repr, Inhabited

namespace Span

def length (span : Span) : Nat := span.stop - span.start

/-- The positions of a span, in ascending order. -/
def toList (span : Span) : List Nat := List.range' span.start span.length

end Span

namespace Partition

/-- The groups from part `part` on, when the next one begins at `start`: each part has `base`
frames, the first `extra` of all parts one more, and the first empty part ends the list. -/
def groupsFrom (base extra part start : Nat) : (remaining : Nat) → Except Fault (List Span)
  | 0 => .ok []
  | remaining + 1 => do
    let length ← checkedAdd base (if part < extra then 1 else 0)
    if length = 0 then
      return []
    let stop ← checkedAdd start length
    let rest ← groupsFrom base extra (part + 1) stop remaining
    return ⟨start, stop⟩ :: rest

/-- Deal `frames` frames out to `parts` parts in consecutive groups, none of them empty. -/
def groups (frames parts : Nat) : Except Fault (List Span) :=
  if frames = 0 ∨ parts = 0 then .ok []
  else groupsFrom (frames / parts) (frames % parts) 0 0 parts

/-- The quotient of two counts, rounded up. -/
def ceilDiv (a b : Nat) : Nat := (a + (b - 1)) / b

/-- Chunks handed to each worker, on average, by the default chunk size. -/
def chunksPerWorker : Nat := 4

/-- The chunk size that cuts `length` items into at most four chunks for each worker. -/
def defaultChunkSize (length workers : Nat) : Except Fault Nat := do
  let perRound ← checkedMul (max workers 1) chunksPerWorker
  return max (ceilDiv length perRound) 1

/-- Cut `length` positions into chunks of `chunkSize` (at least one), the last one possibly
shorter. -/
def chunkRanges (length chunkSize : Nat) : Except Fault (List Span) :=
  let size := max chunkSize 1
  (List.range (ceilDiv length size)).mapM fun i => do
    let stop ← checkedAdd (i * size) size
    return ⟨i * size, min stop length⟩

end Partition

end Fanout

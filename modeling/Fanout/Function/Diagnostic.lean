import Fanout.Function.Basic

/-!
# Diagnostic work functions

Functions that exercise what backends and workers must cope with: a name registered twice, errors
with context, panics, optional outputs, and values that refuse to be transferred.
-/

namespace Fanout.Diagnostic

open MessagePack

/-- A second function under the name `square`: the successor, wrapping around. -/
def shadow : WorkFunction where
  name := "square"
  State := Unit
  Input := Int64
  Output := Int64
  stateCodec := .ofSchema (.unitStruct "Shadow")
  inputCodec := .ofSchema .int64
  outputCodec := .ofSchema .int64
  call _ input := .ok (input + 1)

/-- The same number if it is even, and an error with two contexts if it is odd. -/
def chain : WorkFunction where
  name := "chain"
  State := Unit
  Input := Int64
  Output := Int64
  stateCodec := .ofSchema (.unitStruct "Chain")
  inputCodec := .ofSchema .int64
  outputCodec := .ofSchema .int64
  call _ input :=
    let root : Attempt Int64 :=
      if input.toInt % 2 ≠ 0 then .error (.error s!"root {input.toInt}") else .ok input
    (root.inContext "middle").inContext "top"

/-- The same text. -/
def echo : WorkFunction where
  name := "echo"
  State := Unit
  Input := String
  Output := String
  stateCodec := .ofSchema (.unitStruct "Echo")
  inputCodec := .ofSchema .string
  outputCodec := .ofSchema .string
  call _ input := .ok input

/-- The quotient of two numbers, unless the second one is zero. -/
def ratio : WorkFunction where
  name := "ratio"
  State := Unit
  Input := Binary64 × Binary64
  Output := Option Binary64
  stateCodec := .ofSchema (.unitStruct "Ratio")
  inputCodec := .ofSchema (.pair .float .float)
  outputCodec := .ofSchema (.option .float)
  call _ input := .ok (if input.2.isZero then none else some (input.1.div input.2))

/-- The same number, except that one value causes a panic of a chosen style. -/
def panicOn : WorkFunction where
  name := "panic_on"
  State := Int64 × UInt64
  Input := Int64
  Output := Int64
  stateCodec := .ofSchema (.record₂ "PanicOn" "value" "style" .int64 .uint64)
  inputCodec := .ofSchema .int64
  outputCodec := .ofSchema .int64
  call state input :=
    if input ≠ state.1 then .ok input
    else if state.2 = 0 then .error (.panic (.text "static text"))
    else if state.2 = 1 then .error (.panic (.text s!"cannot handle {input.toInt}"))
    else .error (.panic .other)

/-- Handles: a negative one is open and cannot be sent, and two of them cannot be received. -/
def handleCodec : Codec Int64 where
  encode handle :=
    if handle < 0 then .error (.error "open handles cannot leave this process")
    else (Codec.ofSchema .int64).encode handle
  decode payload := do
    let handle ← (Codec.ofSchema .int64).decode payload
    if handle = 14 then
      throw (.error "handle 14 is stale")
    if handle = 13 then
      throw (.panic (.text "handle 13 cannot be reopened"))
    return handle

/-- A state that may be sealed, and then cannot be sent. -/
def sealCodec : Codec Bool :=
  let plain : Codec Bool := .ofSchema (.record₁ "Close" "sealed" .bool)
  { encode := fun closed => if closed then .error (.error "sealed state") else plain.encode closed
    decode := plain.decode }

/-- Maps handles to handles. -/
def close : WorkFunction where
  name := "close"
  State := Bool
  Input := Int64
  Output := Int64
  stateCodec := sealCodec
  inputCodec := handleCodec
  outputCodec := handleCodec
  call _ input := .ok (if input = 7 then -1 else if input = 15 then 14 else input + 100)

end Fanout.Diagnostic

import OperatorDispatch.Call.Error
import OperatorDispatch.Call.Site
import OperatorDispatch.Machine.Bytecode
import OperatorDispatch.Machine.ConstantPool

/-!
# Emission

Emitting a call writes instructions and pools the constants that they name.  A step that fails
keeps what the steps before it have written; a constant for which there is no room changes nothing.
-/

namespace OperatorDispatch

/-- What has been written so far. -/
structure EmissionState where
  /-- The instructions. -/
  code : Bytecode := {}
  /-- The constants, shared with other calls. -/
  pool : ConstantPool := {}

/-- A step of an emission. -/
abbrev Emission := EStateM CallError EmissionState

namespace Emission

/-- Writes an instruction with its operand bytes. -/
def instruction (opcode : Opcode) (operands : List UInt8) : Emission Unit :=
  modify fun state => { state with code := state.code.appendInstruction opcode operands }

/-- The position of a constant, for use in an instruction. -/
def position (constant : Constant) : Emission UInt16 := fun state =>
  match state.pool.intern? constant with
  | some (position, pool) => .ok position { state with pool }
  | none => .error (.poolOverflow ConstantPool.addressable) state

/-- Pushes a constant, by a position of one byte if that suffices. -/
def constant (constant : Constant) : Emission Unit := do
  let position ← position constant
  if position ≤ 255 then
    instruction .constant [position.toUInt8]
  else
    instruction .constantWide (Bytecode.bigEndian position)

/-- Pushes the value of a slot. -/
def slot (slot : Nat) : Emission Unit :=
  if slot ≤ 255 then
    instruction .loadOperand [slot.toUInt8]
  else
    throw (.slotOverflow slot)

/-- Pushes a literal. -/
def literal : Literal → Emission Unit
  | .int value => constant (.int value)
  | .double bits => constant (.double bits)
  | .string text => constant (.string text)
  | .null => instruction .pushNull []

/-- Pushes the value of an operand. -/
def operand (operand : Operand) : Emission Unit :=
  match operand.source with
  | .slot number => slot number
  | .literal value => literal value

/-- Converts the value on top of the stack; equal roots need no conversion. -/
def widen (source target : TypeRoot) : Emission Unit :=
  if source = target then
    pure ()
  else
    match Opcode.widening? source target with
    | some opcode => instruction opcode []
    | none => throw (.unsupportedConversion source target)

/-- Pushes the operands from left to right.  Where the signature says a numeric primitive, the value
is widened to it at once. -/
def operands : List Operand → Signature → Emission Unit
  | [], _ => pure ()
  | first :: rest, signature => do
      operand first
      match signature.head? with
      | some target => if target.isNumericPrimitive then widen first.root target
      | none => pure ()
      operands rest signature.tail

/-- Calls the function of the runtime that carries out the operator. -/
def builtin (operator : Operator) (arguments : UInt8) : Emission Unit := do
  let position ← position (.operator operator.identity)
  instruction .callBuiltin (Bytecode.bigEndian position ++ [arguments])

end Emission
end OperatorDispatch

import MovAsm.Assembly.Fault
import MovAsm.Image

/-!
# Encoding Instructions

The words of one instruction, which depend on nothing but the instruction: an opcode, and for a
move that names memory or carries a byte, one operand byte. A move between memory and memory, or
of a byte into memory, has two operands but room for one: the destination is not encoded.

Definitions of labels, origins and jumps have no words.
-/

namespace MovAsm

/-- The `Endpoint` of a move that an operand stands for. A label stands for none. -/
def Operand.endpoint? (operand : Operand) : Option Endpoint :=
  match operand.kind with
  | .immediate => some .immediate
  | .address => some .memory
  | .location => operand.register?.map .register
  | .word | .other _ => none

/-- The byte that an operand writes in hexadecimal. Its value must be less than `0x100`. -/
def Operand.byte (operand : Operand) : Except AssemblyFault Word :=
  match Text.readHex? operand.value with
  | some value => if value < 0x100 then pure value.toUInt16 else throw (.operandValue operand.value)
  | none => throw (.operandValue operand.value)

/-- The opcode of a move, if both operands have an `endpoint?` and the machine has this
`Operation.move`. -/
def moveOpcode? (source destination : Operand) : Option Opcode := do
  let start ← source.endpoint?
  let goal ← destination.endpoint?
  (Operation.move start goal).opcode?

/-- The operand of a move that is encoded after the opcode, unless it is a register: the `source`,
or the `destination` of a move out of a register. -/
def moveArgument (source destination : Operand) : Operand :=
  if source.kind = .location then destination else source

/-- The words of a move: its opcode, and the byte of its `moveArgument` unless that is a
register. -/
def encodeMove (source destination : Operand) : Except AssemblyFault (List Word) :=
  match moveOpcode? source destination with
  | none => throw (.operandCombination source destination)
  | some opcode =>
    let argument := moveArgument source destination
    if argument.kind = .location then pure [opcode.toUInt16]
    else do
      let byte ← argument.byte
      pure [opcode.toUInt16, byte]

/-- The words of an instruction. `DEF`, `START` and `JMP` have none; a keyword in a form that is not
its own is a fault. -/
def Instruction.encode : Instruction → Except AssemblyFault (List Word)
  | noOperand _ .hlt => pure [Opcode.halt.toUInt16]
  | noOperand _ .nop => pure [Opcode.idle.toUInt16]
  | unary _ .define _ | unary _ .start _ | unary _ .jmp _ => pure []
  | binary _ .mov source destination => encodeMove source destination
  | _ => throw .expressionType

end MovAsm

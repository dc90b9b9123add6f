import MovAsm.Machine.Register
import MovAsm.Text.Numeral

/-!
# Operations

What the machine can do with one instruction: nothing, stop, or move a byte. A byte is moved from
a register, from memory, or from the instruction itself, into a register or into memory. The
control table gives each operation its opcode. Moves from a register into itself are not in it,
nor are moves into the accumulator.

An opcode is one byte. If the operation names memory or carries a byte of its own, one operand
byte follows.

## Main definitions

* `Operation.controlTable` — every operation with its opcode, by opcode;
* `Operation.opcode?`, `Operation.ofOpcode?` — the table read in either direction;
* `Opcode.mnemonic` — the assembly form of an opcode.
-/

namespace MovAsm

/-- Where a byte comes from or goes to: a register, the memory at the address in the operand byte,
or (`immediate`) the operand byte itself. -/
inductive Endpoint where
  | register (register : Register)
  | memory
  | immediate
  deriving DecidableEq, Repr

/-- What the machine does with one instruction: nothing, stop, or move a byte. -/
inductive Operation where
  | idle
  | halt
  | move (source destination : Endpoint)
  deriving DecidableEq, Repr

/-- The number of an `Operation`. -/
abbrev Opcode := UInt8

/-- The opcode of doing nothing, which also fills the words of a new image. -/
def Opcode.idle : Opcode := 0x00

/-- The opcode of `HLT`. -/
def Opcode.halt : Opcode := 0x20

namespace Operation

/-- Every `Operation` of the machine with its opcode, in the order of the opcodes. -/
def controlTable : List (Opcode × Operation) :=
  [ (Opcode.idle, .idle),
    (0x01, .move (.register .a) (.register .b)),
    (0x02, .move (.register .a) (.register .c)),
    (0x03, .move (.register .a) (.register .o1)),
    (0x04, .move (.register .a) (.register .o2)),
    (0x05, .move (.register .a) .memory),
    (0x06, .move (.register .b) (.register .a)),
    (0x07, .move (.register .b) (.register .c)),
    (0x08, .move (.register .b) (.register .o1)),
    (0x09, .move (.register .b) (.register .o2)),
    (0x0A, .move (.register .b) .memory),
    (0x0B, .move (.register .c) (.register .a)),
    (0x0C, .move (.register .c) (.register .b)),
    (0x0D, .move (.register .c) (.register .o1)),
    (0x0E, .move (.register .c) (.register .o2)),
    (0x0F, .move (.register .c) .memory),
    (0x10, .move (.register .o1) (.register .a)),
    (0x11, .move (.register .o1) (.register .b)),
    (0x12, .move (.register .o1) (.register .c)),
    (0x13, .move (.register .o1) (.register .o2)),
    (0x14, .move (.register .o1) .memory),
    (0x15, .move (.register .o2) (.register .a)),
    (0x16, .move (.register .o2) (.register .b)),
    (0x17, .move (.register .o2) (.register .c)),
    (0x18, .move (.register .o2) (.register .o1)),
    (0x19, .move (.register .o2) .memory),
    (0x1A, .move .memory (.register .a)),
    (0x1B, .move .memory (.register .b)),
    (0x1C, .move .memory (.register .c)),
    (0x1D, .move .memory (.register .o1)),
    (0x1E, .move .memory (.register .o2)),
    (0x1F, .move .memory .memory),
    (Opcode.halt, .halt),
    (0x21, .move .immediate (.register .a)),
    (0x22, .move .immediate (.register .b)),
    (0x23, .move .immediate (.register .c)),
    (0x24, .move .immediate (.register .o1)),
    (0x25, .move .immediate (.register .o2)),
    (0x26, .move .immediate .memory),
    (0x27, .move (.register .acc) (.register .a)),
    (0x28, .move (.register .acc) (.register .b)),
    (0x29, .move (.register .acc) (.register .c)),
    (0x2A, .move (.register .acc) (.register .o1)),
    (0x2B, .move (.register .acc) (.register .o2)),
    (0x2C, .move (.register .acc) .memory) ]

/-- The opcode of an operation, if it is in the `controlTable`. -/
def opcode? (operation : Operation) : Option Opcode :=
  (controlTable.find? fun entry => entry.2 = operation).map (·.1)

/-- The operation of an opcode, if it is in the `controlTable`. -/
def ofOpcode? (opcode : Opcode) : Option Operation :=
  (controlTable.find? fun entry => entry.1 = opcode).map (·.2)

/-- Whether an operand byte follows the opcode of an operation. -/
def hasOperand : Operation → Bool
  | move (.register _) (.register _) => false
  | move _ _ => true
  | idle | halt => false

/-- An operation in assembly text, its operand byte shown as `nn`. An address whose byte is not
encoded is shown as `mm`. -/
def mnemonic : Operation → String
  | idle => "NOP"
  | halt => "HLT"
  | move source destination =>
    let sourceText :=
      match source with
      | .register register => "@" ++ register.name
      | .memory => "$nn"
      | .immediate => "#nn"
    let destinationText :=
      match source, destination with
      | _, .register register => "@" ++ register.name
      | .register _, _ => "$nn"
      | _, _ => "$mm"
    "MOV " ++ sourceText ++ "," ++ destinationText

end Operation

namespace Opcode

/-- An opcode in hexadecimal, with two digits. -/
def text (opcode : Opcode) : String :=
  Text.upperHex 2 opcode.toNat

/-- The assembly form of an opcode; its number if `ofOpcode?` has no operation for it. -/
def mnemonic (opcode : Opcode) : String :=
  match Operation.ofOpcode? opcode with
  | some operation => operation.mnemonic
  | none => "0x" ++ Opcode.text opcode

end Opcode

end MovAsm

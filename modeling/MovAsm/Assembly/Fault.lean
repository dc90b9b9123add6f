import MovAsm.Instruction

/-!
# Faults of Assembly

What can be wrong with an instruction when it is encoded, by itself or after those before it.
-/

namespace MovAsm

/-- Why `Assembly.place` fails: the keyword and the form of the instruction do not go together; an
origin comes after words were written (`originLate`), or is no hexadecimal number of sixteen bits;
an operand is no hexadecimal byte; a label is defined twice; the machine has no such move
(`operandCombination`); or an address lies beyond the image (`range`). -/
inductive AssemblyFault where
  | expressionType
  | originLate
  | origin (text : String)
  | operandValue (text : String)
  | labelDuplicate (name : String)
  | operandCombination (source destination : Operand)
  | range (address capacity : Int)
  deriving DecidableEq, Repr

/-- The text of an `AssemblyFault`. -/
def AssemblyFault.message (phrase : Text.Phrasing) : AssemblyFault → String
  | expressionType => phrase "unexpected expression type" []
  | originLate => phrase "START after code was emitted" []
  | origin text => phrase "invalid origin '%v', expected a hex address" [.text text]
  | operandValue text => phrase "'%v' is not a hex byte" [.text text]
  | labelDuplicate name => phrase "label %v duplicated" [.text name]
  | operandCombination source destination =>
    phrase "unexpected operand combination %v,%v"
      [.text source.text, .text destination.text]
  | range address capacity =>
    phrase "address 0x%02x out of range of %d word image"
      [.number address, .number capacity]

/-- An `AssemblyFault` with the instruction in which it was found and the position of that. -/
structure AssemblyError where
  position : Position
  instruction : Option Instruction
  fault : AssemblyFault
  deriving DecidableEq, Repr

namespace AssemblyError

/-- The error for a `fault` in an `instruction`. A missing instruction has the position `⟨0, 0⟩`. -/
def ofFault (instruction : Option Instruction) (fault : AssemblyFault) : AssemblyError :=
  { position := (instruction.map Instruction.position).getD ⟨0, 0⟩, instruction, fault }

/-- The text of an `AssemblyError`. The position and the instruction are left out if the instruction
is missing. -/
def message (phrase : Text.Phrasing) (error : AssemblyError) : String :=
  match error.instruction with
  | none => phrase "%v" [.text (error.fault.message phrase)]
  | some instruction =>
    phrase "%v: '%v' %v"
      [.text error.position.text, .text instruction.text, .text (error.fault.message phrase)]

end AssemblyError

end MovAsm

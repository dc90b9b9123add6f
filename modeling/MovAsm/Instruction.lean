import MovAsm.Instruction.Keyword
import MovAsm.Instruction.Operand
import MovAsm.Position

/-!
# Instructions

A line of a program, checked or built by hand. The assembler knows three forms; a fourth stands
for any form that it does not know, of which only the keyword and the place are seen.
-/

namespace MovAsm

/-- A line of a program: a keyword with no operand, with one, or with a source and a destination. A
`foreign` instruction is of a form that the assembler does not know. -/
inductive Instruction where
  | noOperand (position : Position) (keyword : Keyword)
  | unary (position : Position) (keyword : Keyword) (operand : Operand)
  | binary (position : Position) (keyword : Keyword) (source destination : Operand)
  | foreign (position : Position) (keyword : Keyword)
  deriving DecidableEq, Repr, Inhabited

namespace Instruction

/-- The position of the keyword in the source. -/
def position : Instruction → Position
  | noOperand position _ | unary position _ _ | binary position _ _ _ | foreign position _ =>
    position

/-- The keyword of an instruction, in every form. -/
def keyword : Instruction → Keyword
  | noOperand _ keyword | unary _ keyword _ | binary _ keyword _ _ | foreign _ keyword => keyword

/-- An instruction in assembly text, as it is shown in listings and messages. -/
def text : Instruction → String
  | noOperand _ keyword | foreign _ keyword => keyword.name
  | unary _ keyword operand => keyword.name ++ " " ++ operand.text
  | binary _ keyword source destination =>
    keyword.name ++ " " ++ source.text ++ "," ++ destination.text

end Instruction

end MovAsm

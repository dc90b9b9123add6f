/-!
# Keywords

The first word of a line says what the line does, and with how many operands.
-/

namespace MovAsm

/-- The number of operands of an instruction; `other` is a number that stands for none. -/
inductive Shape where
  | noOperand
  | unary
  | binary
  | other (code : Int)
  deriving DecidableEq, Repr, Inhabited

/-- The shape with a number, as `Keyword.ofCode` for keywords. -/
def Shape.ofCode : Int → Shape
  | 0 => noOperand
  | 1 => unary
  | 2 => binary
  | code => other code

/-- The name of a shape in messages. -/
def Shape.name : Shape → String
  | noOperand => "no-operand"
  | unary => "unary"
  | binary => "binary"
  | other code => "Shape(" ++ toString code ++ ")"

/-- What a line does: it moves a byte, stops the machine, does nothing, names the current address
(`define`), sets the address of the first word (`start`), or goes on elsewhere (`jmp`). The machine
cannot do the last yet, and nothing is encoded for it. `other` is a number that stands for none of
these. -/
inductive Keyword where
  | mov
  | hlt
  | nop
  | define
  | start
  | jmp
  | other (code : Int)
  deriving DecidableEq, Repr, Inhabited

namespace Keyword

/-- The keywords in the order of their numbers, without `other`. -/
def all : List Keyword := [mov, hlt, nop, define, start, jmp]

/-- The keyword with a number, the inverse of `code`. -/
def ofCode : Int → Keyword
  | 0 => mov
  | 1 => hlt
  | 2 => nop
  | 3 => define
  | 4 => start
  | 5 => jmp
  | code => other code

/-- The number of a keyword. -/
def code : Keyword → Int
  | mov => 0
  | hlt => 1
  | nop => 2
  | define => 3
  | start => 4
  | jmp => 5
  | other code => code

/-- A keyword in assembly text. The words differ from the names here: `DEF` is `define`. -/
def name : Keyword → String
  | mov => "MOV"
  | hlt => "HLT"
  | nop => "NOP"
  | define => "DEF"
  | start => "START"
  | jmp => "JMP"
  | other code => "Keyword(" ++ toString code ++ ")"

/-- The keyword in `all` that a text spells. Case matters. -/
def ofName? (name : String) : Option Keyword :=
  all.find? fun keyword => keyword.name = name

/-- The only `Shape` in which a keyword may stand. -/
def shape : Keyword → Shape
  | hlt | nop => .noOperand
  | define | start | jmp => .unary
  | _ => .binary

end Keyword

end MovAsm

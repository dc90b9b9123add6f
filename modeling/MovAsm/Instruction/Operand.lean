import MovAsm.Machine.Register
import MovAsm.Text.Template

/-!
# Operands

An operand is a sigil and a text. The sigil says what the text means: `#` a byte, `$` an address,
`@` a register and `.` a label. Without a sigil the text names a register.
-/

namespace MovAsm

/-- What an operand denotes: a register (`location`), a byte given in the instruction, a place in
memory, or a label (`word`). `other` is a number that stands for none of these. -/
inductive OperandKind where
  | location
  | immediate
  | address
  | word
  | other (code : Int)
  deriving DecidableEq, Repr, Inhabited

/-- The `OperandKind` with a number. -/
def OperandKind.ofCode : Int → OperandKind
  | 0 => location
  | 1 => immediate
  | 2 => address
  | 3 => word
  | code => other code

/-- The name of an `OperandKind` in messages. -/
def OperandKind.name : OperandKind → String
  | location => "location"
  | immediate => "immediate"
  | address => "address"
  | word => "word"
  | other code => "OperandKind(" ++ toString code ++ ")"

/-- The mark in front of an operand: none, `#`, `$`, `@` or `.`. Any other code point means what no
mark means. -/
inductive Sigil where
  | bare
  | hash
  | dollar
  | at
  | dot
  | other (code : Int)
  deriving DecidableEq, Repr, Inhabited

namespace Sigil

/-- The sigil with a code point; `0` for `bare`. -/
def ofCode : Int → Sigil
  | 0 => bare
  | 0x23 => hash
  | 0x24 => dollar
  | 0x40 => .at
  | 0x2E => dot
  | code => other code

/-- The code point of a sigil; `0` for `bare`. -/
def code : Sigil → Int
  | bare => 0
  | hash => 0x23
  | dollar => 0x24
  | .at => 0x40
  | dot => 0x2E
  | other code => code

/-- The sigil that a character is, if it is one of the four that mean something. -/
def ofChar? : Char → Option Sigil
  | '#' => some hash
  | '$' => some dollar
  | '@' => some .at
  | '.' => some dot
  | _ => none

/-- A sigil in assembly text. -/
def text : Sigil → String
  | bare => ""
  | hash => "#"
  | dollar => "$"
  | .at => "@"
  | dot => "."
  | other code => String.ofList [Text.charOfCode code]

/-- The `OperandKind` of operands with this sigil. -/
def kind : Sigil → OperandKind
  | hash => .immediate
  | dollar => .address
  | dot => .word
  | bare | .at | other _ => .location

end Sigil

/-- A source or destination of a move, a label, or an address: the `sigil` in front, and the text
after it. -/
structure Operand where
  sigil : Sigil
  value : String
  deriving DecidableEq, Repr, Inhabited

namespace Operand

/-- Splits a text into its `sigil` and its `value`. -/
def ofText (text : String) : Operand :=
  match text.toList with
  | [] => ⟨.bare, ""⟩
  | c :: rest =>
    match Sigil.ofChar? c with
    | some sigil => ⟨sigil, String.ofList rest⟩
    | none => ⟨.bare, text⟩

/-- What the operand denotes, by its `sigil` alone. -/
def kind (operand : Operand) : OperandKind :=
  operand.sigil.kind

/-- The register that the operand names, if it is a `location`. -/
def register? (operand : Operand) : Option Register :=
  if operand.kind = .location then Register.ofName? operand.value else none

/-- An operand in assembly text, the inverse of `ofText`. -/
def text (operand : Operand) : String :=
  operand.sigil.text ++ operand.value

end Operand

end MovAsm

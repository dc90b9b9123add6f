import MovAsm.Instruction
import MovAsm.Program.Diagnostic

/-!
# Lines

A line of tokens becomes one instruction or one diagnostic. The number of its significant tokens
decides the shape: a keyword alone, a keyword and an operand, or a keyword and two operands with a
comma between them. Checks run from left to right, first the kinds of all tokens, then what the
operands say.

## Main definitions

* `Line.significant` — the tokens of a line that mean something;
* `Line.instruction` — the instruction they make.
-/

namespace MovAsm.Line

/-- The kinds of a move's source. A bare name, of kind `operation`, stands for a register. -/
def sourceKinds : List Kind := [.hex, .address, .location, .operation]

/-- The kinds of a move's destination, before `checkDestination` looks at what it denotes. -/
def destinationKinds : List Kind := [.hex, .address, .location, .operation, .word]

/-- The kinds of the operand of a `unary` keyword. -/
def operandKinds : Keyword → List Kind
  | .define => [.word]
  | .start => [.address]
  | .jmp => [.address, .word]
  | _ => []

/-- The diagnostic of a `fault` at the start of a token. -/
def complain (token : Token) (fault : LineFault) : Diagnostic :=
  ⟨token.start, .line fault⟩

/-- Requires a token to be of one of the kinds in `want`. -/
def expect (want : List Kind) (token : Token) : Except Diagnostic Unit :=
  if token.kind ∈ want then pure () else throw (complain token (.tokenKind token.kind want))

/-- Reads the keyword of a line, which must have the given `shape`. -/
def keyword (shape : Shape) (token : Token) : Except Diagnostic Keyword := do
  expect [.operation] token
  match Keyword.ofName? token.value with
  | none => throw (complain token .keywordInvalid)
  | some keyword =>
    if keyword.shape = shape then pure keyword
    else throw (complain token (.keywordShape keyword shape))

/-- Reads an operand. A `location` must name a register. -/
def operand (token : Token) : Except Diagnostic Operand :=
  let operand := Operand.ofText token.value
  if operand.kind = .location && operand.register?.isNone then
    throw (complain token .locationInvalid)
  else pure operand

/-- Reads a line of a keyword alone. -/
def noOperand (first : Token) : Except Diagnostic Instruction := do
  let keyword ← keyword .noOperand first
  pure (.noOperand first.start keyword)

/-- Reads a line of a keyword and an operand. A `START` is refused after another instruction. -/
def unary (afterOthers : Bool) (first argument : Token) : Except Diagnostic Instruction := do
  let keyword ← keyword .unary first
  expect (operandKinds keyword) argument
  if keyword = .start && afterOthers then
    throw (complain first .startNotFirst)
  let operand ← operand argument
  pure (.unary first.start keyword operand)

/-- Requires a move to end in memory, or in a register that `isWritable` and is not the one it
begins in. -/
def checkDestination (source destination : Token) (start goal : Operand) :
    Except Diagnostic Unit :=
  if goal.kind = .address then pure ()
  else
    match goal.register? with
    | none => throw (complain destination .destinationInvalid)
    | some register =>
      if !register.isWritable then throw (complain destination .destinationInvalid)
      else if start.register? = some register then throw (complain source .selfMove)
      else pure ()

/-- Reads a line of a keyword and two operands. The tokens are looked at from left to right. -/
def binary (first source comma destination : Token) : Except Diagnostic Instruction := do
  let keyword ← keyword .binary first
  expect sourceKinds source
  expect [.comma] comma
  expect destinationKinds destination
  let start ← operand source
  let goal ← operand destination
  checkDestination source destination start goal
  pure (.binary first.start keyword start goal)

/-- Reads the instruction on a line of significant tokens. `length` is the number of tokens that
a complaint about it gives, and `afterOthers` tells whether there are instructions before. -/
def instruction (afterOthers : Bool) (length : Nat) (first : Token) :
    List Token → Except Diagnostic Instruction
  | [] => noOperand first
  | [argument] => unary afterOthers first argument
  | [source, comma, destination] => binary first source comma destination
  | _ => throw (complain first (.expressionLength length))

/-- The tokens of a line whose kind is not `isTrivial`, its end of line included. -/
def nontrivial (tokens : List Token) : List Token :=
  tokens.filter fun token => !token.kind.isTrivial

/-- The tokens of a line that mean something: the `nontrivial` ones without the end of line. -/
def significant (tokens : List Token) : List Token :=
  let tokens := nontrivial tokens
  match tokens.getLast? with
  | some last => if last.kind = .newline then tokens.dropLast else tokens
  | none => tokens

end MovAsm.Line

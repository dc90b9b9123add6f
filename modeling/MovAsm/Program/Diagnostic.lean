import MovAsm.Instruction.Keyword
import MovAsm.Token.Lexer

/-!
# Diagnostics

What can be wrong with a line of a program, and where. A misplaced `START`, a malformed token and
a text that cannot be read end the reading of the program; all else concerns its own line only.
-/

namespace MovAsm

/-- What is wrong with a line: it has a number of tokens that no instruction has, its end of line
counted (`expressionLength`); a token stands where only tokens of other kinds may; its first word is
no keyword, or one that does not take this number of operands; a name is none of a register
(`locationInvalid`); a `START` comes after another instruction; or a move ends where nothing can be
stored, or where it begins. -/
inductive LineFault where
  | expressionLength (length : Int)
  | tokenKind (got : Kind) (want : List Kind)
  | keywordInvalid
  | keywordShape (keyword : Keyword) (shape : Shape)
  | locationInvalid
  | startNotFirst
  | destinationInvalid
  | selfMove
  deriving DecidableEq, Repr

/-- The text of a `LineFault`. -/
def LineFault.message (phrase : Text.Phrasing) : LineFault → String
  | expressionLength length =>
    phrase "invalid expression length, expected 2, 3, or 5, got %d" [.number length]
  | tokenKind got want =>
    let wanted := "[" ++ " ".intercalate (want.map Kind.name) ++ "]"
    phrase "invalid token %v, expected one of %v" [.text got.name, .text wanted]
  | keywordInvalid => phrase "invalid keyword" []
  | keywordShape keyword shape =>
    phrase "keyword %v is not valid in a %v expression"
      [.text keyword.name, .text shape.name]
  | locationInvalid => phrase "invalid location" []
  | startNotFirst => phrase "START must be the first instruction" []
  | destinationInvalid =>
    phrase "invalid destination, expected an address or one of A, B, C, O1, O2" []
  | selfMove => phrase "invalid move, source and destination are the same" []

/-- Why there is a `Diagnostic`: a token is malformed or the text could not be read, or the tokens
of a line make no instruction. -/
inductive Cause where
  | lexical (failure : LexFailure)
  | line (fault : LineFault)
  deriving DecidableEq, Repr

/-- Something wrong at a position in a program. -/
structure Diagnostic where
  position : Position
  cause : Cause
  deriving DecidableEq, Repr

/-- The text of a `Diagnostic`. A malformed token brings its own position. -/
def Diagnostic.message (phrase : Text.Phrasing) (diagnostic : Diagnostic) : String :=
  match diagnostic.cause with
  | .lexical (.malformed error) => phrase "lexical error %v" [.text (error.message phrase)]
  | .lexical (.unreadable reason) =>
    phrase "%v: %v" [.text diagnostic.position.text, .text reason]
  | .line fault => phrase "%v: %v" [.text diagnostic.position.text, .text (fault.message phrase)]

/-- The text of several diagnostics, a line each. -/
def Diagnostic.joined (phrase : Text.Phrasing) (diagnostics : List Diagnostic) : String :=
  "\n".intercalate (diagnostics.map (Diagnostic.message phrase))

end MovAsm

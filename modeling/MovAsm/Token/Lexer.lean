import MovAsm.Text.DecimalDigit
import MovAsm.Text.Letter
import MovAsm.Text.Template
import MovAsm.Text.Utf8
import MovAsm.Token

/-!
# Reading Tokens

A lexer takes tokens one by one from the front of a text. Every call answers a token; along with
it may come a failure, either because the text there is malformed or because the text could not
be read further. A lexer goes on after a failure: a token is never empty while characters remain,
and at the end of the text every call answers an end of file.

## Main definitions

* `Source` — a text and how it ends;
* `lexeme` — the piece of text that the next token covers, and what is wrong with it;
* `Lexer.next` — the next token, located;
* `Lexer.all` — every token up to the end or the first failure.
-/

namespace MovAsm

/-! ### Sources -/

/-- A text to be read: its characters, and the `failure` with which reading breaks off after them,
unless the text simply ends there. -/
structure Source where
  chars : List Char
  failure : Option String := none
  deriving DecidableEq, Repr

/-- The source that some bytes hold, by `Text.Utf8.decode`. -/
def Source.ofBytes (bytes : List UInt8) (failure : Option String) : Source :=
  ⟨Text.Utf8.decode bytes, failure⟩

/-! ### Failures -/

/-- What can be wrong with a character: no token begins with it, it stands in a byte literal and is
no hexadecimal digit, or (`hexLength`) it comes where a literal has no digits or would get a
third. -/
inductive LexFault where
  | unknownCharacter
  | invalidHexit
  | hexLength
  deriving DecidableEq, Repr

/-- The text of a `LexFault`. -/
def LexFault.message (phrase : Text.Phrasing) : LexFault → String
  | .unknownCharacter => phrase "unknown character" []
  | .invalidHexit => phrase "invalid hexit" []
  | .hexLength => phrase "invalid hex value, expected two hexits" []

/-- A malformed token: the position of the character at fault, what is wrong with it, and its code
point (`offender`), or `0` if there is no character to show. -/
structure LexError where
  position : Position
  fault : LexFault
  offender : Int
  deriving DecidableEq, Repr

/-- The text of a `LexError`. An `offender` of `0` is not shown. -/
def LexError.message (phrase : Text.Phrasing) (error : LexError) : String :=
  let fault := error.fault.message phrase
  if error.offender = 0 then phrase "%v: %v" [.text error.position.text, .text fault]
  else phrase "%v: %v '%c'" [.text error.position.text, .text fault, .number error.offender]

/-- Why a token cannot be relied on: it is malformed, or the text could not be read to its end. -/
inductive LexFailure where
  | malformed (error : LexError)
  | unreadable (reason : String)
  deriving DecidableEq, Repr

/-! ### Classes of characters -/

/-- Whether a character ends a line. -/
def isNewline (c : Char) : Bool :=
  c = '\n' || c = '\r'

/-- Whether a character separates tokens without ending the line. -/
def isBlank (c : Char) : Bool :=
  c = ' ' || c = '\t' || c = '\x0c'

/-- Whether a character continues a name. -/
def isNameChar (c : Char) : Bool :=
  Text.isLetter c || Text.isDecimalDigit c

/-- Whether a character ends a byte literal: white space, or the beginning of another token. -/
def isHexStop (c : Char) : Bool :=
  isBlank c || isNewline c || [',', ';', '#', '$', '@', '.'].contains c

/-! ### Pieces of text -/

/-- The characters that a token covers, and what is wrong with them: the `LexFault`, the number of
characters before the one at fault, and its code point. -/
structure Lexeme where
  kind : Kind
  chars : List Char
  fault : Option (LexFault × Nat × Int) := none
  deriving DecidableEq, Repr

/-- The digits of a byte literal with `room` for so many, and the character that should not follow
them. A digit too many is at fault before it is asked whether it is one. -/
def takeHexits : Nat → List Char → List Char × Option (LexFault × Char)
  | _, [] => ([], none)
  | room, c :: rest =>
    if isHexStop c then ([], none)
    else
      match room with
      | 0 => ([], some (.hexLength, c))
      | room + 1 =>
        if Text.isHexit c then
          let (digits, fault) := takeHexits room rest
          (c :: digits, fault)
        else ([], some (.invalidHexit, c))

/-- A byte literal of one or two digits after its `sigil`. -/
def hexLexeme (kind : Kind) (sigil : Char) (rest : List Char) : Lexeme :=
  let (digits, stop) := takeHexits 2 rest
  { kind
    chars := sigil :: digits
    fault :=
      match stop with
      | some (fault, c) => some (fault, digits.length + 1, c.toNat)
      | none => if digits.isEmpty then some (.hexLength, 1, 0) else none }

/-- The character `c` and all that follow it of a class. -/
def runLexeme (kind : Kind) (class_ : Char → Bool) (c : Char) (rest : List Char) : Lexeme :=
  { kind, chars := c :: rest.takeWhile class_ }

/-- The `Lexeme` at the front of a text that starts with `c`. -/
def lexeme (c : Char) (rest : List Char) : Lexeme :=
  if c = '.' then runLexeme .word isNameChar c rest
  else if c = ',' then { kind := .comma, chars := [c] }
  else if c = ';' then runLexeme .comment (!isNewline ·) c rest
  else if c = '#' then hexLexeme .hex c rest
  else if c = '$' then hexLexeme .address c rest
  else if c = '@' then runLexeme .location isNameChar c rest
  else if Text.isLetter c then runLexeme .operation isNameChar c rest
  else if isNewline c then runLexeme .newline isNewline c rest
  else if isBlank c then runLexeme .whitespace isBlank c rest
  else { kind := .operation, chars := [c], fault := some (.unknownCharacter, 0, c.toNat) }

/-- The `value` of the token: its characters, those of byte literals in upper case. -/
def Lexeme.value (lexeme : Lexeme) : String :=
  match lexeme.kind with
  | .hex | .address => String.ofList (lexeme.chars.map Char.toUpper)
  | _ => String.ofList lexeme.chars

/-! ### Lexers -/

/-- A text that is being read token by token: the `rest` of it, the `failure` of its source, and
where the rest begins. -/
structure Lexer where
  rest : List Char
  failure : Option String
  cursor : Cursor
  deriving DecidableEq, Repr

/-- What one call of `Lexer.next` answers: a token, and why it cannot be relied on, if that is
so. -/
structure Reading where
  token : Token
  failure : Option LexFailure
  deriving DecidableEq, Repr

/-- Whether nothing is read after this token: it is the `endOfFile`, or there was a failure. -/
def Reading.isFinal (reading : Reading) : Bool :=
  reading.failure.isSome || reading.token.kind = .endOfFile

namespace Lexer

/-- A lexer at the beginning of a source. -/
def ofSource (source : Source) : Lexer :=
  ⟨source.chars, source.failure, .start⟩

/-- The position of the next character. -/
def position (lexer : Lexer) : Position :=
  lexer.cursor.position

/-- Takes the next token. All tokens but a comma are read until the character after them is seen, so
a text that cannot be read further is noticed along with its last token. A malformed token hides
that, until the next call. -/
def next (lexer : Lexer) : Reading × Lexer :=
  match lexer.rest with
  | [] =>
    (⟨⟨.endOfFile, "", lexer.position⟩, lexer.failure.map .unreadable⟩, lexer)
  | c :: tail =>
    let piece := lexeme c tail
    let rest := tail.drop (piece.chars.length - 1)
    let failure :=
      match piece.fault with
      | some (fault, offset, offender) =>
        let place := (lexer.cursor.advanceAll (piece.chars.take offset)).position
        some (.malformed ⟨place, fault, offender⟩)
      | none =>
        if rest.isEmpty && piece.kind != .comma then lexer.failure.map .unreadable else none
    (⟨⟨piece.kind, piece.value, lexer.position⟩, failure⟩,
      { lexer with rest, cursor := lexer.cursor.advanceAll piece.chars })

/-- The rest of the text gets shorter with every token that is not the `endOfFile`. -/
theorem next_rest_length_lt (lexer : Lexer) (h : lexer.next.1.token.kind ≠ .endOfFile) :
    lexer.next.2.rest.length < lexer.rest.length := by
  cases hrest : lexer.rest with
  | nil => simp [next, hrest] at h
  | cons c tail =>
      simp only [next, hrest, List.length_drop, List.length_cons]
      omega

/-- Takes a number of tokens by `next`, whatever they are. -/
def run : Nat → Lexer → List Reading × Lexer
  | 0, lexer => ([], lexer)
  | n + 1, lexer =>
    let (reading, lexer) := lexer.next
    let (readings, lexer) := run n lexer
    (reading :: readings, lexer)

/-- Takes tokens up to the first `Reading` that is final, that one included. -/
def all (lexer : Lexer) : List Reading × Lexer :=
  if _h : lexer.next.1.isFinal then ([lexer.next.1], lexer.next.2)
  else
    let (readings, last) := all lexer.next.2
    (lexer.next.1 :: readings, last)
termination_by lexer.rest.length
decreasing_by
  exact next_rest_length_lt _ fun hk => by simp_all [Reading.isFinal]

/-- Takes tokens like `all`, but no more than a number of them. -/
def upTo : Nat → Lexer → List Reading × Lexer
  | 0, lexer => ([], lexer)
  | n + 1, lexer =>
    let (reading, lexer) := lexer.next
    if reading.isFinal then ([reading], lexer)
    else
      let (readings, lexer) := upTo n lexer
      (reading :: readings, lexer)

end Lexer

end MovAsm

import MovAsm.Position
import MovAsm.Text.Quoted

/-!
# Tokens

The smallest pieces of assembly text, each with its kind and the place where it begins.
-/

namespace MovAsm

/-- What a token is: a bare name (`operation`), a byte literal written with `#`, a memory address
with `$`, a register with `@`, a label with a point (`word`), a comma, a semicolon and the rest of
its line (`comment`), blanks, the ends of lines, or the end of the text. `other` is a number that
stands for none of these. -/
inductive Kind where
  | operation
  | hex
  | address
  | location
  | word
  | comma
  | comment
  | whitespace
  | newline
  | endOfFile
  | other (code : Int)
  deriving DecidableEq, Repr, Inhabited

namespace Kind

/-- The `Kind` with a number. -/
def ofCode : Int → Kind
  | 0 => operation
  | 1 => hex
  | 2 => address
  | 3 => location
  | 4 => word
  | 5 => comma
  | 6 => comment
  | 7 => whitespace
  | 8 => newline
  | 9 => endOfFile
  | code => other code

/-- The name of a `Kind` in messages. -/
def name : Kind → String
  | operation => "Operation"
  | hex => "Hex"
  | address => "Address"
  | location => "Location"
  | word => "Word"
  | comma => "Comma"
  | comment => "Comment"
  | whitespace => "Whitespace"
  | newline => "Newline"
  | endOfFile => "EndOfFile"
  | other code => "Kind(" ++ toString code ++ ")"

/-- Whether tokens of this kind mean nothing to the line they stand on. -/
def isTrivial : Kind → Bool
  | whitespace | comment | endOfFile => true
  | _ => false

end Kind

/-- A piece of source text that begins at `start`. Its `value` is the text it covers, its sigil
included, with byte literals in upper case. -/
structure Token where
  kind : Kind
  value : String
  start : Position
  deriving DecidableEq, Repr, Inhabited

namespace Token

/-- A token as `Reader.log` shows it. -/
def text (token : Token) : String :=
  token.kind.name ++ "(" ++ Text.quoted token.value ++ ")@" ++ token.start.text

end Token

end MovAsm

/-!
# Positions

Where a character stands in a source text. Lines count from one and columns from zero; a column
is the number of characters before it on its line. Both are machine words and wrap around.

A line ends at a carriage return, at a line feed, or at the pair of the two in that order. The
pair is one end of line, so a `Cursor`, which moves over a text character by character, remembers
whether it has just passed a carriage return.
-/

namespace MovAsm

/-- A place in a source text: its `line`, the first being 1, and the number of characters before it
on that line. -/
structure Position where
  line : UInt64
  column : UInt64
  deriving DecidableEq, Repr, Inhabited

namespace Position

/-- The beginning of every text. -/
def start : Position := ⟨1, 0⟩

/-- A position as readers count: both `line` and `column` from 1. -/
def text (position : Position) : String :=
  toString position.line.toNat ++ ":" ++ toString (position.column + 1).toNat

end Position

/-- The position of the next character of a text that is read from its beginning, and whether the
last character was a carriage return. -/
structure Cursor where
  position : Position
  afterReturn : Bool
  deriving DecidableEq, Repr, Inhabited

namespace Cursor

/-- The cursor at the beginning of a text. -/
def start : Cursor := ⟨.start, false⟩

/-- Moves over one character. A line feed directly after a carriage return moves nothing. -/
def advance (cursor : Cursor) (c : Char) : Cursor where
  position :=
    if c = '\n' && cursor.afterReturn then cursor.position
    else if c = '\n' || c = '\r' then ⟨cursor.position.line + 1, 0⟩
    else ⟨cursor.position.line, cursor.position.column + 1⟩
  afterReturn := c = '\r'

/-- Moves over several characters, by `advance`. -/
def advanceAll (cursor : Cursor) (chars : List Char) : Cursor :=
  chars.foldl advance cursor

end Cursor

end MovAsm

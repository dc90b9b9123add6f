import MovAsm.Text.Numeral
import MovAsm.Text.Printable

/-!
# Quoted Text

Tokens are shown in listings between double quotes, on one line and without ambiguity: quotes,
backslashes and everything unprintable is escaped.
-/

namespace MovAsm.Text

/-- The letter that comes after the backslash for a character with a one-letter escape. -/
def escapeLetter? : Char → Option Char
  | '\x07' => some 'a'
  | '\x08' => some 'b'
  | '\x0c' => some 'f'
  | '\n' => some 'n'
  | '\r' => some 'r'
  | '\t' => some 't'
  | '\x0b' => some 'v'
  | '\\' => some '\\'
  | '"' => some '"'
  | _ => none

/-- How one character is written between the quotes. One that is not `isPrintable` is written by its
code point, in two, four or eight hexadecimal digits. -/
def escape (c : Char) : String :=
  match escapeLetter? c with
  | some letter => String.ofList ['\\', letter]
  | none =>
    if isPrintable c then String.ofList [c]
    else if c.toNat < 0x80 then "\\x" ++ lowerHex 2 c.toNat
    else if c.toNat < 0x10000 then "\\u" ++ lowerHex 4 c.toNat
    else "\\U" ++ lowerHex 8 c.toNat

/-- A text between double quotes, each character by `escape`. -/
def quoted (text : String) : String :=
  "\"" ++ String.join (text.toList.map escape) ++ "\""

end MovAsm.Text

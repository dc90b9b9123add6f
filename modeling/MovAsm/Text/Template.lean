import MovAsm.Text.Numeral

/-!
# Message Templates

A message is a template and the values that fill its places. Numbers are written for a reader:
the thousands are set apart by the mark of the reader's locale, except in hexadecimal.

A place is `%d` or `%v` for a value as it reads, `%02x` and `%02X` for a number in hexadecimal of
at least two places, and `%c` for the character of a code point. `%%` is a percent sign.
-/

namespace MovAsm.Text

/-- How numbers are written for a reader: with a `separator` between groups of three digits. -/
structure Locale where
  separator : Char
  deriving DecidableEq, Repr

/-- The locale of `phrase`. -/
def Locale.standard : Locale := ⟨','⟩

/-- German writes a full stop between the thousands. -/
def Locale.german : Locale := ⟨'.'⟩

/-- A value that fills a place of a template: a number, or any other text. -/
inductive Filling where
  | number (n : Int)
  | text (s : String)
  deriving DecidableEq, Repr

/-- The character with a code point, and U+FFFD where there is none. -/
def charOfCode (code : Int) : Char :=
  if code < 0 then '\uFFFD'
  else if code.toNat.isValidChar then Char.ofNat code.toNat
  else '\uFFFD'

/-- A filling for `%v` or `%d`: as it reads. -/
def Filling.plain (locale : Locale) : Filling → String
  | .number n => grouped locale.separator n
  | .text s => s

/-- A filling for `%02x`, in lower case hexadecimal: the number, or each byte of the text. -/
def Filling.hex (width : Nat) : Filling → String
  | .number n => signedHex width n
  | .text s =>
    let digits := s.toUTF8.toList.flatMap fun b => padLeft '0' 2 (hexits b.toNat)
    String.ofList (padLeft '0' width digits)

/-- A filling for `%c`, as a single character. -/
def Filling.char : Filling → String
  | .number n => String.ofList [charOfCode n]
  | .text s => s

/-- Writes a template with its places filled in order. A place that has no filling left is kept as
it stands, and fillings that have no place are dropped. -/
def Template.fill (locale : Locale) : List Char → List Filling → String
  | '%' :: '%' :: rest, fillings => "%" ++ fill locale rest fillings
  | '%' :: 'd' :: rest, value :: fillings => value.plain locale ++ fill locale rest fillings
  | '%' :: 'v' :: rest, value :: fillings => value.plain locale ++ fill locale rest fillings
  | '%' :: 'c' :: rest, value :: fillings => value.char ++ fill locale rest fillings
  | '%' :: '0' :: '2' :: 'x' :: rest, value :: fillings =>
    value.hex 2 ++ fill locale rest fillings
  | '%' :: '0' :: '2' :: 'X' :: rest, value :: fillings =>
    String.ofList ((value.hex 2).toList.map Char.toUpper) ++ fill locale rest fillings
  | c :: rest, fillings => String.ofList [c] ++ fill locale rest fillings
  | [], _ => ""

/-- A way to write a message, given its template and what fills the places. The texts of all faults
are functions of a `Phrasing`. -/
abbrev Phrasing := String → List Filling → String

/-- The `Phrasing` of the standard locale. -/
def phrase : Phrasing := fun template fillings =>
  Template.fill .standard template.toList fillings

end MovAsm.Text

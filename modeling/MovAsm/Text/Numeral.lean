/-!
# Numerals

How numbers are written and read: hexadecimal in either case, padded to a width, and decimal with
the thousands set apart.

## Main definitions

* `hexits` — the hexadecimal digits of a number, without leading zeros;
* `padLeft`, `padRight` — filling up to a width;
* `signedHex` — a possibly negative number in hexadecimal, the sign counted in the width;
* `grouped` — decimal digits in groups of three;
* `readHex?` — the number that some hexadecimal digits write.
-/

namespace MovAsm.Text

/-- Fills a text up with `fill` on the left to `width`. Longer text is left as it is. -/
def padLeft (fill : Char) (width : Nat) (text : List Char) : List Char :=
  List.replicate (width - text.length) fill ++ text

/-- Fills a text up with `fill` on the right to `width`. Longer text is left as it is. -/
def padRight (fill : Char) (width : Nat) (text : List Char) : List Char :=
  text ++ List.replicate (width - text.length) fill

/-- The lower case hexadecimal digits of a number, most significant first; `0` for zero. -/
def hexits (n : Nat) : List Char :=
  Nat.toDigits 16 n

/-- A number in lower case hexadecimal, with zeros up to `width`. -/
def lowerHex (width n : Nat) : String :=
  String.ofList (padLeft '0' width (hexits n))

/-- A number in upper case hexadecimal, with zeros up to `width`. -/
def upperHex (width n : Nat) : String :=
  String.ofList (padLeft '0' width ((hexits n).map Char.toUpper))

/-- A possibly negative number in lower case hexadecimal. The zeros go between the sign and the
digits, and the sign counts towards the `width`. -/
def signedHex (width : Nat) (n : Int) : String :=
  if n < 0 then "-" ++ lowerHex (width - 1) n.natAbs else lowerHex width n.natAbs

/-- Puts `separator` between the groups of three of digits given from the least significant. -/
def groupReversed (separator : Char) : List Char → List Char
  | a :: b :: c :: d :: rest => a :: b :: c :: separator :: groupReversed separator (d :: rest)
  | digits => digits

/-- A number in decimal, with `separator` between groups of three digits. -/
def grouped (separator : Char) (n : Int) : String :=
  let digits := groupReversed separator (Nat.toDigits 10 n.natAbs).reverse
  String.ofList (if n < 0 then '-' :: digits.reverse else digits.reverse)

/-- Whether a character is a hexadecimal digit of either case. -/
def isHexit (c : Char) : Bool :=
  c.isDigit || ('a' ≤ c && c ≤ 'f') || ('A' ≤ c && c ≤ 'F')

/-- The value of a hexadecimal digit, and of a letter after `f` by the same count. -/
def hexitValue (c : Char) : Nat :=
  if c.isDigit then c.toNat - '0'.toNat else c.toLower.toNat - 'a'.toNat + 10

/-- The number written by hexadecimal digits in either case. There must be at least one digit, and
nothing but characters that are `isHexit`. -/
def readHex? (text : String) : Option Nat :=
  let digits := text.toList
  if digits.isEmpty || !digits.all isHexit then none
  else some (digits.foldl (fun value c => value * 16 + hexitValue c) 0)

end MovAsm.Text

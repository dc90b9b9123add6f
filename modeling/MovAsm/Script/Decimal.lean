import MovAsm.Script.Number
import MovAsm.Text.Numeral

/-!
# Decimal Digits of Floating Point Numbers

How scripts write floating point numbers: with a fixed number of digits after the point, or with
the fewest digits that read back as the same number. All digits come from exact arithmetic on the
fraction `m * 2 ^ e` that a number is.

## Main definitions

* `Decimal` — digits and the place of the last one;
* `Decimal.shortest`, `Decimal.rounded` — the fewest digits, and a number of them;
* `fixedText`, `scientificText`, `generalText` — the three ways to write a number.
-/

namespace MovAsm.Script

/-- The number `digits * 10 ^ place`. -/
structure Decimal where
  digits : Nat
  place : Int
  deriving DecidableEq, Repr

namespace Decimal

/-- The power of ten of the first digit of the positive fraction `n / d`. The lengths of `n` and `d`
leave two to choose from. -/
def firstPlace (n d : Nat) : Int :=
  let guess : Int := ((Nat.toDigits 10 n).length : Int) - ((Nat.toDigits 10 d).length : Int)
  let (a, b) := scaleDown 10 n d guess
  if b ≤ a then guess else guess - 1

/-- The positive fraction `n / d` rounded to `count` digits. -/
def rounded (count n d : Nat) : Decimal :=
  let place := firstPlace n d - count + 1
  let (a, b) := scaleDown 10 n d place
  let digits := roundDiv a b
  if digits = Nat.pow 10 count then ⟨digits / 10, place + 1⟩ else ⟨digits, place⟩

/-- Drops zeros at the end; `fuel` is at least the number of digits. -/
def trimmed : Nat → Decimal → Decimal
  | 0, decimal => decimal
  | fuel + 1, decimal =>
    if decimal.digits ≠ 0 ∧ decimal.digits % 10 = 0 then
      trimmed fuel ⟨decimal.digits / 10, decimal.place + 1⟩
    else decimal

/-- Among the numbers with their last digit at one place, the one nearest to `m * 2 ^ e` of those
that read back as it. What reads back lies halfway or less to the neighbours of the number, and
exactly halfway only if `m` is even; the neighbour below a power of two is twice as near. Only the
numbers next to `m * 2 ^ e` on either side can be the nearest. -/
def readingBack? (m : Nat) (e place : Int) : Option Decimal :=
  let (a, b) := scaleDown 2 1 1 (2 - e)
  let (a, b) := scaleDown 10 a b place
  let value := 4 * m * a
  let low := (if m = Nat.pow 2 52 ∧ -1074 < e then 4 * m - 1 else 4 * m - 2) * a
  let high := (4 * m + 2) * a
  let digits := value / b
  let within (n : Nat) : Bool :=
    (low < n * b && n * b < high) || (m % 2 = 0 && (n * b = low || n * b = high))
  let nearest := roundDiv value b
  if within nearest then some ⟨nearest, place⟩
  else if within digits then some ⟨digits, place⟩
  else if within (digits + 1) then some ⟨digits + 1, place⟩
  else none

/-- The fewest digits that read back as the positive number `m * 2 ^ e`. Seventeen are always
enough. -/
def shortest (m : Nat) (e : Int) : Decimal :=
  let (n, d) := scaleDown 2 m 1 (-e)
  let first := firstPlace n d
  let found := (List.range 17).findSome? fun (count : Nat) => readingBack? m e (first - count)
  trimmed 18 (found.getD (rounded 17 n d))

/-- The characters of the `digits`. -/
def chars (decimal : Decimal) : List Char :=
  Nat.toDigits 10 decimal.digits

/-- The power of ten of the first digit, where `place` is that of the last. -/
def first (decimal : Decimal) : Int :=
  decimal.place + decimal.chars.length - 1

/-- The digits with a point among them, so that the last digit stands at its `place`. -/
def positional (decimal : Decimal) : List Char :=
  if 0 ≤ decimal.place then decimal.chars ++ List.replicate decimal.place.toNat '0'
  else
    let fraction := decimal.place.natAbs
    let digits := Text.padLeft '0' (fraction + 1) decimal.chars
    digits.take (digits.length - fraction) ++ '.' :: digits.drop (digits.length - fraction)

/-- One digit, a point and the other digits, then `mark` and the power of ten of the first digit in
two digits or more. -/
def scientific (mark : Char) (decimal : Decimal) : List Char :=
  let fraction := decimal.chars.drop 1
  let exponent := Text.padLeft '0' 2 (Nat.toDigits 10 decimal.first.natAbs)
  decimal.chars.take 1 ++ (if fraction.isEmpty then [] else '.' :: fraction) ++
    mark :: (if decimal.first < 0 then '-' else '+') :: exponent

end Decimal

/-! ### The ways to write a number -/

/-- The text of a `Float` that is not finite. -/
def infiniteText (x : Float) : String :=
  if x.isNaN then "nan" else if hasMinus x then "-inf" else "+inf"

/-- Writes a `Float` by its sign and what `write` makes of its size, unless it is not finite. -/
def signedText (write : Nat → Int → List Char) (x : Float) : String :=
  match floatParts? x with
  | some (m, e) =>
    String.ofList (if hasMinus x then '-' :: write m.natAbs e else write m.natAbs e)
  | none => infiniteText x

/-- The number of digits after the point in `fixedText` and `scientificText`. -/
def fractionDigits : Nat := 6

/-- A `Float` with six digits after the point. -/
def fixedText : Float → String :=
  signedText fun m e =>
    let (n, d) := scaleDown 2 m 1 (-e)
    Decimal.positional ⟨roundDiv (n * Nat.pow 10 fractionDigits) d, -fractionDigits⟩

/-- A `Float` with one digit in front of the point, six after it, and a power of ten. -/
def scientificText (mark : Char) : Float → String :=
  signedText fun m e =>
    let (n, d) := scaleDown 2 m 1 (-e)
    if m = 0 then '0' :: '.' :: List.replicate fractionDigits '0' ++ [mark, '+', '0', '0']
    else Decimal.scientific mark (Decimal.rounded (fractionDigits + 1) n d)

/-- A `Float` with the fewest digits that read back. Small and large numbers have a power of ten,
and all others a point. -/
def generalText (mark : Char) : Float → String :=
  signedText fun m e =>
    if m = 0 then ['0', '.', '0']
    else
      let decimal := Decimal.shortest m e
      if decimal.first < -4 ∨ 6 ≤ decimal.first then decimal.scientific mark
      else if 0 ≤ decimal.place then decimal.positional ++ ['.', '0']
      else decimal.positional

end MovAsm.Script

import MovAsm.Text.Numeral

/-!
# Reading Integers

An integer has an optional sign and digits. Digits are decimal, unless they begin with `0`: then
`0b`, `0o` and `0x` announce binary, octal and hexadecimal ones, and a plain `0` announces octal
ones as well. Underscores may stand between digits, and after the announcement of the base.

An integer must fit into a signed machine word of 64 bits. One that does not even fit as an
unsigned word is out of range no matter what follows the digit that makes it too large.

## Main definitions

* `splitBase` — the base of some digits;
* `scanDigits` — the value of digits in a base;
* `readInteger` — the integer that a text writes.
-/

namespace MovAsm.Text

/-- Why a text is no integer: it is not written like one, or it is too large or too small. -/
inductive IntegerFault where
  | malformed
  | outOfRange
  deriving DecidableEq, Repr

/-- The text of an `IntegerFault`. -/
def IntegerFault.message : IntegerFault → String
  | malformed => "parse error"
  | outOfRange => "value out of range"

/-- The base in which a number is written, and its digits. The base is told by `0b`, `0o`, `0x` or a
`0` in front. -/
def splitBase : List Char → Nat × List Char
  | '0' :: mark :: digit :: rest =>
    match mark.toLower with
    | 'b' => (2, digit :: rest)
    | 'o' => (8, digit :: rest)
    | 'x' => (16, digit :: rest)
    | _ => (8, mark :: digit :: rest)
  | '0' :: rest => (8, rest)
  | digits => (10, digits)

/-- The value of some digits in a `base`, most significant first, that come after `value`.
Underscores are passed over. -/
def scanDigits (base : Nat) : Nat → List Char → Except IntegerFault Nat
  | value, [] => .ok value
  | value, '_' :: rest => scanDigits base value rest
  | value, c :: rest =>
    if !isHexit c || base ≤ hexitValue c then .error .malformed
    else if 0x10000000000000000 ≤ value * base + hexitValue c then .error .outOfRange
    else scanDigits base (value * base + hexitValue c) rest

/-- Whether every underscore has something in front that it may follow, and a digit behind. The flag
`afterDigit` tells whether an underscore may come next. -/
def wellSpaced : Bool → List Char → Bool
  | afterDigit, [] => afterDigit
  | afterDigit, '_' :: rest => afterDigit && wellSpaced false rest
  | _, _ :: rest => wellSpaced true rest

/-- The number that digits write, by `splitBase` and `scanDigits`. All bases but the decimal are
announced by something that an underscore may follow. -/
def readMagnitude (text : List Char) : Except IntegerFault Nat :=
  if text.isEmpty then .error .malformed
  else
    let (base, digits) := splitBase text
    match scanDigits base 0 digits with
    | .error fault => .error fault
    | .ok value => if wellSpaced (base != 10) digits then .ok value else .error .malformed

/-- Splits off a sign. Answers whether it is negative. -/
def splitSign : List Char → Bool × List Char
  | '-' :: rest => (true, rest)
  | '+' :: rest => (false, rest)
  | text => (false, text)

/-- The integer that a text writes, which must fit into a machine word. -/
def readInteger (text : String) : Except IntegerFault Int :=
  let (negative, digits) := splitSign text.toList
  match readMagnitude digits with
  | .error fault => .error fault
  | .ok magnitude =>
    let value : Int := if negative then -magnitude else magnitude
    if -0x8000000000000000 ≤ value && value < 0x8000000000000000 then .ok value
    else .error .outOfRange

end MovAsm.Text

/-!
# Numbers of Build Scripts

Scripts have whole numbers of any size and floating point numbers. Where the two meet they are
compared by their exact values, and a number that has no exact floating point value becomes the
nearest one.

## Main definitions

* `floatParts?`, `floatOfRatio?` — the fraction that a floating point number is, and the floating
  point number nearest to a fraction;
* `truncate?`, `floatOfInt?` — between whole and floating point numbers;
* `intOfBytes?` — the whole number that a text writes.
-/

namespace MovAsm.Script

/-- The whole numbers `m` and `e` for which a finite number is `m * 2 ^ e`. -/
def floatParts? (x : Float) : Option (Int × Int) :=
  let bits : Nat := x.toBits.toNat
  let fraction : Nat := bits % Nat.pow 2 52
  let exponent : Nat := bits / Nat.pow 2 52 % Nat.pow 2 11
  let sign : Int := if bits < Nat.pow 2 63 then 1 else -1
  if exponent = 2047 then none
  else if exponent = 0 then some (sign * (fraction : Int), -1074)
  else some (sign * ((fraction + Nat.pow 2 52 : Nat) : Int), (exponent : Int) - 1075)

/-- A `Float` without its fraction, if it is finite. -/
def truncate? (x : Float) : Option Int := do
  let (m, e) ← floatParts? x
  if 0 ≤ e then some (m * Int.pow 2 e.natAbs) else some (m.tdiv (Int.pow 2 e.natAbs))

/-- The quotient `n / d` rounded to the nearest whole number, and from halfway to the even one. -/
def roundDiv (n d : Nat) : Nat :=
  let quotient := n / d
  let rest := n % d
  if d < 2 * rest || (d = 2 * rest && quotient % 2 = 1) then quotient + 1 else quotient

/-- The numerator and denominator of `n / d` divided by `base ^ e`. -/
def scaleDown (base n d : Nat) (e : Int) : Nat × Nat :=
  if 0 ≤ e then (n, d * Nat.pow base e.natAbs) else (n * Nat.pow base e.natAbs, d)

/-- The `Float` nearest to `n / d`, if there is a finite one. The fraction is written as `m * 2 ^
e`, where `m` has 53 bits unless `e` is the least exponent; counting `m` on from the multiple of `2
^ 52` that belongs to `e` gives the bits of the number, also where rounding takes `m` to 54 bits. -/
def floatOfRatio? (n d : Nat) : Option Float :=
  if n = 0 then some 0
  else
    let guess : Int := (n.log2 : Int) - (d.log2 : Int) - 52
    let (a, b) := scaleDown 2 n d guess
    let e : Int := max (if a < b * Nat.pow 2 52 then guess - 1 else guess) (-1074)
    let (a, b) := scaleDown 2 n d e
    let bits := (e + 1074).toNat * Nat.pow 2 52 + roundDiv a b
    if 2047 * Nat.pow 2 52 ≤ bits then none else some (Float.ofBits bits.toUInt64)

/-- The `Float` nearest to a whole number, if there is a finite one. -/
def floatOfInt? (n : Int) : Option Float :=
  (floatOfRatio? n.natAbs 1).map fun x => if n < 0 then -x else x

/-- The order of a whole number and a `Float`. One that is not a number is above all. -/
def compareIntFloat (n : Int) (x : Float) : Ordering :=
  match floatParts? x with
  | some (m, e) =>
    if 0 ≤ e then compare n (m * Int.pow 2 e.natAbs)
    else compare (n * Int.pow 2 e.natAbs) m
  | none => if x < 0 then .gt else .lt

/-- The order of `Float`s. One that is not a number is above all. -/
def compareFloats (x y : Float) : Ordering :=
  if x < y then .lt
  else if y < x then .gt
  else if x == y then .eq
  else if x == x then .lt
  else if y == y then .gt
  else .eq

/-- Whether a `Float` has a minus sign, which zero may have too. -/
def hasMinus (x : Float) : Bool :=
  Nat.pow 2 63 ≤ x.toBits.toNat

/-- The remainder of a division, with the sign of the divisor `y`. A remainder of zero has the sign
of the dividend. -/
def floatModulo (x y : Float) : Float :=
  match floatParts? x, floatParts? y with
  | some (m, e), some (m', e') =>
    let least := min e e'
    let rest := (m.natAbs * Nat.pow 2 (e - least).natAbs) %
      (m'.natAbs * Nat.pow 2 (e' - least).natAbs)
    let (n, d) := scaleDown 2 rest 1 (-least)
    let size := (floatOfRatio? n d).getD 0
    let z := if hasMinus x then -size else size
    if (x < 0) != (y < 0) && z != 0 then z + y else z
  | some _, none => if y.isNaN then y else if (x < 0) != (y < 0) && x != 0 then x + y else x
  | none, _ => 0.0 / 0.0

/-- The digit that a byte stands for, in bases up to 36. -/
def digitOfByte? (b : UInt8) : Option Nat :=
  let c := Char.ofNat b.toNat
  if c.isDigit then some (c.toNat - '0'.toNat)
  else if c.isAlpha then some (c.toLower.toNat - 'a'.toNat + 10)
  else none

/-- The number that bytes write in a `base`, by `digitOfByte?`. There must be at least one digit. -/
def natOfBytes? (base : Nat) (bytes : List UInt8) : Option Nat :=
  if bytes.isEmpty then none
  else
    bytes.foldlM (fun value b =>
      match digitOfByte? b with
      | some digit => if digit < base then some (value * base + digit) else none
      | none => none) 0

/-- The base that the beginning of a number announces, such as `0x`, if there are digits after
it. -/
def announcedBase? : List UInt8 → Option Nat
  | 0x30 :: b :: _ :: _ =>
    match Char.ofNat b.toNat with
    | 'x' | 'X' => some 16
    | 'o' | 'O' => some 8
    | 'b' | 'B' => some 2
    | _ => none
  | _ => none

/-- The number that a text writes. Base `0` stands for the `announcedBase?`, and for ten if there is
none; then only zero may begin with a zero. -/
def intOfBytes? (base : Nat) (bytes : List UInt8) : Option Int := do
  let (negative, digits) :=
    match bytes with
    | 0x2B :: rest => (false, rest)
    | 0x2D :: rest => (true, rest)
    | rest => (false, rest)
  let value ←
    match announcedBase? digits with
    | some announced =>
      if base = 0 || base = announced then natOfBytes? announced (digits.drop 2)
      else natOfBytes? base digits
    | none =>
      if base = 0 then
        if digits.head? = some 0x30 && digits.any (· != 0x30) then none
        else natOfBytes? 10 digits
      else natOfBytes? base digits
  some (if negative then -(value : Int) else value)

end MovAsm.Script

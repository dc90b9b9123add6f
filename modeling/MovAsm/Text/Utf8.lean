/-!
# Reading Bytes as Characters

Source files are bytes. `decode` reads them as UTF-8 and never fails: a byte that begins no
well-formed sequence becomes one replacement character, and reading goes on with the byte after
it. Overlong forms, surrogates and code points above U+10FFFF are not well formed, so each of
their bytes is replaced on its own.

## Main definitions

* `sequence?` — the well-formed sequence at the head of some bytes, with its length;
* `decode` — all characters of some bytes.
-/

namespace MovAsm.Text.Utf8

/-- What `decode` makes of an ill-formed byte. -/
def replacement : Char := '\uFFFD'

/-- Whether a byte lies between `low` and `high`, the bounds included. -/
def within (low high : UInt8) (b : UInt8) : Bool :=
  low ≤ b && b ≤ high

/-- The six bits that a byte after the first of a sequence carries. -/
def tailBits (b : UInt8) : Nat :=
  b.toNat % 64

/-- The bounds of the second byte of a sequence that starts with `lead`. They leave out overlong
forms, surrogates and code points above U+10FFFF. -/
def secondBounds (lead : UInt8) : UInt8 × UInt8 :=
  if lead = 0xE0 then (0xA0, 0xBF)
  else if lead = 0xED then (0x80, 0x9F)
  else if lead = 0xF0 then (0x90, 0xBF)
  else if lead = 0xF4 then (0x80, 0x8F)
  else (0x80, 0xBF)

/-- The character that starts with byte `lead`, read from the bytes `rest` after it, with the
number of those bytes that belong to it. -/
def sequence? (lead : UInt8) (rest : List UInt8) : Option (Char × Nat) :=
  let (low, high) := secondBounds lead
  if lead < 0x80 then
    some (Char.ofNat lead.toNat, 0)
  else if within 0xC2 0xDF lead then
    match rest with
    | b :: _ =>
      if within low high b then some (Char.ofNat (lead.toNat % 32 * 64 + tailBits b), 1) else none
    | _ => none
  else if within 0xE0 0xEF lead then
    match rest with
    | b :: c :: _ =>
      if within low high b && within 0x80 0xBF c then
        some (Char.ofNat ((lead.toNat % 16 * 64 + tailBits b) * 64 + tailBits c), 2)
      else none
    | _ => none
  else if within 0xF0 0xF4 lead then
    match rest with
    | b :: c :: d :: _ =>
      if within low high b && within 0x80 0xBF c && within 0x80 0xBF d then
        some (Char.ofNat
          (((lead.toNat % 8 * 64 + tailBits b) * 64 + tailBits c) * 64 + tailBits d), 3)
      else none
    | _ => none
  else none

/-- The characters of some bytes, an ill-formed byte as one `replacement`. -/
def decode : List UInt8 → List Char
  | [] => []
  | lead :: rest =>
    match sequence? lead rest with
    | some (c, n) => c :: decode (rest.drop n)
    | none => replacement :: decode rest
termination_by bytes => bytes.length
decreasing_by
  all_goals
    simp only [List.length_cons, List.length_drop]
    omega

end MovAsm.Text.Utf8

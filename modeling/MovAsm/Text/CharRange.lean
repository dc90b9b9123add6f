/-!
# Ranges of Characters

A class of characters outside ASCII is a list of closed ranges of code points. The tables of
`MovAsm.Text.Letter`, `MovAsm.Text.DecimalDigit` and `MovAsm.Text.Printable` are such lists, in
ascending order, and start above ASCII: the ASCII members of a class are stated by rule.

All three are of Unicode 17.0, the version of the toolchain that the assembler is built with. The
oldest toolchain that can build it is of Unicode 15.0; built with that one, the assembler would not
take the letters for letters that are new since, such as U+0C5C.
-/

namespace MovAsm.Text

/-- Closed ranges of code points, first and last member of each. -/
abbrev CharRanges := List (Nat × Nat)

/-- Whether a character lies in one of the `ranges`. -/
def CharRanges.contains (ranges : CharRanges) (c : Char) : Bool :=
  ranges.any fun range => range.1 ≤ c.toNat && c.toNat ≤ range.2

end MovAsm.Text

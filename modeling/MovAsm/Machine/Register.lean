/-!
# Registers

The machine has five general purpose registers and an accumulator, which can only be read.
-/

namespace MovAsm

/-- The registers `A`, `B`, `C`, `O1` and `O2` of the machine, and its accumulator. `other` is a
number that stands for none of them. -/
inductive Register where
  | a
  | b
  | c
  | o1
  | o2
  | acc
  | other (code : Int)
  deriving DecidableEq, Repr, Inhabited

namespace Register

/-- The registers in the order of their numbers, without `other`. -/
def all : List Register := [a, b, c, o1, o2, acc]

/-- The register with a number, the inverse of `code`. -/
def ofCode : Int → Register
  | 0 => a
  | 1 => b
  | 2 => c
  | 3 => o1
  | 4 => o2
  | 5 => acc
  | code => other code

/-- The number of a register. -/
def code : Register → Int
  | a => 0
  | b => 1
  | c => 2
  | o1 => 3
  | o2 => 4
  | acc => 5
  | other code => code

/-- The name of a register in assembly text. -/
def name : Register → String
  | a => "A"
  | b => "B"
  | c => "C"
  | o1 => "O1"
  | o2 => "O2"
  | acc => "ACC"
  | other code => "Register(" ++ toString code ++ ")"

/-- The register in `all` with a name. Case matters. -/
def ofName? (name : String) : Option Register :=
  all.find? fun register => register.name = name

/-- Whether a move may end in the register. None may end in `acc`. -/
def isWritable : Register → Bool
  | a | b | c | o1 | o2 => true
  | _ => false

end Register

end MovAsm

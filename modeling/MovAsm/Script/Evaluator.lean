/-!
# Evaluators of Build Scripts

What the assembler needs to know about the language of build files: an `Evaluator` is given the
names that a script need not define, the name of the file and its bytes, and answers what the script
has printed and which globals it leaves behind. Build files are loaded with any evaluator;
`Script.evaluator` is one.

Of the value of a global, only integers and truth values matter. All others are a `Global.other`.
-/

namespace MovAsm.Script

/-- The value of a global, as far as a build file can make use of it. -/
inductive Global where
  | int (n : Int)
  | bool (b : Bool)
  | other
  deriving DecidableEq, Repr

/-- Why a script has no result: its text makes no statements, a name in it has no meaning, it cannot
be run although all names have one, or it was run and failed. -/
inductive Failure where
  | malformed (reason : String)
  | unresolved (reason : String)
  | unrunnable
  | failed (reason : String)
  deriving DecidableEq, Repr

/-- The words for a `Failure`. -/
def Failure.message : Failure → String
  | malformed reason | unresolved reason | failed reason => reason
  | unrunnable => "jump out of a loop of another function"

/-- What a script has done: the lines that it `printed` before it came to its end or failed, and the
globals at its end. -/
structure Evaluation where
  printed : List String
  result : Except Failure (List (String × Global))

/-- A way to run scripts. The arguments are the predeclared names with their values, the name of the
file and its bytes. -/
abbrev Evaluator := List (String × Int) → String → List UInt8 → Evaluation

end MovAsm.Script

import MovAsm.BuildFile
import MovAsm.Command.Options
import MovAsm.Instruction.Outline

/-!
# Reports

Whatever the command has to say goes to the error output. A `Report` keeps it as data, remark by
remark, and only `Report.text` turns it into text; how instructions are laid out and how messages
are phrased is up to a `Printer`.
-/

namespace MovAsm.Command

/-- The name of the command, which also begins messages about settings. -/
def name : String := "wh02asm"

/-- What can be wrong with a file that the command was given, or with its settings. The `total` is
the number of diagnostics, said after the last of them. -/
inductive Complaint where
  | setting (fault : SettingFault)
  | file (error : FileError)
  | diagnostic (diagnostic : Diagnostic)
  | total (count : Nat)
  | assembly (error : AssemblyError)
  | unallocatable
  deriving DecidableEq, Repr

/-- Something that the command says: a line as it is, the instructions that were read, what is wrong
with the build file, or what is wrong with a file of another name. -/
inductive Remark where
  | line (text : String)
  | outline (instructions : List Instruction)
  | build (error : BuildError)
  | about (subject : String) (complaint : Complaint)
  deriving DecidableEq, Repr

/-- How the command ends: its exit status, and all that it says. -/
structure Report where
  exit : UInt8
  remarks : List Remark
  deriving DecidableEq, Repr

/-- The explanation of the flags, which `Report.ofFlagFault` shows. -/
def usage : List String :=
  ["Usage of " ++ name ++ ":",
    "  -capacity int",
    "    \tImage size in words (overrides build file)",
    "  -config string",
    "    \t.star build file to load",
    "  -p\tPretty-print parsed instructions to stderr",
    "  -v\tVerbose mode",
    "  -width int",
    "    \tHexits per dumped word, 2 or 4 (overrides build file)"]

/-- The report on a `FlagFault`. To ask for help is no failure. -/
def Report.ofFlagFault (fault : FlagFault) : Report :=
  ⟨if fault = .help then 0 else 2, (fault.message?.toList ++ usage).map .line⟩

/-! ### Printing -/

/-- How remarks are put into words: `phrase` fills in messages, and `outline` shows instructions. -/
structure Printer where
  phrase : Text.Phrasing
  outline : List Instruction → List String

/-- The printer of the program: `Text.phrase`, and outlines in colour. -/
def Printer.standard : Printer := ⟨Text.phrase, Instruction.Outline.lines⟩

/-- The text of a `Complaint`. -/
def Complaint.message (phrase : Text.Phrasing) : Complaint → String
  | setting fault => fault.message phrase
  | file error => error.message
  | diagnostic found => found.message phrase
  | total count => toString count ++ " error(s), no output written"
  | assembly error => error.message phrase
  | unallocatable => "no room for the image"

/-- The lines of a `Remark`. -/
def Remark.lines (printer : Printer) : Remark → List String
  | line text => [text]
  | outline instructions => printer.outline instructions
  | build error => [error.message printer.phrase]
  | about subject complaint => [subject ++ ": " ++ complaint.message printer.phrase]

/-- What the program writes to its error output: the lines of all remarks. -/
def Report.text (printer : Printer) (report : Report) : String :=
  String.join ((report.remarks.flatMap (Remark.lines printer)).map (· ++ "\n"))

end MovAsm.Command

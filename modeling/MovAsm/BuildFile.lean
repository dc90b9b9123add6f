import MovAsm.Script.Evaluator
import MovAsm.Settings
import MovAsm.Storage

/-!
# Build Files

A build file is a script that gives values to `capacity`, `width` and `verbose`. What it leaves
out keeps its usual value, and whatever else it defines is ignored. The usual values are known to
it as `DEFAULT_CAPACITY` and `DEFAULT_WIDTH`. Which language the script is written in is up to the
`Script.Evaluator` that a build file is loaded with.
-/

namespace MovAsm

/-- Why a build file gives no settings: it could not be read, its script failed, or a setting in it
is wrong. -/
inductive BuildFault where
  | unreadable (error : FileError)
  | script (failure : Script.Failure)
  | setting (fault : SettingFault)
  deriving DecidableEq, Repr

/-- The text of a `BuildFault`. -/
def BuildFault.message (phrase : Text.Phrasing) : BuildFault → String
  | unreadable error => error.message
  | script failure => failure.message
  | setting fault => fault.message phrase

/-- A `BuildFault` with the name of the build file. -/
structure BuildError where
  name : String
  fault : BuildFault
  deriving DecidableEq, Repr

/-- The text of a `BuildError`. -/
def BuildError.message (phrase : Text.Phrasing) (error : BuildError) : String :=
  phrase "%v: %v" [.text error.name, .text (error.fault.message phrase)]

namespace BuildFile

/-- The names that a build file need not define, with their values. -/
def predeclared : List (String × Int) :=
  [("DEFAULT_CAPACITY", Assembler.defaultCapacity), ("DEFAULT_WIDTH", Assembler.defaultWidth)]

/-- The integer under `name` among the globals of a script, if there is one. It must fit into a
machine word, and no other type of value will do. -/
def number? (globals : List (String × Script.Global)) (name : String) :
    Except BuildFault (Option Int) :=
  match globals.lookup name with
  | none => pure none
  | some (.int n) =>
    if -0x8000000000000000 ≤ n && n < 0x8000000000000000 then pure (some n)
    else throw (.setting (.wrongType name))
  | some _ => throw (.setting (.wrongType name))

/-- The truth value under `name` among the globals of a script, if there is one. -/
def flag? (globals : List (String × Script.Global)) (name : String) :
    Except BuildFault (Option Bool) :=
  match globals.lookup name with
  | none => pure none
  | some (.bool b) => pure (some b)
  | some _ => throw (.setting (.wrongType name))

/-- The settings that the globals of a script stand for, if they pass `Settings.validate`. -/
def settingsOf (globals : List (String × Script.Global)) : Except BuildFault Settings := do
  let usual : Settings := {}
  let capacity ← number? globals "capacity"
  let width ← number? globals "width"
  let verbose ← flag? globals "verbose"
  let settings : Settings :=
    { capacity := capacity.getD usual.capacity
      width := width.getD usual.width
      verbose := verbose.getD usual.verbose }
  match settings.validate with
  | .ok () => pure settings
  | .error fault => throw (.setting fault)

/-- Runs the script in a build file with `evaluate`. Answers the lines that it has printed, and the
settings that its globals stand for. -/
def load (evaluate : Script.Evaluator) (name : String) (bytes : List UInt8) :
    List String × Except BuildError Settings :=
  let evaluation := evaluate predeclared name bytes
  let settings :=
    match evaluation.result with
    | .error failure => .error ⟨name, .script failure⟩
    | .ok globals =>
      match settingsOf globals with
      | .ok settings => .ok settings
      | .error fault => .error ⟨name, fault⟩
  (evaluation.printed, settings)

end BuildFile

end MovAsm

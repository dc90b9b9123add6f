import MovAsm.BuildFile
import MovAsm.Command.Options
import MovAsm.Command.Report
import MovAsm.Storage
import MovAsm.Storage.Path

/-!
# The Command

Given options and the paths of two files, the command assembles the program in the first and writes
the dump of its image to the second. The dump is written under a temporary name beside the output
and renamed at the end, so that the output is either replaced as a whole or left alone. If that
fails on the way, the temporary file is removed; whether this succeeds is not looked at.

The command works with any `Storage` and with any `Script.Evaluator` for build files.

## Main definitions

* `Command.Job.ofArguments` — what a command line asks for;
* `Command.Job.settings` — the settings for a job;
* `Command.Job.assemble` — the dump of a source, or what is wrong with it;
* `Command.publish` — replaces a file in one step;
* `Command.run` — the command.
-/

namespace MovAsm.Command

/-! ### Jobs -/

/-- What a command line asks for: `options`, and the paths of the source file and of the file for
the dump. -/
structure Job where
  options : Options
  input : String
  output : String
  deriving DecidableEq, Repr

/-- What came of reading the build file: nothing if there is none to read. -/
abbrev BuildRead := Option (Except FileFault FileContent)

namespace Job

/-- The job of a command line. After the options there must be two paths. -/
def ofArguments (arguments : List String) : Except Report Job :=
  match Options.parse {} arguments with
  | .error fault => .error (.ofFlagFault fault)
  | .ok (options, [input, output]) => .ok ⟨options, input, output⟩
  | .ok _ => .error ⟨1, [.line ("usage: " ++ name ++ " [options] INPUT OUTPUT")]⟩

/-- What the build file prints, and the settings in it. Without a build file there is nothing to
print, and the settings are the usual ones. -/
def buildSettings (evaluate : Script.Evaluator) (job : Job) (build : BuildRead) :
    List String × Except BuildError Settings :=
  let file := job.options.config
  match build with
  | none => ([], .ok {})
  | some (.error fault) => ([], .error ⟨file, .unreadable ⟨"open", [file], fault⟩⟩)
  | some (.ok ⟨_, some fault⟩) => ([], .error ⟨file, .unreadable ⟨"read", [file], fault⟩⟩)
  | some (.ok ⟨bytes, none⟩) => BuildFile.load evaluate file bytes

/-- The settings that come of those in the build file: the options take precedence, and the result
must be valid. -/
def resolve (job : Job) : Except BuildError Settings → Except Remark Settings
  | .error error => .error (.build error)
  | .ok base =>
    let settings := job.options.override base
    match settings.validate with
    | .error fault => .error (.about name (.setting fault))
    | .ok () => .ok settings

/-- What the build file prints, and the settings for a job. -/
def settings (evaluate : Script.Evaluator) (job : Job) (build : BuildRead) :
    List Remark × Except Remark Settings :=
  let (printed, base) := job.buildSettings evaluate build
  (printed.map .line, job.resolve base)

/-- The source of a job, given what could be read of the input. -/
def source (job : Job) (content : FileContent) : Source :=
  Source.ofBytes content.bytes
    (content.fault.map fun fault => FileError.message ⟨"read", [job.input], fault⟩)

/-- What is said about an `Outcome`. An image speaks for itself. -/
def remarks (job : Job) : Outcome → List Remark
  | .image _ => []
  | .rejected diagnostics =>
    diagnostics.map (fun diagnostic => .about job.input (.diagnostic diagnostic)) ++
      [.about job.input (.total diagnostics.length)]
  | .failed error => [.about job.input (.assembly error)]
  | .unallocatable => [.about job.input .unallocatable]

/-- The instructions of a source, if the job is to show them. -/
def shown (job : Job) (instructions : List Instruction) : List Remark :=
  if job.options.outline then [.outline instructions] else []

/-- Assembles a source. Answers what is said about it, and the dump unless something is wrong. -/
def assemble (job : Job) (settings : Settings) (source : Source) :
    List Remark × Option String :=
  let assembler := settings.assembler
  let (reader, fatal) := (Reader.ofSource source).drain
  let log := (assembler.logIf (Reader.log reader.lines)).map .line ++ job.shown reader.instructions
  match reader.complaints fatal with
  | [] =>
    let (_, outcome, listing) := assembler.assemble (reader.instructions.map some)
    (log ++ listing.map .line ++ job.remarks outcome, outcome.image?.map Image.dump)
  | diagnostics => (log ++ job.remarks (.rejected diagnostics), none)

end Job

/-! ### Running -/

variable {m : Type → Type} [Monad m] [Storage m]

/-- The path under which the dump for `output` is written, beside it. -/
def temporaryName (suffix output : String) : String :=
  Path.join (Path.directory output) ("." ++ Path.base output ++ "." ++ suffix)

/-- Removes the file at `temporary`, if that can be done, and answers the error that made it
useless. -/
def abandon (temporary : String) (error : FileError) : m (Except FileError Unit) := do
  let _ ← Storage.remove temporary
  return .error error

/-- Writes bytes to a file that was made at `temporary`, and gives it the path `output`. -/
def replace (temporary output : String) (content : List UInt8) : m (Except FileError Unit) := do
  match ← Storage.write temporary content with
  | .error fault => abandon temporary ⟨"write", [temporary], fault⟩
  | .ok () =>
    match ← Storage.close temporary with
    | .error fault => abandon temporary ⟨"close", [temporary], fault⟩
    | .ok () =>
      match ← Storage.rename temporary output with
      | .error fault => abandon temporary ⟨"rename", [temporary, output], fault⟩
      | .ok () => return .ok ()

/-- Replaces the file at `output` by one with some bytes. These are written to a new file beside it,
whose name ends in `suffix`. A path of slashes alone leaves no name for such a file. -/
def publish (suffix output : String) (content : List UInt8) : m (Except FileError Unit) :=
  let temporary := temporaryName suffix output
  if Path.base output = "/" then
    return .error ⟨"createtemp", ["./.*"], .other "pattern contains path separator"⟩
  else do
    match ← Storage.create temporary with
    | .error .alreadyExists =>
      return .error ⟨"createtemp", [temporaryName "*" output], .alreadyExists⟩
    | .error fault => return .error ⟨"open", [temporary], fault⟩
    | .ok () => replace temporary output content

/-- Reads the build file of a job, if it has one. -/
def readBuild (job : Job) : m BuildRead := do
  if job.options.config.isEmpty then return none
  return some (← Storage.read job.options.config)

/-- Carries out a job. -/
def Job.run (evaluate : Script.Evaluator) (suffix : String) (job : Job) : m Report := do
  match job.settings evaluate (← readBuild job) with
  | (printed, .error remark) => return ⟨1, printed ++ [remark]⟩
  | (printed, .ok settings) =>
    match ← Storage.read job.input with
    | .error fault =>
      return ⟨1, printed ++ [.about job.input (.file ⟨"open", [job.input], fault⟩)]⟩
    | .ok content =>
      match job.assemble settings (job.source content) with
      | (remarks, none) => return ⟨1, printed ++ remarks⟩
      | (remarks, some dump) =>
        match ← publish suffix job.output dump.toUTF8.data.toList with
        | .error error => return ⟨1, printed ++ remarks ++ [.about job.output (.file error)]⟩
        | .ok () => return ⟨0, printed ++ remarks⟩

/-- The command, with an evaluator for build files, a suffix for temporary names and its
arguments. -/
def run (evaluate : Script.Evaluator) (suffix : String) (arguments : List String) : m Report :=
  match Job.ofArguments arguments with
  | .error report => return report
  | .ok job => job.run evaluate suffix

end MovAsm.Command

import MovAsm.Command
import MovAsm.Script

/-!
# The Program

The command, run in the file system.
-/

namespace MovAsm

/-- What an error of the system means for a file. Of the errors about the type of a file, the system
gives number 21 to `isADirectory`; some of its interfaces negate the number. An argument is invalid
for many reasons, of which number 36 is `nameTooLong`. -/
def FileFault.ofError : IO.Error → FileFault
  | .noFileOrDirectory _ _ _ => noSuchFile
  | .alreadyExists _ _ _ => alreadyExists
  | .inappropriateType _ code _ =>
    if code = 21 ∨ code = -21 then isADirectory else notADirectory
  | .permissionDenied _ _ _ => other "permission denied"
  | .invalidArgument _ 36 _ => nameTooLong
  | error => other (toString error)

/-- Does something with a file, and answers what went wrong as a `FileFault`. -/
def attempt {α : Type} (action : IO α) : IO (Except FileFault α) := do
  match ← action.toBaseIO with
  | .ok result => return .ok result
  | .error error => return .error (.ofError error)

/-- Reads an open file piece by piece, to its end or to where `handle.read` fails. -/
def readPieces (handle : IO.FS.Handle) : IO FileContent := do
  let mut bytes : Array UInt8 := #[]
  repeat
    match ← attempt (handle.read 0x10000) with
    | .error fault => return ⟨bytes.toList, some fault⟩
    | .ok piece =>
      if piece.isEmpty then break
      bytes := bytes ++ piece.data
  return ⟨bytes.toList, none⟩

/-- The storage of the system. A file is closed whenever `write` is done with it, so there is
nothing left for `close` to do. -/
instance : Storage IO where
  read path := do
    match ← attempt (IO.FS.Handle.mk path .read) with
    | .error fault => return .error fault
    | .ok handle => return .ok (← readPieces handle)
  create path := attempt do let _ ← IO.FS.Handle.mk path .writeNew
  write path content := attempt (IO.FS.writeBinFile path ⟨content.toArray⟩)
  close _ := return .ok ()
  rename path target := do
    match ← attempt (IO.FS.rename path target) with
    | .error .isADirectory => return .error .alreadyExists
    | result => return result
  remove path := attempt (IO.FS.removeFile path)

end MovAsm

/-- Runs `Command.run` with the arguments of the program, and prints its report. -/
def main (arguments : List String) : IO UInt32 := do
  let suffix ← IO.rand 0 0xFFFFFFFF
  let report ← MovAsm.Command.run MovAsm.Script.evaluator (toString suffix) arguments
  (← IO.getStderr).putStr (report.text .standard)
  return report.exit.toUInt32

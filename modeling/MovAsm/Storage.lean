/-!
# Storage

What the command needs of the place where files are kept. The command is written for any
`Storage`: the file system is one, and a `FileTree` is another. Every operation may be refused, and
says why by a `FileFault`; a file that was opened may still break off while it is read, which is why
`Storage.read` answers a `FileContent` and not only bytes.
-/

namespace MovAsm

/-- Why something cannot be done with a file. -/
inductive FileFault where
  | noSuchFile
  | notADirectory
  | isADirectory
  | alreadyExists
  | nameTooLong
  | other (reason : String)
  deriving DecidableEq, Repr

/-- The words for a `FileFault`. -/
def FileFault.message : FileFault → String
  | noSuchFile => "no such file or directory"
  | notADirectory => "not a directory"
  | isADirectory => "is a directory"
  | alreadyExists => "file exists"
  | nameTooLong => "file name too long"
  | other reason => reason

/-- A `FileFault` with the operation that met it and the paths that the operation was given. -/
structure FileError where
  operation : String
  paths : List String
  fault : FileFault
  deriving DecidableEq, Repr

/-- The text of a `FileError`, such as `open a.s: no such file or directory`. -/
def FileError.message (error : FileError) : String :=
  error.operation ++ " " ++ " ".intercalate error.paths ++ ": " ++ error.fault.message

/-- What came of reading a file that could be opened: its `bytes`, and the `fault` at which they
break off, if they do. -/
structure FileContent where
  bytes : List UInt8
  fault : Option FileFault := none
  deriving DecidableEq, Repr

/-- A place where files are kept under paths. Any operation may be refused. -/
class Storage (m : Type → Type) where
  /-- Opens a file and reads it, as far as that goes. -/
  read : String → m (Except FileFault FileContent)
  /-- Makes an empty file where there was nothing. -/
  create : String → m (Except FileFault Unit)
  /-- Writes bytes to a file that was made with `create`. -/
  write : String → List UInt8 → m (Except FileFault Unit)
  /-- Ends the writing to a file that was made with `create`. -/
  close : String → m (Except FileFault Unit)
  /-- Gives a file another path, in place of a file that had it. A directory keeps its path. -/
  rename : String → String → m (Except FileFault Unit)
  /-- Removes a file. -/
  remove : String → m (Except FileFault Unit)

end MovAsm

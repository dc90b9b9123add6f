import MovAsm.Storage
import MovAsm.Storage.Path

/-!
# File Trees

Files and directories as a value, seen from a working directory. A place in the tree is given by
the names on the way there, without detours. Places above the working directory begin with `..`,
and places named from the top of all directories begin with `/`; of these, only the directories
themselves are known.

## Main definitions

* `Location.resolve` — the place that a path leads to, given what is where;
* `FileTree.node?` — what is at a place;
* `FileTree.read`, `create`, `write`, `rename`, `remove` — a file tree as storage.
-/

namespace MovAsm

/-- A place in a file tree: the names on the way there from the working directory. -/
abbrev Location := List String

namespace Location

/-- Whether a place is the working directory, a directory above it (`..`), or the top (`/`). -/
def isAbove (location : Location) : Bool :=
  location.all (· == "..") || location == ["/"]

/-- The directory around a place. The top has none, and is its own. -/
def parent (location : Location) : Location :=
  if location == ["/"] then location
  else if location.isAbove then location ++ [".."]
  else location.dropLast

/-- The place to which a `name` leads from a directory; `.` and the empty name lead nowhere else. -/
def step (location : Location) (name : String) : Location :=
  if name = "" ∨ name = "." then location
  else if name = ".." then location.parent
  else location ++ [name]

end Location

/-- What can be at a `Location`. -/
inductive Node where
  | file (content : List UInt8)
  | directory
  deriving DecidableEq, Repr

/-! ### Paths -/

namespace Location

/-- The longest name of a file or directory, in bytes. -/
def longestName : Nat := 255

/-- The longest path that `resolve` follows, in bytes. -/
def longestPath : Nat := 4095

/-- The place to which names lead from `location`, where `nodes` says what is where. All names but
the last must lead to directories. -/
def walk (nodes : Location → Option Node) (location : Location) :
    List String → Except FileFault Location
  | [] => .ok location
  | name :: rest =>
    if longestName < name.utf8ByteSize then .error .nameTooLong
    else if rest.isEmpty then .ok (location.step name)
    else
      match nodes (location.step name) with
      | none => .error .noSuchFile
      | some (.file _) => .error .notADirectory
      | some .directory => walk nodes (location.step name) rest

/-- The place to which a path leads, where `nodes` says what is where. There need be nothing at
it. -/
def resolve (nodes : Location → Option Node) (path : String) : Except FileFault Location :=
  if path.isEmpty then .error .noSuchFile
  else if longestPath < path.utf8ByteSize then .error .nameTooLong
  else walk nodes (if Path.isRooted path then ["/"] else []) (Path.components path)

end Location

/-- Files and directories below the working directory, by their places. -/
structure FileTree where
  entries : List (Location × Node) := []
  deriving DecidableEq, Repr

namespace FileTree

/-- What is at a place, if anything is. The directories that are `isAbove` are always there. -/
def node? (tree : FileTree) (location : Location) : Option Node :=
  if location.isAbove then some .directory else tree.entries.lookup location

/-- Takes away what is at a place. -/
def erase (tree : FileTree) (location : Location) : FileTree :=
  ⟨tree.entries.filter (·.1 != location)⟩

/-- Puts `node` at a place, instead of what was there. -/
def put (tree : FileTree) (location : Location) (node : Node) : FileTree :=
  ⟨(tree.erase location).entries ++ [(location, node)]⟩

/-- The place to which a path leads in a tree, by `Location.resolve`. -/
def resolve (tree : FileTree) (path : String) : Except FileFault Location :=
  Location.resolve tree.node? path

/-! ### Making trees -/

/-- Adds a directory to a tree, with the directories around it that are missing. -/
def mkdir (tree : FileTree) (location : Location) : FileTree :=
  (List.range location.length).foldl
    (fun tree n =>
      let place := location.take (n + 1)
      if (tree.node? place).isSome then tree else tree.put place .directory) tree

/-- The tree with some directories and files, given by their paths. -/
def ofList (directories : List String) (files : List (String × List UInt8)) : FileTree :=
  let place (path : String) : Location := (Path.components path).foldl Location.step []
  let tree := directories.foldl (fun tree path => tree.mkdir (place path)) ({} : FileTree)
  files.foldl
    (fun tree (path, content) =>
      (tree.mkdir (place path).dropLast).put (place path) (.file content)) tree

/-- The files of `tree` that are not in `before`, or not with the same bytes, by their paths. -/
def changes (tree before : FileTree) : List (String × List UInt8) :=
  tree.entries.filterMap fun (location, node) =>
    match node with
    | .directory => none
    | .file content =>
      if before.node? location = some node then none
      else some ("/".intercalate location, content)

/-! ### Trees as storage -/

/-- Opens a file and reads it. A directory can be opened, but reading it fails at once. -/
def read (tree : FileTree) (path : String) : Except FileFault FileContent :=
  match tree.resolve path with
  | .error fault => .error fault
  | .ok location =>
    match tree.node? location with
    | none => .error .noSuchFile
    | some .directory => .ok ⟨[], some .isADirectory⟩
    | some (.file content) => .ok ⟨content, none⟩

/-- Makes an empty file at `path`, where there must be nothing. -/
def create (tree : FileTree) (path : String) : Except FileFault FileTree :=
  match tree.resolve path with
  | .error fault => .error fault
  | .ok location =>
    match tree.node? location with
    | some _ => .error .alreadyExists
    | none => .ok (tree.put location (.file []))

/-- Applies `change` to the place of `path`, if there is a file. -/
def modify (tree : FileTree) (path : String) (change : Location → FileTree) :
    Except FileFault FileTree :=
  match tree.resolve path with
  | .error fault => .error fault
  | .ok location =>
    match tree.node? location with
    | none => .error .noSuchFile
    | some .directory => .error .isADirectory
    | some (.file _) => .ok (change location)

/-- Replaces the bytes of a file that is there. -/
def write (tree : FileTree) (path : String) (content : List UInt8) : Except FileFault FileTree :=
  tree.modify path (tree.put · (.file content))

/-- Removes a file that is there. -/
def remove (tree : FileTree) (path : String) : Except FileFault FileTree :=
  tree.modify path tree.erase

/-- Gives what is at `path` the path `target`, unless there is a directory at `target`. -/
def rename (tree : FileTree) (path target : String) : Except FileFault FileTree :=
  match tree.resolve target with
  | .error fault => .error fault
  | .ok location =>
    if tree.node? location = some .directory then .error .alreadyExists
    else
      match tree.resolve path with
      | .error fault => .error fault
      | .ok source =>
        match tree.node? source with
        | none => .error .noSuchFile
        | some node => .ok ((tree.erase source).put location node)

/-- Changes the state by `change`, unless that fails: the action behind each operation of
`Storage`. -/
def update (change : FileTree → Except FileFault FileTree) :
    StateM FileTree (Except FileFault Unit) := fun tree =>
  match change tree with
  | .ok tree => (.ok (), tree)
  | .error fault => (.error fault, tree)

instance : Storage (StateM FileTree) where
  read path := fun tree => (tree.read path, tree)
  create path := update (·.create path)
  write path content := update (·.write path content)
  close _ := update .ok
  rename path target := update (·.rename path target)
  remove path := update (·.remove path)

end FileTree

end MovAsm

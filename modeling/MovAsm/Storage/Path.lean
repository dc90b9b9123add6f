/-!
# Paths

A path is a text of names with slashes between them. Here paths are taken apart and put together
as texts, without a look at any file.

## Main definitions

* `components` — the names in a path;
* `clean` — the shortest path that means the same, if all directories on the way exist;
* `directory`, `base` — all but the last name, and the last name;
* `join` — a name in a directory.
-/

namespace MovAsm.Path

/-- What comes before the first slash, and the texts after each slash. -/
def pieces : List Char → List Char × List (List Char)
  | [] => ([], [])
  | c :: rest =>
    let split := pieces rest
    if c = '/' then ([], split.1 :: split.2) else (c :: split.1, split.2)

/-- The texts between the slashes of a path, as `String`s. -/
def components (path : String) : List String :=
  let split := pieces path.toList
  (split.1 :: split.2).map String.ofList

/-- Whether a path begins with a slash, at the top of all directories. -/
def isRooted (path : String) : Bool :=
  path.toList.head? == some '/'

/-- Goes on from a path, whose `names` are given from the last to the first, to `name`. Names that
lead nowhere are dropped, and so is a name from which the path goes back up. -/
def enter (rooted : Bool) (names : List String) (name : String) : List String :=
  if name = "" ∨ name = "." then names
  else if name = ".." then
    match names with
    | [] => if rooted then [] else [".."]
    | last :: before => if last = ".." then ".." :: last :: before else before
  else name :: names

/-- The shortest path that means the same, if all directories on the way exist. The empty path is
`.`. -/
def clean (path : String) : String :=
  let rooted := isRooted path
  let names := (components path).foldl (enter rooted) []
  let joined := "/".intercalate names.reverse
  if rooted then "/" ++ joined
  else if names.isEmpty then "."
  else joined

/-- The directory that a path leads to before its last name, as `clean` gives it. -/
def directory (path : String) : String :=
  clean (String.ofList (path.toList.reverse.dropWhile (· != '/')).reverse)

/-- The last name in a path. Slashes at the end do not count; a path of slashes alone is `/`, and
the empty path is `.`. -/
def base (path : String) : String :=
  let trimmed := path.toList.reverse.dropWhile (· == '/')
  if path.isEmpty then "."
  else if trimmed.isEmpty then "/"
  else String.ofList (trimmed.takeWhile (· != '/')).reverse

/-- The path of `name` in `directory`. -/
def join (directory name : String) : String :=
  if directory.toList.getLast? == some '/' then directory ++ name
  else directory ++ "/" ++ name

end MovAsm.Path

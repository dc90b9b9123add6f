import Mathlib.Data.List.TakeWhile
import MovAsm.Storage.FileTree

/-!
# Names in the Working Directory

A path without slashes is the name of something in the working directory. This module says what
`Path` makes of such a path, and where it leads in a `FileTree`: to the place of that name, unless
the name is too long.

## Main results

* `Path.base_of_not_mem`, `Path.directory_of_not_mem`: the parts of such a path.
* `FileTree.resolve_of_short`, `FileTree.resolve_here_of_long`: where it leads.
-/

namespace MovAsm

namespace Path

variable {path name : String}

/-- The `pieces` of text without slashes. -/
theorem pieces_of_not_mem {text : List Char} (h : '/' ∉ text) : pieces text = (text, []) := by
  induction text with
  | nil => rfl
  | cons c rest ih =>
      rw [List.mem_cons, not_or] at h
      simp [pieces, ih h.2, Ne.symm h.1]

/-- The `components` of a path without slashes. -/
theorem components_of_not_mem (h : '/' ∉ path.toList) : components path = [path] := by
  simp [components, pieces_of_not_mem h]

/-- The `components` of a name in the working directory. -/
theorem components_here (h : '/' ∉ name.toList) : components ("./" ++ name) = [".", name] := by
  have hpieces : pieces ("./" ++ name).toList = (['.'], [name.toList]) := by
    rw [String.toList_append]
    simp [pieces, pieces_of_not_mem h]
  simp only [components, hpieces]
  simp

/-- The `base` of a path without slashes is the path. -/
theorem base_of_not_mem (hne : path ≠ "") (h : '/' ∉ path.toList) : base path = path := by
  have hlast (text : List Char) (h : '/' ∉ text) :
      text.dropWhile (· == '/') = text ∧ text.takeWhile (· != '/') = text := by
    constructor
    · cases text with
      | nil => rfl
      | cons c rest =>
          rw [List.mem_cons, not_or] at h
          rw [List.dropWhile_cons_of_neg (by simpa using Ne.symm h.1)]
    · rw [List.takeWhile_eq_self_iff]
      intro c hc
      rw [bne_iff_ne]
      rintro rfl
      exact h hc
  obtain ⟨hdrop, htake⟩ := hlast path.toList.reverse (by simpa using h)
  have hnil : path.toList ≠ [] := by simpa using hne
  rw [base, hdrop, htake]
  simp [hne, hnil]

/-- The `directory` of a path without slashes is the working directory. -/
theorem directory_of_not_mem (h : '/' ∉ path.toList) : directory path = "." := by
  have hdrop : path.toList.reverse.dropWhile (· != '/') = [] := by
    rw [List.dropWhile_eq_nil_iff]
    intro c hc
    rw [bne_iff_ne]
    rintro rfl
    exact h (List.mem_reverse.mp hc)
  rw [directory, hdrop]
  decide +kernel

end Path

namespace FileTree

variable {name : String}

/-- A name that is neither empty nor too long, and is neither `.` nor `..`, leads to the place of
that name. -/
theorem resolve_of_short (tree : FileTree) (hslash : '/' ∉ name.toList)
    (hname : name ∉ ["", ".", ".."]) (hshort : name.utf8ByteSize ≤ Location.longestName) :
    tree.resolve name = .ok [name] := by
  simp only [List.mem_cons, List.not_mem_nil, or_false, not_or] at hname
  have hrooted : Path.isRooted name = false := by
    cases htext : name.toList with
    | nil => simp [Path.isRooted, htext]
    | cons c rest =>
        rw [htext, List.mem_cons, not_or] at hslash
        simpa [Path.isRooted, htext] using Ne.symm hslash.1
  have hlong : ¬Location.longestName < name.utf8ByteSize := by omega
  have hpath : ¬Location.longestPath < name.utf8ByteSize := by
    simp only [Location.longestName, Location.longestPath] at hshort ⊢
    omega
  rw [resolve, Location.resolve, if_neg (by simpa using hname.1), if_neg hpath, hrooted,
    Path.components_of_not_mem hslash, Location.walk, if_neg hlong]
  simp [Location.step, hname]

/-- A name that is too long leads nowhere, also if the working directory is mentioned before it. -/
theorem resolve_here_of_long (tree : FileTree) (hslash : '/' ∉ name.toList)
    (hlong : Location.longestName < name.utf8ByteSize) :
    tree.resolve ("./" ++ name) = .error .nameTooLong := by
  rw [resolve, Location.resolve]
  by_cases hpath : Location.longestPath < ("./" ++ name).utf8ByteSize
  · rw [if_neg (by simp), if_pos hpath]
  · have hdot : ¬Location.longestName < ".".utf8ByteSize := by decide +kernel
    have hstep : Location.step [] "." = [] := by decide +kernel
    have hhere : tree.node? [] = some .directory := rfl
    have hrooted : Path.isRooted ("./" ++ name) = false := by simp [Path.isRooted]
    rw [if_neg (by simp), if_neg hpath, hrooted, Path.components_here hslash, Location.walk,
      if_neg hdot, if_neg (by simp)]
    simp only [Bool.false_eq_true, if_false, hstep, hhere]
    rw [Location.walk, if_pos hlong]

end FileTree

end MovAsm

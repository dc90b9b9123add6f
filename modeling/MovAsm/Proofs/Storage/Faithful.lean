import MovAsm.Proofs.Storage.FileTree

/-!
# Faithful Storage

What a program may rely on when it makes a file beside another and renames it into place. A
`FileSystem` is a way to look at the files and directories behind a `Storage`: which places there
are, what is at each of them, and to which place a path leads. Places are what directories list, so
that two paths may well lead to one place, and what is read under a path need not be what is at the
place of the path, as with links.

Storage is `Storage.Faithful` to a file system if its operations do what they say there. It is asked
only about what is done to a file that was made with `Storage.create` and is still under its first
path (`FileSystem.Made`); nothing is assumed about a file with several names. Any operation may be
refused at any time. What is refused has no effect, with two exceptions: bytes that could not all be
written may have been written in part, and a file that could not be closed may have lost some. A
file that was made may also be refused to be removed, and then it stays.

Storage is `Storage.Reliable` if operations are refused only where they have to be. This is not
asked of the removal of files.

## Main definitions

* `FileSystem` — places, what is at them, and where paths lead;
* `Storage.Faithful` — what operations do, whether or not they are refused;
* `Storage.Reliable` — which operations are not refused;
* `Disk` — storage with limited room, from which nothing may be removed if it is locked.

## Main results

* `FileTree.reliable`: a file tree is reliable storage.
* `Disk.faithful`: a disk is faithful storage, although it may be full or locked.
-/

namespace MovAsm

/-! ### File systems -/

/-- What was at `source` is at `goal` now, in place of what was there, and all else is as before. -/
structure Moved {π ν : Type} (source goal : π) (before after : π → Option ν) : Prop where
  here : after goal = before source
  gone : source ≠ goal → after source = none
  elsewhere : ∀ other, other ≠ goal → other ≠ source → after other = before other

/-- A way to look at the files and directories in the states `σ` of a storage. -/
structure FileSystem (σ : Type) where
  /-- A place where a directory may list something. -/
  Place : Type
  /-- What can be at a place: a plain file, a directory, a link, and so on. -/
  Node : Type
  /-- A plain file with its bytes. -/
  file : List UInt8 → Node
  /-- What is where. -/
  view : σ → Place → Option Node
  /-- The place to which a path leads, whether or not something is there. -/
  place? : (Place → Option Node) → String → Option Place
  /-- What can be read under a path. -/
  bytes? : (Place → Option Node) → String → Option (List UInt8)
  /-- The plain file at a place was made under a path by whoever uses the storage, and has no other
  name. -/
  Made : σ → String → Place → Prop
  /-- Under a path that leads to a plain file, its bytes are read. -/
  bytes?_of_file : ∀ {nodes : Place → Option Node} {path : String} {place : Place}
    {bytes : List UInt8}, place? nodes path = some place → nodes place = some (file bytes) →
    bytes? nodes path = some bytes
  /-- Paths lead where they led, after a plain file was put where nothing or a plain file was. -/
  place?_of_changedAt : ∀ {nodes after : Place → Option Node} {place : Place} {bytes : List UInt8},
    (∀ node, nodes place = some node → ∃ old, node = file old) →
    ChangedAt place (some (file bytes)) nodes after → ∀ path, place? after path = place? nodes path

/-- There is nothing at `place`, or a plain file. -/
def FileSystem.Free {σ : Type} (fs : FileSystem σ) (nodes : fs.Place → Option fs.Node)
    (place : fs.Place) : Prop :=
  ∀ node, nodes place = some node → ∃ bytes, node = fs.file bytes

namespace FileSystem

variable {σ : Type} {fs : FileSystem σ} {before after : fs.Place → Option fs.Node} {path : String}
  {place goal : fs.Place} {bytes : List UInt8}

/-- A place where nothing is is `Free`. -/
theorem free_of_none (h : before place = none) : fs.Free before place := by
  intro node hnode
  rw [h] at hnode
  cases hnode

/-- A `Free` place stays `Free` if a plain file is put anywhere. -/
theorem Free.of_changedAt (h : fs.Free before goal)
    (hput : ChangedAt place (some (fs.file bytes)) before after) : fs.Free after goal := by
  intro node hnode
  by_cases heq : goal = place
  · subst heq
    rw [hput.here] at hnode
    cases hnode
    exact ⟨bytes, rfl⟩
  · rw [hput.elsewhere goal heq] at hnode
    exact h node hnode

variable (fs) in
/-- A plain file that was put at a `Free` place is read under every path that leads there. -/
theorem bytes?_of_changedAt (hfree : fs.Free before place)
    (hplace : fs.place? before path = some place)
    (hput : ChangedAt place (some (fs.file bytes)) before after) :
    fs.bytes? after path = some bytes := by
  refine fs.bytes?_of_file ?_ hput.here
  rw [fs.place?_of_changedAt hfree hput]
  exact hplace

end FileSystem

namespace Storage

/-- The run of `first >>= rest` goes on with the answer of `first`, from the state after it. -/
theorem run_bind_of {σ α β : Type} {first : StateM σ α} {rest : α → StateM σ β} {state next : σ}
    {answer : α} (h : first.run state = (answer, next)) :
    (first >>= rest).run state = (rest answer).run next := by
  rw [StateT.run_bind, h]
  rfl

variable {σ : Type} [Storage (StateM σ)]

/-- What the operations of a storage do to the files and directories in `fs`. -/
structure Faithful (fs : FileSystem σ) : Prop where
  /-- To read changes nothing, and a file that is read to its end was there to be read. -/
  read : ∀ {path : String} {state after : σ} {answer : Except FileFault FileContent},
    (Storage.read path : StateM σ _).run state = (answer, after) →
      fs.view after = fs.view state ∧
        ∀ bytes, answer = .ok ⟨bytes, none⟩ → fs.bytes? (fs.view state) path = some bytes
  /-- A file is made where there was nothing. -/
  create_ok : ∀ {path : String} {state after : σ},
    (Storage.create path : StateM σ _).run state = (.ok (), after) →
      ∃ place, fs.place? (fs.view state) path = some place ∧ fs.view state place = none ∧
        ChangedAt place (some (fs.file [])) (fs.view state) (fs.view after) ∧
        fs.Made after path place
  create_error : ∀ {path : String} {state after : σ} {fault : FileFault},
    (Storage.create path : StateM σ _).run state = (.error fault, after) →
      fs.view after = fs.view state
  write_ok : ∀ {path : String} {place : fs.Place} {content : List UInt8} {state after : σ},
    fs.Made state path place →
    (Storage.write path content : StateM σ _).run state = (.ok (), after) →
      fs.Made after path place ∧
        ChangedAt place (some (fs.file content)) (fs.view state) (fs.view after)
  /-- Of bytes that cannot be written, any part may have been. -/
  write_error : ∀ {path : String} {place : fs.Place} {content : List UInt8} {state after : σ}
      {fault : FileFault},
    fs.Made state path place →
    (Storage.write path content : StateM σ _).run state = (.error fault, after) →
      fs.Made after path place ∧
        ∃ bytes, ChangedAt place (some (fs.file bytes)) (fs.view state) (fs.view after)
  close_ok : ∀ {path : String} {place : fs.Place} {state after : σ}, fs.Made state path place →
    (Storage.close path : StateM σ _).run state = (.ok (), after) →
      fs.Made after path place ∧ fs.view after = fs.view state
  /-- A file that cannot be closed may hold anything. -/
  close_error : ∀ {path : String} {place : fs.Place} {state after : σ} {fault : FileFault},
    fs.Made state path place →
    (Storage.close path : StateM σ _).run state = (.error fault, after) →
      fs.Made after path place ∧
        ∃ bytes, ChangedAt place (some (fs.file bytes)) (fs.view state) (fs.view after)
  /-- A file gets its new path in one step. -/
  rename_ok : ∀ {path target : String} {place : fs.Place} {state after : σ},
    fs.Made state path place →
    (Storage.rename path target : StateM σ _).run state = (.ok (), after) →
      ∃ goal, fs.place? (fs.view state) target = some goal ∧
        Moved place goal (fs.view state) (fs.view after)
  rename_error : ∀ {path target : String} {place : fs.Place} {state after : σ} {fault : FileFault},
    fs.Made state path place →
    (Storage.rename path target : StateM σ _).run state = (.error fault, after) →
      fs.Made after path place ∧ fs.view after = fs.view state
  remove_ok : ∀ {path : String} {place : fs.Place} {state after : σ}, fs.Made state path place →
    (Storage.remove path : StateM σ _).run state = (.ok (), after) →
      ChangedAt place none (fs.view state) (fs.view after)
  remove_error : ∀ {path : String} {place : fs.Place} {state after : σ} {fault : FileFault},
    fs.Made state path place →
    (Storage.remove path : StateM σ _).run state = (.error fault, after) →
      fs.view after = fs.view state

/-- Storage that is `Faithful` and in which nothing is refused that can be done. -/
structure Reliable (fs : FileSystem σ) : Prop extends Faithful fs where
  read_eq_ok : ∀ {path : String} {state : σ} {bytes : List UInt8},
    fs.bytes? (fs.view state) path = some bytes →
      ((Storage.read path : StateM σ _).run state).1 = .ok ⟨bytes, none⟩
  create_eq_ok : ∀ {path : String} {state : σ} {place : fs.Place},
    fs.place? (fs.view state) path = some place → fs.view state place = none →
      ((Storage.create path : StateM σ _).run state).1 = .ok ()
  write_eq_ok : ∀ {path : String} {state : σ} {place : fs.Place} (content : List UInt8),
    fs.Made state path place → ((Storage.write path content : StateM σ _).run state).1 = .ok ()
  close_eq_ok : ∀ {path : String} {state : σ} {place : fs.Place},
    fs.Made state path place → ((Storage.close path : StateM σ _).run state).1 = .ok ()
  rename_eq_ok : ∀ {path target : String} {state : σ} {place goal : fs.Place},
    fs.Made state path place → fs.place? (fs.view state) target = some goal →
    fs.Free (fs.view state) goal →
      ((Storage.rename path target : StateM σ _).run state).1 = .ok ()

end Storage

/-! ### File trees -/

/-- The bytes of a file. -/
def Node.bytes? : Node → Option (List UInt8)
  | file content => some content
  | directory => none

namespace FileTree

variable {σ : Type} {change : FileTree → Except FileFault FileTree} {tree after : FileTree}
  {path target : String} {place : Location} {fault : FileFault}

/-- The path leads to `place`, and there is a file. -/
def HasFile (tree : FileTree) (path : String) (place : Location) : Prop :=
  tree.resolve path = .ok place ∧ ∃ bytes, tree.node? place = some (.file bytes)

/-- The file system of a storage that keeps a file tree. -/
def system (tree : σ → FileTree) : FileSystem σ where
  Place := Location
  Node := Node
  file := Node.file
  view state := (tree state).node?
  place? nodes path := (Location.resolve nodes path).toOption
  bytes? nodes path := ((Location.resolve nodes path).toOption.bind nodes).bind Node.bytes?
  Made state path place := (tree state).HasFile path place
  bytes?_of_file hplace hfile := by
    rw [hplace, Option.bind_some, hfile]
    rfl
  place?_of_changedAt hfree h path := by
    refine Location.toOption_resolve_of_changedAt (fun hdirectory => ?_) h
    obtain ⟨old, hold⟩ := hfree _ hdirectory
    cases hold

/-- After `put` has put a file where a path leads to a file or to nothing, the path leads to it. -/
theorem hasFile_put (hplace : tree.resolve path = .ok place)
    (hnode : tree.node? place ≠ some .directory) (content : List UInt8) :
    (tree.put place (.file content)).HasFile path place := by
  have hput : ChangedAt place _ tree.node? _ :=
    changedAt_put (.file content) (isAbove_eq_false hnode)
  refine ⟨?_, content, hput.here⟩
  rw [resolve, ← Location.toOption_resolve_eq_some_iff,
    Location.toOption_resolve_of_changedAt hnode hput, Location.toOption_resolve_eq_some_iff]
  exact hplace

/-- What `HasFile` finds is no directory. -/
theorem HasFile.node?_ne_directory (h : tree.HasFile path place) :
    tree.node? place ≠ some .directory := by
  obtain ⟨-, bytes, hbytes⟩ := h
  rw [hbytes]
  simp

/-- To leave a file alone is `ChangedAt` with the bytes that are in it. -/
theorem HasFile.changedAt_self (h : tree.HasFile path place) :
    ∃ bytes, ChangedAt place (some (.file bytes)) tree.node? tree.node? := by
  obtain ⟨-, bytes, hbytes⟩ := h
  exact ⟨bytes, .refl hbytes⟩

/-- To `erase` and then `put` moves what is at a place to another. -/
theorem moved_put_erase {source goal : Location} {node : Node}
    (hnode : tree.node? source = some node) (hsource : source.isAbove = false)
    (hgoal : goal.isAbove = false) :
    Moved source goal tree.node? ((tree.erase source).put goal node).node? := by
  have herase : ChangedAt source none tree.node? _ := changedAt_erase hsource
  have hput : ChangedAt goal (some node) (tree.erase source).node? _ := changedAt_put node hgoal
  exact ⟨hput.here.trans hnode.symm, fun hne => (hput.elsewhere _ hne).trans herase.here,
    fun other hne hne' => (hput.elsewhere other hne).trans (herase.elsewhere other hne')⟩

/-- A `read` comes to the end of a file if the path leads to it. -/
theorem read_eq_ok_iff {bytes : List UInt8} : tree.read path = .ok ⟨bytes, none⟩ ↔
    ((tree.resolve path).toOption.bind tree.node?).bind Node.bytes? = some bytes := by
  rw [read]
  cases tree.resolve path with
  | error fault => simp [Except.toOption]
  | ok place =>
      cases hnode : tree.node? place with
      | none => simp [Except.toOption, hnode]
      | some node => cases node <;> simp [Except.toOption, hnode, Node.bytes?]

/-- The answer of `update`, and the tree after it. -/
theorem run_update (change : FileTree → Except FileFault FileTree) (tree : FileTree) :
    (update change).run tree =
      match change tree with
      | .ok after => (.ok (), after)
      | .error fault => (.error fault, tree) :=
  rfl

/-- An `update` succeeds if the change can be made. -/
theorem run_update_eq_ok_iff :
    (update change).run tree = (.ok (), after) ↔ change tree = .ok after := by
  rw [run_update]
  constructor
  · intro h
    cases hchange : change tree with
    | ok changed =>
        rw [hchange] at h
        cases h
        rfl
    | error fault =>
        rw [hchange] at h
        cases h
  · intro h
    rw [h]

/-- An `update` that fails changes nothing. -/
theorem eq_of_run_update_eq_error (h : (update change).run tree = (.error fault, after)) :
    after = tree := by
  rw [run_update] at h
  cases hchange : change tree with
  | ok changed =>
      rw [hchange] at h
      cases h
  | error _ =>
      rw [hchange] at h
      cases h
      rfl

/-- The answer of an `update` whose change can be made. -/
theorem run_update_fst (h : change tree = .ok after) : ((update change).run tree).1 = .ok () := by
  rw [run_update_eq_ok_iff.mpr h]

/-- A `FileTree` is `Reliable` storage. -/
theorem reliable : Storage.Reliable (system (id : FileTree → FileTree)) where
  read h := by
    cases h
    exact ⟨rfl, fun bytes hbytes => read_eq_ok_iff.mp hbytes⟩
  create_ok {path tree after} h := by
    obtain ⟨place, hplace, hnone, rfl⟩ := create_eq_ok_iff.mp (run_update_eq_ok_iff.mp h)
    have hnode : tree.node? place ≠ some .directory := by
      rw [hnone]
      simp
    exact ⟨place, Location.toOption_resolve_eq_some_iff.mpr hplace, hnone,
      changedAt_put _ (isAbove_eq_false hnode), hasFile_put hplace hnode []⟩
  create_error h := congrArg node? (eq_of_run_update_eq_error h)
  write_ok {path place content tree after} hmade h := by
    obtain ⟨here, old, hhere, -, rfl⟩ := modify_eq_ok_iff.mp (run_update_eq_ok_iff.mp h)
    obtain rfl : here = place := Except.ok.inj (hhere.symm.trans hmade.1)
    exact ⟨hasFile_put hhere hmade.node?_ne_directory content,
      changedAt_put _ (isAbove_eq_false hmade.node?_ne_directory)⟩
  write_error {path place content tree after fault} hmade h := by
    obtain rfl := eq_of_run_update_eq_error h
    exact ⟨hmade, hmade.changedAt_self⟩
  close_ok {path place tree after} hmade h := by
    obtain rfl : tree = after := Except.ok.inj (run_update_eq_ok_iff.mp h)
    exact ⟨hmade, rfl⟩
  close_error {path place tree after fault} hmade h := by
    obtain rfl := eq_of_run_update_eq_error h
    exact ⟨hmade, hmade.changedAt_self⟩
  rename_ok {path target place tree after} hmade h := by
    obtain ⟨source, goal, node, hsource, hnode, hgoal, hfree, rfl⟩ :=
      rename_eq_ok_iff.mp (run_update_eq_ok_iff.mp h)
    obtain rfl : source = place := Except.ok.inj (hsource.symm.trans hmade.1)
    exact ⟨goal, Location.toOption_resolve_eq_some_iff.mpr hgoal,
      moved_put_erase hnode (isAbove_eq_false hmade.node?_ne_directory) (isAbove_eq_false hfree)⟩
  rename_error {path target place tree after fault} hmade h := by
    obtain rfl := eq_of_run_update_eq_error h
    exact ⟨hmade, rfl⟩
  remove_ok {path place tree after} hmade h := by
    obtain ⟨here, old, hhere, -, rfl⟩ := modify_eq_ok_iff.mp (run_update_eq_ok_iff.mp h)
    obtain rfl : here = place := Except.ok.inj (hhere.symm.trans hmade.1)
    exact changedAt_erase (isAbove_eq_false hmade.node?_ne_directory)
  remove_error _ h := congrArg node? (eq_of_run_update_eq_error h)
  read_eq_ok h := read_eq_ok_iff.mpr h
  create_eq_ok {path tree place} hplace hnone :=
    run_update_fst (create_eq_ok_iff.mpr
      ⟨place, Location.toOption_resolve_eq_some_iff.mp hplace, hnone, rfl⟩)
  write_eq_ok {path tree place} content hmade := by
    obtain ⟨hplace, old, hold⟩ := hmade
    exact run_update_fst (modify_eq_ok_iff.mpr ⟨place, old, hplace, hold, rfl⟩)
  close_eq_ok {path tree place} _ := @run_update_fst Except.ok tree tree rfl
  rename_eq_ok {path target tree place goal} hmade hgoal hfree := by
    obtain ⟨hplace, old, hold⟩ := hmade
    refine run_update_fst (rename_eq_ok_iff.mpr ⟨place, goal, .file old, hplace, hold,
      Location.toOption_resolve_eq_some_iff.mp hgoal, fun hdirectory => ?_, rfl⟩)
    obtain ⟨bytes, hbytes⟩ := hfree _ hdirectory
    cases hbytes

end FileTree

/-! ### Disks -/

/-- A file tree with `room` for some more bytes. Files may be removed unless it is `locked`. -/
structure Disk where
  tree : FileTree
  room : Nat
  locked : Bool := false
  deriving DecidableEq, Repr

namespace Disk

/-- Does to the tree of a disk what `action` does to trees. -/
def lift {α : Type} (action : StateM FileTree α) : StateM Disk α := fun disk =>
  let (answer, tree) := action.run disk.tree
  (answer, { disk with tree })

/-- Of bytes that do not all fit, only those that fit are written. -/
instance : Storage (StateM Disk) where
  read path := lift (Storage.read path)
  create path := lift (Storage.create path)
  write path content := fun disk =>
    let (answer, after) := (lift (Storage.write path (content.take disk.room))).run disk
    (if disk.room < content.length then .error (.other "no space left on device") else answer,
      after)
  close path := lift (Storage.close path)
  rename path target := lift (Storage.rename path target)
  remove path := fun disk =>
    if disk.locked then (.error (.other "operation not permitted"), disk)
    else (lift (Storage.remove path)).run disk

variable {α : Type} {action : StateM FileTree α} {answer : α} {disk after : Disk}

/-- An action that is lifted to a disk by `lift` does to its tree what it does to trees. -/
theorem run_of_lift (h : (lift action).run disk = (answer, after)) :
    action.run disk.tree = (answer, after.tree) := by
  cases h
  rfl

/-- What `Storage.write` does on a disk. -/
theorem run_write (path : String) (content : List UInt8) (disk : Disk) :
    (Storage.write path content : StateM Disk _).run disk =
      (if disk.room < content.length then .error (.other "no space left on device")
        else ((lift (Storage.write path (content.take disk.room))).run disk).1,
      ((lift (Storage.write path (content.take disk.room))).run disk).2) :=
  rfl

/-- What `Storage.remove` does on a disk. -/
theorem run_remove (path : String) (disk : Disk) :
    (Storage.remove path : StateM Disk _).run disk =
      if disk.locked then (.error (.other "operation not permitted"), disk)
      else (lift (Storage.remove path)).run disk :=
  rfl

/-- A `Disk` is `Faithful` storage, although it may be full or locked. -/
theorem faithful : Storage.Faithful (FileTree.system Disk.tree) where
  read h := FileTree.reliable.read (run_of_lift h)
  create_ok h := FileTree.reliable.create_ok (run_of_lift h)
  create_error h := FileTree.reliable.create_error (run_of_lift h)
  write_ok {path place content disk after} hmade h := by
    rw [run_write] at h
    obtain ⟨hanswer, hafter⟩ := Prod.mk.inj h
    by_cases hroom : disk.room < content.length
    · rw [if_pos hroom] at hanswer
      cases hanswer
    · rw [if_neg hroom, List.take_of_length_le (by omega)] at hanswer
      rw [List.take_of_length_le (by omega)] at hafter
      exact FileTree.reliable.write_ok hmade (run_of_lift (Prod.ext hanswer hafter))
  write_error {path place content disk after fault} hmade h := by
    rw [run_write] at h
    obtain ⟨-, hafter⟩ := Prod.mk.inj h
    rcases hlift : (lift (Storage.write path (content.take disk.room))).run disk with ⟨short, full⟩
    rw [hlift] at hafter
    obtain rfl : full = after := hafter
    cases short with
    | ok _ =>
        obtain ⟨hstill, hwritten⟩ := FileTree.reliable.write_ok hmade (run_of_lift hlift)
        exact ⟨hstill, _, hwritten⟩
    | error _ => exact FileTree.reliable.write_error hmade (run_of_lift hlift)
  close_ok hmade h := FileTree.reliable.close_ok hmade (run_of_lift h)
  close_error hmade h := FileTree.reliable.close_error hmade (run_of_lift h)
  rename_ok hmade h := FileTree.reliable.rename_ok hmade (run_of_lift h)
  rename_error hmade h := FileTree.reliable.rename_error hmade (run_of_lift h)
  remove_ok {path place disk after} hmade h := by
    rw [run_remove] at h
    by_cases hlocked : disk.locked = true
    · rw [if_pos hlocked] at h
      cases h
    · rw [if_neg hlocked] at h
      exact FileTree.reliable.remove_ok hmade (run_of_lift h)
  remove_error {path place disk after fault} hmade h := by
    rw [run_remove] at h
    by_cases hlocked : disk.locked = true
    · rw [if_pos hlocked] at h
      cases h
      rfl
    · rw [if_neg hlocked] at h
      exact FileTree.reliable.remove_error hmade (run_of_lift h)

end Disk

end MovAsm

import MovAsm.Storage.FileTree

/-!
# Changes to File Trees

What is at a place after something was put there or taken away, and which operations succeed.

A path leads to the same place as long as no directory is lost on the way. So a path that could be
followed can still be followed after a file was made or replaced, and leads to the same place.

## Main definitions

* `ChangedAt` — two ways of filling places agree on all places but one.

## Main results

* `FileTree.changedAt_put`, `FileTree.changedAt_erase`: what is put at a place, or taken away.
* `Location.toOption_resolve_of_changedAt`: a file that is put somewhere leaves all paths as they
  are.
* `FileTree.create_eq_ok_iff`, `FileTree.modify_eq_ok_iff`, `FileTree.rename_eq_ok_iff`: when an
  operation succeeds, and what it does.
-/

namespace MovAsm

/-! ### Changes at one place -/

/-- The function `after` has `node` at `place`, and is `before` everywhere else. -/
structure ChangedAt {π ν : Type} (place : π) (node : Option ν) (before after : π → Option ν) :
    Prop where
  here : after place = node
  elsewhere : ∀ other, other ≠ place → after other = before other

namespace ChangedAt

variable {π ν : Type} {place : π} {first second : Option ν} {before between after : π → Option ν}

/-- Of two changes by `ChangedAt` at one place, the second is the one that counts. -/
theorem trans (h : ChangedAt place first before between)
    (h' : ChangedAt place second between after) : ChangedAt place second before after where
  here := h'.here
  elsewhere other hne := (h'.elsewhere other hne).trans (h.elsewhere other hne)

/-- A change to what `before` has at `place` is no change. -/
theorem eq_of_eq (h : ChangedAt place first before after) (hsame : before place = first) :
    after = before := by
  funext other
  by_cases heq : other = place
  · rw [heq, h.here, hsame]
  · exact h.elsewhere other heq

/-- To change nothing is `ChangedAt` with what is there. -/
theorem refl (hnode : before place = first) : ChangedAt place first before before :=
  ⟨hnode, fun _ _ => rfl⟩

end ChangedAt

/-! ### Paths -/

namespace Location

variable {nodes more : Location → Option Node} {location place : Location} {path : String}

/-- A `walk` leads to the same place if there are `more` directories. Induction on the names. -/
theorem walk_mono (hmore : ∀ location, nodes location = some .directory →
      more location = some .directory) {names : List String}
    (h : walk nodes location names = .ok place) : walk more location names = .ok place := by
  fun_induction walk nodes location names with
  | case1 location => exact h
  | case2 location name rest hlong => cases h
  | case3 location name rest hlong hlast =>
      rw [walk, if_neg hlong, if_pos hlast]
      exact h
  | case4 location name rest hlong hlast hnode => cases h
  | case5 location name rest hlong hlast content hnode => cases h
  | case6 location name rest hlong hlast hnode ih =>
      rw [walk, if_neg hlong, if_neg hlast, hmore _ hnode]
      exact ih h

/-- A path that `resolve` follows leads to the same place if there are `more` directories. -/
theorem resolve_mono (hmore : ∀ location, nodes location = some .directory →
      more location = some .directory) (h : resolve nodes path = .ok place) :
    resolve more path = .ok place := by
  rw [resolve] at h ⊢
  by_cases hempty : path.isEmpty = true
  · rw [if_pos hempty] at h
    cases h
  by_cases hlong : longestPath < path.utf8ByteSize
  · rw [if_neg hempty, if_pos hlong] at h
    cases h
  rw [if_neg hempty, if_neg hlong] at h ⊢
  exact walk_mono hmore h

/-- The place that `resolve` finds, as an option. -/
theorem toOption_resolve_eq_some_iff :
    (resolve nodes path).toOption = some place ↔ resolve nodes path = .ok place := by
  cases resolve nodes path <;> simp [Except.toOption]

/-- A file that is put where there is no directory changes nothing of what `resolve` finds. -/
theorem toOption_resolve_of_changedAt {content : List UInt8} {after : Location → Option Node}
    (hplace : nodes place ≠ some .directory)
    (h : ChangedAt place (some (.file content)) nodes after) :
    (resolve after path).toOption = (resolve nodes path).toOption := by
  have hdirectory (location : Location) :
      after location = some .directory ↔ nodes location = some .directory := by
    by_cases heq : location = place
    · subst heq
      simp [h.here, hplace]
    · rw [h.elsewhere location heq]
  apply Option.ext
  intro target
  rw [toOption_resolve_eq_some_iff, toOption_resolve_eq_some_iff]
  exact ⟨resolve_mono fun location => (hdirectory location).mp,
    resolve_mono fun location => (hdirectory location).mpr⟩

end Location

namespace FileTree

variable {tree after : FileTree} {place : Location} {node : Node} {path target : String}
  {content : List UInt8}

/-! ### What is at a place -/

/-- What `erase` takes away is not there any more, and nothing else is lost. -/
theorem lookup_erase (tree : FileTree) (place location : Location) :
    (tree.erase place).entries.lookup location =
      if location = place then none else tree.entries.lookup location := by
  obtain ⟨entries⟩ := tree
  simp only [erase]
  induction entries with
  | nil => simp
  | cons entry entries ih =>
      obtain ⟨here, node⟩ := entry
      by_cases hhere : here = place
      · rw [List.filter_cons_of_neg (by simp [hhere]), ih, List.lookup_cons]
        by_cases hplace : location = place
        · simp [hplace]
        · have hne : (location == here) = false := by simpa [hhere] using hplace
          simp [hplace, hne]
      · rw [List.filter_cons_of_pos (by simpa using hhere), List.lookup_cons, List.lookup_cons, ih]
        by_cases heq : location = here
        · simp [heq, hhere]
        · have hne : (location == here) = false := by simpa using heq
          simp [hne]

/-- Only directories are `isAbove`. -/
theorem isAbove_eq_false (h : tree.node? place ≠ some .directory) : place.isAbove = false := by
  cases habove : place.isAbove with
  | false => rfl
  | true => exact absurd (by rw [node?, if_pos habove]) h

/-- What `put` puts at a place is there, and nothing else has changed. -/
theorem changedAt_put (node : Node) (hplace : place.isAbove = false) :
    ChangedAt place (some node) tree.node? (tree.put place node).node? where
  here := by simp [node?, hplace, put, List.lookup_append, lookup_erase]
  elsewhere other hne := by
    have hother : (other == place) = false := by simpa using hne
    rw [node?, node?]
    simp [put, List.lookup_append, lookup_erase, List.lookup_cons, hne, hother]

/-- What `erase` takes away is gone, and nothing else has changed. -/
theorem changedAt_erase (hplace : place.isAbove = false) :
    ChangedAt place none tree.node? (tree.erase place).node? where
  here := by simp [node?, hplace, lookup_erase]
  elsewhere other hne := by simp [node?, lookup_erase, hne]

/-! ### Operations -/

/-- To `create` succeeds if the path leads to a place where nothing is. -/
theorem create_eq_ok_iff : tree.create path = .ok after ↔
    ∃ place, tree.resolve path = .ok place ∧ tree.node? place = none ∧
      after = tree.put place (.file []) := by
  rw [create]
  cases hresolve : tree.resolve path with
  | error fault => simp
  | ok place =>
      cases hnode : tree.node? place with
      | none => simp [hnode, eq_comm]
      | some node => simp [hnode]

/-- To `modify` succeeds if the path leads to a file. -/
theorem modify_eq_ok_iff {change : Location → FileTree} : tree.modify path change = .ok after ↔
    ∃ place old, tree.resolve path = .ok place ∧ tree.node? place = some (.file old) ∧
      after = change place := by
  rw [modify]
  cases hresolve : tree.resolve path with
  | error fault => simp
  | ok place =>
      cases hnode : tree.node? place with
      | none => simp [hnode]
      | some node => cases node <;> simp [hnode, eq_comm]

/-- To `rename` succeeds if one path leads to something and the other to no directory. -/
theorem rename_eq_ok_iff : tree.rename path target = .ok after ↔
    ∃ source place node, tree.resolve path = .ok source ∧ tree.node? source = some node ∧
      tree.resolve target = .ok place ∧ tree.node? place ≠ some .directory ∧
      after = (tree.erase source).put place node := by
  rw [rename]
  cases htarget : tree.resolve target with
  | error fault => simp
  | ok place =>
      by_cases hdirectory : tree.node? place = some .directory
      · dsimp only
        rw [if_pos hdirectory]
        refine iff_of_false (by simp) ?_
        rintro ⟨_, _, _, -, -, hsame, hne, -⟩
        cases hsame
        exact hne hdirectory
      · cases hsource : tree.resolve path with
        | error fault => simp [hdirectory]
        | ok source =>
            cases hnode : tree.node? source with
            | none => simp [hdirectory, hnode]
            | some node => simp [hdirectory, hnode, @eq_comm _ after]

end FileTree

end MovAsm

import MovAsm.Script.Tree

/-!
# Names in Build Scripts

Before a script runs, every name in it must have a meaning, and every statement must stand where
it may. A name that is given a value anywhere in a function belongs to that function as a whole;
one that is given a value at the top belongs to the script as a whole, also where a predeclared
name is hidden by it. At the top a name is given a value only once, and there are no conditions
or loops.

## Main definitions

* `Stmt.bound` — the names to which a statement gives values;
* `Script.checkScript` — whether the names and statements of a script are in order.
-/

namespace MovAsm.Script

/-! ### Names that are given values -/

mutual

/-- The names in a target of an assignment. -/
def Expr.bound : Expr → List String
  | .name name => [name]
  | .paren inner => inner.bound
  | .list items | .tuple items => boundInAll items
  | _ => []

/-- The names in several targets, by `Expr.bound`. -/
def boundInAll : List Expr → List String
  | [] => []
  | item :: items => item.bound ++ boundInAll items

end

/-- The names to which the clauses of a comprehension give values. -/
def boundInClauses : List Clause → List String
  | [] => []
  | .rounds target _ :: clauses => target.bound ++ boundInClauses clauses
  | .filter _ :: clauses => boundInClauses clauses

mutual

/-- The names to which a statement gives values. -/
def Stmt.bound : Stmt → List String
  | .assign target _ | .augment _ target _ => target.bound
  | .branch _ yes no => boundInBlock yes ++ boundInBlock no
  | .rounds target _ body => target.bound ++ boundInBlock body
  | .while _ body => boundInBlock body
  | .define _ name _ _ _ => [name]
  | .load names => names.map (·.1)
  | _ => []

/-- The names to which the statements of a block give values, by `Stmt.bound`. -/
def boundInBlock : List Stmt → List String
  | [] => []
  | statement :: statements => statement.bound ++ boundInBlock statements

end

/-! ### Parameters and arguments -/

/-- The names of parameters. A lone `*` has none. -/
def parameterNames (parameters : List Parameter) : List String :=
  (parameters.filter fun parameter => parameter.name != "").map (·.name)

/-- Requires parameters to be in order: those that must be given before those that may be left out,
`*` and `**` at most once each, nothing after `**`, different names, and a lone `*` only in front of
another parameter. -/
def checkParameters (parameters : List Parameter) : Except String Unit := do
  let afterStars := parameters.dropWhile fun parameter => parameter.form != .entries
  if 1 < afterStars.length then throw "parameter follows **"
  let afterStar := parameters.dropWhile fun parameter => parameter.form != .sequence
  if 1 < (parameters.filter fun parameter => parameter.form = .sequence).length then
    throw "multiple * parameters not allowed"
  let places := parameters.takeWhile fun parameter =>
    parameter.form = .required || parameter.form = .optional
  let afterOptional := places.dropWhile fun parameter => parameter.form = .required
  if afterOptional.any fun parameter => parameter.form = .required then
    throw "required parameter may not follow optional"
  let nameOnly := (afterStar.drop 1).filter fun parameter => parameter.form != .entries
  if nameOnly.isEmpty && (afterStar.head?.map (·.name)) = some "" then
    throw "bare * must be followed by keyword-only parameters"
  if !(parameterNames parameters).Nodup then throw "duplicate parameter"

/-- What `checkArguments` has seen of a call: how many arguments by place, the names of those by
name, and whether there was a sequence or a dictionary. -/
structure ArgumentsSeen where
  places : Nat := 0
  names : List String := []
  sequence : Bool := false
  entries : Bool := false

/-- The least number of arguments by place, or by name, that is too many for one call. -/
def argumentLimit : Nat := 256

/-- Requires arguments to be in order: by place, by name, one sequence, one dictionary. There must
be fewer than `argumentLimit` by place and by name. -/
def checkArguments : ArgumentsSeen → List ArgumentForm → Except String Unit
  | seen, [] =>
    if argumentLimit ≤ seen.places || argumentLimit ≤ seen.names.length then
      throw "too many arguments"
    else pure ()
  | seen, .positional :: forms =>
    if seen.sequence || seen.entries || !seen.names.isEmpty then
      throw "positional argument may not follow others"
    else checkArguments { seen with places := seen.places + 1 } forms
  | seen, .named name :: forms =>
    if seen.sequence || seen.entries then throw "keyword argument may not follow * or **"
    else if seen.names.contains name then throw "keyword argument is repeated"
    else checkArguments { seen with names := name :: seen.names } forms
  | seen, .sequence :: forms =>
    if seen.sequence || seen.entries then throw "multiple * or * after **"
    else checkArguments { seen with sequence := true } forms
  | seen, .entries :: forms =>
    if seen.entries then throw "multiple ** not allowed"
    else checkArguments { seen with entries := true } forms

/-! ### Expressions -/

mutual

/-- Requires the names of an expression to be `visible`. -/
def checkExpr (visible : List String) : Expr → Except String Unit
  | .name name => if visible.contains name then pure () else throw "undefined name"
  | .omitted | .int _ | .float _ | .string _ | .bytes _ => pure ()
  | .paren inner | .unary _ inner | .field inner _ => checkExpr visible inner
  | .list items | .tuple items | .dict items => checkAll visible items
  | .binary _ left right | .both left right | .either left right | .index left right => do
    checkExpr visible left
    checkExpr visible right
  | .choice condition yes no => do
    checkExpr visible condition
    checkExpr visible yes
    checkExpr visible no
  | .slice operand low high step => do
    checkExpr visible operand
    checkExpr visible low
    checkExpr visible high
    checkExpr visible step
  | .call function forms arguments => do
    checkExpr visible function
    checkArguments {} forms
    checkAll visible arguments
  | .lambda _ parameters defaults body => do
    checkAll visible defaults
    checkParameters parameters
    checkExpr (parameterNames parameters ++ visible) body
  | .comprehension _ _ items clauses => do
    let inner := boundInClauses clauses ++ visible
    checkClauses visible inner clauses
    checkAll inner items

/-- Requires the names of several expressions to be `visible`. -/
def checkAll (visible : List String) : List Expr → Except String Unit
  | [] => pure ()
  | item :: items => do
    checkExpr visible item
    checkAll visible items

/-- Requires the names of clauses to be visible. The first sequence of a comprehension sees the
`outer` names only, not those that the comprehension binds. -/
def checkClauses (outer inner : List String) : List Clause → Except String Unit
  | [] => pure ()
  | .rounds target iterable :: clauses => do
    checkExpr outer iterable
    checkTarget inner false target
    checkClauses inner inner clauses
  | .filter condition :: clauses => do
    checkExpr inner condition
    checkClauses inner inner clauses

/-- Requires a target to be something that can be given a value. -/
def checkTarget (visible : List String) (augmented : Bool) : Expr → Except String Unit
  | .name _ => pure ()
  | .index operand index => do
    checkExpr visible operand
    checkExpr visible index
  | .field operand _ => checkExpr visible operand
  | .paren inner => checkTarget visible augmented inner
  | .list items | .tuple items =>
    if augmented then throw "cannot use several targets in augmented assignment"
    else checkTargets visible items
  | _ => throw "cannot assign to this"

/-- Requires several targets to be things that can be given values, by `checkTarget`. -/
def checkTargets (visible : List String) : List Expr → Except String Unit
  | [] => pure ()
  | item :: items => do
    checkTarget visible false item
    checkTargets visible items

end

/-! ### Statements -/

/-- Where a statement stands: the names that it sees, whether it is in a function, and whether it is
in a loop, be it one around that function. -/
structure Place where
  visible : List String
  inFunction : Bool := false
  inLoop : Bool := false

mutual

/-- Requires a statement to stand where it may, and its names to be visible at its `place`. -/
def checkStmt (place : Place) : Stmt → Except String Unit
  | .expr value => checkExpr place.visible value
  | .assign target value => do
    checkExpr place.visible value
    checkTarget place.visible false target
  | .augment _ target value => do
    checkExpr place.visible value
    checkTarget place.visible true target
  | .pass => pure ()
  | .break | .continue => if place.inLoop then pure () else throw "not in a loop"
  | .return value =>
    if place.inFunction then checkExpr place.visible value
    else throw "return statement not within a function"
  | .branch condition yes no =>
    if place.inFunction then do
      checkExpr place.visible condition
      checkBlock place yes
      checkBlock place no
    else throw "if statement not within a function"
  | .rounds target iterable body =>
    if place.inFunction then do
      checkExpr place.visible iterable
      checkTarget place.visible false target
      checkBlock { place with inLoop := true } body
    else throw "for loop not within a function"
  | .while _ _ => throw "while loops are not supported"
  | .define _ _ parameters defaults body => do
    checkAll place.visible defaults
    checkParameters parameters
    let names := parameterNames parameters ++ boundInBlock body
    checkBlock { place with visible := names ++ place.visible, inFunction := true } body
  | .load names =>
    if place.inFunction then throw "load statement within a function"
    else if names.any fun name => name.2 = "" || name.2.startsWith "_" then
      throw "name is not exported"
    else pure ()

/-- Requires the statements of a block to stand where they may, by `checkStmt`. -/
def checkBlock (place : Place) : List Stmt → Except String Unit
  | [] => pure ()
  | statement :: statements => do
    checkStmt place statement
    checkBlock place statements

end

mutual

/-- Whether a statement has a `break` or `continue` out of a loop that is not in the same
function. -/
def Stmt.jumpsAstray (inLoop : Bool) : Stmt → Bool
  | .break | .continue => !inLoop
  | .branch _ yes no => blockJumpsAstray inLoop yes || blockJumpsAstray inLoop no
  | .rounds _ _ body | .while _ body => blockJumpsAstray true body
  | .define _ _ _ _ body => blockJumpsAstray false body
  | _ => false

/-- Whether a statement of a block `jumpsAstray`. -/
def blockJumpsAstray (inLoop : Bool) : List Stmt → Bool
  | [] => false
  | statement :: statements =>
    statement.jumpsAstray inLoop || blockJumpsAstray inLoop statements

end

/-- Requires that no name at the top is given a value twice. A name that was loaded is not given a
value afterwards, but a value may be loaded over. -/
def checkRebinding : List String → List String → List Stmt → Except String Unit
  | _, _, [] => pure ()
  | globals, loaded, .load names :: statements =>
    let names := names.map (·.1)
    if names.Nodup && names.all fun name => !loaded.contains name then
      checkRebinding globals (names ++ loaded) statements
    else throw "cannot reassign loaded name"
  | globals, loaded, statement :: statements =>
    let names := statement.bound
    if names.Nodup && names.all fun name => !globals.contains name && !loaded.contains name then
      checkRebinding (names ++ globals) loaded statements
    else throw "cannot reassign global"

/-- Requires the names and statements of a script to be in order, given the names that it need not
define: `checkRebinding` and `checkBlock`. -/
def checkScript (predeclared : List String) (statements : List Stmt) : Except String Unit := do
  checkRebinding [] [] statements
  checkBlock { visible := boundInBlock statements ++ predeclared } statements

end MovAsm.Script

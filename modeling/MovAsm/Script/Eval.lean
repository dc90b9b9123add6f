import MovAsm.Script.Element
import MovAsm.Script.Function

/-!
# Running Build Scripts

A script runs from top to bottom. Functions may not call themselves, directly or through others,
so no more calls are ever open than there are functions in the script; together with the absence
of unbounded loops this is why every script comes to an end.

The names that a comprehension binds belong to the function around it: they are made once for
each call of that function, however often the comprehension is evaluated.

## Main definitions

* `Script.evalExpr`, `Script.execStmt` — expressions and statements;
* `Script.runStatements` — a script, to the values of its names.
-/

namespace MovAsm.Script

/-! ### Names -/

/-- What an expression sees: the names that the script need not define, the blocks around it
(`scope`), innermost first, the block of the function around it (`home`), and the functions that are
being called (`active`). -/
structure Context where
  predeclared : List (String × Value)
  scope : List Nat
  home : Nat
  active : List Nat

/-- The value of a name, in the innermost block that has one. -/
def lookupName (predeclared : List (String × Value)) (name : String) : List Nat → Run Value
  | [] =>
    match predeclared.lookup name with
    | some value => pure value
    | none => throw "undefined name"
  | id :: outer => do
    match ((← get).frames.getD id []).lookup name with
    | some (some value) => pure value
    | some none => throw "name referenced before assignment"
    | none => lookupName predeclared name outer

/-- Makes a block of `names`, some of which have values. -/
def newFrame (names : List String) (values : List (String × Value)) : Run Nat :=
  modifyGet fun store =>
    let frame := names.map fun name => (name, values.lookup name)
    (store.frames.size, { store with frames := store.frames.push frame })

/-- The block of the comprehension with a `number` in the function of the block `home`. -/
def innerFrame (home number : Nat) (names : List String) : Run Nat := do
  match (← get).inner.lookup (home, number) with
  | some frame => pure frame
  | none => do
    let frame ← newFrame names []
    modify fun store => { store with inner := ((home, number), frame) :: store.inner }
    pure frame

/-- Gives a value to a name of the innermost block in `scope`. -/
def setName (scope : List Nat) (name : String) (value : Value) : Run Unit :=
  modify fun store =>
    { store with
      frames := store.frames.modify (scope.headD 0) fun frame =>
        frame.map fun entry => if entry.1 = name then (name, some value) else entry }

/-! ### Parts of expressions -/

/-- The `Entries` of a dictionary from keys and values in turn. -/
def pairUp : List Value → Entries
  | key :: value :: rest => (key, value) :: pairUp rest
  | _ => []

/-- Makes a dictionary whose keys must differ, unless it is to `replace` earlier ones. -/
def makeDict (replace : Bool) (pairs : Entries) : Run Value := do
  let entries ← Entries.join [] pairs
  if !replace && entries.length != pairs.length then throw "duplicate key"
  Value.newDict entries

/-- Makes a function value from its `code` and the `context` that it is defined in. -/
def newClosure (context : Context) (code : Code) (defaults : List Value) : Run Value :=
  modifyGet fun store =>
    (.closure store.closures code defaults context.scope,
      { store with closures := store.closures + 1 })

/-- Where execution goes on after a statement: with the next one, after the loop, with the next
round, or after the call with a value. -/
inductive Flow where
  | next
  | break
  | continue
  | return (value : Value)

/-! ### Expressions and statements -/

mutual

/-- The value of an expression. `depth` is the number of calls that may still be opened. -/
def evalExpr (depth : Nat) (context : Context) (expr : Expr) : Run Value := do
  match expr with
  | .name name => lookupName context.predeclared name context.scope
  | .omitted => pure .none
  | .int value => pure (.int value)
  | .float value => pure (.float value)
  | .string bytes => pure (Value.ofBytes bytes)
  | .bytes bytes => pure (.bytes { part := bytes })
  | .paren inner => evalExpr depth context inner
  | .list items => do
    let values ← evalAll depth context items
    Value.newList values
  | .tuple items => do
    let values ← evalAll depth context items
    pure (.tuple values)
  | .dict entries => do
    let values ← evalAll depth context entries
    makeDict false (pairUp values)
  | .unary op operand => do
    let value ← evalExpr depth context operand
    Value.unary op value
  | .binary op left right => do
    let x ← evalExpr depth context left
    let y ← evalExpr depth context right
    Value.binary op x y
  | .both left right => do
    let x ← evalExpr depth context left
    if x.truth (← get) then evalExpr depth context right else pure x
  | .either left right => do
    let x ← evalExpr depth context left
    if x.truth (← get) then pure x else evalExpr depth context right
  | .choice condition yes no => do
    let test ← evalExpr depth context condition
    if test.truth (← get) then evalExpr depth context yes else evalExpr depth context no
  | .index operand key => do
    let x ← evalExpr depth context operand
    let key ← evalExpr depth context key
    Value.index x key
  | .slice operand low high step => do
    let x ← evalExpr depth context operand
    let low ← evalExpr depth context low
    let high ← evalExpr depth context high
    let step ← evalExpr depth context step
    Value.slice x low high step
  | .field operand _ => do
    let _ ← evalExpr depth context operand
    throw "value has no such field"
  | .call function forms arguments => do
    have := function.sizeOf_pos
    let callee ← evalExpr depth context function
    let values ← evalAll depth context arguments
    let (places, named) ← passArguments forms values
    callValue depth context callee places named
  | .lambda number parameters defaults body => do
    let values ← evalAll depth context defaults
    newClosure context ⟨number, "lambda", parameters, .expr body⟩ values
  | .comprehension number isDict items clauses =>
    match clauses with
    | .rounds target iterable :: rest => do
      let first ← evalExpr depth context iterable
      let values ← itemsOf first
      let frame ← innerFrame context.home number (target.bound ++ boundInClauses rest)
      let inner := { context with scope := frame :: context.scope }
      first.beginReading
      let rows ← evalRounds depth inner items target rest [] values
      first.endReading
      let made := rows.reverse.flatten
      if isDict then makeDict true (pairUp made) else Value.newList made
    | _ => throw "comprehension without a loop"
termination_by (depth, sizeOf expr, 0)

/-- The values of several expressions, by `evalExpr`. -/
def evalAll (depth : Nat) (context : Context) (exprs : List Expr) : Run (List Value) := do
  match exprs with
  | [] => pure []
  | expr :: rest => do
    let value ← evalExpr depth context expr
    let values ← evalAll depth context rest
    pure (value :: values)
termination_by (depth, sizeOf exprs, 0)

/-- Evaluates the `items` of a comprehension round by round. The rows of values are added in front
of those made before. -/
def evalClauses (depth : Nat) (context : Context) (items : List Expr) (clauses : List Clause)
    (rows : List (List Value)) : Run (List (List Value)) := do
  match clauses with
  | [] => do
    let values ← evalAll depth context items
    pure (values :: rows)
  | .filter condition :: rest => do
    let test ← evalExpr depth context condition
    if test.truth (← get) then evalClauses depth context items rest rows else pure rows
  | .rounds target iterable :: rest => do
    let value ← evalExpr depth context iterable
    let values ← itemsOf value
    value.beginReading
    let rows ← evalRounds depth context items target rest rows values
    value.endReading
    pure rows
termination_by (depth, sizeOf items + sizeOf clauses, 0)

/-- Evaluates the `items` of a comprehension for each value of `target`. -/
def evalRounds (depth : Nat) (context : Context) (items : List Expr) (target : Expr)
    (clauses : List Clause) (rows : List (List Value)) (values : List Value) :
    Run (List (List Value)) := do
  match values with
  | [] => pure rows
  | value :: values => do
    assign depth context target value
    let rows ← evalClauses depth context items clauses rows
    evalRounds depth context items target clauses rows values
termination_by (depth, sizeOf items + sizeOf target + sizeOf clauses + 1, values.length)

/-- Calls a `function` with arguments by place and by name. Choosing among the elements of a list by
keys goes through the list, so it may not change meanwhile. -/
def callValue (depth : Nat) (context : Context) (function : Value) (places : List Value)
    (named : Named) : Run Value := do
  match function with
  | .builtin builtin =>
    match builtin.choice?, named with
    | some op, _ :: _ => do
      let key ← keyFunction named
      let (source, items) ← candidates places
      source.beginReading
      let keys ← callEach depth context key [] items
      source.endReading
      extremum op (keys.reverse.zip items)
    | _, _ => callBuiltin builtin places named
  | function => callClosure depth context function places named
termination_by (depth, 1, 0)

/-- Calls a `function` on each of several `items`. The answers are added in front of those
before. -/
def callEach (depth : Nat) (context : Context) (function : Value) (answers : List Value)
    (items : List Value) : Run (List Value) := do
  match items with
  | [] => pure answers
  | item :: items => do
    let answer ←
      match function with
      | .builtin builtin => callBuiltin builtin [item] []
      | function => callClosure depth context function [item] []
    callEach depth context function (answer :: answers) items
termination_by (depth, 0, items.length + 1)

/-- Calls a `function` of the script, unless it is being called already. -/
def callClosure (depth : Nat) (context : Context) (function : Value) (places : List Value)
    (named : Named) : Run Value := do
  match function, depth with
  | .closure _ code defaults scope, depth + 1 =>
    if context.active.contains code.number then throw "function called recursively"
    let values ← bindArguments code.parameters defaults places named
    let active := code.number :: context.active
    match code.body with
    | .expr body => do
      let home ← newFrame (parameterNames code.parameters) values
      evalExpr depth { context with scope := home :: scope, home, active } body
    | .block body => do
      let home ← newFrame (parameterNames code.parameters ++ boundInBlock body) values
      let flow ← execBlock depth { context with scope := home :: scope, home, active } body
      match flow with
      | .return value => pure value
      | _ => pure .none
  | .closure _ _ _ _, 0 => throw "function called recursively"
  | _, _ => throw "value is not callable"
termination_by (depth, 0, 0)

/-- Gives a `value` to a `target`. -/
def assign (depth : Nat) (context : Context) (target : Expr) (value : Value) : Run Unit := do
  match target with
  | .name name => setName context.scope name value
  | .paren inner => assign depth context inner value
  | .list items | .tuple items => do
    let values ← itemsOf value
    if values.length != items.length then throw "wrong number of values to unpack"
    assignAll depth context items values
  | .index operand key => do
    let x ← evalExpr depth context operand
    let key ← evalExpr depth context key
    Value.setIndex x key value
  | _ => throw "cannot assign to this"
termination_by (depth, sizeOf target, 0)

/-- Gives `values` to `targets`, one by one. -/
def assignAll (depth : Nat) (context : Context) (targets : List Expr) (values : List Value) :
    Run Unit := do
  match targets, values with
  | target :: targets, value :: values => do
    assign depth context target value
    assignAll depth context targets values
  | _, _ => pure ()
termination_by (depth, sizeOf targets, 0)

/-- Combines the value of a `target` with another by `op`, as in `x += 1`. -/
def augment (depth : Nat) (context : Context) (op : BinaryOp) (target value : Expr) :
    Run Unit := do
  match target with
  | .name name => do
    let x ← lookupName context.predeclared name context.scope
    let y ← evalExpr depth context value
    let z ← Value.augmented op x y
    setName context.scope name z
  | .paren inner => augment depth context op inner value
  | .index operand key => do
    let owner ← evalExpr depth context operand
    let key ← evalExpr depth context key
    let x ← Value.index owner key
    let y ← evalExpr depth context value
    let z ← Value.augmented op x y
    Value.setIndex owner key z
  | _ => throw "cannot assign to this"
termination_by (depth, sizeOf target + sizeOf value, 0)

/-- Runs a statement, and answers the `Flow` after it. -/
def execStmt (depth : Nat) (context : Context) (statement : Stmt) : Run Flow := do
  match statement with
  | .expr value => do
    let _ ← evalExpr depth context value
    pure .next
  | .assign target value => do
    let value ← evalExpr depth context value
    assign depth context target value
    pure .next
  | .augment op target value => do
    augment depth context op target value
    pure .next
  | .pass => pure .next
  | .break => pure .break
  | .continue => pure .continue
  | .return value => do
    let value ← evalExpr depth context value
    pure (.return value)
  | .branch condition yes no => do
    let test ← evalExpr depth context condition
    if test.truth (← get) then execBlock depth context yes else execBlock depth context no
  | .rounds target iterable body => do
    let value ← evalExpr depth context iterable
    let values ← itemsOf value
    have := iterable.sizeOf_pos
    value.beginReading
    let flow ← execRounds depth context target body values
    value.endReading
    pure flow
  | .while _ _ => throw "while loops are not supported"
  | .define number name parameters defaults body => do
    let values ← evalAll depth context defaults
    let function ← newClosure context ⟨number, name, parameters, .block body⟩ values
    setName context.scope name function
    pure .next
  | .load _ => throw "load not implemented"
termination_by (depth, sizeOf statement, 0)

/-- Runs the statements of a block, by `execStmt`, up to the first that does not go on with the
next. -/
def execBlock (depth : Nat) (context : Context) (statements : List Stmt) : Run Flow := do
  match statements with
  | [] => pure .next
  | statement :: statements => do
    let flow ← execStmt depth context statement
    match flow with
    | .next => execBlock depth context statements
    | flow => pure flow
termination_by (depth, sizeOf statements, 0)

/-- Runs a block for each value of `target`. -/
def execRounds (depth : Nat) (context : Context) (target : Expr) (body : List Stmt)
    (values : List Value) : Run Flow := do
  match values with
  | [] => pure .next
  | value :: values => do
    assign depth context target value
    let flow ← execBlock depth context body
    match flow with
    | .break => pure .next
    | .return value => pure (.return value)
    | _ => execRounds depth context target body values
termination_by (depth, sizeOf target + sizeOf body + 1, values.length)

end

/-- Runs a script with so many `functions`, to the names that it gave values to. -/
def runStatements (predeclared : List (String × Value)) (functions : Nat)
    (statements : List Stmt) : Except String (List (String × Value)) := do
  let program : Run (List (String × Value)) := do
    let frame ← newFrame (boundInBlock statements) []
    let context : Context := { predeclared, scope := [frame], home := frame, active := [] }
    let _ ← execBlock (functions + 1) context statements
    let globals := (← get).frames.getD frame []
    pure (globals.filterMap fun (name, value) => value.map fun value => (name, value))
  let (globals, _) ← program.run {}
  pure globals

end MovAsm.Script

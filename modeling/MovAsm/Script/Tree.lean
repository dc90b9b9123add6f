/-!
# Trees of Build Scripts

What the tokens of a script say: expressions and statements.
-/

namespace MovAsm.Script

/-- An operator in front of an operand. -/
inductive UnaryOp where
  | plus | minus | invert | negate
  deriving DecidableEq, Repr, Inhabited

/-- An operator between two operands that are both needed. -/
inductive BinaryOp where
  | add | subtract | multiply | divide | floorDivide | modulo
  | bitOr | bitXor | bitAnd | shiftLeft | shiftRight
  | equal | notEqual | less | greater | lessEqual | greaterEqual
  | contained | notContained
  deriving DecidableEq, Repr, Inhabited

/-- How an argument is passed: by its place, by a name, or as the elements of a sequence (`*`) or
the entries of a dictionary (`**`). -/
inductive ArgumentForm where
  | positional
  | named (name : String)
  | sequence
  | entries
  deriving DecidableEq, Repr, Inhabited

/-- How a parameter takes an argument: there must be one, there is a value to fall back on, or it
takes all that have no place (`*`) or no name (`**`) of their own. A `*` without a name takes
none. -/
inductive ParameterForm where
  | required
  | optional
  | sequence
  | entries
  deriving DecidableEq, Repr, Inhabited

/-- A parameter of a function. The `name` is empty for a lone `*`. -/
structure Parameter where
  form : ParameterForm
  name : String
  deriving DecidableEq, Repr, Inhabited

mutual

/-- An expression. An `omitted` one is the missing bound of a slice, a `dict` has keys and values in
turn, and `both` and `either` are `and` and `or`. The numbers of functions and comprehensions tell
them apart. -/
inductive Expr where
  | name (name : String)
  | omitted
  | int (value : Int)
  | float (value : Float)
  | string (bytes : List UInt8)
  | bytes (bytes : List UInt8)
  | paren (inner : Expr)
  | list (items : List Expr)
  | tuple (items : List Expr)
  | dict (entries : List Expr)
  | unary (op : UnaryOp) (operand : Expr)
  | binary (op : BinaryOp) (left right : Expr)
  | both (left right : Expr)
  | either (left right : Expr)
  | choice (condition yes no : Expr)
  | index (operand index : Expr)
  | slice (operand low high step : Expr)
  | field (operand : Expr) (name : String)
  | call (function : Expr) (forms : List ArgumentForm) (arguments : List Expr)
  | lambda (number : Nat) (parameters : List Parameter) (defaults : List Expr) (body : Expr)
  | comprehension (number : Nat) (isDict : Bool) (items : List Expr) (clauses : List Clause)

/-- A part of a comprehension: a `for` or an `if`. -/
inductive Clause where
  | rounds (target iterable : Expr)
  | filter (condition : Expr)

end

instance : Inhabited Expr := ⟨.omitted⟩

/-- Every expression has a positive `sizeOf`, as the termination of functions on clauses needs. -/
theorem Expr.sizeOf_pos (expr : Expr) : 0 < sizeOf expr := by
  cases expr <;> simp +arith

/-- A statement. The number of a `define` tells functions apart, and a `load` has the name here and
the name there of all that it takes from another script. -/
inductive Stmt where
  | expr (value : Expr)
  | assign (target value : Expr)
  | augment (op : BinaryOp) (target value : Expr)
  | pass
  | break
  | continue
  | return (value : Expr)
  | branch (condition : Expr) (yes no : List Stmt)
  | rounds (target iterable : Expr) (body : List Stmt)
  | while (condition : Expr) (body : List Stmt)
  | define (number : Nat) (name : String) (parameters : List Parameter) (defaults : List Expr)
    (body : List Stmt)
  | load (names : List (String × String))

instance : Inhabited Stmt := ⟨.pass⟩

end MovAsm.Script

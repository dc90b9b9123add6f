import MovAsm.Script.Rendering

/-!
# Operators

What operators make of their operands. Whole numbers have no bounds, and dividing them rounds
down. Where a whole number meets a floating point one it becomes one itself, which fails if it is
too large. Sequences are joined and repeated, and strings are templates for other values.

## Main definitions

* `Value.unary`, `Value.binary` — operators in front of and between operands;
* `Value.augmented` — combining a value with another in place.
-/

namespace MovAsm.Script.Value

/-! ### Numbers -/

/-- A whole number as a `Float`. It must not be too large. -/
def toFloat (n : Int) : Run Float :=
  match floatOfInt? n with
  | some x => pure x
  | Option.none => throw "int too large to convert to float"

/-- The operation `op` on two `Float`s. -/
def floatBinary (op : BinaryOp) (x y : Float) : Run Value :=
  match op with
  | .add => pure (.float (x + y))
  | .subtract => pure (.float (x - y))
  | .multiply => pure (.float (x * y))
  | .divide => if y == 0 then throw "division by zero" else pure (.float (x / y))
  | .floorDivide => if y == 0 then throw "division by zero" else pure (.float (x / y).floor)
  | .modulo => if y == 0 then throw "division by zero" else pure (.float (floatModulo x y))
  | _ => mismatch

/-- The bits of a whole number in two's complement combined with those of another by `op`. -/
def bitwise (op : BinaryOp) (x y : Int) : Int :=
  match op, x, y with
  | .bitAnd, .ofNat a, .ofNat b => .ofNat (a &&& b)
  | .bitAnd, .ofNat a, .negSucc b => .ofNat (a - (a &&& b))
  | .bitAnd, .negSucc a, .ofNat b => .ofNat (b - (a &&& b))
  | .bitAnd, .negSucc a, .negSucc b => .negSucc (a ||| b)
  | .bitOr, .ofNat a, .ofNat b => .ofNat (a ||| b)
  | .bitOr, .ofNat a, .negSucc b => .negSucc (b - (a &&& b))
  | .bitOr, .negSucc a, .ofNat b => .negSucc (a - (a &&& b))
  | .bitOr, .negSucc a, .negSucc b => .negSucc (a &&& b)
  | _, .ofNat a, .ofNat b => .ofNat (a ^^^ b)
  | _, .ofNat a, .negSucc b | _, .negSucc a, .ofNat b => .negSucc (a ^^^ b)
  | _, .negSucc a, .negSucc b => .ofNat (a ^^^ b)

/-- The least number of places by which `shift` refuses to go to the left. -/
def shiftLimit : Nat := 512

/-- Moves the bits of a whole number to the left or to the right by so many places. -/
def shift (left : Bool) (x : Int) (by_ : Value) : Run Value := do
  let count ← by_.short
  if count < 0 then throw "negative shift count"
  let places := count.toInt.toNat
  if left then
    if shiftLimit ≤ places then throw "shift count too large"
    else pure (.int (x * Int.pow 2 places))
  else if x.natAbs.log2 < places then pure (.int (if x < 0 then -1 else 0))
  else pure (.int (x.fdiv (Int.pow 2 places)))

/-- The operation `op` on two whole numbers. Division rounds down. -/
def intBinary (op : BinaryOp) (x y : Int) : Run Value :=
  match op with
  | .add => pure (.int (x + y))
  | .subtract => pure (.int (x - y))
  | .multiply => pure (.int (x * y))
  | .divide => do
    let a ← toFloat x
    let b ← toFloat y
    floatBinary .divide a b
  | .floorDivide => if y = 0 then throw "division by zero" else pure (.int (x.fdiv y))
  | .modulo => if y = 0 then throw "division by zero" else pure (.int (x.fmod y))
  | .bitOr | .bitXor | .bitAnd => pure (.int (bitwise op x y))
  | .shiftLeft => shift true x (.int y)
  | .shiftRight => shift false x (.int y)
  | _ => mismatch

/-! ### Sequences -/

/-- The least number of elements for which `repeats` refuses to repeat a sequence. -/
def repeatLimit : Int := 0x40000000

/-- How often a sequence of some `length` is repeated if `count` asks for it. -/
def repeats (length : Nat) (count : Int) : Run Nat :=
  if length = 0 then pure 0
  else if !isShort count then throw "repeat count too large"
  else if count < 1 then pure 0
  else if repeatLimit ≤ length * count then throw "excessive repeat"
  else pure count.toNat

/-- Repeats a string `count` times. -/
def repeatBytes (data : Bytes) (count : Int) : Run Bytes := do
  let times ← repeats data.length count
  pure { data with times := data.times * times }

/-- Repeats the elements of a sequence `count` times. -/
def repeatItems (items : List Value) (count : Int) : Run (List Value) := do
  let times ← repeats items.length count
  pure (List.replicate times items).flatten

/-- Whether the bytes `part` occur in others. -/
def isPart (part : List UInt8) : List UInt8 → Bool
  | [] => part.isEmpty
  | whole@(_ :: rest) => part.isPrefixOf whole || isPart part rest

/-- Whether a number is in a `Range`. A number with a fraction counts as the whole one, and one that
is not `isShort` is in none. -/
def inRange (x : Value) (numbers : Range) : Run Bool :=
  match x.wholeNumber? with
  | some n => pure (isShort n && numbers.contains (Int64.ofInt n))
  | Option.none => mismatch

/-- The value of `x in y`. -/
def containedIn (x y : Value) : Run Bool := do
  let store ← get
  match x, y with
  | .string part, .string whole => pure (isPart part.toList whole.toList)
  | .bytes part, .bytes whole => pure (isPart part.toList whole.toList)
  | .int n, .bytes whole =>
    if 0 ≤ n && n < 256 then pure (whole.toList.contains n.toNat.toUInt8) else mismatch
  | key, .dict id => pure ((store.dict id).get? key).isSome
  | x, .range numbers => inRange x numbers
  | x, .list id => among store x (store.list id)
  | x, .tuple items => among store x items
  | _, _ => mismatch

/-- The bytes of `x` and then those of `y`. -/
def joinBytes (x y : Bytes) : Bytes :=
  { part := x.toList ++ y.toList }

/-! ### All operands -/

/-- The value of an operator `op` that is no comparison. -/
def combine (op : BinaryOp) (x y : Value) : Run Value := do
  let store ← get
  match op, x, y with
  | _, .int a, .int b => intBinary op a b
  | _, .float a, .float b => floatBinary op a b
  | _, .int a, .float b => do
    let a ← toFloat a
    floatBinary op a b
  | _, .float a, .int b => do
    let b ← toFloat b
    floatBinary op a b
  | .add, .string a, .string b => pure (.string (joinBytes a b))
  | .add, .bytes a, .bytes b => pure (.bytes (joinBytes a b))
  | .add, .list a, .list b => newList (store.list a ++ store.list b)
  | .add, .tuple a, .tuple b => pure (.tuple (a ++ b))
  | .multiply, .int n, .string a | .multiply, .string a, .int n => do
    let data ← repeatBytes a n
    pure (.string data)
  | .multiply, .int n, .bytes a | .multiply, .bytes a, .int n => do
    let data ← repeatBytes a n
    pure (.bytes data)
  | .multiply, .int n, .tuple a | .multiply, .tuple a, .int n => do
    let items ← repeatItems a n
    pure (.tuple items)
  | .multiply, .int n, .list a | .multiply, .list a, .int n => do
    let items ← repeatItems (store.list a) n
    newList items
  | .modulo, .string template, values => fill template.toList values
  | .bitOr, .dict a, .dict b => do
    let entries ← (store.dict a).join (store.dict b)
    newDict entries
  | _, _, _ => mismatch

/-- The value of an operator between two operands, by `combine` or `compare`. -/
def binary (op : BinaryOp) (x y : Value) : Run Value := do
  match op with
  | .equal | .notEqual | .less | .lessEqual | .greater | .greaterEqual => do
    let answer ← compare (← get) compareDepth op x y
    pure (.bool answer)
  | .contained => do
    let answer ← containedIn x y
    pure (.bool answer)
  | .notContained => do
    let answer ← containedIn x y
    pure (.bool !answer)
  | op => combine op x y

/-- The value of `x` after an assignment such as `x += y`: a list grows by the elements of a
sequence, and a dictionary by the entries of another. -/
def augmented (op : BinaryOp) (x y : Value) : Run Value := do
  let store ← get
  match op, x, y, y.items? store with
  | .add, .list id, _, some items => do
    setList id (store.list id ++ items)
    pure x
  | .bitOr, .dict a, .dict b, _ => do
    let entries ← (store.dict a).join (store.dict b)
    setDict a entries
    pure x
  | _, _, _, _ => binary op x y

/-- The value of an operator `op` in front of an operand. -/
def unary (op : UnaryOp) (x : Value) : Run Value := do
  match op, x with
  | .negate, x => do
    let store ← get
    pure (.bool !(x.truth store))
  | .minus, .int n => pure (.int (-n))
  | .minus, .float a => pure (.float (-a))
  | .plus, .int n => pure (.int n)
  | .plus, .float a => pure (.float a)
  | .invert, .int n => pure (.int (-n - 1))
  | _, _ => mismatch

end MovAsm.Script.Value

import MovAsm.Script.Number
import MovAsm.Script.Range
import MovAsm.Script.Tree

/-!
# Values of Build Scripts

What expressions evaluate to. Lists and dictionaries can be changed through every name that they
have, so a value only refers to them; their contents are in a store. So are the names of
functions that are running, since functions defined in them see later changes.

While a loop goes through a list or a dictionary its contents may not change, so the store also
counts the loops that go through each.

## Main definitions

* `Script.Bytes`, `Script.Value` — strings and values;
* `Script.Store`, `Script.Run` — the contents that values refer to, and computations on them;
* `Value.items?`, `Value.length?`, `Value.truth` — what every value is asked.
-/

namespace MovAsm.Script

/-! ### Strings -/

/-- The bytes of `part`, repeated `times` over, so that long repetitions stay small. -/
structure Bytes where
  part : List UInt8
  times : Nat := 1
  deriving DecidableEq, Repr, Inhabited

namespace Bytes

/-- The bytes of a text. -/
def ofString (text : String) : Bytes :=
  { part := text.toUTF8.toList }

/-- All bytes, with every repetition of `part`. -/
def toList (bytes : Bytes) : List UInt8 :=
  if bytes.times = 1 then bytes.part else (List.replicate bytes.times bytes.part).flatten

/-- How many bytes there are, as `toList` has. -/
def length (bytes : Bytes) : Nat :=
  bytes.part.length * bytes.times

/-- The order of bytes: by the first that differ, and else the shorter first. -/
def compareLists : List UInt8 → List UInt8 → Ordering
  | [], [] => .eq
  | [], _ :: _ => .lt
  | _ :: _, [] => .gt
  | a :: as, b :: bs => (Ord.compare a b).then (compareLists as bs)

/-- The order of strings, by `compareLists`. -/
def compare (x y : Bytes) : Ordering :=
  if x = y then .eq else compareLists x.toList y.toList

end Bytes

/-! ### Values -/

/-- What a function does when it is called: it evaluates an expression, or runs statements. -/
inductive Body where
  | expr (value : Expr)
  | block (statements : List Stmt)
  deriving Inhabited

/-- A function in the text of a script. Its `number` tells it apart from others. -/
structure Code where
  number : Nat
  name : String
  parameters : List Parameter
  body : Body
  deriving Inhabited

/-- A function that every script can call. An `unsupported` one is known by name only. -/
inductive Builtin where
  | len | int | max | min | range | fail
  | unsupported (name : String)
  deriving DecidableEq, Repr

/-- The name by which a script calls a `Builtin`. -/
def Builtin.name : Builtin → String
  | len => "len"
  | int => "int"
  | max => "max"
  | min => "min"
  | range => "range"
  | fail => "fail"
  | unsupported name => name

/-- A value of the language. Lists and dictionaries stand for their contents in the `Store`. A
function of the script comes with the values of its optional parameters and the blocks that it
sees. -/
inductive Value where
  | none
  | bool (value : Bool)
  | int (value : Int)
  | float (value : Float)
  | string (text : Bytes)
  | bytes (data : Bytes)
  | tuple (items : List Value)
  | list (id : Nat)
  | dict (id : Nat)
  | range (numbers : Range)
  | closure (id : Nat) (code : Code) (defaults : List Value) (scope : List Nat)
  | builtin (function : Builtin)
  deriving Inhabited

/-! ### The store -/

/-- The names of a block. Those that have no value yet cannot be used. -/
abbrev Frame := List (String × Option Value)

/-- The entries of a dictionary, in their order. -/
abbrev Entries := List (Value × Value)

/-- The contents of a list or dictionary, and the number of loops that go through them. -/
structure Cell (α : Type) where
  content : α
  readers : Nat := 0

/-- The contents that values refer to: blocks, the blocks of comprehensions (by the block of the
function around each and its number), lists and dictionaries. `closures` is the number of functions
made. -/
structure Store where
  frames : Array Frame := #[]
  inner : List ((Nat × Nat) × Nat) := []
  lists : Array (Cell (List Value)) := #[]
  dicts : Array (Cell Entries) := #[]
  closures : Nat := 0

namespace Store

/-- The elements of the list `id`. -/
def list (store : Store) (id : Nat) : List Value :=
  match store.lists[id]? with
  | some cell => cell.content
  | none => []

/-- The entries of the dictionary `id`. -/
def dict (store : Store) (id : Nat) : Entries :=
  match store.dicts[id]? with
  | some cell => cell.content
  | none => []

/-- Whether a loop goes through a value. -/
def isRead (store : Store) : Value → Bool
  | .list id => (store.lists[id]?.map (·.readers)).getD 0 != 0
  | .dict id => (store.dicts[id]?.map (·.readers)).getD 0 != 0
  | _ => false

end Store

/-- A computation on the `Store`, which may fail. -/
abbrev Run := StateT Store (Except String)

namespace Value

/-- Makes a list in the `Store`. -/
def newList (items : List Value) : Run Value :=
  modifyGet fun store =>
    (.list store.lists.size, { store with lists := store.lists.push { content := items } })

/-- Makes a dictionary in the `Store`. -/
def newDict (entries : Entries) : Run Value :=
  modifyGet fun store =>
    (.dict store.dicts.size, { store with dicts := store.dicts.push { content := entries } })

/-- Requires that no loop goes through a value, so that it may change. -/
def requireUnread (value : Value) : Run Unit := do
  if (← get).isRead value then throw "cannot change during iteration"

/-- Gives the list `id` new elements. -/
def setList (id : Nat) (items : List Value) : Run Unit := do
  requireUnread (.list id)
  modify fun store =>
    { store with lists := store.lists.modify id fun cell => { cell with content := items } }

/-- Gives the dictionary `id` new entries. -/
def setDict (id : Nat) (entries : Entries) : Run Unit := do
  requireUnread (.dict id)
  modify fun store =>
    { store with dicts := store.dicts.modify id fun cell => { cell with content := entries } }

/-- Changes the number of loops that go through a value. -/
def countReaders (change : Nat → Nat) (value : Value) : Run Unit :=
  modify fun store =>
    match value with
    | .list id =>
      { store with
        lists := store.lists.modify id fun cell => { cell with readers := change cell.readers } }
    | .dict id =>
      { store with
        dicts := store.dicts.modify id fun cell => { cell with readers := change cell.readers } }
    | _ => store

/-- Says that a loop begins to go through a value, for `isRead`. -/
def beginReading : Value → Run Unit :=
  countReaders (· + 1)

/-- Says that a loop no longer goes through a value, for `isRead`. -/
def endReading : Value → Run Unit :=
  countReaders (· - 1)

/-! ### What every value is asked -/

/-- The string of some bytes. -/
def ofBytes (bytes : List UInt8) : Value :=
  .string { part := bytes }

/-- The elements of a value, if it can be gone through. -/
def items? (store : Store) : Value → Option (List Value)
  | tuple items => some items
  | list id => some (store.list id)
  | dict id => some ((store.dict id).map (·.1))
  | range numbers => some (numbers.toList.map fun n => .int n.toInt)
  | _ => Option.none

/-- The number of elements or bytes of a value, if it has any. That of a `Range` may be negative. -/
def length? (store : Store) : Value → Option Int64
  | string data | bytes data => some (Int64.ofNat data.length)
  | range numbers => some numbers.length
  | value => (value.items? store).map fun items => Int64.ofNat items.length

/-- Whether a value counts as true. -/
def truth (store : Store) : Value → Bool
  | none => false
  | bool value => value
  | int value => value != 0
  | float value => value != 0
  | value =>
    match value.length? store with
    | some length => 0 < length
    | Option.none => true

/-- The whole number that a number is without its fraction. -/
def wholeNumber? : Value → Option Int
  | int n => some n
  | float x => truncate? x
  | _ => Option.none

/-- Whether a number fits into half a machine word, as places and counts must. -/
def isShort (n : Int) : Bool :=
  -0x80000000 ≤ n && n < 0x80000000

/-- A place or count, which must be `isShort`. -/
def short : Value → Run Int64
  | int n => if isShort n then pure (Int64.ofInt n) else throw "int out of range"
  | _ => throw "want int"

/-- Fails because the operand types do not go with the operation. -/
def mismatch {α : Type} : Run α :=
  throw "unknown operation on these types"

end Value

end MovAsm.Script

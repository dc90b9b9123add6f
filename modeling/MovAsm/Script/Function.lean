import MovAsm.Script.Operator
import MovAsm.Script.Scope

/-!
# Functions

How arguments reach functions, and what the functions do that every script can call.

## Main definitions

* `Script.known` — the functions and constants that every script can use;
* `Script.callBuiltin` — calling such a function;
* `Script.passArguments`, `Script.bindArguments` — from arguments to the names of parameters.
-/

namespace MovAsm.Script

/-- The functions that every script can call. -/
def builtins : List Builtin :=
  [.len, .int, .max, .min, .range, .fail] ++
  ["abs", "all", "any", "bool", "bytes", "chr", "dict", "dir", "enumerate", "float", "getattr",
    "hasattr", "hash", "list", "ord", "print", "repr", "reversed", "sorted", "str", "tuple",
    "type", "zip"].map .unsupported

/-- The `builtins` and constants that every script can use, by their names. -/
def known : List (String × Value) :=
  [("None", .none), ("True", .bool true), ("False", .bool false)] ++
  builtins.map fun function => (function.name, .builtin function)

/-- The elements of a value that must have some. -/
def itemsOf (value : Value) : Run (List Value) := do
  match value.items? (← get) with
  | some items => pure items
  | none => throw "value is not iterable"

/-- Arguments that are passed by name. The names are bytes, since a dictionary passed with `**` may
have any. -/
abbrev Named := List (List UInt8 × Value)

/-- The bytes of a name. -/
def nameBytes (name : String) : List UInt8 :=
  name.toUTF8.toList

/-! ### Functions that every script can call -/

/-- The arguments of a function that takes from `least` to `most` of them, and only by place. -/
def placesOnly (least most : Nat) (places : List Value) (named : Named) : Run (List Value) :=
  if !named.isEmpty then throw "unexpected keyword arguments"
  else if places.length < least || most < places.length then throw "wrong number of arguments"
  else pure places

/-- A whole number that fits into a machine word, as an `Int64`. -/
def machineInt : Value → Run Int64
  | .int n =>
    if -0x8000000000000000 ≤ n && n < 0x8000000000000000 then pure (Int64.ofInt n)
    else throw "int out of range"
  | _ => throw "want int"

/-- Calls `range`: numbers from a first to before a last, by steps. -/
def callRange (places : List Value) (named : Named) : Run Value := do
  let arguments ← placesOnly 1 3 places named
  let numbers ← arguments.mapM machineInt
  let (start, stop, step) : Int64 × Int64 × Int64 :=
    match numbers with
    | [stop] => (0, stop, 1)
    | [start, stop] => (start, stop, 1)
    | start :: stop :: step :: _ => (start, stop, step)
    | [] => (0, 0, 1)
  if step = 0 then throw "step argument must not be zero"
  pure (.range (Range.ofBounds start stop step))

/-- The arguments of `int`: the value, and the base. -/
def intArguments (places : List Value) (named : Named) : Run (Value × Option Value) := do
  if 2 < places.length then throw "too many arguments"
  let names := ["x", "base"].map nameBytes
  if named.any fun entry => !names.contains entry.1 then throw "unexpected keyword argument"
  let all := names.zip places ++ named
  if !(all.map (·.1)).Nodup then throw "multiple values"
  match all.lookup (nameBytes "x") with
  | some value => pure (value, all.lookup (nameBytes "base"))
  | none => throw "missing argument for x"

/-- Calls `int`: a number loses its fraction, and a text is read in a base. -/
def callInt (places : List Value) (named : Named) : Run Value := do
  let (value, base) ← intArguments places named
  match value, base with
  | .string text, base => do
    let base ←
      match base with
      | none => pure 10
      | some (.int n) =>
        if n = 0 || (2 ≤ n && n ≤ 36) then pure n.toNat else throw "invalid base"
      | some _ => throw "base must be an int"
    match intOfBytes? base text.toList with
    | some n => pure (.int n)
    | none => throw "invalid literal"
  | _, some _ => throw "cannot convert non-string with explicit base"
  | .bool b, none => pure (.int b.toNat)
  | value, none =>
    match value.wholeNumber? with
    | some n => pure (.int n)
    | none => throw "cannot convert to int"

/-- The value that `max` or `min` chooses from, and its elements: several values, or the elements of
one. -/
def candidates (places : List Value) : Run (Value × List Value) := do
  match places with
  | [] => throw "requires at least one positional argument"
  | [value] => do
    let items ← itemsOf value
    pure (value, items)
  | values => pure (.tuple values, values)

/-- The first element whose key beats those of all others by `op`. -/
def extremum (op : BinaryOp) (keyed : List (Value × Value)) : Run Value := do
  let store ← get
  match keyed with
  | [] => throw "argument is an empty sequence"
  | first :: rest => do
    let best ← rest.foldlM (fun best item => do
      let better ← Value.compare store Value.compareDepth op item.1 best.1
      pure (if better then item else best)) first
    pure best.2

/-- Calls `max` or `min` without a key function. -/
def callExtremum (op : BinaryOp) (places : List Value) : Run Value := do
  let (_, items) ← candidates places
  extremum op (items.zip items)

/-- The comparison by which `max` or `min` chooses. -/
def Builtin.choice? : Builtin → Option BinaryOp
  | max => some .greater
  | min => some .less
  | _ => none

/-- Calls one of the `builtins`, where no function of the script is needed for it. -/
def callBuiltin (function : Builtin) (places : List Value) (named : Named) : Run Value := do
  match function with
  | .len =>
    let arguments ← placesOnly 1 1 places named
    match (arguments.headD .none).length? (← get) with
    | some length => if length < 0 then throw "value has no len" else pure (.int length.toInt)
    | none => throw "value has no len"
  | .int => callInt places named
  | .max => callExtremum .greater places
  | .min => callExtremum .less places
  | .range => callRange places named
  | .fail => throw "fail"
  | .unsupported _ => throw "unsupported function"

/-- The function that makes the keys to choose by, passed as `key`. -/
def keyFunction (named : Named) : Run Value :=
  match named with
  | [(name, value)] =>
    if name = nameBytes "key" then
      match value with
      | .closure _ _ _ _ | .builtin _ => pure value
      | _ => throw "want callable"
    else throw "unexpected keyword argument"
  | _ => throw "unexpected keyword arguments"

/-! ### Functions of the script -/

/-- Whether a parameter takes one argument: it is `required` or `optional`. -/
def isSingle (parameter : Parameter) : Bool :=
  parameter.form = .required || parameter.form = .optional

/-- The values of the `optional` parameters, by name. -/
def defaultValues (parameters : List Parameter) (defaults : List Value) :
    List (String × Value) :=
  ((parameters.filter fun parameter => parameter.form = .optional).map (·.name)).zip defaults

/-- Gives arguments to `parameters`: by place, then by name, then by default. What is left goes to
the parameters that take the rest, and there must be such. -/
def bindArguments (parameters : List Parameter) (defaults places : List Value) (named : Named) :
    Run (List (String × Value)) := do
  let single := parameters.filter isSingle
  let byPlace := parameters.takeWhile isSingle
  let given := (byPlace.map (·.name)).zip places
  let surplus := places.drop byPlace.length
  let own := single.filterMap fun parameter =>
    (named.lookup (nameBytes parameter.name)).map fun value => (parameter.name, value)
  let foreign := named.filter fun entry =>
    !(single.map fun parameter => nameBytes parameter.name).contains entry.1
  if own.any fun entry => (given.lookup entry.1).isSome then throw "multiple values for parameter"
  if !(named.map (·.1)).Nodup then throw "multiple values for keyword argument"
  let passed := given ++ own
  let given := passed ++ (defaultValues parameters defaults).filter fun entry =>
    (passed.lookup entry.1).isNone
  if single.any fun parameter => (given.lookup parameter.name).isNone then
    throw "missing argument"
  let rest ←
    match parameters.find? fun parameter => parameter.form = .sequence with
    | some parameter =>
      if parameter.name = "" then
        if surplus.isEmpty then pure [] else throw "too many positional arguments"
      else pure [(parameter.name, Value.tuple surplus)]
    | none => if surplus.isEmpty then pure [] else throw "too many positional arguments"
  let entries ←
    match parameters.find? fun parameter => parameter.form = .entries with
    | some parameter => do
      let dict ← Value.newDict (foreign.map fun entry => (Value.ofBytes entry.1, entry.2))
      pure [(parameter.name, dict)]
    | none => if foreign.isEmpty then pure [] else throw "unexpected keyword argument"
  pure (given ++ rest ++ entries)

/-- The entries of a value that is passed with `**`. -/
def namedOf (value : Value) : Run Named := do
  match value with
  | .dict id =>
    ((← get).dict id).mapM fun
      | (.string text, value) => pure (text.toList, value)
      | _ => throw "keywords must be strings"
  | _ => throw "argument after ** must be a mapping"

/-- The arguments of a call by place and by name, once they are evaluated: each `ArgumentForm` says
what becomes of its value. -/
def passArguments : List ArgumentForm → List Value → Run (List Value × Named)
  | form :: forms, value :: values => do
    let (here, named) : List Value × Named ←
      match form with
      | .positional => pure ([value], [])
      | .named name => pure ([], [(nameBytes name, value)])
      | .sequence => do
        let items ← itemsOf value
        pure (items, [])
      | .entries => do
        let entries ← namedOf value
        pure ([], entries)
    let (places, others) ← passArguments forms values
    pure (here ++ places, named ++ others)
  | _, _ => pure ([], [])

end MovAsm.Script

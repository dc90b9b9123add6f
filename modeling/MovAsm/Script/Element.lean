import MovAsm.Script.Comparison

/-!
# Elements and Slices

An element of a sequence is found by its place, which counts from the end if it is negative; one
of a dictionary by its key. A slice takes the elements between two places, by steps forward or
backward; places beyond the ends stand for the ends.

## Main definitions

* `Value.index`, `Value.setIndex` — an element;
* `Value.sliceEnds`, `Value.slice` — a slice.
-/

namespace MovAsm.Script.Value

/-! ### Elements -/

/-- The place that `index` stands for in a sequence of some `length`, from the end if it is
negative. -/
def place (index : Value) (length : Int64) : Run Int64 := do
  let n ← index.short
  let n := if n < 0 then n + length else n
  if n < 0 || length ≤ n then throw "index out of range"
  pure n

/-- The element of a list at the `place` of an index. -/
def element {α : Type} (items : List α) (index : Value) : Run α := do
  let n ← place index (Int64.ofNat items.length)
  match items[n.toInt.toNat]? with
  | some item => pure item
  | Option.none => throw "index out of range"

/-- The byte of a string at the `place` of an index. -/
def byteAt (data : Bytes) (index : Value) : Run UInt8 := do
  let n ← place index (Int64.ofNat data.length)
  element data.part (.int (n.toInt % data.part.length))

/-- The element `x[key]`. -/
def index (x key : Value) : Run Value := do
  let store ← get
  match x with
  | .string data => do
    let b ← byteAt data key
    pure (ofBytes [b])
  | .bytes data => do
    let b ← byteAt data key
    pure (.int b.toNat)
  | .tuple items => element items key
  | .list id => element (store.list id) key
  | .range numbers => do
    let n ← place key numbers.length
    pure (.int (numbers.get n).toInt)
  | .dict id => do
    match ← (store.dict id).find? key with
    | some value => pure value
    | Option.none => throw "key not in dict"
  | _ => mismatch

/-- Executes `x[key] = value`. -/
def setIndex (x key value : Value) : Run Unit := do
  let store ← get
  match x with
  | .list id => do
    let items := store.list id
    let n ← place key (Int64.ofNat items.length)
    setList id (items.set n.toInt.toNat value)
  | .dict id => do
    let entries ← (store.dict id).insert key value
    setDict id entries
  | _ => mismatch

/-! ### Slices -/

/-- A bound of a slice: a place, counted from the end if it is negative, or `absent` if there is no
bound. -/
def sliceBound (bound : Value) (length absent : Int64) : Run Int64 :=
  match bound with
  | .none => pure absent
  | bound => do
    let n ← bound.short
    pure (if n < 0 then n + length else n)

/-- The place `n` brought between the ends of a sequence. -/
def clamp (n length : Int64) : Int64 :=
  if n < 0 then 0 else if length < n then length else n

/-- Where a slice of a sequence begins, where it ends, and its `step`. The end is never on the wrong
side of the beginning. -/
def sliceEnds (length : Int64) (low high step : Value) : Run (Int64 × Int64 × Int64) := do
  let step ←
    match step with
    | .none => pure 1
    | step => step.short
  if step = 0 then throw "zero is not a valid slice step"
  if 0 < step then
    let first ← sliceBound low length 0
    let last ← sliceBound high length length
    let first := clamp first length
    let last := clamp last length
    pure (first, if last < first then first else last, step)
  else
    let first ← sliceBound low length (length - 1)
    let last ← sliceBound high length (-1)
    let first := if length ≤ first then length - 1 else first
    let last := if last < -1 then -1 else last
    pure (if first < last then last else first, last, step)

/-- The elements of a slice with the ends that `sliceEnds` gives. -/
def pick {α : Type} (items : List α) (first last step : Int64) : List α :=
  let all := items.toArray
  let start := first.toInt
  let by_ := step.toInt
  let count := ((last.toInt - start).natAbs + by_.natAbs - 1) / by_.natAbs
  (List.range count).filterMap fun (n : Nat) => all[(start + by_ * n).toNat]?

/-- The elements `x[low:high:step]`. -/
def slice (x low high step : Value) : Run Value := do
  let store ← get
  match x with
  | .string _ | .bytes _ | .tuple _ | .list _ | .range _ => do
    let length := (x.length? store).getD 0
    let (first, last, step) ← sliceEnds length low high step
    match x with
    | .string data => pure (ofBytes (pick data.toList first last step))
    | .bytes data => pure (.bytes { part := pick data.toList first last step })
    | .tuple items => pure (.tuple (pick items first last step))
    | .list id => newList (pick (store.list id) first last step)
    | .range numbers => pure (.range (numbers.slice first last step))
    | _ => mismatch
  | _ => mismatch

end MovAsm.Script.Value

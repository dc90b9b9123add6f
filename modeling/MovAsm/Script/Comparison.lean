import MovAsm.Script.Value

/-!
# Comparing Values

Numbers compare by value, strings byte by byte, and sequences by their first different elements.
Values of different types are different and have no order. Comparisons go down into values only so
far, since a list may contain itself.

Keys of dictionaries are first told apart by a fingerprint, and only keys of one fingerprint are
compared. So looking up a key fails only where it has to be compared with a key that is nested too
deeply.

## Main definitions

* `Value.compare` — comparisons;
* `Value.fingerprint?` — a number that equal keys share;
* `Entries.find?`, `Entries.insert` — looking up a key and giving a value to it.
-/

namespace MovAsm.Script

/-- Whether `order` answers the comparison `op` with yes. -/
def BinaryOp.holds (op : BinaryOp) (order : Ordering) : Bool :=
  match op with
  | .equal => order = .eq
  | .notEqual => order != .eq
  | .less => order = .lt
  | .lessEqual => order != .gt
  | .greater => order = .gt
  | .greaterEqual => order != .lt
  | _ => false

/-- Answers a comparison that only asks whether two values are the same: `==` or `!=`. -/
def BinaryOp.holdsUnordered (op : BinaryOp) (same : Bool) : Except String Bool :=
  match op with
  | .equal => pure same
  | .notEqual => pure (!same)
  | _ => throw "comparison not implemented"

namespace Value

/-! ### Values without elements -/

/-- The order of two values that have one. -/
def order? : Value → Value → Option Ordering
  | bool a, bool b => some (Ord.compare a.toNat b.toNat)
  | int a, int b => some (Ord.compare a b)
  | float a, float b => some (compareFloats a b)
  | int a, float b => some (compareIntFloat a b)
  | float a, int b => some (compareIntFloat b a).swap
  | string a, string b => some (a.compare b)
  | bytes a, bytes b => some (a.compare b)
  | _, _ => Option.none

/-- Whether two values without an `order?` are the same. -/
def identical : Value → Value → Bool
  | none, none => true
  | range a, range b => a.sameNumbers b
  | closure a _ _ _, closure b _ _ _ => a = b
  | builtin a, builtin b => a = b
  | _, _ => false

/-- Compares values without elements, by `order?` or else by `identical`. -/
def compareAtoms (op : BinaryOp) (x y : Value) : Except String Bool :=
  match order? x y with
  | some order => pure (op.holds order)
  | Option.none => op.holdsUnordered (identical x y)

/-! ### Keys -/

/-- How deep comparisons go into the elements of values. -/
def compareDepth : Nat := 10

/-- Whether the elements of sequences of one length are the `same`, up to the first that are not. -/
def allSame (same : Value → Value → Except String Bool) :
    List Value → List Value → Except String Bool
  | x :: xs, y :: ys => do
    if ← same x y then allSame same xs ys else pure false
  | _, _ => pure true

/-- Whether two keys are the same, as deep as a limit allows. -/
def sameKey : Nat → Value → Value → Except String Bool
  | 0, _, _ => throw "comparison exceeded maximum recursion depth"
  | depth + 1, tuple xs, tuple ys =>
    if xs.length = ys.length then allSame (sameKey depth) xs ys else pure false
  | _ + 1, x, y => compareAtoms .equal x y

/-- The `fingerprint?` of a string. -/
def stringFingerprint (data : List UInt8) : UInt32 :=
  data.foldl (fun code b => (code ^^^ b.toUInt32) * 16777619) 2166136261

/-- The `fingerprint?` of a whole number: that of its size, unless it `isShort`. -/
def intFingerprint (n : Int) : UInt32 :=
  let low : Nat := if isShort n then (n % 0x100000000).toNat else n.natAbs
  12582917 * ((low + 3).toUInt32)

mutual

/-- A number that equal keys share. Values that can change have none, nor do ranges. -/
def fingerprint? : Value → Option UInt32
  | none => some 0
  | bool b => some b.toNat.toUInt32
  | int n => some (intFingerprint n)
  | float x =>
    match truncate? x with
    | some n => some (intFingerprint n)
    | Option.none => some 1618033
  | string data | bytes data => some (stringFingerprint data.toList)
  | tuple items => fingerprintAll? 0x345678 1000003 (82520 + 2 * items.length.toUInt32) items
  | list _ | dict _ | range _ => Option.none
  | closure _ code _ _ => some (stringFingerprint code.name.toUTF8.toList)
  | builtin function => some (stringFingerprint function.name.toUTF8.toList)

/-- The `fingerprint?` of several values, which depends on their order. -/
def fingerprintAll? (code factor growth : UInt32) : List Value → Option UInt32
  | [] => some code
  | item :: items =>
    match item.fingerprint? with
    | some own => fingerprintAll? (code ^^^ (own * factor)) (factor + growth) growth items
    | Option.none => Option.none

end

end Value

/-! ### Dictionaries -/

namespace Entries

/-- Whether `key`, whose fingerprint is `code`, is the key `other`. -/
def isKey (code : UInt32) (key other : Value) : Except String Bool :=
  if other.fingerprint? = some code then Value.sameKey Value.compareDepth key other
  else pure false

/-- The value of a key whose fingerprint is `code`. -/
def findCode? (code : UInt32) (key : Value) : Entries → Except String (Option Value)
  | [] => pure none
  | (other, value) :: rest => do
    if ← isKey code key other then pure (some value) else findCode? code key rest

/-- The value of a key. One without a `fingerprint?` cannot be looked up. -/
def find? (entries : Entries) (key : Value) : Except String (Option Value) :=
  match key.fingerprint? with
  | some code => findCode? code key entries
  | none => throw "unhashable type"

/-- The value of a key, by `find?`, where a key that cannot be looked up has none. -/
def get? (entries : Entries) (key : Value) : Option Value :=
  match entries.find? key with
  | .ok found => found
  | .error _ => none

/-- Gives a value to a key whose fingerprint is `code`. -/
def insertCode (code : UInt32) (key value : Value) : Entries → Except String Entries
  | [] => pure [(key, value)]
  | (other, old) :: rest => do
    if ← isKey code key other then pure ((other, value) :: rest)
    else
      let rest ← insertCode code key value rest
      pure ((other, old) :: rest)

/-- Gives a value to a key. A new key goes to the end of the `Entries`. -/
def insert (entries : Entries) (key value : Value) : Except String Entries :=
  match key.fingerprint? with
  | some code => insertCode code key value entries
  | none => throw "unhashable type"

/-- Gives keys the values that they have in `others`. -/
def join (entries others : Entries) : Except String Entries :=
  others.foldlM (fun entries (key, value) => entries.insert key value) entries

end Entries

/-! ### All values -/

namespace Value

/-- Compares sequences by their first different elements, and else by their lengths. -/
def compareItems (compare : BinaryOp → Value → Value → Except String Bool) (op : BinaryOp) :
    List Value → List Value → Except String Bool
  | x :: xs, y :: ys => do
    if ← compare .equal x y then compareItems compare op xs ys
    else
      match op with
      | .equal => pure false
      | .notEqual => pure true
      | _ => compare op x y
  | xs, ys => pure (op.holds (Ord.compare xs.length ys.length))

/-- Compares sequences by `compareItems`. Those of different lengths are different. -/
def compareSequences (compare : BinaryOp → Value → Value → Except String Bool) (op : BinaryOp)
    (xs ys : List Value) : Except String Bool :=
  if xs.length != ys.length && op = .equal then pure false
  else if xs.length != ys.length && op = .notEqual then pure true
  else compareItems compare op xs ys

/-- Whether `others` have the keys of these entries with the same values, up to the first that have
not. -/
def entriesWithin (same : Value → Value → Except String Bool) (others : Entries) :
    Entries → Except String Bool
  | [] => pure true
  | (key, value) :: entries =>
    match others.get? key with
    | some other => do
      if ← same value other then entriesWithin same others entries else pure false
    | Option.none => pure false

/-- Compares values, as deep as a limit allows: `compareDepth` at first. -/
def compare (store : Store) : Nat → BinaryOp → Value → Value → Except String Bool
  | 0, _, _, _ => throw "comparison exceeded maximum recursion depth"
  | depth + 1, op, tuple xs, tuple ys => compareSequences (compare store depth) op xs ys
  | depth + 1, op, list a, list b =>
    compareSequences (compare store depth) op (store.list a) (store.list b)
  | depth + 1, op, dict a, dict b => do
    let xs := store.dict a
    let ys := store.dict b
    if xs.length = ys.length then
      let same ← entriesWithin (compare store depth .equal) ys xs
      op.holdsUnordered same
    else op.holdsUnordered false
  | _ + 1, op, x, y => compareAtoms op x y

/-- Whether `value` is among others, up to the first that is the same. -/
def among (store : Store) (value : Value) : List Value → Except String Bool
  | [] => pure false
  | item :: items => do
    if ← compare store compareDepth .equal item value then pure true
    else among store value items

end Value

end MovAsm.Script

import MovAsm.Script.Comparison
import MovAsm.Script.Decimal
import MovAsm.Text.Quoted
import MovAsm.Text.Utf8

/-!
# The Text of Values

Every value can be written: numbers in decimal, strings between quotes, lists and dictionaries
with their elements. A list that contains itself is written only once, and then as dots.

Values are written into templates, where each `%` begins a place for one. What follows tells how
the value is written, and may first name the key of a dictionary.

## Main definitions

* `Value.render` — the text of a value;
* `Value.convert` — a value as one place of a template asks for it;
* `Value.fill` — a template with values in its places.
-/

namespace MovAsm.Script.Value

/-! ### Values as they are written in scripts -/

/-- Bytes between double quotes. Those that are no characters are `escaped` one by one. -/
def quotedBytes (bytes : List UInt8) : String :=
  "\"" ++ escaped bytes ++ "\""
where
  /-- What stands between the quotes. -/
  escaped : List UInt8 → String
    | [] => ""
    | b :: rest =>
      match Text.Utf8.sequence? b rest with
      | some (c, n) => Text.escape c ++ escaped (rest.drop n)
      | Option.none => "\\x" ++ Text.lowerHex 2 b.toNat ++ escaped rest
  termination_by bytes => bytes.length
  decreasing_by
    all_goals
      simp only [List.length_cons, List.length_drop]
      omega

/-- A `Range` as the call that makes it. -/
def rangeText (numbers : Range) : String :=
  let start := toString numbers.start.toInt
  let stop := toString numbers.stop.toInt
  let step := toString numbers.step.toInt
  if numbers.step != 1 then "range(" ++ start ++ ", " ++ stop ++ ", " ++ step ++ ")"
  else if numbers.start != 0 then "range(" ++ start ++ ", " ++ stop ++ ")"
  else "range(" ++ stop ++ ")"

/-- The text of a value without elements. -/
def atomText : Value → String
  | none => "None"
  | bool b => if b then "True" else "False"
  | int n => toString n
  | float x => generalText 'e' x
  | string data => quotedBytes data.toList
  | bytes data => "b" ++ quotedBytes data.toList
  | range numbers => rangeText numbers
  | closure _ code _ _ => "<function " ++ code.name ++ ">"
  | builtin function => "<built-in function " ++ function.name ++ ">"
  | tuple _ | list _ | dict _ => ""

/-- What tells the contents of a list or dictionary apart from those of all others. -/
def reference? : Value → Option (Bool × Nat)
  | list id => some (true, id)
  | dict id => some (false, id)
  | _ => Option.none

mutual

/-- The text of a value in others, given as the `path` to it. Each step down goes into a list or
dictionary that is not on the path yet, so `depth` need not be more than their number. -/
def renderIn (store : Store) (depth : Nat) (path : List (Option (Bool × Nat))) (value : Value) :
    String :=
  match value with
  | tuple items =>
    "(" ++ renderItems store depth path items ++ (if items.length = 1 then ",)" else ")")
  | list id =>
    if path.contains (reference? value) then "[...]"
    else
      match depth with
      | 0 => "[...]"
      | depth + 1 =>
        "[" ++ renderItems store depth (reference? value :: path) (store.list id) ++ "]"
  | dict id =>
    if path.contains (reference? value) then "\x7b...\x7d"
    else
      match depth with
      | 0 => "\x7b...\x7d"
      | depth + 1 =>
        "\x7b" ++ renderEntries store depth (reference? value :: path) (store.dict id) ++ "\x7d"
  | value => atomText value
termination_by (depth, sizeOf value)

/-- The texts of several values by `renderIn`, with commas between them. -/
def renderItems (store : Store) (depth : Nat) (path : List (Option (Bool × Nat)))
    (items : List Value) : String :=
  match items with
  | [] => ""
  | [item] => renderIn store depth path item
  | item :: items =>
    renderIn store depth path item ++ ", " ++ renderItems store depth path items
termination_by (depth, sizeOf items)

/-- The texts of keys and their values by `renderIn`, with commas between them. -/
def renderEntries (store : Store) (depth : Nat) (path : List (Option (Bool × Nat)))
    (entries : Entries) : String :=
  match entries with
  | [] => ""
  | (key, value) :: entries =>
    renderIn store depth path key ++ ": " ++ renderIn store depth path value ++
      (if entries.isEmpty then "" else ", ") ++ renderEntries store depth path entries
termination_by (depth, sizeOf entries)

end

/-- The text of a value, by `renderIn` with depth enough. -/
def render (store : Store) (value : Value) : String :=
  renderIn store (store.lists.size + store.dicts.size) [] value

/-! ### Values in templates -/

/-- A whole number in a `base`. -/
def digitsIn (base : Nat) (n : Int) : String :=
  String.ofList (if n < 0 then '-' :: Nat.toDigits base n.natAbs else Nat.toDigits base n.natAbs)

/-- A value as a whole number, by `write`. -/
def convertWhole (write : Int → String) (value : Value) : Run (List UInt8) :=
  match value.wholeNumber? with
  | some n => pure (write n).toUTF8.toList
  | Option.none => throw "format requires integer"

/-- A value as a `Float`, by `write`. -/
def convertFloat (write : Float → String) (value : Value) : Run (List UInt8) :=
  match value with
  | .float x => pure (write x).toUTF8.toList
  | .int n =>
    let x := (floatOfInt? n).getD (if n < 0 then -1.0 / 0.0 else 1.0 / 0.0)
    pure (write x).toUTF8.toList
  | _ => throw "format requires float"

/-- The character with a code point. A surrogate becomes `Text.Utf8.replacement`. -/
def charOf (n : Nat) : Char :=
  if n.isValidChar then Char.ofNat n else Text.Utf8.replacement

/-- A value for `%c`: a code point, or a text that has one character. -/
def convertChar (value : Value) : Run (List UInt8) :=
  match value with
  | .int n =>
    if 0 ≤ n && n ≤ 0x10FFFF then pure (String.singleton (charOf n.toNat)).toUTF8.toList
    else throw "format requires a valid code point"
  | .string data =>
    match Text.Utf8.decode data.toList with
    | [c] => pure (String.singleton c).toUTF8.toList
    | _ => throw "format requires a single-character string"
  | _ => throw "format requires int or single-character string"

/-- The text of a number for a `mark` that is known but has no way to write a finite one: the mark
itself. -/
def unwritable (mark : Char) (x : Float) : String :=
  if x.isFinite then String.ofList ['%', mark] else infiniteText x

/-- A value as the `mark` at a place of a template asks for it. -/
def convert (mark : UInt8) (value : Value) : Run (List UInt8) := do
  let store ← get
  match Char.ofNat mark.toNat, value with
  | 's', .string data => pure data.toList
  | 's', value | 'r', value => pure (value.render store).toUTF8.toList
  | 'd', value | 'i', value => convertWhole toString value
  | 'o', value => convertWhole (digitsIn 8) value
  | 'x', value => convertWhole (digitsIn 16) value
  | 'X', value => convertWhole (fun n => (digitsIn 16 n).toUpper) value
  | 'e', value => convertFloat (scientificText 'e') value
  | 'E', value => convertFloat (scientificText 'E') value
  | 'f', value => convertFloat fixedText value
  | 'F', value => convertFloat (unwritable 'F') value
  | 'g', value => convertFloat (generalText 'e') value
  | 'G', value => convertFloat (generalText 'E') value
  | 'c', value => convertChar value
  | '%', _ => pure [0x25]
  | _, _ => throw "unknown conversion"

/-- The value of a `key` that a place of a template names. -/
def named (values : Value) (key : List UInt8) : Run Value := do
  let store ← get
  match values with
  | .dict id =>
    match (store.dict id).get? (ofBytes key) with
    | some value => pure value
    | Option.none => throw "key not found"
  | _ => throw "format requires a mapping"

/-- Fills the places of a `template` in turn, from those values that are `left`. Answers what was
written, in reverse, and the values that are left then. -/
def fillFrom (values : Value) (written : List (List UInt8)) (left : List Value)
    (template : List UInt8) : Run (List (List UInt8) × List Value) := do
  match template with
  | [] => pure (written, left)
  | 0x25 :: 0x25 :: rest => fillFrom values ([0x25] :: written) left rest
  | 0x25 :: 0x28 :: rest =>
    have := (List.dropWhile_sublist (l := rest) (· != 0x29)).length_le
    match _h : rest.dropWhile (· != 0x29) with
    | _ :: mark :: after => do
      let value ← named values (rest.takeWhile (· != 0x29))
      let text ← convert mark value
      fillFrom values (text :: written) left after
    | _ => throw "incomplete format"
  | 0x25 :: mark :: rest =>
    match left with
    | value :: left => do
      let text ← convert mark value
      fillFrom values (text :: written) left rest
    | [] => throw "not enough arguments for format string"
  | [0x25] => throw "incomplete format"
  | b :: rest => fillFrom values ([b] :: written) left rest
termination_by template.length
decreasing_by
  all_goals simp_all
  all_goals omega

/-- The value of `template % values`: the elements of a tuple, or one value. All of them must be
used, but a dictionary need not be. -/
def fill (template : List UInt8) (values : Value) : Run Value := do
  let given :=
    match values with
    | .tuple items => items
    | value => [value]
  let (written, left) ← fillFrom values [] given template
  match values, left with
  | .dict _, _ | _, [] => pure (ofBytes written.reverse.flatten)
  | _, _ => throw "too many arguments for format string"

end MovAsm.Script.Value

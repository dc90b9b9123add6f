import MovAsm.Emitter
import MovAsm.Image

/-!
# Hex Dumps

An image is written as text in the format that circuit simulators load: a header, then rows of an
address and up to sixteen words, all in hexadecimal. Addresses have as many digits as the last
one needs, but at least two. Words have as many digits as the image asks for.

A dump is written line by line to a sink that may be full before the end.

## Main definitions

* `Image.rows`, `Image.lines` — the lines of the dump;
* `Image.writeTo` — writes the dump to a sink;
* `Image.dump` — the dump as one text.
-/

namespace MovAsm

/-- A place to write text to, with what was `stored` there and the `room` that is left, if it is
limited. All text here is ASCII, so characters are counted for bytes. -/
structure Sink where
  room : Option Nat
  stored : String := ""
  deriving DecidableEq, Repr

namespace Sink

/-- A `Sink` that takes everything. -/
def unlimited : Sink := { room := none }

/-- Writes a text to a sink. If there is no `room` for all of it, as much as fits is stored and the
writing fails. Answers the number of characters stored, and whether that was all. -/
def write (sink : Sink) (text : String) : Sink × Nat × Bool :=
  match sink.room with
  | none => ({ sink with stored := sink.stored ++ text }, text.length, true)
  | some room =>
    let kept := min room text.length
    let stored := sink.stored ++ String.ofList (text.toList.take room)
    ({ room := some (room - kept), stored }, kept, text.length ≤ room)

end Sink

/-- The progress of `Image.writeTo`: the sink, the number of characters stored, and whether the sink
has taken everything so far. -/
structure Writing where
  sink : Sink
  count : Nat := 0
  complete : Bool := true
  deriving DecidableEq, Repr

/-- The `Consumer` that writes a line to the sink. It wants another line unless the sink was
full. -/
def Writing.line : Consumer String Writing := fun text writing =>
  let (sink, count, complete) := writing.sink.write (text ++ "\n")
  (⟨sink, writing.count + count, complete⟩, complete)

namespace Image

/-- The first line of every dump, which names its format. -/
def header : String := "v3.0 hex words addressed"

/-- The number of words in a `row`. -/
def rowLength : Nat := 16

/-- The largest `width` that `wordText` honours, in either direction. -/
def largestWidth : Int := 1000000

/-- The number of digits of a row's address: as many as the last address of the image needs, and at
least two. -/
def addressDigits (image : Image) : Nat :=
  max 2 (Text.hexits (image.words.length - 1)).length

/-- A word in the dump, in upper case. It is filled up to `width` with zeros on the left, or, for a
negative width, with blanks on the right. A width beyond `largestWidth` is reported and not used. -/
def wordText (width : Int) (word : Word) : String :=
  let digits := (Text.hexits word.toNat).map Char.toUpper
  if width.natAbs > largestWidth.natAbs then "%!(BADWIDTH)" ++ String.ofList digits
  else if width < 0 then String.ofList (Text.padRight ' ' width.natAbs digits)
  else String.ofList (Text.padLeft '0' width.natAbs digits)

/-- A row of the dump: the `address` of its first word, and its words. -/
def row (digits : Nat) (width : Int) (address : Nat) (words : List Word) : String :=
  Text.lowerHex digits address ++ ": " ++ " ".intercalate (words.map (wordText width))

/-- The rows of `words` that begin at `address`, each of `rowLength` words but the last. -/
def rowsFrom (digits : Nat) (width : Int) (address : Nat) (words : List Word) : List String :=
  match words with
  | [] => []
  | word :: rest =>
    let chunk := (word :: rest).take rowLength
    row digits width address chunk ::
      rowsFrom digits width (address + chunk.length) ((word :: rest).drop rowLength)
termination_by words.length
decreasing_by
  simp only [List.length_drop, List.length_cons, rowLength]
  omega

/-- The rows of the dump of an image, from address `0` on. -/
def rows (image : Image) : List String :=
  rowsFrom image.addressDigits image.width 0 image.words

/-- The emitter of the `rows` of the dump. -/
def emitRows {σ : Type} (image : Image) : Emitter String σ :=
  .ofList image.rows

/-- The emitter of the lines of the dump, the `header` first. -/
def emitLines {σ : Type} (image : Image) : Emitter String σ :=
  .concat [.ofList [header], image.emitRows]

/-- Writes the dump to a sink, line by line until the sink is full. -/
def writeTo (image : Image) (sink : Sink) : Writing :=
  (image.emitLines Writing.line { sink }).1

/-- The dump as one text: what `writeTo` writes to an unlimited sink. -/
def dump (image : Image) : String :=
  (image.writeTo .unlimited).sink.stored

end Image

end MovAsm

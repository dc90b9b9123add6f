import MovAsm.Machine.Operation

/-!
# Memory Images

The contents of a memory of fixed size, a word for each address. A new image is filled with
instructions that do nothing.
-/

namespace MovAsm

/-- The contents of one address, sixteen bits. Assembled programs use the low byte only. -/
abbrev Word := UInt16

/-- The contents of a memory: `words` by address, the `width` of a word in the dump, and the `spare`
words beyond a shortened image, which come back when it grows again. -/
structure Image where
  words : List Word
  width : Int
  spare : List Word := []
  deriving DecidableEq, Repr

namespace Image

/-- The largest number of words for which `blank?` makes an image. -/
def largestCapacity : Int := 0x800000000000

/-- An image of `capacity` words, all of them `Opcode.idle`, if there can be such an image. -/
def blank? (capacity width : Int) : Option Image :=
  if 0 ≤ capacity && capacity ≤ largestCapacity then
    some { words := List.replicate capacity.toNat Opcode.idle.toUInt16, width }
  else none

/-- Stores one word, if there is one at `address`. -/
def set? (image : Image) (address : Int) (word : Word) : Option Image :=
  if 0 ≤ address && address < image.words.length then
    some { image with words := image.words.set address.toNat word }
  else none

/-- Stores several words from `address` on. What does not fit is dropped. -/
def write (image : Image) (address : Nat) : List Word → Image
  | [] => image
  | word :: rest =>
    { image with words := image.words.set address word }.write (address + 1) rest

/-- Changes the number of words to `size`, as long as there are so many among `words` and `spare`.
Words that were cut off before come back as they were. -/
def resize? (image : Image) (size : Int) : Option Image :=
  let all := image.words ++ image.spare
  if 0 ≤ size && size ≤ all.length then
    some { image with words := all.take size.toNat, spare := all.drop size.toNat }
  else none

end Image

end MovAsm

import MovAsm.Assembly.Encoding
import MovAsm.Image.Dump
import MovAsm.Program.Reader

/-!
# Assembly

Instructions are placed one after the other into an image. An origin may be set before the first
word is written; labels name the address at which they are defined. A listing tells what was done.

An assembler carries out one assembly after another. Of the last one it keeps the origin and the
labels, also if that failed half way; a program that could not be read leaves them alone.

## Main definitions

* `Assembly.place`, `Assembly.run` — placing one instruction, and many;
* `Assembler.assemble` — the image of some instructions;
* `Assembler.compile` — the image of a source text.
-/

namespace MovAsm

/-! ### Listings -/

/-- What was done at an `address`: a label was defined there, an instruction was written that begins
with `word`, or an instruction was left out because the machine has no opcode for it. -/
inductive ListingEntry where
  | label (address : Nat) (name : String)
  | code (address : Nat) (word : Word) (instruction : Instruction)
  | unencoded (address : Nat) (instruction : Instruction)
  deriving DecidableEq, Repr

/-- The line of a `ListingEntry` in the log of `Assembler.assemble`. -/
def ListingEntry.text : ListingEntry → String
  | label address name => "asm: " ++ Text.lowerHex 2 address ++ ": ." ++ name
  | code address word instruction =>
    "asm: " ++ Text.lowerHex 2 address ++ ": " ++ Opcode.mnemonic word.toUInt8 ++ " ; " ++
      instruction.text
  | unencoded address instruction =>
    "asm: " ++ Text.lowerHex 2 address ++ ": " ++ instruction.text ++ " not encoded"

/-! ### Placing instructions -/

/-- Label names with their addresses, in the order of definition. -/
abbrev Labels := List (String × Nat)

/-- An image that is being filled: the next word goes to `address`, `emitted` says whether one was
written, and `origin` was set last. -/
structure Assembly where
  image : Image
  address : Nat := 0
  emitted : Bool := false
  origin : Nat := 0
  labels : Labels := []
  listing : List ListingEntry := []
  deriving DecidableEq, Repr

namespace Assembly

/-- Executes `DEF`: gives `name` the current `address`. A name is defined only once. -/
def define (assembly : Assembly) (name : String) : Except AssemblyFault Assembly :=
  if (assembly.labels.lookup name).isSome then throw (.labelDuplicate name)
  else
    pure { assembly with
      labels := assembly.labels ++ [(name, assembly.address)]
      listing := assembly.listing ++ [.label assembly.address name] }

/-- Executes `START`: the first word goes to the address that `text` writes in hexadecimal, which
must lie inside the image. It has to come before any word is emitted. -/
def setOrigin (assembly : Assembly) (text : String) : Except AssemblyFault Assembly :=
  if assembly.emitted then throw .originLate
  else
    match Text.readHex? text with
    | none => throw (.origin text)
    | some origin =>
      if 0x10000 ≤ origin then throw (.origin text)
      else if assembly.image.words.length ≤ origin then
        throw (.range origin assembly.image.words.length)
      else pure { assembly with origin, address := origin }

/-- Writes the `words` of an `instruction` at the current `address`, if the image has room for all
of them. -/
def emit (assembly : Assembly) (instruction : Instruction) (words : List Word) :
    Except AssemblyFault Assembly :=
  match words with
  | [] => pure assembly
  | word :: _ =>
    if assembly.image.words.length < assembly.address + words.length then
      throw (.range assembly.address assembly.image.words.length)
    else
      pure { assembly with
        image := assembly.image.write assembly.address words
        address := assembly.address + words.length
        emitted := true
        listing := assembly.listing ++ [.code assembly.address word instruction] }

/-- Places one instruction: `DEF` and `START` act on the assembly, `JMP` is only listed, and the
others are encoded and emitted. A missing instruction is a fault. -/
def place (assembly : Assembly) (instruction : Option Instruction) :
    Except AssemblyFault Assembly :=
  match instruction with
  | none => throw .expressionType
  | some (.unary _ .define operand) => assembly.define operand.value
  | some (.unary _ .start operand) => assembly.setOrigin operand.value
  | some (.unary position .jmp operand) =>
    pure { assembly with
      listing := assembly.listing ++
        [.unencoded assembly.address (.unary position .jmp operand)] }
  | some instruction => do
    let words ← instruction.encode
    assembly.emit instruction words

/-- Places instructions in order, up to the first for which `place` fails. Answers the assembly
before that one. -/
def run (assembly : Assembly) : List (Option Instruction) → Assembly × Option AssemblyError
  | [] => (assembly, none)
  | instruction :: rest =>
    match assembly.place instruction with
    | .ok next => next.run rest
    | .error fault => (assembly, some (.ofFault instruction fault))

end Assembly

/-! ### Assemblers -/

/-- What came of `Assembler.compile`: an image, diagnostics of a program that could not be read, the
error of an instruction that could not be placed, or no image because `Image.blank?` has none of the
size asked for. -/
inductive Outcome where
  | image (image : Image)
  | rejected (diagnostics : List Diagnostic)
  | failed (error : AssemblyError)
  | unallocatable
  deriving DecidableEq, Repr

/-- The image of an `Outcome`, if it is one. -/
def Outcome.image? : Outcome → Option Image
  | image built => some built
  | rejected _ | failed _ | unallocatable => none

/-- The settings of an assembler, and what its last assembly has left in it: an origin and labels. A
`capacity` or `width` of `0` means the default. -/
structure Assembler where
  capacity : Int := 0
  width : Int := 0
  verbose : Bool := false
  origin : Nat := 0
  labels : Option Labels := none
  deriving DecidableEq, Repr

namespace Assembler

/-- The number of words of an image if `capacity` is `0`. -/
def defaultCapacity : Int := 256

/-- The number of digits of a word in the dump if `width` is `0`. -/
def defaultWidth : Int := 2

/-- The number of words of the image: `capacity`, or `defaultCapacity`. -/
def effectiveCapacity (assembler : Assembler) : Int :=
  if assembler.capacity = 0 then defaultCapacity else assembler.capacity

/-- The number of digits of a word in the dump: `width`, or `defaultWidth`. -/
def effectiveWidth (assembler : Assembler) : Int :=
  if assembler.width = 0 then defaultWidth else assembler.width

/-- The `entries`, if the assembler is `verbose`. -/
def logIf (assembler : Assembler) (entries : List String) : List String :=
  if assembler.verbose then entries else []

/-- Places instructions into a blank image. Answers the assembler with its new origin and labels,
the `Outcome`, and the listing if the assembler is `verbose`. -/
def assemble (assembler : Assembler) (instructions : List (Option Instruction)) :
    Assembler × Outcome × List String :=
  match Image.blank? assembler.effectiveCapacity assembler.effectiveWidth with
  | none => ({ assembler with origin := 0, labels := some [] }, .unallocatable, [])
  | some image =>
    let (assembly, error) := ({ image } : Assembly).run instructions
    let outcome :=
      match error with
      | none => .image assembly.image
      | some error => .failed error
    ({ assembler with origin := assembly.origin, labels := some assembly.labels }, outcome,
      assembler.logIf (assembly.listing.map ListingEntry.text))

/-- Reads a program and passes its instructions to `assemble`. If the reader has complaints, the
program is `rejected` and the assembler stays as it was. -/
def compile (assembler : Assembler) (source : Source) : Assembler × Outcome × List String :=
  let (reader, fatal) := (Reader.ofSource source).drain
  let readLog := assembler.logIf (Reader.log reader.lines)
  match reader.complaints fatal with
  | [] =>
    let (assembler, outcome, log) := assembler.assemble (reader.instructions.map some)
    (assembler, outcome, readLog ++ log)
  | diagnostics => (assembler, .rejected diagnostics, readLog)

end Assembler

end MovAsm

import MovAsm.Proofs.Assembly.Agreement
import MovAsm.Proofs.Program.Requests

/-!
# Readers Whose Text Is Shared

The text that a reader reads is not its own. Between two requests, someone else may take tokens off
it, so that a line loses its keyword or half of its operands, or a malformed token goes by without
the reader ever seeing it. None of this spoils what the reader has: its instructions are those that
lines can make, an origin is the first of them, and whatever it once had it keeps, in its place.

## Main definitions

* `Instruction.WellFormed` — the instructions that lines can make;
* `Reader.WellFormed` — what holds of the instructions of every reader;
* `Reader.Grows` — a reader has what another has, and perhaps more behind it;
* `Event`, `Reader.afterAll` — what happens to a reader from outside.

## Main results

* `Operand.isSource_iff_mem`, `Operand.isDestination_iff_mem`: the operands of a move, listed.
* `Line.Form.wellFormed`: a line with a form makes a well-formed instruction.
* `Reader.grows_step`, `Reader.grows_drain`: reading only adds.
* `wellFormed_after_events`: a reader is well formed whatever happens to it.
-/

namespace MovAsm

/-! ### Well-formed instructions -/

namespace Operand

/-- The text of an operand is that of a byte: one or two digits, the letters in upper case. -/
def HasByte (operand : Operand) : Prop :=
  (operand.value.length = 1 ∨ operand.value.length = 2) ∧
    ∀ c ∈ operand.value.toList, c ∈ "0123456789ABCDEF".toList

/-- A move may begin with an operand: with a byte, with an address, or with the name of one of the
registers. Spelled out in `Operand.isSource_iff_mem`. -/
def IsSource (source : Operand) : Prop :=
  ((source.sigil = .hash ∨ source.sigil = .dollar) ∧ source.HasByte) ∨
    ∃ register ∈ Register.all, source.register? = some register

/-- A move that begins with `source` may end with an operand: with an address, or with the name of a
writable register other than the one it begins in. Spelled out in
`Operand.isDestination_iff_mem`. -/
def IsDestination (source destination : Operand) : Prop :=
  (destination.sigil = .dollar ∧ destination.HasByte) ∨
    ∃ register, destination.register? = some register ∧ register.isWritable = true ∧
      source.register? ≠ some register

/-- An operand has a `register?` exactly if it is a location with the name of that register. -/
theorem register?_eq_some_iff {operand : Operand} {register : Register} :
    operand.register? = some register ↔
      operand.kind = .location ∧ register ∈ Register.all ∧ register.name = operand.value := by
  rw [register?]
  by_cases hkind : operand.kind = .location
  · simp [hkind, Register.ofName?_eq_some_iff]
  · simp [hkind]

/-- What a move may begin with: `Operand.IsSource` without the tables of the assembler. -/
theorem isSource_iff_mem {source : Operand} :
    source.IsSource ↔ (source.sigil = .hash ∨ source.sigil = .dollar) ∧ source.HasByte ∨
      source.kind = .location ∧ source.value ∈ ["A", "B", "C", "O1", "O2", "ACC"] := by
  have hnames : ["A", "B", "C", "O1", "O2", "ACC"] = Register.all.map Register.name := rfl
  rw [IsSource, hnames, List.mem_map]
  refine or_congr_right ⟨?_, ?_⟩
  · rintro ⟨register, hmem, hregister⟩
    obtain ⟨hkind, -, hname⟩ := register?_eq_some_iff.mp hregister
    exact ⟨hkind, register, hmem, hname⟩
  · rintro ⟨hkind, register, hmem, hname⟩
    exact ⟨register, hmem, register?_eq_some_iff.mpr ⟨hkind, hmem, hname⟩⟩

/-- What a move may end with: `Operand.IsDestination` without the tables of the assembler. -/
theorem isDestination_iff_mem {source destination : Operand} :
    source.IsDestination destination ↔ destination.sigil = .dollar ∧ destination.HasByte ∨
      destination.kind = .location ∧ destination.value ∈ ["A", "B", "C", "O1", "O2"] ∧
        ¬(source.kind = .location ∧ source.value = destination.value) := by
  have hnames : ["A", "B", "C", "O1", "O2"] =
    [Register.a, .b, .c, .o1, .o2].map Register.name := rfl
  rw [IsDestination, hnames, List.mem_map]
  refine or_congr_right ⟨?_, ?_⟩
  · rintro ⟨register, hregister, hwritable, hself⟩
    obtain ⟨hkind, hmem, hname⟩ := register?_eq_some_iff.mp hregister
    refine ⟨hkind, ⟨register, Register.isWritable_iff_mem.mp hwritable, hname⟩, ?_⟩
    rintro ⟨hsource, hsame⟩
    exact hself (register?_eq_some_iff.mpr ⟨hsource, hmem, hname.trans hsame.symm⟩)
  · rintro ⟨hkind, ⟨register, hwritable, hname⟩, hself⟩
    rw [← Register.isWritable_iff_mem] at hwritable
    have hmem := Register.mem_all_of_isWritable hwritable
    refine ⟨register, register?_eq_some_iff.mpr ⟨hkind, hmem, hname⟩, hwritable, ?_⟩
    intro hregister
    obtain ⟨hsource, -, hname'⟩ := register?_eq_some_iff.mp hregister
    exact hself ⟨hsource, hname'.symm.trans hname⟩

end Operand

/-- The instructions that lines can make, each keyword in its own form. -/
inductive Instruction.WellFormed : Instruction → Prop
  | noOperand {position : Position} {keyword : Keyword}
      (hkeyword : keyword = .hlt ∨ keyword = .nop) : WellFormed (.noOperand position keyword)
  | define {position : Position} {operand : Operand} (hsigil : operand.sigil = .dot) :
      WellFormed (.unary position .define operand)
  | start {position : Position} {operand : Operand} (hsigil : operand.sigil = .dollar)
      (hbyte : operand.HasByte) : WellFormed (.unary position .start operand)
  | jump {position : Position} {operand : Operand}
      (hoperand : operand.sigil = .dot ∨ operand.sigil = .dollar ∧ operand.HasByte) :
      WellFormed (.unary position .jmp operand)
  | move {position : Position} {source destination : Operand} (hsource : source.IsSource)
      (hdestination : source.IsDestination destination) :
      WellFormed (.binary position .mov source destination)

/-- The digits of an `IsUpperByte`, spelled out. -/
theorem Text.IsUpperByte.mem_digits {digits : List Char} (h : IsUpperByte digits) {c : Char}
    (hc : c ∈ digits) : c ∈ "0123456789ABCDEF".toList := by
  have hlist : ∀ d ∈ "0123456789ABCDEFabcdef".toList, d.toUpper = d →
      d ∈ "0123456789ABCDEF".toList := by simp
  exact hlist c (mem_of_isHexit (h.isHexit c hc)) (h.toUpper_eq c hc)

namespace Line

variable {token source destination : Token} {operand start goal : Operand}

/-- An address `Writes` an operand that `HasByte`. -/
theorem hasByte_of_address (hwrites : token.Writes operand) (hspelled : token.IsSpelled)
    (hkind : token.kind = .address) : operand.sigil = .dollar ∧ operand.HasByte := by
  have hupper := hwrites.isUpperByte hspelled (.inr hkind)
  have hsigil := hwrites.1
  rw [hkind] at hsigil
  exact ⟨hsigil, hupper.length_eq, fun c hc => hupper.mem_digits hc⟩

/-- A token that `IsSource` writes an operand with which a move may begin. -/
theorem operand_isSource (h : IsSource token) (hwrites : token.Writes operand)
    (hspelled : token.IsSpelled) : operand.IsSource := by
  rcases h with hkind | hkind | ⟨register, hmem, hnames⟩
  · have hupper := hwrites.isUpperByte hspelled (.inl hkind)
    have hsigil := hwrites.1
    rw [hkind] at hsigil
    exact .inl ⟨.inl hsigil, hupper.length_eq, fun c hc => hupper.mem_digits hc⟩
  · obtain ⟨hsigil, hbyte⟩ := hasByte_of_address hwrites hspelled hkind
    exact .inl ⟨.inr hsigil, hbyte⟩
  · have hoperand := isOperand_of_names hnames
    exact .inr ⟨register, hmem, (hwrites.register?_eq_some_iff hoperand).mpr ⟨hmem, hnames⟩⟩

/-- A token that `IsDestination` writes an operand with which a move may end. -/
theorem operand_isDestination (h : IsDestination source destination) (hsource : source.IsOperand)
    (hstart : source.Writes start) (hgoal : destination.Writes goal)
    (hspelled : destination.IsSpelled) : start.IsDestination goal := by
  rcases h with hkind | ⟨register, hwritable, hnames, hother⟩
  · exact .inl (hasByte_of_address hgoal hspelled hkind)
  · have hmem := Register.mem_all_of_isWritable hwritable
    have hoperand := isOperand_of_names hnames
    have hregister := (hgoal.register?_eq_some_iff hoperand).mpr ⟨hmem, hnames⟩
    refine .inr ⟨register, hregister, hwritable, ?_⟩
    rw [Ne, hstart.register?_eq_some_iff hsource]
    exact fun hself => hother hself.2

/-- A line with a `Form` makes a `WellFormed` instruction. -/
theorem Form.wellFormed {isFirst : Bool} {line : List Token} {instruction : Instruction}
    (hform : Form isFirst line instruction) (hspelled : ∀ token ∈ line, token.IsSpelled) :
    instruction.WellFormed := by
  cases hform with
  | halt => exact .noOperand (.inl rfl)
  | idle => exact .noOperand (.inr rfl)
  | define hword hargument hoperand =>
      have hsigil := hoperand.1
      rw [hargument] at hsigil
      exact .define hsigil
  | @jump word argument operand hword hargument hoperand =>
      rcases hargument with hkind | hkind
      · exact .jump (.inr (hasByte_of_address hoperand (hspelled argument (by simp)) hkind))
      · have hsigil := hoperand.1
        rw [hkind] at hsigil
        exact .jump (.inl hsigil)
  | @start word argument operand hfirst hword hargument hoperand =>
      obtain ⟨hsigil, hbyte⟩ :=
        hasByte_of_address hoperand (hspelled argument (by simp)) hargument
      exact .start hsigil hbyte
  | @move word source comma destination start goal hword hsource hcomma hdestination hstart hgoal =>
      refine .move (operand_isSource hsource hstart (hspelled source (by simp))) ?_
      exact operand_isDestination hdestination (isOperand_of_isSource hsource) hstart hgoal
        (hspelled destination (by simp))

end Line

/-! ### Well-formed readers -/

namespace Reader

variable {reader later last : Reader}

/-- The instructions of a reader are `WellFormed`, and a `START` among them comes first. -/
structure WellFormed (reader : Reader) : Prop where
  instruction : ∀ instruction ∈ reader.instructions, instruction.WellFormed
  start_first : ∀ (index : Nat) (instruction : Instruction),
    reader.instructions[index]? = some instruction → instruction.keyword = .start → index = 0

/-- A reader whose instructions are a program is `WellFormed`. -/
theorem wellFormed_of_isProgram (h : Line.IsProgram reader.instructions) : reader.WellFormed := by
  obtain ⟨lines, hspelled, hforms⟩ := h
  constructor
  · intro instruction hmem
    obtain ⟨isHere, line, -, hform, hline⟩ :=
      Placement.exists_form_of_mem hforms hspelled instruction hmem
    exact hform.wellFormed hline
  · intro index instruction hget hstart
    generalize reader.instructions = program at hforms hget
    cases hforms with
    | nil => cases hget
    | cons hline hlines =>
        cases index with
        | zero => rfl
        | succ index =>
            rw [List.getElem?_cons_succ] at hget
            obtain ⟨isHere, line, himp, hform, -⟩ := Placement.exists_form_of_mem hlines
              (fun line hmem => hspelled line (by simp [hmem])) instruction
              (List.mem_of_getElem? hget)
            -- Of all forms only that of an origin has its keyword, and that one must be first.
            cases hform with
            | start hfirst => cases himp hfirst
            | halt | idle | define | jump | move => cases hstart

/-! ### Growth -/

/-- The reader `later` has all that `reader` has, in the same place, and perhaps more behind it. -/
structure Grows (reader later : Reader) : Prop where
  instructions : reader.instructions <+: later.instructions
  diagnostics : reader.diagnostics <+: later.diagnostics
  lines : reader.lines <+: later.lines

/-- The relation `Grows` is reflexive. -/
theorem Grows.refl (reader : Reader) : reader.Grows reader :=
  ⟨List.prefix_rfl, List.prefix_rfl, List.prefix_rfl⟩

/-- The relation `Grows` is transitive. -/
theorem Grows.trans (h : reader.Grows later) (hlast : later.Grows last) : reader.Grows last :=
  ⟨h.instructions.trans hlast.instructions, h.diagnostics.trans hlast.diagnostics,
    h.lines.trans hlast.lines⟩

/-- To `accept` a line takes nothing back. -/
theorem grows_accept (reader : Reader) (tokens : List Token) :
    reader.Grows (reader.accept tokens).1 := by
  rw [accept]
  split
  · exact .refl reader
  · dsimp only
    split
    · exact ⟨List.prefix_append _ _, List.prefix_rfl, List.prefix_append _ _⟩
    · split
      · exact ⟨List.prefix_rfl, List.prefix_rfl, List.prefix_append _ _⟩
      · exact ⟨List.prefix_rfl, List.prefix_append _ _, List.prefix_append _ _⟩

/-- A `step` takes nothing back. -/
theorem grows_step (reader : Reader) : reader.Grows reader.step.1 := by
  rcases step_cases reader with ⟨-, hstep⟩ | ⟨lexer, diagnostic, hstep⟩ |
    ⟨tokens, lexer, done, -, hstep⟩
  · rw [hstep]
    exact .refl reader
  · rw [hstep]
    exact ⟨List.prefix_rfl, List.prefix_rfl, List.prefix_rfl⟩
  · rw [hstep]
    obtain ⟨hinstructions, hdiagnostics, hlines⟩ :=
      grows_accept { reader with lexer := lexer, done := done } tokens
    exact ⟨hinstructions, hdiagnostics, hlines⟩

/-- To `drain` a reader takes nothing back. Induction along `drain`. -/
theorem grows_drain (reader : Reader) : reader.Grows reader.drain.1 := by
  fun_induction Reader.drain reader with
  | case1 reader hdone => exact .refl reader
  | case2 reader hdone next diagnostic hstep =>
      have hnext := grows_step reader
      rw [hstep] at hnext
      exact hnext
  | case3 reader hdone next hstep ih =>
      have hnext := grows_step reader
      rw [hstep] at hnext
      exact hnext.trans ih

end Reader

/-! ### Events -/

/-- What can happen to a reader from outside: it is asked for lines, or someone else takes the next
token off its text. -/
inductive Event where
  | asked (request : Request)
  | tokenTaken
  deriving DecidableEq, Repr

namespace Reader

variable {reader : Reader}

/-- A reader after an `Event`. -/
def after (reader : Reader) : Event → Reader
  | .asked request => (reader.answer request).1
  | .tokenTaken => reader.skipToken.2

/-- A reader after some events, one after the other. -/
def afterAll (reader : Reader) (events : List Event) : Reader :=
  events.foldl after reader

/-- A reader `Grows` with every `Event`. -/
theorem grows_after (reader : Reader) (event : Event) : reader.Grows (reader.after event) := by
  cases event with
  | asked request =>
      cases request with
      | line => exact grows_step reader
      | all => exact grows_drain reader
  | tokenTaken => exact ⟨List.prefix_rfl, List.prefix_rfl, List.prefix_rfl⟩

/-- After every `Event`, the instructions of a reader are those of a program: a line may have lost
tokens, but those that are left are spelled right. -/
theorem isProgram_after (h : Line.IsProgram reader.instructions) (event : Event) :
    Line.IsProgram (reader.after event).instructions := by
  cases event with
  | asked request =>
      cases request with
      | line => exact isProgram_step h
      | all => exact isProgram_drain h
  | tokenTaken => exact h

/-- A reader `Grows` with any number of events. Induction on the events. -/
theorem grows_afterAll (reader : Reader) (events : List Event) :
    reader.Grows (reader.afterAll events) := by
  induction events generalizing reader with
  | nil => exact .refl reader
  | cons event events ih => exact (grows_after reader event).trans (ih (reader.after event))

/-- After any number of events, the instructions of a reader are those of a program. -/
theorem isProgram_afterAll (h : Line.IsProgram reader.instructions) (events : List Event) :
    Line.IsProgram (reader.afterAll events).instructions := by
  induction events generalizing reader with
  | nil => exact h
  | cons event events ih => exact ih (isProgram_after h event)

end Reader

/-- **Whatever happens to a reader, it is well formed.** Take any source and any events, requests
for lines and tokens that others take off the text in any order. The instructions of the reader are
then `WellFormed`, each in the form of its keyword, and none but the first is an origin. What the
reader had at any time before, it still has: instructions and diagnostics are only ever added at the
end. -/
theorem wellFormed_after_events (source : Source) (events : List Event) :
    ((Reader.ofSource source).afterAll events).WellFormed ∧
    ∀ earlier, earlier <+: events →
      ((Reader.ofSource source).afterAll earlier).Grows
        ((Reader.ofSource source).afterAll events) := by
  constructor
  · refine Reader.wellFormed_of_isProgram (Reader.isProgram_afterAll ?_ events)
    exact ⟨[], by simp, .nil⟩
  · rintro earlier ⟨more, rfl⟩
    have hmore : (Reader.ofSource source).afterAll (earlier ++ more) =
        ((Reader.ofSource source).afterAll earlier).afterAll more := List.foldl_append
    rw [hmore]
    exact Reader.grows_afterAll _ more

-- A malformed token and a keyword are taken away: what is left of the two lines makes one move.
example :
    ((Reader.ofSource ⟨"#0z,B\nHLT\nMOV @A,$0b".toList, none⟩).afterAll
      [.tokenTaken, .asked .line, .tokenTaken, .asked .all]).instructions =
      [.binary ⟨3, 0⟩ .mov ⟨.at, "A"⟩ ⟨.dollar, "0B"⟩] := by
  decide +kernel

end MovAsm

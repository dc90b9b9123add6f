import MovAsm.Proofs.Assembly.Agreement
import MovAsm.Proofs.Program.Printing

/-!
# Assemblies Do Not Depend on Places

Where an instruction stands in its source shows in errors and in the listing, and nowhere else. So
two programs that differ in the places of their instructions only have the same image, origin and
labels, or come to the same fault at the same instruction. Together with the reading back of
printed programs this gives the round trip: to print a program and compile it again comes to the
same as to compile its source.

## Main results

* `place_agree`: placing an instruction does not depend on where it stands.
* `run_agree`: placing many instructions does not depend on where they stand.
* `assemble_agree`: two programs that differ in places only have the same outcome.
* `compile_printed`: the round trip.
-/

namespace MovAsm

/-- The second instruction is the first one, perhaps at another position. -/
def Instruction.Moved (instruction other : Instruction) : Prop :=
  ∃ position, other = instruction.relocate position

/-- The encoding of an instruction does not depend on its position. -/
theorem Instruction.encode_relocate (instruction : Instruction) (position : Position) :
    (instruction.relocate position).encode = instruction.encode := by
  cases instruction with
  | noOperand _ keyword => cases keyword <;> rfl
  | unary _ keyword operand => cases keyword <;> rfl
  | binary _ keyword source destination => cases keyword <;> rfl
  | foreign _ keyword => rfl

/-- The instructions of a program are `Moved` in `renumbered`. -/
theorem moved_renumbered (program : List Instruction) :
    List.Forall₂ Instruction.Moved program (renumbered program) := by
  rw [List.forall₂_iff_get]
  refine ⟨by simp [renumbered], ?_⟩
  intro index hlt hlt'
  exact ⟨⟨UInt64.ofNat (index + 1), 0⟩, by simp [renumbered]⟩

namespace Placement

/-- The second assembly is the first one, perhaps with another listing. -/
def Relisted (assembly other : Assembly) : Prop :=
  ∃ listing, other = { assembly with listing }

/-- Two attempts to place an instruction come to the same fault, or to assemblies that are
`Relisted`. -/
inductive Agree : Except AssemblyFault Assembly → Except AssemblyFault Assembly → Prop
  | ok {assembly other : Assembly} (h : Relisted assembly other) :
      Agree (.ok assembly) (.ok other)
  | error {fault : AssemblyFault} : Agree (.error fault) (.error fault)

section Agree

variable {assembly other : Assembly}

/-- The answers of `define` agree on assemblies that are `Relisted`. -/
theorem define_agree (h : Relisted assembly other) (name : String) :
    Agree (assembly.define name) (other.define name) := by
  obtain ⟨listing, rfl⟩ := h
  simp only [Assembly.define]
  split
  · exact .error
  · exact .ok ⟨_, rfl⟩

/-- The answers of `setOrigin` agree on assemblies that are `Relisted`. -/
theorem setOrigin_agree (h : Relisted assembly other) (text : String) :
    Agree (assembly.setOrigin text) (other.setOrigin text) := by
  obtain ⟨listing, rfl⟩ := h
  simp only [Assembly.setOrigin]
  split
  · exact .error
  split
  · exact .error
  split
  · exact .error
  split
  · exact .error
  · exact .ok ⟨_, rfl⟩

/-- The answers of `emit` agree on assemblies that are `Relisted`, whatever instructions are
shown. -/
theorem emit_agree (h : Relisted assembly other) (instruction shown : Instruction)
    (words : List Word) : Agree (assembly.emit instruction words) (other.emit shown words) := by
  obtain ⟨listing, rfl⟩ := h
  cases words with
  | nil => exact .ok ⟨_, rfl⟩
  | cons word rest =>
      simp only [Assembly.emit]
      split
      · exact .error
      · exact .ok ⟨_, rfl⟩

/-- To `encode` and `emit` agrees on instructions with the same encoding. -/
theorem encode_agree (h : Relisted assembly other) {instruction moved : Instruction}
    (hencode : moved.encode = instruction.encode) :
    Agree (instruction.encode >>= assembly.emit instruction)
      (moved.encode >>= other.emit moved) := by
  rw [hencode]
  cases instruction.encode with
  | error fault => exact .error
  | ok words => exact emit_agree h instruction moved words

/-- The answers of `place` agree on instructions that are `Moved`. -/
theorem place_agree (h : Relisted assembly other) {instruction moved : Instruction}
    (hmoved : instruction.Moved moved) :
    Agree (assembly.place (some instruction)) (other.place (some moved)) := by
  obtain ⟨position, rfl⟩ := hmoved
  have hcode := encode_agree h (instruction.encode_relocate position)
  cases instruction with
  | noOperand _ keyword => exact hcode
  | binary _ keyword source destination => exact hcode
  | foreign _ keyword => exact hcode
  | unary _ keyword operand =>
      cases keyword with
      | define => exact define_agree h operand.value
      | start => exact setOrigin_agree h operand.value
      | jmp =>
          obtain ⟨listing, rfl⟩ := h
          exact .ok ⟨_, rfl⟩
      | _ => exact hcode

/-- A `run` over instructions that are `Moved` ends if the other does, or stops at the same index by
the same fault. Induction on the programs. -/
theorem run_agree (h : Relisted assembly other) {program moved : List Instruction}
    (hmoved : List.Forall₂ Instruction.Moved program moved) :
    (∃ last last', assembly.run (program.map some) = (last, none) ∧
      other.run (moved.map some) = (last', none) ∧ Relisted last last') ∨
    ∃ index reached reached' fault, StopsAt assembly (program.map some) index reached fault ∧
      StopsAt other (moved.map some) index reached' fault ∧ Relisted reached reached' := by
  induction hmoved generalizing assembly other with
  | nil => exact .inl ⟨assembly, other, rfl, rfl, h⟩
  | @cons instruction instruction' program moved hfirst hrest ih =>
      have hagree := place_agree h hfirst
      generalize hplace : assembly.place (some instruction) = placed at hagree
      generalize hplace' : other.place (some instruction') = placed' at hagree
      cases hagree with
      | @error fault =>
          exact .inr ⟨0, assembly, other, fault, ⟨rfl, _, rfl, hplace⟩, ⟨rfl, _, rfl, hplace'⟩, h⟩
      | @ok next next' hnext =>
          rcases ih hnext with ⟨last, last', hrun, hrun', hlast⟩ |
            ⟨index, reached, reached', fault, ⟨hrun, hstop⟩, ⟨hrun', hstop'⟩, hreached⟩
          · refine .inl ⟨last, last', ?_, ?_, hlast⟩
            · rw [List.map_cons, Assembly.run, hplace]
              exact hrun
            · rw [List.map_cons, Assembly.run, hplace']
              exact hrun'
          · refine .inr ⟨index + 1, reached, reached', fault, ⟨?_, hstop⟩, ⟨?_, hstop'⟩, hreached⟩
            · rw [List.map_cons, List.take_succ_cons, Assembly.run, hplace]
              exact hrun
            · rw [List.map_cons, List.take_succ_cons, Assembly.run, hplace']
              exact hrun'

end Agree

/-- Two outcomes are the same image, or the same fault in the instruction at the same index of
either program, or there is no image in either case. -/
def SameOutcome (program moved : List Instruction) (outcome outcome' : Outcome) : Prop :=
  (∃ image, outcome = .image image ∧ outcome' = .image image) ∨
  (∃ index fault, index < program.length ∧
    ((∃ name, fault = .labelDuplicate name) ∨ ∃ address capacity, fault = .range address capacity) ∧
    outcome = .failed (.ofFault program[index]? fault) ∧
    outcome' = .failed (.ofFault moved[index]? fault)) ∨
  (outcome = .unallocatable ∧ outcome' = .unallocatable)

/-- The answer of a `run` that `StopsAt` an instruction of a program. -/
theorem StopsAt.run_eq_get {assembly reached : Assembly} {program : List Instruction} {index : Nat}
    {fault : AssemblyFault} (h : StopsAt assembly (program.map some) index reached fault) :
    assembly.run (program.map some) = (reached, some (.ofFault program[index]? fault)) := by
  obtain ⟨known, hget, -⟩ := h.2
  have hrun := h.run_eq hget
  rw [List.getElem?_map] at hget
  obtain ⟨instruction, hinstruction, rfl⟩ := Option.map_eq_some_iff.mp hget
  rw [hinstruction]
  exact hrun

/-- Programs that are `Moved` have the `SameOutcome`, and leave the same origin and the same
labels. -/
theorem assemble_agree (assembler : Assembler) {program moved : List Instruction}
    (hsound : Sound program) (hmoved : List.Forall₂ Instruction.Moved program moved) :
    (assembler.assemble (moved.map some)).1 = (assembler.assemble (program.map some)).1 ∧
      SameOutcome program moved (assembler.assemble (program.map some)).2.1
        (assembler.assemble (moved.map some)).2.1 := by
  cases hblank : Image.blank? assembler.effectiveCapacity assembler.effectiveWidth with
  | none =>
      simp only [Assembler.assemble]
      rw [hblank]
      exact ⟨rfl, .inr (.inr ⟨rfl, rfl⟩)⟩
  | some image =>
      obtain ⟨houtcome, hassembler⟩ := assemble_of_blank? hblank (program.map some)
      obtain ⟨houtcome', hassembler'⟩ := assemble_of_blank? hblank (moved.map some)
      rw [houtcome, houtcome', hassembler, hassembler']
      rcases run_agree (⟨[], rfl⟩ : Relisted { image } { image }) hmoved with
        ⟨last, last', hrun, hrun', listing, rfl⟩ |
        ⟨index, reached, reached', fault, hstop, hstop', listing, rfl⟩
      · rw [hrun, hrun']
        exact ⟨rfl, .inl ⟨last.image, rfl, rfl⟩⟩
      · obtain ⟨instruction, hget, -, -, hfault⟩ := hsound.stopsAt (words_of_blank? hblank) hstop
        rw [hstop.run_eq_get, hstop'.run_eq_get]
        have hlt := (List.getElem?_eq_some_iff.mp hget).1
        refine ⟨rfl, .inr (.inl ⟨index, fault, hlt, ?_, rfl, rfl⟩)⟩
        rcases hfault with ⟨name, -, rfl⟩ | ⟨-, address, rfl⟩
        · exact .inl ⟨name, rfl⟩
        · exact .inr ⟨address, _, rfl⟩

/-- **The round trip.** A program that was read without complaint is read back from its `printed`
text, each instruction at the beginning of its line, and to compile that text has the `SameOutcome`
as to compile the source. -/
theorem compile_printed (source : Source) (hnil : source.complaints = []) :
    (printed source.program).complaints = [] ∧
    (printed source.program).program =
      source.program.mapIdx (fun index instruction =>
        instruction.relocate ⟨UInt64.ofNat (index + 1), 0⟩) ∧
    ∀ assembler : Assembler,
      (assembler.compile (printed source.program)).1 = (assembler.compile source).1 ∧
      SameOutcome source.program (printed source.program).program
        (assembler.compile source).2.1 (assembler.compile (printed source.program)).2.1 := by
  have hprogram := source.isProgram_program
  obtain ⟨hprinted, hread⟩ := printed_program hprogram
  refine ⟨hprinted, hread, fun assembler => ?_⟩
  obtain ⟨hstate, houtcome⟩ := compile_of_nil assembler hnil
  obtain ⟨hstate', houtcome'⟩ := compile_of_nil assembler hprinted
  rw [hstate, hstate', houtcome, houtcome', hread]
  exact assemble_agree assembler (sound_of_isProgram hprogram) (moved_renumbered source.program)

/-- A program with blanks, a comment, a digit in lower case and two labels without a name, which is
printed without the first three. -/
theorem compile_printed_respaced :
    let source : Source := ⟨"\tMOV #a , B ; low\r\nDEF .\n\nDEF .".toList, none⟩
    source.complaints = [] ∧ printedText source.program = "MOV #A,B\nDEF .\nDEF ." ∧
      (printed source.program).complaints = [] ∧
      (printed source.program).program =
        [ .binary ⟨1, 0⟩ .mov ⟨.hash, "A"⟩ ⟨.bare, "B"⟩, .unary ⟨2, 0⟩ .define ⟨.dot, ""⟩,
          .unary ⟨3, 0⟩ .define ⟨.dot, ""⟩ ] ∧
      SameOutcome source.program (printed source.program).program
        (Assembler.compile {} source).2.1 (Assembler.compile {} (printed source.program)).2.1 := by
  intro source
  have hsource : source.complaints = [] ∧ source.program =
      [ .binary ⟨1, 1⟩ .mov ⟨.hash, "A"⟩ ⟨.bare, "B"⟩, .unary ⟨2, 0⟩ .define ⟨.dot, ""⟩,
        .unary ⟨4, 0⟩ .define ⟨.dot, ""⟩ ] := by decide +kernel
  obtain ⟨hnil, hprogram⟩ := hsource
  obtain ⟨hprinted, hread, hcompile⟩ := compile_printed source hnil
  refine ⟨hnil, ?_, hprinted, ?_, (hcompile {}).2⟩
  · rw [hprogram]
    rfl
  · rw [hread, hprogram]
    rfl

end Placement

end MovAsm

import MovAsm.Proofs.Assembly.Placement
import MovAsm.Proofs.Program.Acceptance
import MovAsm.Settings

/-!
# What Is Read Can Be Encoded

A program is checked twice: by the reader, line by line, and by the assembler, instruction by
instruction. The two have tables of their own. This module shows that they agree. An instruction
that was read always has an encoding, so that all that can still go wrong with a program that was
read is what no line shows by itself: a label that is defined twice, an origin outside the image,
or code that does not fit into it.

## Main results

* `exists_opcode`: the machine has every move that the reader lets through.
* `exists_encode_of_form`: a line with a form has an encoding, of a known size.
* `sound_of_isProgram`: every instruction of a program has an encoding, and only the first sets an
  origin.
* `Sound.placeable_iff`: a program can be placed exactly if it fits.
* `Sound.fault_cases`: an instruction that cannot be placed has a duplicate label or is out of
  range.
* `compile_cases`: the ways in which the compilation of a source ends.
* `compile_image_iff_fits`: the agreement for whole sources.
-/

namespace MovAsm

/-! ### Moves -/

/-- There is an opcode for every `move` from a byte, memory or a register into memory or a writable
register other than the source. -/
theorem Operation.exists_opcode {start goal : Endpoint}
    (hstart : start = .immediate ∨ start = .memory ∨
      ∃ register ∈ Register.all, start = .register register)
    (hgoal : goal = .memory ∨ ∃ register ∈ Register.all, register.isWritable = true ∧
      goal = .register register ∧ start ≠ .register register) :
    ∃ opcode, (Operation.move start goal).opcode? = some opcode := by
  have htable : ∀ start ∈ [Endpoint.immediate, .memory] ++ Register.all.map .register,
      ∀ goal ∈ [Endpoint.memory] ++ (Register.all.filter Register.isWritable).map .register,
      goal = .memory ∨ start ≠ goal → (Operation.move start goal).opcode?.isSome = true := by
    decide
  rw [← Option.isSome_iff_exists]
  refine htable start ?_ goal ?_ ?_
  · rcases hstart with rfl | rfl | ⟨register, hmem, rfl⟩ <;> simp [*]
  · rcases hgoal with rfl | ⟨register, hmem, hwritable, rfl, -⟩ <;> simp [*]
  · rcases hgoal with rfl | ⟨register, -, -, rfl, hne⟩
    · exact .inl rfl
    · exact .inr hne

/-- The number of words of an instruction that was read. -/
def Instruction.size : Instruction → Nat
  | .noOperand _ _ => 1
  | .binary _ _ source destination =>
    if source.kind = .location ∧ destination.kind = .location then 1 else 2
  | .unary _ _ _ | .foreign _ _ => 0

/-- The sum of `Instruction.size` over a program. -/
def programSize : List Instruction → Nat
  | [] => 0
  | instruction :: rest => instruction.size + programSize rest

namespace Line

variable {token source destination : Token} {start goal operand : Operand}

/-- The operand that a byte or an address token writes is a byte. -/
theorem exists_byte (hwrites : token.Writes operand) (hspelled : token.IsSpelled)
    (hkind : token.kind = .hex ∨ token.kind = .address) :
    ∃ value, Text.readHex? operand.value = some value ∧ value < 0x100 := by
  obtain ⟨hlength, hdigits⟩ := hwrites.isByte hspelled hkind
  obtain ⟨value, hread, hlt⟩ := Text.exists_byte_of_digits hlength hdigits
  rw [String.ofList_toList] at hread
  exact ⟨value, hread, hlt⟩

/-- The `endpoint?` of an operand whose token names a register. -/
theorem endpoint?_of_names {register : Register} (hwrites : token.Writes operand)
    (hmem : register ∈ Register.all) (hnames : token.Names register) :
    operand.kind = .location ∧ operand.endpoint? = some (.register register) := by
  have hoperand := isOperand_of_names hnames
  have hlocation : operand.kind = .location := by
    rw [hwrites.kind_eq]
    rcases hnames with ⟨hkind, -⟩ | ⟨hkind, -⟩ <;> rw [hkind] <;> rfl
  have hregister := (hwrites.register?_eq_some_iff hoperand).mpr ⟨hmem, hnames⟩
  exact ⟨hlocation, by simp [Operand.endpoint?, hlocation, hregister]⟩

/-- The operand of an `IsSource` token has an `endpoint?` that a move can begin with, and is a byte
unless it names a register. -/
theorem exists_endpoint_of_isSource (hsource : IsSource token) (hwrites : token.Writes operand)
    (hspelled : token.IsSpelled) :
    (∃ endpoint, operand.endpoint? = some endpoint ∧ (endpoint = .immediate ∨
      endpoint = .memory ∨ ∃ register ∈ Register.all, endpoint = .register register ∧
        token.Names register)) ∧
    (operand.kind ≠ .location →
      ∃ value, Text.readHex? operand.value = some value ∧ value < 0x100) := by
  rcases hsource with hkind | hkind | ⟨register, hmem, hnames⟩
  · refine ⟨⟨.immediate, ?_, .inl rfl⟩, fun _ => exists_byte hwrites hspelled (.inl hkind)⟩
    simp [Operand.endpoint?, hwrites.kind_eq, hkind, Kind.sigil, Sigil.kind]
  · refine ⟨⟨.memory, ?_, .inr (.inl rfl)⟩, fun _ => exists_byte hwrites hspelled (.inr hkind)⟩
    simp [Operand.endpoint?, hwrites.kind_eq, hkind, Kind.sigil, Sigil.kind]
  · obtain ⟨hlocation, hendpoint⟩ := endpoint?_of_names hwrites hmem hnames
    exact ⟨⟨_, hendpoint, .inr (.inr ⟨register, hmem, rfl, hnames⟩)⟩,
      fun hne => absurd hlocation hne⟩

/-- The operand of an `IsDestination` token has an `endpoint?` that a move can end with, and is a
byte unless it names a register. -/
theorem exists_endpoint_of_isDestination (hdestination : IsDestination source token)
    (hwrites : token.Writes operand) (hspelled : token.IsSpelled) :
    (∃ endpoint, operand.endpoint? = some endpoint ∧ (endpoint = .memory ∨
      ∃ register ∈ Register.all, register.isWritable = true ∧ endpoint = .register register ∧
        ¬source.Names register)) ∧
    (operand.kind ≠ .location →
      ∃ value, Text.readHex? operand.value = some value ∧ value < 0x100) := by
  rcases hdestination with hkind | ⟨register, hwritable, hnames, hother⟩
  · refine ⟨⟨.memory, ?_, .inl rfl⟩, fun _ => exists_byte hwrites hspelled (.inr hkind)⟩
    simp [Operand.endpoint?, hwrites.kind_eq, hkind, Kind.sigil, Sigil.kind]
  · have hmem := Register.mem_all_of_isWritable hwritable
    obtain ⟨hlocation, hendpoint⟩ := endpoint?_of_names hwrites hmem hnames
    exact ⟨⟨_, hendpoint, .inr ⟨register, hmem, hwritable, rfl, hother⟩⟩,
      fun hne => absurd hlocation hne⟩

/-- There is a `moveOpcode?` for the operands of a line. -/
theorem exists_moveOpcode (hsource : IsSource source)
    (hdestination : IsDestination source destination) (hstart : source.Writes start)
    (hgoal : destination.Writes goal) (hspelled : source.IsSpelled)
    (hspelled' : destination.IsSpelled) : ∃ opcode, moveOpcode? start goal = some opcode := by
  obtain ⟨⟨first, hfirst, hbegin⟩, -⟩ := exists_endpoint_of_isSource hsource hstart hspelled
  obtain ⟨⟨last, hlast, hend⟩, -⟩ := exists_endpoint_of_isDestination hdestination hgoal hspelled'
  have hopcode : ∃ opcode, (Operation.move first last).opcode? = some opcode := by
    refine Operation.exists_opcode ?_ ?_
    · rcases hbegin with hbegin | hbegin | ⟨register, hmem, hbegin, -⟩
      · exact .inl hbegin
      · exact .inr (.inl hbegin)
      · exact .inr (.inr ⟨register, hmem, hbegin⟩)
    · rcases hend with hend | ⟨register, hmem, hwritable, hend, hother⟩
      · exact .inl hend
      · refine .inr ⟨register, hmem, hwritable, hend, ?_⟩
        rcases hbegin with rfl | rfl | ⟨register', -, rfl, hnames⟩
        · exact nofun
        · exact nofun
        · intro hsame
          cases hsame
          exact hother hnames
  obtain ⟨opcode, hopcode⟩ := hopcode
  exact ⟨opcode, by simp [moveOpcode?, hfirst, hlast, hopcode]⟩

/-- A move with an opcode has an encoding if its operands are bytes or registers. -/
theorem exists_encodeMove {opcode : Opcode} (hopcode : moveOpcode? start goal = some opcode)
    (hstart : start.kind ≠ .location →
      ∃ value, Text.readHex? start.value = some value ∧ value < 0x100)
    (hgoal : goal.kind ≠ .location →
      ∃ value, Text.readHex? goal.value = some value ∧ value < 0x100) :
    ∃ words, encodeMove start goal = .ok words ∧
      words.length = if start.kind = .location ∧ goal.kind = .location then 1 else 2 := by
  rw [encodeMove, hopcode]
  by_cases hfrom : start.kind = .location
  · by_cases hto : goal.kind = .location
    · exact ⟨[opcode.toUInt16], by simp [moveArgument, hfrom, hto], by simp [hfrom, hto]⟩
    · obtain ⟨value, hread, hlt⟩ := hgoal hto
      refine ⟨[opcode.toUInt16, value.toUInt16], ?_, by simp [hto]⟩
      simp [moveArgument, hfrom, hto, Operand.byte, hread, hlt]
  · obtain ⟨value, hread, hlt⟩ := hstart hfrom
    refine ⟨[opcode.toUInt16, value.toUInt16], ?_, by simp [hfrom]⟩
    simp [moveArgument, hfrom, Operand.byte, hread, hlt]

/-- An instruction that has a `Form` has an encoding, of `Instruction.size` words. -/
theorem exists_encode_of_form {isFirst : Bool} {line : List Token} {instruction : Instruction}
    (hform : Form isFirst line instruction) (hspelled : ∀ token ∈ line, token.IsSpelled) :
    ∃ words, instruction.encode = .ok words ∧ words.length = instruction.size := by
  cases hform with
  | halt | idle => exact ⟨_, rfl, rfl⟩
  | define | jump | start => exact ⟨_, rfl, rfl⟩
  | @move word source comma destination start goal hword hsource hcomma hdestination hstart hgoal =>
      have hfrom : source.IsSpelled := hspelled source (by simp)
      have hto : destination.IsSpelled := hspelled destination (by simp)
      obtain ⟨opcode, hopcode⟩ := exists_moveOpcode hsource hdestination hstart hgoal hfrom hto
      exact exists_encodeMove hopcode (exists_endpoint_of_isSource hsource hstart hfrom).2
        (exists_endpoint_of_isDestination hdestination hgoal hto).2

/-- Only the first line of a program sets an origin, which is then a byte. -/
theorem origin_of_form {isFirst : Bool} {line : List Token} {instruction : Instruction}
    (hform : Form isFirst line instruction) (hspelled : ∀ token ∈ line, token.IsSpelled)
    {text : String} (htext : Placement.originText? (some instruction) = some text) :
    isFirst = true ∧ ∃ origin, Text.readHex? text = some origin ∧ origin < 0x100 := by
  cases hform with
  | start hfirst hword hargument hoperand =>
      cases htext
      exact ⟨hfirst, exists_byte hoperand (hspelled _ (by simp)) (.inr hargument)⟩
  | _ => cases htext

end Line

namespace Placement

/-! ### Programs -/

/-- What the assembler needs to know of a program that was read: every instruction has an encoding
of `Instruction.size` words, none but the first sets an origin, and an origin is a byte. -/
structure Sound (program : List Instruction) : Prop where
  encode : ∀ instruction ∈ program,
    ∃ words, instruction.encode = .ok words ∧ words.length = instruction.size
  origin_first : ∀ instruction ∈ program.tail, originText? (some instruction) = none
  origin_byte : ∀ instruction ∈ program, ∀ text, originText? (some instruction) = some text →
    ∃ origin, Text.readHex? text = some origin ∧ origin < 0x100

/-- Every instruction of lines that have `Forms` has a `Form`, and only the first one that of a
first line. -/
theorem exists_form_of_mem {isFirst : Bool} {lines : List (List Token)}
    {program : List Instruction} (hforms : Line.Forms isFirst lines program)
    (hspelled : ∀ line ∈ lines, ∀ token ∈ line, token.IsSpelled) :
    ∀ instruction ∈ program, ∃ isHere line, (isHere = true → isFirst = true) ∧
      Line.Form isHere line instruction ∧ ∀ token ∈ line, token.IsSpelled := by
  induction hforms with
  | nil => simp
  | cons hline hlines ih =>
      intro instruction hmem
      rcases List.mem_cons.mp hmem with rfl | hmem
      · exact ⟨_, _, id, hline, hspelled _ (by simp)⟩
      · obtain ⟨isHere, line, himp, hform, hline⟩ :=
          ih (fun line hline => hspelled line (by simp [hline])) instruction hmem
        refine ⟨isHere, line, fun hhere => ?_, hform, hline⟩
        cases himp hhere

/-- What was read is `Sound`. -/
theorem sound_of_isProgram {program : List Instruction} (h : Line.IsProgram program) :
    Sound program := by
  obtain ⟨lines, hspelled, hforms⟩ := h
  refine ⟨?_, ?_, ?_⟩
  · intro instruction hmem
    obtain ⟨isHere, line, -, hform, hline⟩ := exists_form_of_mem hforms hspelled instruction hmem
    exact Line.exists_encode_of_form hform hline
  · cases hforms with
    | nil => simp
    | cons hline hlines =>
        intro instruction hmem
        obtain ⟨isHere, line, himp, hform, hline⟩ :=
          exists_form_of_mem hlines (fun line hline => hspelled line (by simp [hline]))
            instruction hmem
        cases htext : originText? (some instruction) with
        | none => rfl
        | some text => cases himp (Line.origin_of_form hform hline htext).1
  · intro instruction hmem text htext
    obtain ⟨isHere, line, -, hform, hline⟩ := exists_form_of_mem hforms hspelled instruction hmem
    exact (Line.origin_of_form hform hline htext).2

/-- The conditions on a program that no line shows by itself: no label is defined twice, the origin
lies within the image, and the words fit into the image from the origin on. -/
structure Fits (capacity : Nat) (program : List Instruction) : Prop where
  names_nodup : (definedNames (program.map some)).Nodup
  origin_within : ∀ text ∈ originTexts (program.map some),
    ∃ origin, Text.readHex? text = some origin ∧ origin < capacity
  room : finalOrigin (program.map some) + programSize program ≤ capacity

section Sound

variable {capacity : Nat} {program before after : List Instruction} {instruction : Instruction}

/-- The front of a `Sound` program is `Sound`. -/
theorem Sound.of_append (h : Sound (before ++ after)) : Sound before := by
  refine ⟨fun instruction hmem => h.encode instruction (by simp [hmem]), ?_,
    fun instruction hmem => h.origin_byte instruction (by simp [hmem])⟩
  intro instruction hmem
  refine h.origin_first instruction ?_
  cases before with
  | nil => cases hmem
  | cons first rest => simpa using .inl hmem

/-- An instruction of a `Sound` program has `Instruction.size` words. -/
theorem Sound.length_wordsOf (h : Sound program) (hmem : instruction ∈ program) :
    (wordsOf (some instruction)).length = instruction.size := by
  obtain ⟨words, hencode, hlength⟩ := h.encode instruction hmem
  simp only [wordsOf, hencode]
  exact hlength

/-- The code of a `Sound` program has `programSize` words. -/
theorem Sound.length_machineCode (h : Sound program) :
    (machineCode (program.map some)).length = programSize program := by
  have hwords (instruction : Instruction) (hmem : instruction ∈ program) :=
    h.length_wordsOf hmem
  clear h
  induction program with
  | nil => rfl
  | cons first rest ih =>
      have hcode : machineCode ((first :: rest).map some) =
          wordsOf (some first) ++ machineCode (rest.map some) := rfl
      rw [hcode, List.length_append, hwords first (by simp),
        ih fun instruction hmem => hwords instruction (by simp [hmem]), programSize]

/-- A `Sound` program is `Placeable` exactly if it `Fits`. -/
theorem Sound.placeable_iff (h : Sound program) :
    Placeable capacity (program.map some) ↔ Fits capacity program := by
  constructor
  · rintro ⟨-, -, hwithin, hnames, hfits⟩
    refine ⟨hnames, ?_, by rw [← h.length_machineCode]; exact hfits⟩
    intro text hmem
    obtain ⟨origin, hread, -, hlt⟩ := hwithin text hmem
    exact ⟨origin, hread, hlt⟩
  · rintro ⟨hnames, hwithin, hroom⟩
    refine ⟨?_, ?_, ?_, hnames, by rw [h.length_machineCode]; exact hroom⟩
    · intro known hmem
      obtain ⟨instruction, hinstruction, rfl⟩ := List.mem_map.mp hmem
      obtain ⟨words, hencode, -⟩ := h.encode instruction hinstruction
      exact ⟨instruction, words, rfl, hencode⟩
    · -- Whatever comes later is behind the first instruction.
      rw [List.pairwise_map]
      cases program with
      | nil => exact List.Pairwise.nil
      | cons first rest =>
          have hlater : ∀ later ∈ rest, originText? (some later) = none := h.origin_first
          refine List.pairwise_cons.mpr ⟨fun later hmem _ => hlater later hmem, ?_⟩
          exact List.pairwise_of_forall_mem_list fun _ _ later hmem _ => hlater later hmem
    · intro text hmem
      obtain ⟨known, hknown, htext⟩ := List.mem_filterMap.mp hmem
      obtain ⟨instruction, hinstruction, rfl⟩ := List.mem_map.mp hknown
      obtain ⟨origin, hread, hbyte⟩ := h.origin_byte instruction hinstruction text htext
      obtain ⟨origin', hread', hlt⟩ := hwithin text hmem
      rw [hread] at hread'
      cases hread'
      exact ⟨origin, hread, by omega, hlt⟩

/-- If the last instruction of a `Sound` program cannot be placed, its fault is `labelDuplicate` or
`range`. -/
theorem Sound.fault_cases {assembly : Assembly} {fault : AssemblyFault}
    (h : Sound (before ++ [instruction])) (hplaced : Placed capacity (before.map some) assembly)
    (herror : assembly.place (some instruction) = .error fault) :
    (∃ name, definedName? (some instruction) = some name ∧ fault = .labelDuplicate name) ∨
      (definedName? (some instruction) = none ∧
        ∃ address : Nat, fault = .range address capacity) := by
  obtain ⟨words, hencode, -⟩ := h.encode instruction (by simp)
  cases role (some instruction) with
  | label position operand =>
      refine .inl ⟨operand.value, rfl, ?_⟩
      simp only [Assembly.place, Assembly.define] at herror
      split at herror
      · cases herror
        rfl
      · cases herror
  | origin position operand =>
      -- An origin comes first, so that nothing was written before it.
      have hbefore : before = [] := by
        cases before with
        | nil => rfl
        | cons first rest => cases h.origin_first (.unary position .start operand) (by simp)
      have hemitted : assembly.emitted = false := by
        rw [← Bool.not_eq_true, hplaced.emitted_iff, hbefore]
        simp [machineCode]
      obtain ⟨origin, hread, hbyte⟩ :=
        h.origin_byte (.unary position .start operand) (by simp) _ rfl
      simp only [Assembly.place, Assembly.setOrigin, hemitted, hread,
        hplaced.length_words] at herror
      rw [if_neg (by decide), if_neg (by omega)] at herror
      split at herror
      · cases herror
        exact .inr ⟨rfl, origin, rfl⟩
      · cases herror
  | jump position operand => cases herror
  | @code known word rest hencode hname horigin hplace =>
      rw [hplace] at herror
      simp only [Assembly.emit, hplaced.length_words] at herror
      split at herror
      · cases herror
        exact .inr ⟨hname, assembly.address, rfl⟩
      · cases herror
  | refused hnot hplace => exact absurd ⟨instruction, words, rfl, hencode⟩ hnot

/-- The run of a `Sound` program stops at the first instruction with which the program does not
`Fits`. -/
theorem Sound.stopsAt {image : Image} {index : Nat} {reached : Assembly} {fault : AssemblyFault}
    (h : Sound program) (hblank : image.words = List.replicate capacity Opcode.idle.toUInt16)
    (hstop : StopsAt { image } (program.map some) index reached fault) :
    ∃ instruction, program[index]? = some instruction ∧ Fits capacity (program.take index) ∧
      ¬Fits capacity (program.take index ++ [instruction]) ∧
      ((∃ name, definedName? (some instruction) = some name ∧ fault = .labelDuplicate name) ∨
        (definedName? (some instruction) = none ∧
          ∃ address : Nat, fault = .range address capacity)) := by
  obtain ⟨hrun, known, hget, hplace⟩ := hstop
  rw [List.getElem?_map] at hget
  obtain ⟨instruction, hinstruction, rfl⟩ := Option.map_eq_some_iff.mp hget
  obtain ⟨hlt, hvalue⟩ := List.getElem?_eq_some_iff.mp hinstruction
  have hsound : Sound (program.take index ++ [instruction]) := by
    rw [← hvalue, List.take_append_getElem hlt]
    rw [← List.take_append_drop (index + 1) program] at h
    exact h.of_append
  rw [← List.map_take] at hrun
  obtain ⟨hplaceable, hplaced⟩ := placed_of_run hblank hrun
  refine ⟨instruction, hinstruction, hsound.of_append.placeable_iff.mp hplaceable, ?_,
    hsound.fault_cases hplaced hplace⟩
  rw [← hsound.placeable_iff, List.map_append]
  intro hboth
  obtain ⟨next, hok⟩ := (hplaced.place_ok_iff _).mpr hboth.admissible
  rw [hplace] at hok
  cases hok

/-- A `Sound` program `Fits` and is placed, or its run stops at the first instruction with which it
does not. -/
theorem Sound.run_cases {image : Image} (h : Sound program)
    (hblank : image.words = List.replicate capacity Opcode.idle.toUInt16) :
    (Fits capacity program ∧
      ∃ last, ({ image } : Assembly).run (program.map some) = (last, none)) ∨
    (¬Fits capacity program ∧ ∃ before instruction after reached fault,
      program = before ++ instruction :: after ∧
      Fits capacity before ∧ ¬Fits capacity (before ++ [instruction]) ∧
      ({ image } : Assembly).run (program.map some) =
        (reached, some (.ofFault (some instruction) fault)) ∧
      ((∃ name, definedName? (some instruction) = some name ∧ fault = .labelDuplicate name) ∨
        (definedName? (some instruction) = none ∧
          ∃ address : Nat, fault = .range address capacity))) := by
  rw [← h.placeable_iff, ← run_eq_none_iff hblank]
  rcases Placement.run_cases { image } (program.map some) with
    ⟨last, hlast⟩ | ⟨index, reached, fault, hstop⟩
  · exact .inl ⟨by rw [hlast], last, hlast⟩
  · obtain ⟨instruction, hget, hbefore, hnot, hfault⟩ := h.stopsAt hblank hstop
    have hend : ({ image } : Assembly).run (program.map some) =
        (reached, some (.ofFault (some instruction) fault)) :=
      hstop.run_eq (by rw [List.getElem?_map, hget, Option.map_some])
    obtain ⟨hlt, hvalue⟩ := List.getElem?_eq_some_iff.mp hget
    refine .inr ⟨by rw [hend]; simp, program.take index, instruction, program.drop (index + 1),
      reached, fault, ?_, hbefore, hnot, hend, hfault⟩
    rw [← hvalue, ← List.drop_eq_getElem_cons hlt, List.take_append_drop]

end Sound

/-! ### Sources -/

/-- A source without complaint is assembled by `compile`. -/
theorem compile_of_nil (assembler : Assembler) {source : Source} (h : source.complaints = []) :
    (assembler.compile source).1 = (assembler.assemble (source.program.map some)).1 ∧
      (assembler.compile source).2.1 = (assembler.assemble (source.program.map some)).2.1 := by
  rw [Source.complaints] at h
  rw [Assembler.compile]
  simp only [h]
  exact ⟨rfl, rfl⟩

/-- A source with complaints is `rejected` by `compile`. -/
theorem compile_of_ne_nil (assembler : Assembler) {source : Source} (h : source.complaints ≠ []) :
    (assembler.compile source).2.1 = .rejected source.complaints := by
  rw [Source.complaints] at h ⊢
  rw [Assembler.compile]
  dsimp only
  cases hread : (Reader.ofSource source).drain.1.complaints (Reader.ofSource source).drain.2 with
  | nil => exact absurd hread h
  | cons diagnostic diagnostics => rfl

/-- A source with complaints leaves the assembler as it is. -/
theorem state_compile_of_ne_nil (assembler : Assembler) {source : Source}
    (h : source.complaints ≠ []) : (assembler.compile source).1 = assembler := by
  rw [Source.complaints] at h
  rw [Assembler.compile]
  dsimp only
  cases hread : (Reader.ofSource source).drain.1.complaints (Reader.ofSource source).drain.2 with
  | nil => exact absurd hread h
  | cons diagnostic diagnostics => rfl

/-- The `effectiveCapacity` is within the bounds of an image if the capacity is. -/
theorem effectiveCapacity_bounds {assembler : Assembler} (hnonneg : 0 ≤ assembler.capacity)
    (hmax : assembler.capacity ≤ Image.largestCapacity) :
    0 ≤ assembler.effectiveCapacity ∧ assembler.effectiveCapacity ≤ Image.largestCapacity := by
  rw [Assembler.effectiveCapacity]
  split
  · decide
  · exact ⟨hnonneg, hmax⟩

/-- The ways in which `compile` ends: the source is `rejected`, or its program `Fits` and has an
image, or it does not and stops at the first instruction that is too much. -/
theorem compile_cases {assembler : Assembler} (source : Source) (hnonneg : 0 ≤ assembler.capacity)
    (hmax : assembler.capacity ≤ Image.largestCapacity) :
    (source.complaints ≠ [] ∧ (assembler.compile source).2.1 = .rejected source.complaints) ∨
    (Fits assembler.effectiveCapacity.toNat source.program ∧
      ∃ image, (assembler.compile source).2.1 = .image image) ∨
    (¬Fits assembler.effectiveCapacity.toNat source.program ∧
      ∃ before instruction after fault, source.program = before ++ instruction :: after ∧
        Fits assembler.effectiveCapacity.toNat before ∧
        ¬Fits assembler.effectiveCapacity.toNat (before ++ [instruction]) ∧
        (assembler.compile source).2.1 = .failed ⟨instruction.position, some instruction, fault⟩ ∧
        ((∃ name, definedName? (some instruction) = some name ∧ fault = .labelDuplicate name) ∨
          (definedName? (some instruction) = none ∧
            ∃ address : Nat, fault = .range address assembler.effectiveCapacity))) := by
  obtain ⟨hlow, hhigh⟩ := effectiveCapacity_bounds hnonneg hmax
  by_cases hnil : source.complaints = []
  · obtain ⟨image, hblank⟩ := exists_blank? hlow hhigh
    have houtcome := (compile_of_nil assembler hnil).2
    rw [(assemble_of_blank? hblank _).1] at houtcome
    rcases (sound_of_isProgram source.isProgram_program).run_cases (words_of_blank? hblank) with
      ⟨hfits, last, hrun⟩ | ⟨hnot, before, instruction, after, reached, fault, hsplit, hbefore,
        hlast, hrun, hfault⟩
    · rw [hrun] at houtcome
      exact .inr (.inl ⟨hfits, last.image, houtcome⟩)
    · rw [hrun] at houtcome
      rw [Int.toNat_of_nonneg hlow] at hfault
      exact .inr (.inr ⟨hnot, before, instruction, after, fault, hsplit, hbefore, hlast, houtcome,
        hfault⟩)
  · exact .inl ⟨hnil, compile_of_ne_nil assembler hnil⟩

/-- **The reader and the assembler agree.** With a capacity that an image can have, `compile` always
has an outcome. A source without complaint has an image exactly if its program `Fits`. Otherwise the
first instruction with which it does not fit is at fault: its label is defined twice, or it lies
beyond the image. There are no other faults of assembly in any source. -/
theorem compile_image_iff_fits (assembler : Assembler) (source : Source)
    (hnonneg : 0 ≤ assembler.capacity) (hmax : assembler.capacity ≤ Image.largestCapacity) :
    (assembler.compile source).2.1 ≠ .unallocatable ∧
    (source.complaints = [] →
      ((∃ image, (assembler.compile source).2.1 = .image image) ↔
        Fits assembler.effectiveCapacity.toNat source.program) ∧
      (¬Fits assembler.effectiveCapacity.toNat source.program →
        ∃ before instruction after fault, source.program = before ++ instruction :: after ∧
          Fits assembler.effectiveCapacity.toNat before ∧
          ¬Fits assembler.effectiveCapacity.toNat (before ++ [instruction]) ∧
          (assembler.compile source).2.1 =
            .failed ⟨instruction.position, some instruction, fault⟩ ∧
          ((∃ name, definedName? (some instruction) = some name ∧ fault = .labelDuplicate name) ∨
            (definedName? (some instruction) = none ∧
              ∃ address : Nat, fault = .range address assembler.effectiveCapacity)))) ∧
    ∀ error, (assembler.compile source).2.1 = .failed error →
      (∃ name, error.fault = .labelDuplicate name) ∨
        ∃ address capacity, error.fault = .range address capacity := by
  rcases compile_cases source hnonneg hmax with ⟨hne, houtcome⟩ | ⟨hfits, image, houtcome⟩ |
    ⟨hnot, before, instruction, after, fault, hsplit, hbefore, hlast, houtcome, hfault⟩
  · rw [houtcome]
    exact ⟨by simp, fun hnil => absurd hnil hne, by simp⟩
  · rw [houtcome]
    refine ⟨by simp, fun _ => ⟨⟨fun _ => hfits, fun _ => ⟨image, rfl⟩⟩, ?_⟩, by simp⟩
    exact fun hnot => absurd hfits hnot
  · rw [houtcome]
    refine ⟨by simp, fun _ => ⟨⟨by simp, fun hfits => absurd hfits hnot⟩, fun _ => ?_⟩, ?_⟩
    · exact ⟨before, instruction, after, fault, hsplit, hbefore, hlast, rfl, hfault⟩
    · intro error herror
      cases herror
      rcases hfault with ⟨name, -, rfl⟩ | ⟨-, address, rfl⟩
      · exact .inl ⟨name, rfl⟩
      · exact .inr ⟨address, assembler.effectiveCapacity, rfl⟩

/-- A program whose last instruction is one word too much for an image of valid settings, and which
fits without it. -/
theorem compile_image_iff_fits_overfull :
    let settings : Settings := { capacity := 2, width := 4 }
    let source : Source := ⟨"START $01\nHLT\nDEF .x\nNOP".toList, none⟩
    settings.validate = .ok () ∧ 0 ≤ settings.assembler.capacity ∧
      settings.assembler.capacity ≤ Image.largestCapacity ∧ source.complaints = [] ∧
      ¬Fits 2 source.program ∧
      (∃ before after, source.program = before ++ .noOperand ⟨4, 0⟩ .nop :: after ∧
        Fits 2 before ∧ ¬Fits 2 (before ++ [.noOperand ⟨4, 0⟩ .nop])) ∧
      (settings.assembler.compile source).2.1 =
        .failed ⟨⟨4, 0⟩, some (.noOperand ⟨4, 0⟩ .nop), .range 2 2⟩ := by
  intro settings source
  have hnonneg : 0 ≤ settings.assembler.capacity := by decide
  have hmax : settings.assembler.capacity ≤ Image.largestCapacity := by decide
  have hsource : source.complaints = [] ∧ (settings.assembler.compile source).2.1 =
      .failed ⟨⟨4, 0⟩, some (.noOperand ⟨4, 0⟩ .nop), .range 2 2⟩ := by decide +kernel
  obtain ⟨hnil, houtcome⟩ := hsource
  obtain ⟨-, hagree, -⟩ := compile_image_iff_fits settings.assembler source hnonneg hmax
  obtain ⟨hiff, hfirst⟩ := hagree hnil
  have hnot : ¬Fits 2 source.program := by
    intro hfits
    obtain ⟨image, himage⟩ := hiff.mpr hfits
    rw [houtcome] at himage
    cases himage
  obtain ⟨before, instruction, after, fault, hsplit, hbefore, hlast, hfailed, -⟩ := hfirst hnot
  rw [houtcome, Outcome.failed.injEq, AssemblyError.mk.injEq] at hfailed
  obtain ⟨-, hinstruction, -⟩ := hfailed
  cases hinstruction
  exact ⟨rfl, hnonneg, hmax, hnil, hnot, ⟨before, after, hsplit, hbefore, hlast⟩, houtcome⟩

end Placement

end MovAsm

import MovAsm.Proofs.Assembly.Agreement
import MovAsm.Proofs.Text.Numeral

/-!
# Machine Code Is Uniquely Decodable

An operand byte can be any byte, so that it may look like an opcode. Still machine code is read in
one way only: whether an operand follows is known from the opcode before it. Read from the left,
the code of a program falls apart into one group for each instruction that has code. A group
determines its instruction, up to what the encoding does not keep: the place of the instruction,
how a register is written, a leading zero of a literal, and the address in a move of a literal into
memory.

The opcodes with an operand are listed here once more, by number. That the list agrees with the
control table and with what is encoded is part of what is shown.

## Main results

* `CodeGroup.split?_flatMap`: the words of groups are cut into these groups.
* `Operation.ofOpcode?_of_opcode?`: no two operations share an opcode.
* `Instruction.encode_eq_ok_iff`: the words of an instruction are those of its group.
* `Instruction.sameCode_iff`: a group determines its instruction.
* `machineCode_uniquely_decodable`: the code of a program determines its instructions.
-/

namespace MovAsm

/-! ### Groups of words -/

/-- The opcodes that an operand byte follows. -/
def operandOpcodes : List Word :=
  [0x05, 0x0A, 0x0F, 0x14, 0x19, 0x1A, 0x1B, 0x1C, 0x1D, 0x1E, 0x1F, 0x21, 0x22, 0x23, 0x24, 0x25,
    0x26, 0x2C]

/-- An opcode and the operand byte behind it, if there is one. -/
structure CodeGroup where
  opcode : Word
  operand : Option Word
  deriving DecidableEq, Repr

namespace CodeGroup

/-- The words of a group. -/
def words (group : CodeGroup) : List Word :=
  group.opcode :: group.operand.toList

/-- Cuts words into groups, from left to right. Fails at a word above the last opcode, and if an
operand is missing. -/
def split? : List Word → Option (List CodeGroup)
  | [] => some []
  | [opcode] =>
    if 0x2C < opcode ∨ opcode ∈ operandOpcodes then none else some [⟨opcode, none⟩]
  | opcode :: next :: rest =>
    if 0x2C < opcode then none
    else if opcode ∈ operandOpcodes then (split? rest).map (⟨opcode, some next⟩ :: ·)
    else (split? (next :: rest)).map (⟨opcode, none⟩ :: ·)

/-- The opcode of a group is at most the last one, and has an operand exactly if it is among the
`operandOpcodes`. -/
structure IsProper (group : CodeGroup) : Prop where
  opcode_le : group.opcode ≤ 0x2C
  operand_iff : group.opcode ∈ operandOpcodes ↔ group.operand.isSome = true

/-- A group that `IsProper` is cut off by `split?` from what follows it. -/
theorem split?_append {group : CodeGroup} (h : group.IsProper) (rest : List Word) :
    split? (group.words ++ rest) = (split? rest).map (group :: ·) := by
  obtain ⟨opcode, operand⟩ := group
  obtain ⟨hle, hoperand⟩ := h
  have hlast : ¬0x2C < opcode := UInt16.not_lt.mpr hle
  cases operand with
  | some byte =>
      have hlisted : opcode ∈ operandOpcodes := hoperand.mpr rfl
      simp [words, split?, hlast, hlisted]
  | none =>
      have hnot : opcode ∉ operandOpcodes := fun hlisted => by simpa using hoperand.mp hlisted
      cases rest with
      | nil => simp [words, split?, hlast, hnot]
      | cons next rest => simp [words, split?, hlast, hnot]

/-- The words of groups that are `IsProper` are cut by `split?` into these groups. Induction on the
groups. -/
theorem split?_flatMap {groups : List CodeGroup} (h : ∀ group ∈ groups, group.IsProper) :
    split? (groups.flatMap words) = some groups := by
  induction groups with
  | nil => rfl
  | cons group groups ih =>
      rw [List.flatMap_cons, split?_append (h group (by simp)),
        ih fun group hmem => h group (by simp [hmem])]
      rfl

/-- A group is determined by its `words`. -/
theorem eq_of_words_eq {group other : CodeGroup} (h : group.words = other.words) :
    group = other := by
  obtain ⟨opcode, operand⟩ := group
  obtain ⟨opcode', operand'⟩ := other
  simp only [words, List.cons.injEq] at h
  obtain ⟨rfl, hoperand⟩ := h
  cases operand <;> cases operand' <;> simp_all

end CodeGroup

/-! ### The control table -/

namespace Operation

/-- An operation and its `opcode?` are an entry of the `controlTable`. -/
theorem mem_controlTable_of_opcode? {operation : Operation} {opcode : Opcode}
    (h : operation.opcode? = some opcode) : (opcode, operation) ∈ controlTable := by
  obtain ⟨entry, hfind, rfl⟩ := Option.map_eq_some_iff.mp h
  have hsame : entry.2 = operation := by simpa using List.find?_some hfind
  rw [← hsame]
  exact List.mem_of_find?_eq_some hfind

/-- No two operations share an opcode: `ofOpcode?` is the inverse of `opcode?`. -/
theorem ofOpcode?_of_opcode? {operation : Operation} {opcode : Opcode}
    (h : operation.opcode? = some opcode) : ofOpcode? opcode = some operation := by
  have htable : ∀ entry ∈ controlTable, ofOpcode? entry.1 = some entry.2 := by decide
  exact htable _ (mem_controlTable_of_opcode? h)

/-- The `operandOpcodes` are those of the operations that have an operand. -/
theorem opcode_mem_iff {operation : Operation} {opcode : Opcode}
    (h : operation.opcode? = some opcode) :
    opcode.toUInt16 ≤ 0x2C ∧ (opcode.toUInt16 ∈ operandOpcodes ↔ operation.hasOperand = true) := by
  have htable : ∀ entry ∈ controlTable, entry.1.toUInt16 ≤ 0x2C ∧
      (entry.1.toUInt16 ∈ operandOpcodes ↔ entry.2.hasOperand = true) := by decide
  exact htable _ (mem_controlTable_of_opcode? h)

end Operation

/-! ### Operands that encode alike -/

namespace Operand

/-- An operand of a move as it is read: a literal of one or two digits in upper case, or the name of
a register. -/
inductive IsRead : Operand → Prop
  | immediate {value : String} (hvalue : Text.IsUpperByte value.toList) : IsRead ⟨.hash, value⟩
  | address {value : String} (hvalue : Text.IsUpperByte value.toList) : IsRead ⟨.dollar, value⟩
  | register {operand : Operand} {register : Register}
      (hregister : operand.register? = some register) : IsRead operand

/-- Two operands are equal up to how they are written: they name one register, with a sigil or
without, or they have one sigil for a literal and their digits differ in a leading zero at most. -/
inductive Alike : Operand → Operand → Prop
  | register {operand other : Operand} {register : Register}
      (hregister : operand.register? = some register)
      (hregister' : other.register? = some register) : Alike operand other
  | literal {sigil : Sigil} {value value' : String} (hsigil : sigil = .hash ∨ sigil = .dollar)
      (hvalue : value = value' ∨ value = "0" ++ value' ∨ value' = "0" ++ value) :
      Alike ⟨sigil, value⟩ ⟨sigil, value'⟩

variable {operand other : Operand} {register : Register} {sigil : Sigil} {value value' : String}

/-- An operand that names a register is a location, and the register is its `endpoint?`. -/
theorem endpoint?_of_register? (h : operand.register? = some register) :
    operand.kind = .location ∧ operand.endpoint? = some (.register register) := by
  have hlocation : operand.kind = .location := by
    rw [register?] at h
    split at h
    · assumption
    · cases h
  exact ⟨hlocation, by simp [endpoint?, hlocation, h]⟩

/-- An operand whose `endpoint?` is a register names that register. -/
theorem register?_of_endpoint? (h : operand.endpoint? = some (.register register)) :
    operand.register? = some register := by
  rw [endpoint?] at h
  split at h
  · cases h
  · cases h
  · simpa using h
  · cases h
  · cases h

/-- The `byte` of a literal is its `hexValue`. -/
theorem byte_of_isUpperByte (h : Text.IsUpperByte value.toList) :
    (Operand.mk sigil value).byte = .ok (Text.hexValue value.toList).toUInt16 := by
  have hne : value.toList ≠ [] := by
    intro hnil
    simpa [hnil] using h.length_eq
  have hread : Text.readHex? value = some (Text.hexValue value.toList) := by
    rw [← Text.readHex?_ofList hne h.isHexit, String.ofList_toList]
  simp [byte, hread, h.hexValue_lt]

/-- Literals with the same `byte` differ in a leading zero at most. -/
theorem byte_eq_byte_iff (h : Text.IsUpperByte value.toList) (h' : Text.IsUpperByte value'.toList) :
    (Operand.mk sigil value).byte = (Operand.mk sigil value').byte ↔
      value = value' ∨ value = "0" ++ value' ∨ value' = "0" ++ value := by
  have hwords : (Text.hexValue value.toList).toUInt16 = (Text.hexValue value'.toList).toUInt16 ↔
      Text.hexValue value.toList = Text.hexValue value'.toList := by
    have hlt := h.hexValue_lt
    have hlt' := h'.hexValue_lt
    rw [← UInt16.toNat_inj, Nat.toUInt16_eq, Nat.toUInt16_eq,
      UInt16.toNat_ofNat_of_lt' (Nat.lt_trans hlt (by decide)),
      UInt16.toNat_ofNat_of_lt' (Nat.lt_trans hlt' (by decide))]
  rw [byte_of_isUpperByte h, byte_of_isUpperByte h', Except.ok.injEq, hwords,
    Text.hexValue_eq_iff h h']
  simp [← String.toList_inj]

/-- Operands that are `Alike` have the same `endpoint?`. -/
theorem Alike.endpoint?_eq (h : operand.Alike other) : operand.endpoint? = other.endpoint? := by
  cases h with
  | register hregister hregister' =>
      rw [(endpoint?_of_register? hregister).2, (endpoint?_of_register? hregister').2]
  | literal hsigil hvalue => rcases hsigil with rfl | rfl <;> rfl

/-- Operands that are `Alike` have the same `kind`. -/
theorem Alike.kind_eq (h : operand.Alike other) : operand.kind = other.kind := by
  cases h with
  | register hregister hregister' =>
      rw [(endpoint?_of_register? hregister).1, (endpoint?_of_register? hregister').1]
  | literal hsigil hvalue => rfl

/-- An operand that `IsRead` and is no location is a literal. -/
theorem IsRead.isUpperByte (h : operand.IsRead) (hkind : operand.kind ≠ .location) :
    Text.IsUpperByte operand.value.toList := by
  cases h with
  | immediate hvalue | address hvalue => exact hvalue
  | register hregister => exact absurd (endpoint?_of_register? hregister).1 hkind

/-- The `kind` and the `endpoint?` of an operand that `IsRead`. -/
theorem IsRead.kind_cases (h : operand.IsRead) :
    (operand.kind = .immediate ∧ operand.endpoint? = some .immediate) ∨
    (operand.kind = .address ∧ operand.endpoint? = some .memory) ∨
    (operand.kind = .location ∧ ∃ register, operand.endpoint? = some (.register register)) := by
  cases h with
  | immediate hvalue => exact .inl ⟨rfl, rfl⟩
  | address hvalue => exact .inr (.inl ⟨rfl, rfl⟩)
  | register hregister =>
      obtain ⟨hkind, hendpoint⟩ := endpoint?_of_register? hregister
      exact .inr (.inr ⟨hkind, _, hendpoint⟩)

/-- Operands that are read and have the same `endpoint?` have the same `kind`. -/
theorem IsRead.kind_eq (hread : operand.IsRead) (hread' : other.IsRead)
    (h : operand.endpoint? = other.endpoint?) : operand.kind = other.kind := by
  rcases hread.kind_cases with ⟨hkind, hend⟩ | ⟨hkind, hend⟩ | ⟨hkind, register, hend⟩ <;>
    rcases hread'.kind_cases with ⟨hkind', hend'⟩ | ⟨hkind', hend'⟩ | ⟨hkind', register', hend'⟩ <;>
    simp_all

/-- An operand that `IsRead` has a `byte`, unless it names a register. -/
theorem IsRead.exists_byte (h : operand.IsRead) (hkind : operand.kind ≠ .location) :
    ∃ byte, operand.byte = .ok byte :=
  ⟨_, byte_of_isUpperByte (h.isUpperByte hkind)⟩

/-- Operands that are `Alike` and no locations have the same `byte`. -/
theorem Alike.byte_eq (h : operand.Alike other) (hread : operand.IsRead) (hread' : other.IsRead)
    (hkind : operand.kind ≠ .location) : operand.byte = other.byte := by
  have hupper := hread.isUpperByte hkind
  have hupper' := hread'.isUpperByte (h.kind_eq ▸ hkind)
  cases h with
  | register hregister hregister' => exact absurd (endpoint?_of_register? hregister).1 hkind
  | literal hsigil hvalue => exact (byte_eq_byte_iff hupper hupper').mpr hvalue

/-- Operands that are read and have the same `endpoint?` are `Alike`, if they have the same `byte`
or name registers. -/
theorem Alike.of_endpoint?_eq (hread : operand.IsRead) (hread' : other.IsRead)
    (h : operand.endpoint? = other.endpoint?)
    (hbyte : operand.kind ≠ .location → operand.byte = other.byte) : operand.Alike other := by
  cases hread with
  | register hregister =>
      rw [(endpoint?_of_register? hregister).2] at h
      exact .register hregister (register?_of_endpoint? h.symm)
  | immediate hvalue =>
      cases hread' with
      | immediate hvalue' =>
          exact .literal (.inl rfl) ((byte_eq_byte_iff hvalue hvalue').mp (hbyte nofun))
      | address hvalue' => cases h
      | register hregister => rw [(endpoint?_of_register? hregister).2] at h; cases h
  | address hvalue =>
      cases hread' with
      | immediate hvalue' => cases h
      | address hvalue' =>
          exact .literal (.inr rfl) ((byte_eq_byte_iff hvalue hvalue').mp (hbyte nofun))
      | register hregister => rw [(endpoint?_of_register? hregister).2] at h; cases h

end Operand

/-! ### Instructions that have code -/

namespace Instruction

/-- The keyword of the instruction is `HLT`, `NOP` or `MOV`. -/
def hasCode (instruction : Instruction) : Bool :=
  instruction.keyword ∈ [Keyword.hlt, .nop, .mov]

/-- The instructions that have code, as they are read. -/
inductive IsCoded : Instruction → Prop
  | halt {position : Position} : IsCoded (.noOperand position .hlt)
  | idle {position : Position} : IsCoded (.noOperand position .nop)
  | move {position : Position} {source destination : Operand} (hsource : source.IsRead)
      (hdestination : destination.IsRead) (hgoal : destination.kind ≠ .immediate) :
      IsCoded (.binary position .mov source destination)

/-- Two instructions are equal up to what the encoding does not keep: their positions, how their
operands are written, and, in `moveToMemory`, the address that a literal is moved to. -/
inductive SameCode : Instruction → Instruction → Prop
  | halt {position position' : Position} :
      SameCode (.noOperand position .hlt) (.noOperand position' .hlt)
  | idle {position position' : Position} :
      SameCode (.noOperand position .nop) (.noOperand position' .nop)
  | move {position position' : Position} {source source' destination destination' : Operand}
      (hsource : source.Alike source') (hdestination : destination.Alike destination') :
      SameCode (.binary position .mov source destination)
        (.binary position' .mov source' destination')
  | moveToMemory {position position' : Position}
      {source source' destination destination' : Operand} (hsource : source.Alike source')
      (hliteral : source.kind = .immediate ∨ source.kind = .address)
      (hdestination : destination.kind = .address) (hdestination' : destination'.kind = .address) :
      SameCode (.binary position .mov source destination)
        (.binary position' .mov source' destination')

/-- The operation of the machine at an instruction. -/
def operation? : Instruction → Option Operation
  | .noOperand _ .hlt => some .halt
  | .noOperand _ .nop => some .idle
  | .binary _ .mov source destination => do
    let start ← source.endpoint?
    let goal ← destination.endpoint?
    some (.move start goal)
  | _ => none

/-- The operand byte of an instruction. -/
def operandByte? : Instruction → Option Word
  | .binary _ _ source destination =>
    if (moveArgument source destination).kind = .location then none
    else (moveArgument source destination).byte.toOption
  | _ => none

/-- The group of words of an instruction: the opcode of its `operation?` and its `operandByte?`. -/
def group? (instruction : Instruction) : Option CodeGroup := do
  let operation ← instruction.operation?
  let opcode ← operation.opcode?
  some ⟨opcode.toUInt16, instruction.operandByte?⟩

variable {instruction other : Instruction} {group : CodeGroup} {position position' : Position}
  {source source' destination destination' : Operand}

/-- The parts of a `group?`. -/
theorem group?_eq_some_iff :
    instruction.group? = some group ↔ ∃ operation opcode,
      instruction.operation? = some operation ∧ operation.opcode? = some opcode ∧
        group = ⟨opcode.toUInt16, instruction.operandByte?⟩ := by
  simp only [group?, Option.bind_eq_bind, Option.bind_eq_some_iff, Option.some.injEq]
  constructor
  · rintro ⟨operation, hoperation, opcode, hopcode, rfl⟩
    exact ⟨operation, opcode, hoperation, hopcode, rfl⟩
  · rintro ⟨operation, opcode, hoperation, hopcode, rfl⟩
    exact ⟨operation, hoperation, opcode, hopcode, rfl⟩

/-- The `operation?` of a move is the `move` between the end points of its operands. -/
theorem operation?_binary_eq_some_iff {operation : Operation} :
    (Instruction.binary position .mov source destination).operation? = some operation ↔
      ∃ start goal, source.endpoint? = some start ∧ destination.endpoint? = some goal ∧
        operation = .move start goal := by
  simp only [operation?, Option.bind_eq_bind, Option.bind_eq_some_iff, Option.some.injEq]
  constructor
  · rintro ⟨start, hstart, goal, hgoal, rfl⟩
    exact ⟨start, goal, hstart, hgoal, rfl⟩
  · rintro ⟨start, goal, hstart, hgoal, rfl⟩
    exact ⟨start, hstart, goal, hgoal, rfl⟩

/-- The `operandByte?` of a move out of a register is that of its destination. -/
theorem operandByte?_of_location (h : source.kind = .location) :
    (Instruction.binary position .mov source destination).operandByte? =
      if destination.kind = .location then none else destination.byte.toOption := by
  simp only [operandByte?, moveArgument, h, if_true]

/-- The `operandByte?` of a move of a literal is that of the literal. -/
theorem operandByte?_of_ne_location (h : source.kind ≠ .location) :
    (Instruction.binary position .mov source destination).operandByte? =
      source.byte.toOption := by
  simp only [operandByte?, moveArgument, h, if_false]

/-- The `moveOpcode?` of two operands is the opcode of the `operation?` of their move. -/
theorem moveOpcode?_eq_some_iff (position : Position) {opcode : Opcode} :
    moveOpcode? source destination = some opcode ↔ ∃ operation,
      (Instruction.binary position .mov source destination).operation? = some operation ∧
        operation.opcode? = some opcode := by
  cases hstart : source.endpoint? <;> cases hgoal : destination.endpoint? <;>
    simp [moveOpcode?, operation?, hstart, hgoal]

/-- The `moveArgument` of operands that were read was read. -/
theorem isRead_moveArgument (hsource : source.IsRead) (hdestination : destination.IsRead) :
    (moveArgument source destination).IsRead := by
  rw [moveArgument]
  split
  · exact hdestination
  · exact hsource

/-- The words of a move, by its opcode and its `operandByte?`. -/
theorem encodeMove_eq (position : Position) (hsource : source.IsRead)
    (hdestination : destination.IsRead) {opcode : Opcode}
    (hopcode : moveOpcode? source destination = some opcode) :
    encodeMove source destination = .ok (CodeGroup.words ⟨opcode.toUInt16,
      (Instruction.binary position .mov source destination).operandByte?⟩) := by
  rw [encodeMove, hopcode]
  dsimp only [operandByte?]
  by_cases hkind : (moveArgument source destination).kind = .location
  · rw [if_pos hkind, if_pos hkind]
    rfl
  · obtain ⟨byte, hbyte⟩ := (isRead_moveArgument hsource hdestination).exists_byte hkind
    rw [if_neg hkind, if_neg hkind, hbyte]
    rfl

/-- The encoding of an instruction that `IsCoded` is the words of its `group?`. -/
theorem encode_eq_ok_iff (h : instruction.IsCoded) {words : List Word} :
    instruction.encode = .ok words ↔ ∃ group, instruction.group? = some group ∧
      words = group.words := by
  cases h with
  | halt | idle =>
      constructor
      · intro hencode
        cases hencode
        exact ⟨_, rfl, rfl⟩
      · rintro ⟨group, hgroup, rfl⟩
        cases hgroup
        rfl
  | @move position source destination hsource hdestination hgoal =>
      constructor
      · intro hencode
        cases hopcode : moveOpcode? source destination with
        | none =>
            simp only [encode, encodeMove, hopcode] at hencode
            cases hencode
        | some opcode =>
            obtain ⟨operation, hoperation, hcode⟩ := (moveOpcode?_eq_some_iff position).mp hopcode
            rw [encode, encodeMove_eq position hsource hdestination hopcode] at hencode
            cases hencode
            exact ⟨_, group?_eq_some_iff.mpr ⟨operation, opcode, hoperation, hcode, rfl⟩, rfl⟩
      · rintro ⟨group, hgroup, rfl⟩
        obtain ⟨operation, opcode, hoperation, hcode, rfl⟩ := group?_eq_some_iff.mp hgroup
        exact encodeMove_eq position hsource hdestination
          ((moveOpcode?_eq_some_iff position).mpr ⟨operation, hoperation, hcode⟩)

/-- An instruction that `IsCoded` is encoded as the words of a group exactly if that is its
`group?`. -/
theorem encode_eq_words_iff (h : instruction.IsCoded) :
    instruction.encode = .ok group.words ↔ instruction.group? = some group := by
  rw [encode_eq_ok_iff h]
  constructor
  · rintro ⟨found, hfound, hwords⟩
    rw [hfound, CodeGroup.eq_of_words_eq hwords]
  · intro hgroup
    exact ⟨group, hgroup, rfl⟩

/-- An instruction has an `operandByte?` exactly if its operation has an operand. -/
theorem isSome_operandByte?_iff (h : instruction.IsCoded) {operation : Operation}
    (hoperation : instruction.operation? = some operation) :
    instruction.operandByte?.isSome = true ↔ operation.hasOperand = true := by
  cases h with
  | halt | idle =>
      cases hoperation
      simp [operandByte?, Operation.hasOperand]
  | @move position source destination hsource hdestination hgoal =>
      obtain ⟨start, goal, hstart, hend, rfl⟩ := operation?_binary_eq_some_iff.mp hoperation
      have hargument := isRead_moveArgument hsource hdestination
      have hbyte :
          (Instruction.binary position .mov source destination).operandByte?.isSome = true ↔
            (moveArgument source destination).kind ≠ .location := by
        dsimp only [operandByte?]
        by_cases hkind : (moveArgument source destination).kind = .location
        · simp [hkind]
        · obtain ⟨byte, hbyte⟩ := hargument.exists_byte hkind
          simp [hbyte, hkind, Except.toOption]
      rw [hbyte, moveArgument]
      rcases hsource.kind_cases with ⟨hkind, hfrom⟩ | ⟨hkind, hfrom⟩ | ⟨hkind, register, hfrom⟩
      · rw [hstart, Option.some.injEq] at hfrom
        simp [hkind, hfrom, Operation.hasOperand]
      · rw [hstart, Option.some.injEq] at hfrom
        simp [hkind, hfrom, Operation.hasOperand]
      · rw [hstart, Option.some.injEq] at hfrom
        rcases hdestination.kind_cases with ⟨hkind', hto⟩ | ⟨hkind', hto⟩ |
          ⟨hkind', register', hto⟩ <;>
          rw [hend, Option.some.injEq] at hto <;>
          simp [hkind, hkind', hfrom, hto, Operation.hasOperand]

/-- The instruction `IsCoded` and has this `group?`. -/
def Yields (instruction : Instruction) (group : CodeGroup) : Prop :=
  instruction.IsCoded ∧ instruction.group? = some group

/-- The group that an instruction `Yields` is one that `IsProper`. -/
theorem Yields.isProper (h : instruction.Yields group) : group.IsProper := by
  obtain ⟨hcoded, hgroup⟩ := h
  obtain ⟨operation, opcode, hoperation, hopcode, rfl⟩ := group?_eq_some_iff.mp hgroup
  obtain ⟨hle, hlisted⟩ := Operation.opcode_mem_iff hopcode
  exact ⟨hle, hlisted.trans (isSome_operandByte?_iff hcoded hoperation).symm⟩

/-! ### Groups determine instructions -/

/-- Instructions with the same `group?` have the same `operation?` and `operandByte?`. -/
theorem exists_operation_of_group?_eq (hgroup : instruction.group? = some group)
    (hgroup' : other.group? = some group) :
    ∃ operation, instruction.operation? = some operation ∧ other.operation? = some operation ∧
      instruction.operandByte? = other.operandByte? := by
  obtain ⟨operation, opcode, hoperation, hopcode, rfl⟩ := group?_eq_some_iff.mp hgroup
  obtain ⟨operation', opcode', hoperation', hopcode', hsame⟩ := group?_eq_some_iff.mp hgroup'
  rw [CodeGroup.mk.injEq, UInt8.toUInt16_inj] at hsame
  obtain ⟨rfl, hbyte⟩ := hsame
  have hread := Operation.ofOpcode?_of_opcode? hopcode
  rw [Operation.ofOpcode?_of_opcode? hopcode'] at hread
  cases hread
  exact ⟨operation, hoperation, hoperation', hbyte⟩

/-- Moves with the same end points and the same `operandByte?` are in the relation `SameCode`. -/
theorem sameCode_of_move (hsource : source.IsRead) (hsource' : source'.IsRead)
    (hdestination : destination.IsRead) (hdestination' : destination'.IsRead)
    (hgoal : destination.kind ≠ .immediate) (hstart : source.endpoint? = source'.endpoint?)
    (hend : destination.endpoint? = destination'.endpoint?)
    (hbyte : (Instruction.binary position .mov source destination).operandByte? =
      (Instruction.binary position' .mov source' destination').operandByte?) :
    SameCode (.binary position .mov source destination)
      (.binary position' .mov source' destination') := by
  have hfrom := hsource.kind_eq hsource' hstart
  have hto := hdestination.kind_eq hdestination' hend
  have hok {operand operand' : Operand} (hread : operand.IsRead) (hread' : operand'.IsRead)
      (hkind : operand.kind = operand'.kind)
      (h : operand.kind ≠ .location → operand.byte.toOption = operand'.byte.toOption)
      (hne : operand.kind ≠ .location) : operand.byte = operand'.byte := by
    obtain ⟨byte, hbyte⟩ := hread.exists_byte hne
    obtain ⟨byte', hbyte'⟩ := hread'.exists_byte (hkind ▸ hne)
    have hsame := h hne
    rw [hbyte, hbyte'] at hsame ⊢
    exact congrArg Except.ok (Option.some.inj hsame)
  by_cases hregister : source.kind = .location
  · -- The destination is what is encoded, if anything is.
    rw [operandByte?_of_location hregister, operandByte?_of_location (hfrom ▸ hregister), ← hto]
      at hbyte
    refine .move (.of_endpoint?_eq hsource hsource' hstart fun hne => absurd hregister hne)
      (.of_endpoint?_eq hdestination hdestination' hend (hok hdestination hdestination' hto ?_))
    intro hne
    simpa only [hne, if_false] using hbyte
  · -- The source is encoded, and nothing is known of an address that it goes to.
    rw [operandByte?_of_ne_location hregister, operandByte?_of_ne_location (hfrom ▸ hregister)]
      at hbyte
    have halike : source.Alike source' :=
      .of_endpoint?_eq hsource hsource' hstart (hok hsource hsource' hfrom fun _ => hbyte)
    rcases hdestination.kind_cases with ⟨hkind, -⟩ | ⟨hkind, -⟩ | ⟨hkind, -⟩
    · exact absurd hkind hgoal
    · refine .moveToMemory halike ?_ hkind (hto ▸ hkind)
      rcases hsource.kind_cases with ⟨hliteral, -⟩ | ⟨hliteral, -⟩ | ⟨hlocation, -⟩
      · exact .inl hliteral
      · exact .inr hliteral
      · exact absurd hlocation hregister
    · exact .move halike
        (.of_endpoint?_eq hdestination hdestination' hend fun hne => absurd hkind hne)

/-- Instructions in the relation `SameCode` have the same `group?`. -/
theorem SameCode.group?_eq (h : instruction.SameCode other) (hcoded : instruction.IsCoded)
    (hcoded' : other.IsCoded) : instruction.group? = other.group? := by
  have hgroup (hoperation : instruction.operation? = other.operation?)
      (hbyte : instruction.operandByte? = other.operandByte?) :
      instruction.group? = other.group? := by
    rw [group?, group?, hoperation, hbyte]
  cases h with
  | halt | idle => rfl
  | @move position position' source source' destination destination' hsource hdestination =>
      cases hcoded with
      | move hfrom hto hgoal =>
          cases hcoded' with
          | move hfrom' hto' hgoal' =>
              refine hgroup ?_ ?_
              · rw [operation?, operation?, hsource.endpoint?_eq, hdestination.endpoint?_eq]
              · by_cases hregister : source.kind = .location
                · rw [operandByte?_of_location hregister,
                    operandByte?_of_location (hsource.kind_eq ▸ hregister), ← hdestination.kind_eq]
                  by_cases hlocation : destination.kind = .location
                  · rw [if_pos hlocation, if_pos hlocation]
                  · rw [if_neg hlocation, if_neg hlocation,
                      hdestination.byte_eq hto hto' hlocation]
                · rw [operandByte?_of_ne_location hregister,
                    operandByte?_of_ne_location (hsource.kind_eq ▸ hregister),
                    hsource.byte_eq hfrom hfrom' hregister]
  | @moveToMemory position position' source source' destination destination' hsource hliteral
      hdestination hdestination' =>
      cases hcoded with
      | move hfrom hto hgoal =>
          cases hcoded' with
          | move hfrom' hto' hgoal' =>
              have hregister : source.kind ≠ .location := by
                rcases hliteral with hkind | hkind <;> rw [hkind] <;> decide
              refine hgroup ?_ ?_
              · rw [operation?, operation?, hsource.endpoint?_eq]
                simp only [Operand.endpoint?, hdestination, hdestination']
              · rw [operandByte?_of_ne_location hregister,
                  operandByte?_of_ne_location (hsource.kind_eq ▸ hregister),
                  hsource.byte_eq hfrom hfrom' hregister]

/-- Instructions with the same `operation?` and `operandByte?` are in the relation `SameCode`. -/
theorem sameCode_of_operation?_eq (hcoded : instruction.IsCoded) (hcoded' : other.IsCoded)
    {operation : Operation} (hoperation : instruction.operation? = some operation)
    (hoperation' : other.operation? = some operation)
    (hbyte : instruction.operandByte? = other.operandByte?) : instruction.SameCode other := by
  cases hcoded with
  | halt =>
      cases hoperation
      cases hcoded' with
      | halt => exact .halt
      | idle => cases hoperation'
      | move =>
          obtain ⟨start, goal, -, -, hmove⟩ := operation?_binary_eq_some_iff.mp hoperation'
          cases hmove
  | idle =>
      cases hoperation
      cases hcoded' with
      | halt => cases hoperation'
      | idle => exact .idle
      | move =>
          obtain ⟨start, goal, -, -, hmove⟩ := operation?_binary_eq_some_iff.mp hoperation'
          cases hmove
  | move hsource hdestination hgoal =>
      obtain ⟨start, goal, hstart, hend, rfl⟩ := operation?_binary_eq_some_iff.mp hoperation
      cases hcoded' with
      | halt | idle => cases hoperation'
      | move hsource' hdestination' hgoal' =>
          obtain ⟨start', goal', hstart', hend', hmove⟩ :=
            operation?_binary_eq_some_iff.mp hoperation'
          cases hmove
          exact sameCode_of_move hsource hsource' hdestination hdestination' hgoal
            (hstart.trans hstart'.symm) (hend.trans hend'.symm) hbyte

/-- A group determines its instruction up to `SameCode`. -/
theorem sameCode_iff (hcoded : instruction.IsCoded) (hcoded' : other.IsCoded)
    (hgroup : instruction.group? = some group) :
    other.group? = some group ↔ instruction.SameCode other := by
  constructor
  · intro hgroup'
    obtain ⟨operation, hoperation, hoperation', hbyte⟩ :=
      exists_operation_of_group?_eq hgroup hgroup'
    exact sameCode_of_operation?_eq hcoded hcoded' hoperation hoperation' hbyte
  · intro hsame
    rw [← hsame.group?_eq hcoded hcoded', hgroup]

end Instruction

/-! ### Programs -/

namespace Line

variable {token source destination : Token} {operand : Operand}

/-- The operand that a literal token writes `IsRead`. -/
theorem isRead_of_literal (hwrites : token.Writes operand) (hspelled : token.IsSpelled)
    (hkind : token.kind = .hex ∨ token.kind = .address) : operand.IsRead := by
  have hupper := hwrites.isUpperByte hspelled hkind
  obtain ⟨sigil, value⟩ := operand
  obtain ⟨hsigil, -⟩ := hwrites
  rcases hkind with hkind | hkind <;> rw [hkind] at hsigil <;> cases hsigil
  · exact .immediate hupper
  · exact .address hupper

/-- The operand of a token that names a register `IsRead`. -/
theorem isRead_of_names {register : Register} (hwrites : token.Writes operand)
    (hmem : register ∈ Register.all) (hnames : token.Names register) : operand.IsRead :=
  .register ((hwrites.register?_eq_some_iff (isOperand_of_names hnames)).mpr ⟨hmem, hnames⟩)

/-- An instruction that has a `Form` `IsCoded`, or it has no words. -/
theorem Form.isCoded_or_quiet {isFirst : Bool} {line : List Token} {instruction : Instruction}
    (hform : Form isFirst line instruction) (hspelled : ∀ token ∈ line, token.IsSpelled) :
    (instruction.hasCode = true ∧ instruction.IsCoded) ∨
      (instruction.hasCode = false ∧ instruction.encode = .ok []) := by
  cases hform with
  | halt => exact .inl ⟨rfl, .halt⟩
  | idle => exact .inl ⟨rfl, .idle⟩
  | define | jump | start => exact .inr ⟨rfl, rfl⟩
  | @move word source comma destination start goal hword hsource hcomma hdestination hstart hgoal =>
      have hfrom : start.IsRead := by
        rcases hsource with hkind | hkind | ⟨register, hmem, hnames⟩
        · exact isRead_of_literal hstart (hspelled source (by simp)) (.inl hkind)
        · exact isRead_of_literal hstart (hspelled source (by simp)) (.inr hkind)
        · exact isRead_of_names hstart hmem hnames
      have hto : goal.IsRead ∧ goal.kind ≠ .immediate := by
        rcases hdestination with hkind | ⟨register, hwritable, hnames, -⟩
        · refine ⟨isRead_of_literal hgoal (hspelled destination (by simp)) (.inr hkind), ?_⟩
          rw [hgoal.kind_eq, hkind]
          decide
        · have hmem := Register.mem_all_of_isWritable hwritable
          refine ⟨isRead_of_names hgoal hmem hnames, ?_⟩
          rw [(endpoint?_of_names hgoal hmem hnames).1]
          decide
      exact .inl ⟨rfl, .move hfrom hto.1 hto.2⟩

end Line

namespace Placement

/-- The `machineCode` of a program is made of one group for each instruction that `hasCode`.
Induction on the program. -/
theorem exists_groups {program : List Instruction}
    (hread : ∀ instruction ∈ program, (instruction.hasCode = true ∧ instruction.IsCoded) ∨
      (instruction.hasCode = false ∧ instruction.encode = .ok []))
    (hencode : ∀ instruction ∈ program, ∃ words, instruction.encode = .ok words) :
    ∃ groups, machineCode (program.map some) = groups.flatMap CodeGroup.words ∧
      List.Forall₂ Instruction.Yields (program.filter Instruction.hasCode) groups := by
  induction program with
  | nil => exact ⟨[], rfl, .nil⟩
  | cons instruction program ih =>
      obtain ⟨groups, hcode, hgroups⟩ := ih (fun other hmem => hread other (by simp [hmem]))
        fun other hmem => hencode other (by simp [hmem])
      have hcons : machineCode ((instruction :: program).map some) =
          wordsOf (some instruction) ++ machineCode (program.map some) := rfl
      rcases hread instruction (by simp) with ⟨hhas, hcoded⟩ | ⟨hhas, hquiet⟩
      · obtain ⟨words, hwords⟩ := hencode instruction (by simp)
        obtain ⟨group, hgroup, rfl⟩ := (Instruction.encode_eq_ok_iff hcoded).mp hwords
        refine ⟨group :: groups, ?_, ?_⟩
        · simp only [hcons, wordsOf, hwords, hcode, List.flatMap_cons]
        · rw [List.filter_cons_of_pos hhas]
          exact .cons ⟨hcoded, hgroup⟩ hgroups
      · refine ⟨groups, ?_, ?_⟩
        · simp only [hcons, wordsOf, hquiet, hcode, List.nil_append]
        · rw [List.filter_cons_of_neg (by simp [hhas])]
          exact hgroups

/-- The `machineCode` of a program that was read is made of groups. -/
theorem exists_groups_of_isProgram {program : List Instruction} (h : Line.IsProgram program) :
    ∃ groups, machineCode (program.map some) = groups.flatMap CodeGroup.words ∧
      List.Forall₂ Instruction.Yields (program.filter Instruction.hasCode) groups := by
  refine exists_groups ?_ ?_
  · obtain ⟨lines, hspelled, hforms⟩ := h
    intro instruction hmem
    obtain ⟨isHere, line, -, hform, hline⟩ := exists_form_of_mem hforms hspelled instruction hmem
    exact hform.isCoded_or_quiet hline
  · intro instruction hmem
    obtain ⟨words, hwords, -⟩ := (sound_of_isProgram h).encode instruction hmem
    exact ⟨words, hwords⟩

section Groups

variable {program program' : List Instruction} {groups groups' : List CodeGroup}

/-- The words of the groups that instructions yield are cut by `split?` into these groups. -/
theorem split?_of_groups (h : List.Forall₂ Instruction.Yields program groups) :
    CodeGroup.split? (groups.flatMap CodeGroup.words) = some groups := by
  refine CodeGroup.split?_flatMap fun group hmem => ?_
  induction h with
  | nil => cases hmem
  | cons hhead htail ih =>
      rcases List.mem_cons.mp hmem with rfl | hmem
      · exact hhead.isProper
      · exact ih hmem

/-- Each instruction that `Yields` a group `IsCoded`. -/
theorem isCoded_of_mem (h : List.Forall₂ Instruction.Yields program groups)
    {instruction : Instruction} (hmem : instruction ∈ program) : instruction.IsCoded := by
  induction h with
  | nil => cases hmem
  | cons hhead htail ih =>
      rcases List.mem_cons.mp hmem with rfl | hmem
      · exact hhead.1
      · exact ih hmem

/-- Programs yield the same groups exactly if their instructions are pairwise in the relation
`SameCode`. -/
theorem groups_eq_iff (h : List.Forall₂ Instruction.Yields program groups)
    (h' : List.Forall₂ Instruction.Yields program' groups') :
    groups = groups' ↔ List.Forall₂ Instruction.SameCode program program' := by
  induction h generalizing program' groups' with
  | nil =>
      cases h' with
      | nil => exact ⟨fun _ => .nil, fun _ => rfl⟩
      | cons hhead' htail' => exact ⟨nofun, nofun⟩
  | cons hhead htail ih =>
      cases h' with
      | nil => exact ⟨nofun, nofun⟩
      | cons hhead' htail' =>
          rw [List.cons.injEq, List.forall₂_cons, ih htail',
            ← Instruction.sameCode_iff hhead.1 hhead'.1 hhead.2, hhead'.2, Option.some.injEq]
          exact and_congr_left fun _ => eq_comm

end Groups

end Placement

/-- The words that an assembly emits: `programSize` of them, from the origin on. -/
def Assembler.emitted (assembler : Assembler) (program : List Instruction) : List Word :=
  match (assembler.assemble (program.map some)).2.1 with
  | .image image =>
    (image.words.drop (assembler.assemble (program.map some)).1.origin).take (programSize program)
  | _ => []

namespace Placement

/-- An assembly that answers an image has `Placed` all its instructions. -/
theorem exists_run_of_image {assembler : Assembler} {instructions : List (Option Instruction)}
    {image : Image} (h : (assembler.assemble instructions).2.1 = .image image) :
    ∃ capacity last, Placed capacity instructions last ∧ image = last.image ∧
      (assembler.assemble instructions).1.origin = last.origin := by
  cases hblank : Image.blank? assembler.effectiveCapacity assembler.effectiveWidth with
  | none =>
      rw [Assembler.assemble, hblank] at h
      cases h
  | some blank =>
      obtain ⟨houtcome, hassembler⟩ := assemble_of_blank? hblank instructions
      rw [houtcome] at h
      rcases hrun : ({ image := blank } : Assembly).run instructions with ⟨last, error⟩
      rw [hrun] at h hassembler
      cases error with
      | some error => cases h
      | none =>
          cases h
          exact ⟨_, last, (placed_of_run (words_of_blank? hblank) hrun).2, rfl, by rw [hassembler]⟩

/-- The words that are `emitted` are the `machineCode` of the program. -/
theorem emitted_eq {assembler : Assembler} {program : List Instruction}
    (h : Line.IsProgram program)
    (himage : ∃ image, (assembler.assemble (program.map some)).2.1 = .image image) :
    assembler.emitted program = machineCode (program.map some) := by
  obtain ⟨image, himage⟩ := himage
  obtain ⟨capacity, last, hplaced, rfl, horigin⟩ := exists_run_of_image himage
  rw [Assembler.emitted, himage]
  dsimp only
  rw [horigin, hplaced.words_eq, hplaced.origin_eq, placedWords, List.append_assoc,
    List.drop_left' (List.length_replicate ..),
    List.take_left' (sound_of_isProgram h).length_machineCode]

/-- **Machine code is uniquely decodable.** The words that are `emitted` for what is read from a
source are cut by `split?`, from left to right, into one group for each instruction that `hasCode`,
and nothing is left over. A group determines its instruction up to `SameCode`. So two programs have
the same words exactly if their instructions with code are pairwise in the relation `SameCode`. -/
theorem machineCode_uniquely_decodable (assembler : Assembler) (source : Source)
    (himage : ∃ image, (assembler.assemble (source.program.map some)).2.1 = .image image) :
    (∃ groups, CodeGroup.split? (assembler.emitted source.program) = some groups ∧
      List.Forall₂ (fun instruction group => instruction.encode = .ok group.words)
        (source.program.filter Instruction.hasCode) groups) ∧
    ∀ (assembler' : Assembler) (source' : Source),
      (∃ image, (assembler'.assemble (source'.program.map some)).2.1 = .image image) →
      (∀ instruction ∈ source.program.filter Instruction.hasCode,
        ∀ other ∈ source'.program.filter Instruction.hasCode, ∀ group : CodeGroup,
        instruction.encode = .ok group.words →
          (other.encode = .ok group.words ↔ instruction.SameCode other)) ∧
      (assembler.emitted source.program = assembler'.emitted source'.program ↔
        List.Forall₂ Instruction.SameCode (source.program.filter Instruction.hasCode)
          (source'.program.filter Instruction.hasCode)) := by
  obtain ⟨groups, hcode, hgroups⟩ := exists_groups_of_isProgram source.isProgram_program
  have hemitted := emitted_eq source.isProgram_program himage
  refine ⟨⟨groups, ?_, ?_⟩, ?_⟩
  · rw [hemitted, hcode, split?_of_groups hgroups]
  · refine hgroups.imp fun instruction group hyields => ?_
    exact (Instruction.encode_eq_words_iff hyields.1).mpr hyields.2
  · intro assembler' source' himage'
    obtain ⟨groups', hcode', hgroups'⟩ := exists_groups_of_isProgram source'.isProgram_program
    have hemitted' := emitted_eq source'.isProgram_program himage'
    refine ⟨?_, ?_⟩
    · intro instruction hmem other hmem' group hencode
      have hcoded := isCoded_of_mem hgroups hmem
      have hcoded' := isCoded_of_mem hgroups' hmem'
      rw [Instruction.encode_eq_words_iff hcoded] at hencode
      rw [Instruction.encode_eq_words_iff hcoded', Instruction.sameCode_iff hcoded hcoded' hencode]
    · rw [← groups_eq_iff hgroups hgroups', hemitted, hemitted', hcode, hcode']
      constructor
      · intro hwords
        have hsplit := split?_of_groups hgroups
        rw [hwords, split?_of_groups hgroups'] at hsplit
        exact (Option.some.inj hsplit).symm
      · rintro rfl
        rfl

/-- Two programs with the same words, of which one is the opcode of another instruction. The second
program writes its operands in other ways, and moves a literal to another address. -/
theorem machineCode_uniquely_decodable_respelled :
    let assembler : Assembler := { capacity := 8 }
    let source : Source := ⟨"START $02\nDEF .x\nMOV #2c,@A\nMOV $7,$9\nHLT".toList, none⟩
    let other : Source := ⟨"MOV #2C,A\n\nMOV $07,$FF ; there\nHLT".toList, none⟩
    (∃ image, (assembler.assemble (source.program.map some)).2.1 = .image image) ∧
    (∃ image, (assembler.assemble (other.program.map some)).2.1 = .image image) ∧
    assembler.emitted source.program = [0x21, 0x2C, 0x1F, 0x07, 0x20] ∧
    (∃ groups, CodeGroup.split? [0x21, 0x2C, 0x1F, 0x07, 0x20] = some groups ∧
      groups.length = (source.program.filter Instruction.hasCode).length) ∧
    List.Forall₂ Instruction.SameCode (source.program.filter Instruction.hasCode)
      (other.program.filter Instruction.hasCode) := by
  intro assembler source other
  have hprogram : source.program =
      [ .unary ⟨1, 0⟩ .start ⟨.dollar, "02"⟩,
        .unary ⟨2, 0⟩ .define ⟨.dot, "x"⟩,
        .binary ⟨3, 0⟩ .mov ⟨.hash, "2C"⟩ ⟨.at, "A"⟩,
        .binary ⟨4, 0⟩ .mov ⟨.dollar, "7"⟩ ⟨.dollar, "9"⟩,
        .noOperand ⟨5, 0⟩ .hlt ] := by decide +kernel
  have hprogram' : other.program =
      [ .binary ⟨1, 0⟩ .mov ⟨.hash, "2C"⟩ ⟨.bare, "A"⟩,
        .binary ⟨3, 0⟩ .mov ⟨.dollar, "07"⟩ ⟨.dollar, "FF"⟩,
        .noOperand ⟨4, 0⟩ .hlt ] := by decide +kernel
  have hrun : (assembler.assemble (source.program.map some)).2.1 =
      .image ⟨[0x00, 0x00, 0x21, 0x2C, 0x1F, 0x07, 0x20, 0x00], 2, []⟩ := by
    rw [hprogram]
    decide +kernel
  have hrun' : (assembler.assemble (other.program.map some)).2.1 =
      .image ⟨[0x21, 0x2C, 0x1F, 0x07, 0x20, 0x00, 0x00, 0x00], 2, []⟩ := by
    rw [hprogram']
    decide +kernel
  have hemitted : assembler.emitted source.program = [0x21, 0x2C, 0x1F, 0x07, 0x20] ∧
      assembler.emitted other.program = [0x21, 0x2C, 0x1F, 0x07, 0x20] := by
    rw [hprogram, hprogram']
    decide +kernel
  obtain ⟨⟨groups, hsplit, hgroups⟩, hother⟩ :=
    machineCode_uniquely_decodable assembler source ⟨_, hrun⟩
  rw [hemitted.1] at hsplit
  refine ⟨⟨_, hrun⟩, ⟨_, hrun'⟩, hemitted.1, ⟨groups, hsplit, hgroups.length_eq.symm⟩, ?_⟩
  exact (hother assembler other ⟨_, hrun'⟩).2.mp (hemitted.1.trans hemitted.2.symm)

end Placement

end MovAsm

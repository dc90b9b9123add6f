import Mathlib.Data.List.Induction
import Mathlib.Tactic.ByContra
import MovAsm.Assembly
import MovAsm.Proofs.Check

/-!
# Where Instructions Are Placed

The image of a list of instructions has a closed form. The words of the instructions stand one
after the other from the origin on, and all else is filled with words that do nothing. This module
states that form without the placing loop, and shows that the loop arrives at it exactly when it
can.

The loop threads an image, an address, a flag and a label table through the instructions. What
they hold after some instructions were placed is the invariant `Placed`; whether one more can be
placed is `Admissible`. Both are stated in terms of the instructions before, never of the state.

## Main results

* `Image.words_write`: writing replaces a stretch of the words and leaves the others alone.
* `run_cases`: a run ends with the last instruction or before the first that is at fault.
* `Placed.place_ok_iff`: after placed instructions, the next is placed exactly when it is
  admissible.
* `placeable_append_singleton`: a list can be placed exactly when each of its instructions is
  admissible after those before it.
* `run_eq_none_iff`: the loop runs to its end exactly on the lists that can be placed.
* `assemble_closed_form`: when an assembly succeeds, and which image it answers.
-/

namespace MovAsm

/-! ### Writing words -/

/-- An `Image.write` replaces a stretch of the words and leaves the others alone. -/
theorem Image.words_write (image : Image) (address : Nat) (words : List Word)
    (h : address + words.length ≤ image.words.length) :
    (image.write address words).words =
      image.words.take address ++ words ++ image.words.drop (address + words.length) := by
  induction words generalizing image address with
  | nil => simp [write]
  | cons word rest ih =>
      rw [List.length_cons] at h
      rw [write, ih _ _ (by rw [List.length_set]; omega)]
      have htake : (image.words.set address word).take (address + 1) =
          image.words.take address ++ [word] := by
        rw [List.take_add_one, List.take_set_of_le (Nat.le_refl address),
          List.getElem?_set_self (by omega), Option.toList_some]
      have hdrop : (image.words.set address word).drop (address + 1 + rest.length) =
          image.words.drop (address + (word :: rest).length) := by
        rw [List.drop_set_of_lt (by omega), List.length_cons]
        congr 1
        omega
      rw [htake, hdrop]
      simp

/-- An `Image.write` keeps the number of words. -/
@[simp] theorem Image.length_words_write (image : Image) (address : Nat) (words : List Word) :
    (image.write address words).words.length = image.words.length := by
  induction words generalizing image address with
  | nil => rfl
  | cons word rest ih => rw [write, ih, List.length_set]

namespace Placement

/-! ### What the instructions say -/

/-- The instruction is there and has an encoding of its own. -/
def IsEncodable (instruction : Option Instruction) : Prop :=
  ∃ known words, instruction = some known ∧ known.encode = .ok words

/-- The words of an instruction; none if it is missing or has no encoding. -/
def wordsOf : Option Instruction → List Word
  | some instruction =>
    match instruction.encode with
    | .ok words => words
    | .error _ => []
  | none => []

/-- The words of instructions one after the other. -/
def machineCode (instructions : List (Option Instruction)) : List Word :=
  instructions.flatMap wordsOf

/-- The label that an instruction defines. -/
def definedName? : Option Instruction → Option String
  | some (.unary _ .define operand) => some operand.value
  | _ => none

/-- The labels that instructions define, in order. -/
def definedNames (instructions : List (Option Instruction)) : List String :=
  instructions.filterMap definedName?

/-- The origin that an instruction sets, as it is written. -/
def originText? : Option Instruction → Option String
  | some (.unary _ .start operand) => some operand.value
  | _ => none

/-- The origins that instructions set, in order and as they are written. -/
def originTexts (instructions : List (Option Instruction)) : List String :=
  instructions.filterMap originText?

/-- The origin in effect: the last one that is set, or zero. -/
def finalOrigin (instructions : List (Option Instruction)) : Nat :=
  (((originTexts instructions).getLast?).bind Text.readHex?).getD 0

/-- The text writes an origin of sixteen bits within an image of that capacity. -/
def IsOrigin (capacity : Nat) (text : String) : Prop :=
  ∃ origin, Text.readHex? text = some origin ∧ origin < 0x10000 ∧ origin < capacity

/-- A list of instructions can be placed into an image of that capacity: each of them has an
encoding, no origin is set after an instruction that has words, every origin lies within the image,
no label is defined twice, and the words fit into the image from the origin on. -/
structure Placeable (capacity : Nat) (instructions : List (Option Instruction)) : Prop where
  encodable : ∀ instruction ∈ instructions, IsEncodable instruction
  origin_first : instructions.Pairwise fun earlier later =>
    wordsOf earlier ≠ [] → originText? later = none
  origin_within : ∀ text ∈ originTexts instructions, IsOrigin capacity text
  names_nodup : (definedNames instructions).Nodup
  fits : finalOrigin instructions + (machineCode instructions).length ≤ capacity

section Append

variable (before after : List (Option Instruction)) (instruction : Option Instruction)

@[simp] theorem machineCode_append :
    machineCode (before ++ after) = machineCode before ++ machineCode after :=
  List.flatMap_append

@[simp] theorem machineCode_singleton : machineCode [instruction] = wordsOf instruction := by
  simp [machineCode]

@[simp] theorem definedNames_append :
    definedNames (before ++ after) = definedNames before ++ definedNames after :=
  List.filterMap_append

@[simp] theorem definedNames_singleton :
    definedNames [instruction] = (definedName? instruction).toList := by
  cases h : definedName? instruction <;> simp [definedNames, h]

@[simp] theorem originTexts_append :
    originTexts (before ++ after) = originTexts before ++ originTexts after :=
  List.filterMap_append

@[simp] theorem originTexts_singleton :
    originTexts [instruction] = (originText? instruction).toList := by
  cases h : originText? instruction <;> simp [originTexts, h]

/-- The `machineCode` is empty exactly when no instruction has words. -/
theorem machineCode_eq_nil_iff :
    machineCode before = [] ↔ ∀ instruction ∈ before, wordsOf instruction = [] := by
  simp [machineCode]

end Append

/-- The `finalOrigin` after an instruction that sets none. -/
theorem finalOrigin_append_of_none {before : List (Option Instruction)}
    {instruction : Option Instruction} (h : originText? instruction = none) :
    finalOrigin (before ++ [instruction]) = finalOrigin before := by
  simp [finalOrigin, h]

/-- The `finalOrigin` after an instruction that sets one. -/
theorem finalOrigin_append_of_some {before : List (Option Instruction)}
    {instruction : Option Instruction} {text : String} {origin : Nat}
    (h : originText? instruction = some text) (hr : Text.readHex? text = some origin) :
    finalOrigin (before ++ [instruction]) = origin := by
  simp [finalOrigin, h, hr]

/-- If every origin lies within the image, so does the `finalOrigin`. -/
theorem finalOrigin_le {capacity : Nat} {instructions : List (Option Instruction)}
    (h : ∀ text ∈ originTexts instructions, IsOrigin capacity text) :
    finalOrigin instructions ≤ capacity := by
  rw [finalOrigin]
  cases hl : (originTexts instructions).getLast? with
  | none => simp
  | some text =>
      obtain ⟨origin, hr, -, hlt⟩ := h text (List.mem_of_getLast? hl)
      simp only [Option.bind_some, hr, Option.getD_some]
      omega

/-! ### What placing an instruction comes to -/

/-- The words of `encodeMove` have at least an opcode. -/
theorem encodeMove_ne_nil {source destination : Operand} {words : List Word}
    (h : encodeMove source destination = .ok words) : words ≠ [] := by
  rw [encodeMove] at h
  split at h
  · cases h
  · dsimp only at h
    split at h
    · cases h
      simp
    · cases hb : (moveArgument source destination).byte with
      | error fault => rw [hb] at h; cases h
      | ok byte => rw [hb] at h; cases h; simp

/-- The ways in which an instruction takes part in an assembly: it defines a `label`, sets an
`origin`, is a `jump` that is left out, has words (`code`), or is `refused` by every assembly. -/
inductive Role : Option Instruction → Prop
  | label (position : Position) (operand : Operand) :
      Role (some (.unary position .define operand))
  | origin (position : Position) (operand : Operand) :
      Role (some (.unary position .start operand))
  | jump (position : Position) (operand : Operand) :
      Role (some (.unary position .jmp operand))
  | code {instruction : Instruction} {word : Word} {rest : List Word}
      (hencode : instruction.encode = .ok (word :: rest))
      (hname : definedName? (some instruction) = none)
      (horigin : originText? (some instruction) = none)
      (hplace : ∀ assembly : Assembly,
        assembly.place (some instruction) = assembly.emit instruction (word :: rest)) :
      Role (some instruction)
  | refused {instruction : Option Instruction} {fault : AssemblyFault}
      (hnot : ¬IsEncodable instruction)
      (hplace : ∀ assembly : Assembly, assembly.place instruction = .error fault) :
      Role instruction

/-- An instruction whose keyword does not go with its form is `refused`. -/
theorem Role.of_encode_error {instruction : Instruction} {fault : AssemblyFault}
    (h : instruction.encode = .error fault)
    (hplace : ∀ assembly : Assembly, assembly.place (some instruction) = .error fault) :
    Role (some instruction) := by
  refine .refused ?_ hplace
  rintro ⟨known, words, hknown, hok⟩
  cases hknown
  rw [h] at hok
  cases hok

/-- Every instruction has one of the roles. -/
theorem role (instruction : Option Instruction) : Role instruction := by
  cases instruction with
  | none =>
      refine @Role.refused _ .expressionType ?_ fun _ => rfl
      rintro ⟨known, words, hknown, -⟩
      cases hknown
  | some instruction =>
      cases instruction with
      | noOperand position keyword =>
          cases keyword with
          | hlt | nop => exact .code rfl rfl rfl fun _ => rfl
          | _ => exact .of_encode_error rfl fun _ => rfl
      | unary position keyword operand =>
          cases keyword with
          | define => exact .label position operand
          | start => exact .origin position operand
          | jmp => exact .jump position operand
          | _ => exact .of_encode_error rfl fun _ => rfl
      | binary position keyword source destination =>
          cases keyword with
          | mov =>
              -- Only a move can be of the right form and still have no encoding.
              cases hm : encodeMove source destination with
              | error fault =>
                  refine .of_encode_error hm fun assembly => ?_
                  simp [Assembly.place, Instruction.encode, hm, bind, Except.bind]
              | ok words =>
                  obtain ⟨word, rest, rfl⟩ := List.exists_cons_of_ne_nil (encodeMove_ne_nil hm)
                  refine .code hm rfl rfl fun assembly => ?_
                  simp [Assembly.place, Instruction.encode, hm, bind, Except.bind]
          | _ => exact .of_encode_error rfl fun _ => rfl
      | foreign position keyword => exact .of_encode_error rfl fun _ => rfl

/-! ### The invariant of the placing loop -/

/-- The words of an image after some instructions were placed: their `machineCode` from the
`finalOrigin` on, and words that do nothing around it. -/
def placedWords (capacity : Nat) (instructions : List (Option Instruction)) : List Word :=
  List.replicate (finalOrigin instructions) Opcode.idle.toUInt16 ++ machineCode instructions ++
    List.replicate (capacity - (finalOrigin instructions + (machineCode instructions).length))
      Opcode.idle.toUInt16

/-- The number of `placedWords` is the capacity, if the code fits. -/
theorem length_placedWords {capacity : Nat} {instructions : List (Option Instruction)}
    (h : finalOrigin instructions + (machineCode instructions).length ≤ capacity) :
    (placedWords capacity instructions).length = capacity := by
  rw [placedWords]
  simp only [List.length_append, List.length_replicate]
  omega

/-- The invariant of the placing loop: what an assembly holds once `instructions` were placed,
starting from a new image. It is stated in terms of the instructions, field by field. -/
structure Placed (capacity : Nat) (instructions : List (Option Instruction))
    (assembly : Assembly) : Prop where
  origin_eq : assembly.origin = finalOrigin instructions
  address_eq : assembly.address = finalOrigin instructions + (machineCode instructions).length
  address_le : assembly.address ≤ capacity
  emitted_iff : assembly.emitted = true ↔ machineCode instructions ≠ []
  names_eq : assembly.labels.map Prod.fst = definedNames instructions
  words_eq : assembly.image.words = placedWords capacity instructions

/-- One more instruction can be placed after others: it has an encoding; if it sets an origin, that
lies within the image and there is no code yet; if it defines a label, that is new; and its words
fit behind the code. -/
structure Admissible (capacity : Nat) (before : List (Option Instruction))
    (instruction : Option Instruction) : Prop where
  encodable : IsEncodable instruction
  origin : ∀ text, originText? instruction = some text →
    machineCode before = [] ∧ IsOrigin capacity text
  name : ∀ name, definedName? instruction = some name → name ∉ definedNames before
  room : finalOrigin before + (machineCode before).length + (wordsOf instruction).length ≤ capacity

section Invariant

variable {capacity : Nat} {before : List (Option Instruction)} {assembly next : Assembly}

/-- The image keeps its size. -/
theorem Placed.length_words (h : Placed capacity before assembly) :
    assembly.image.words.length = capacity := by
  have hle := h.address_le
  rw [h.address_eq] at hle
  rw [h.words_eq, length_placedWords hle]

/-- In a new image nothing is `Placed`. -/
theorem placed_nil (image : Image)
    (h : image.words = List.replicate capacity Opcode.idle.toUInt16) :
    Placed capacity [] { image } where
  origin_eq := rfl
  address_eq := rfl
  address_le := Nat.zero_le capacity
  emitted_iff := by simp [machineCode]
  names_eq := rfl
  words_eq := by simp [h, placedWords, finalOrigin, originTexts, machineCode]

/-- A `lookup` finds a label exactly if it was defined. -/
theorem Placed.isSome_lookup_iff (h : Placed capacity before assembly) (name : String) :
    (assembly.labels.lookup name).isSome = true ↔ name ∈ definedNames before := by
  rw [← h.names_eq]
  simp

/-- The answer of `define`: a label that is not in the table is entered at the current address. -/
theorem Placed.define_ok_iff (h : Placed capacity before assembly) (name : String) :
    assembly.define name = .ok next ↔ name ∉ definedNames before ∧
      next = { assembly with
        labels := assembly.labels ++ [(name, assembly.address)]
        listing := assembly.listing ++ [.label assembly.address name] } := by
  rw [← h.isSome_lookup_iff, Assembly.define]
  cases hfound : (assembly.labels.lookup name).isSome with
  | true => simp
  | false => simp [eq_comm]

/-- The answer of `setOrigin`: an origin is set if there is no code yet and it lies within the
image. -/
theorem Placed.setOrigin_ok_iff (h : Placed capacity before assembly) (text : String) :
    assembly.setOrigin text = .ok next ↔ machineCode before = [] ∧
      ∃ origin, Text.readHex? text = some origin ∧ origin < 0x10000 ∧ origin < capacity ∧
        next = { assembly with origin, address := origin } := by
  have hemitted : assembly.emitted = false ↔ machineCode before = [] := by
    rw [← Bool.not_eq_true, h.emitted_iff, Classical.not_not]
  rw [Assembly.setOrigin, h.length_words, ← hemitted]
  cases assembly.emitted with
  | true => simp
  | false =>
      cases Text.readHex? text with
      | none => simp
      | some origin =>
          rw [if_neg Bool.false_ne_true]
          dsimp only
          constructor
          · intro hok
            split at hok
            · cases hok
            split at hok
            · cases hok
            · cases hok
              exact ⟨rfl, origin, rfl, by omega, by omega, rfl⟩
          · rintro ⟨-, origin', horigin, hword, hcap, rfl⟩
            cases horigin
            rw [if_neg (by omega), if_neg (by omega), Check.pure_eq_ok]

/-- The answer of `emit`: the words of an instruction are written if they fit behind the code. -/
theorem Placed.emit_ok_iff (h : Placed capacity before assembly) (instruction : Instruction)
    (word : Word) (rest : List Word) :
    assembly.emit instruction (word :: rest) = .ok next ↔
      finalOrigin before + (machineCode before).length + (word :: rest).length ≤ capacity ∧
      next = { assembly with
        image := assembly.image.write assembly.address (word :: rest)
        address := assembly.address + (word :: rest).length
        emitted := true
        listing := assembly.listing ++ [.code assembly.address word instruction] } := by
  rw [Assembly.emit, h.length_words, ← h.address_eq]
  by_cases hle : assembly.address + (word :: rest).length ≤ capacity
  · rw [if_neg (by omega), Check.pure_eq_ok, Except.ok.injEq, eq_comm]
    exact ⟨fun hnext => ⟨hle, hnext⟩, fun hnext => hnext.2⟩
  · rw [if_pos (by omega), Check.throw_eq_error]
    refine ⟨fun herror => ?_, fun hnext => absurd hnext.1 hle⟩
    cases herror

/-- To write code behind the `placedWords` gives the `placedWords` of one more instruction. -/
theorem placedWords_append {instruction : Option Instruction} {image : Image}
    (horigin : originText? instruction = none)
    (hwords : image.words = placedWords capacity before)
    (hroom : finalOrigin before + (machineCode before).length + (wordsOf instruction).length ≤
      capacity) :
    (image.write (finalOrigin before + (machineCode before).length) (wordsOf instruction)).words =
      placedWords capacity (before ++ [instruction]) := by
  have hlength : image.words.length = capacity := by
    rw [hwords, length_placedWords (by omega)]
  have hfilled : (List.replicate (finalOrigin before) Opcode.idle.toUInt16 ++
      machineCode before).length = finalOrigin before + (machineCode before).length := by
    simp
  rw [Image.words_write _ _ _ (by omega), hwords, placedWords, placedWords,
    finalOrigin_append_of_none horigin, machineCode_append, machineCode_singleton, ← hfilled,
    List.take_left, List.drop_length_add_append, List.drop_replicate]
  simp [Nat.sub_sub, Nat.add_assoc]

/-- After instructions that are `Placed`, `place` succeeds exactly when the next one is
`Admissible`. -/
theorem Placed.place_ok_iff (h : Placed capacity before assembly)
    (instruction : Option Instruction) :
    (∃ next, assembly.place instruction = .ok next) ↔ Admissible capacity before instruction := by
  have hroom := h.address_le
  rw [h.address_eq] at hroom
  cases role instruction with
  | label position operand =>
      have hplace : assembly.place (some (.unary position .define operand)) =
          assembly.define operand.value := rfl
      simp only [hplace, h.define_ok_iff, exists_and_left, exists_eq, and_true]
      refine ⟨fun hnew => ⟨⟨_, _, rfl, rfl⟩, ?_, ?_, hroom⟩, fun hadm => hadm.name _ rfl⟩
      · intro text htext
        cases htext
      · intro name hname
        cases hname
        exact hnew
  | origin position operand =>
      have hplace : assembly.place (some (.unary position .start operand)) =
          assembly.setOrigin operand.value := rfl
      simp only [hplace, h.setOrigin_ok_iff]
      constructor
      · rintro ⟨next, hcode, origin, hread, hword, hcap, -⟩
        refine ⟨⟨_, _, rfl, rfl⟩, ?_, ?_, hroom⟩
        · intro text htext
          cases htext
          exact ⟨hcode, origin, hread, hword, hcap⟩
        · intro name hname
          cases hname
      · intro hadm
        obtain ⟨hcode, origin, hread, hword, hcap⟩ := hadm.origin _ rfl
        exact ⟨_, hcode, origin, hread, hword, hcap, rfl⟩
  | jump position operand =>
      refine ⟨fun _ => ⟨⟨_, _, rfl, rfl⟩, ?_, ?_, hroom⟩, fun _ => ⟨_, rfl⟩⟩
      · intro text htext
        cases htext
      · intro name hname
        cases hname
  | @code known word rest hencode hname horigin hplace =>
      have hwords : wordsOf (some known) = word :: rest := by
        simp only [wordsOf, hencode]
      simp only [hplace, h.emit_ok_iff, exists_and_left, exists_eq, and_true]
      constructor
      · intro hfits
        refine ⟨⟨_, _, rfl, hencode⟩, ?_, ?_, hwords ▸ hfits⟩
        · intro text htext
          rw [horigin] at htext
          cases htext
        · intro name hdefined
          rw [hname] at hdefined
          cases hdefined
      · intro hadm
        exact hwords ▸ hadm.room
  | @refused _ fault hnot hplace =>
      refine ⟨?_, fun hadm => absurd hadm.encodable hnot⟩
      rintro ⟨next, hok⟩
      rw [hplace] at hok
      cases hok

/-- Without code, the `placedWords` do not depend on the origin. -/
theorem placedWords_of_code_nil {instructions : List (Option Instruction)}
    (hcode : machineCode instructions = []) (hle : finalOrigin instructions ≤ capacity) :
    placedWords capacity instructions = List.replicate capacity Opcode.idle.toUInt16 := by
  rw [placedWords, hcode, List.append_nil, List.length_nil, Nat.add_zero,
    List.replicate_append_replicate, Nat.add_sub_cancel' hle]

/-- An instruction that has no words and sets no origin keeps `Placed`, whatever labels and listing
it adds. -/
theorem Placed.append_quiet (h : Placed capacity before assembly)
    {instruction : Option Instruction} {labels : Labels} {listing : List ListingEntry}
    (horigin : originText? instruction = none) (hwords : wordsOf instruction = [])
    (hnames : labels.map Prod.fst = definedNames (before ++ [instruction])) :
    Placed capacity (before ++ [instruction]) { assembly with labels, listing } := by
  have hfinal : finalOrigin (before ++ [instruction]) = finalOrigin before :=
    finalOrigin_append_of_none horigin
  have hcode : machineCode (before ++ [instruction]) = machineCode before := by
    simp [hwords]
  refine ⟨?_, ?_, h.address_le, ?_, hnames, ?_⟩
  · rw [hfinal]
    exact h.origin_eq
  · rw [hfinal, hcode]
    exact h.address_eq
  · rw [hcode]
    exact h.emitted_iff
  · rw [placedWords, hfinal, hcode]
    exact h.words_eq

/-- To `place` one more instruction keeps `Placed`. -/
theorem Placed.step (h : Placed capacity before assembly) {instruction : Option Instruction}
    (hok : assembly.place instruction = .ok next) :
    Placed capacity (before ++ [instruction]) next := by
  have hadm := (h.place_ok_iff instruction).mp ⟨next, hok⟩
  cases role instruction with
  | label position operand =>
      obtain ⟨-, rfl⟩ := (h.define_ok_iff _).mp hok
      exact h.append_quiet rfl rfl (by simp [h.names_eq, definedName?])
  | origin position operand =>
      have hwords : wordsOf (some (.unary position .start operand)) = [] := rfl
      obtain ⟨hcode, origin, hread, -, hcap, rfl⟩ := (h.setOrigin_ok_iff _).mp hok
      have horigin : finalOrigin (before ++ [some (.unary position .start operand)]) = origin :=
        finalOrigin_append_of_some rfl hread
      have hnone : machineCode (before ++ [some (.unary position .start operand)]) = [] := by
        simp [hcode, hwords]
      have hbefore : finalOrigin before ≤ capacity := by
        have := h.address_le
        rw [h.address_eq] at this
        omega
      refine ⟨horigin.symm, ?_, Nat.le_of_lt hcap, ?_, ?_, ?_⟩
      · simp [horigin, hnone]
      · simpa [hnone, hcode] using h.emitted_iff
      · simpa [definedName?] using h.names_eq
      · -- The code starts elsewhere, but there is none yet.
        rw [placedWords_of_code_nil hnone (by omega), h.words_eq,
          placedWords_of_code_nil hcode hbefore]
  | jump position operand =>
      cases hok
      exact h.append_quiet rfl rfl (by simp [h.names_eq, definedName?])
  | @code known word rest hencode hname horigin hplace =>
      have hwords : wordsOf (some known) = word :: rest := by
        simp only [wordsOf, hencode]
      rw [hplace] at hok
      obtain ⟨hroom, rfl⟩ := (h.emit_ok_iff known word rest).mp hok
      refine ⟨?_, ?_, ?_, ?_, ?_, ?_⟩
      · rw [finalOrigin_append_of_none horigin]
        exact h.origin_eq
      · simp [finalOrigin_append_of_none horigin, hwords, h.address_eq, Nat.add_assoc]
      · simpa [h.address_eq] using hroom
      · simp [hwords]
      · simpa [hname] using h.names_eq
      · have hwrite := placedWords_append horigin h.words_eq (hwords ▸ hroom)
        rw [hwords, ← h.address_eq] at hwrite
        exact hwrite
  | refused hnot hplace => exact absurd hadm.encodable hnot

end Invariant

/-! ### Lists that can be placed -/

section Placeable

variable {capacity : Nat} {before : List (Option Instruction)} {instruction : Option Instruction}

/-- An instruction that sets an origin has no words. -/
theorem wordsOf_eq_nil_of_origin {text : String} (h : originText? instruction = some text) :
    wordsOf instruction = [] := by
  simp only [originText?] at h
  split at h
  · rfl
  · cases h

/-- The empty list is `Placeable`. -/
theorem placeable_nil : Placeable capacity [] where
  encodable := by simp
  origin_first := List.Pairwise.nil
  origin_within := by simp [originTexts]
  names_nodup := List.nodup_nil
  fits := by simp [finalOrigin, originTexts, machineCode]

/-- If an origin may be set after some instructions, these have no code. -/
theorem Placeable.code_eq_nil {text : String} (h : Placeable capacity (before ++ [instruction]))
    (htext : originText? instruction = some text) : machineCode before = [] := by
  rw [machineCode_eq_nil_iff]
  intro earlier hmem
  by_contra hwords
  have hfirst := (List.pairwise_append.mp h.origin_first).2.2 earlier hmem instruction (by simp)
  rw [hfirst hwords] at htext
  cases htext

/-- A list that is `Placeable` is so without its last instruction. -/
theorem Placeable.of_append_singleton (h : Placeable capacity (before ++ [instruction])) :
    Placeable capacity before := by
  have hwithin : ∀ text ∈ originTexts before, IsOrigin capacity text := by
    intro text hmem
    exact h.origin_within text (by simp [hmem])
  refine ⟨?_, (List.pairwise_append.mp h.origin_first).1, hwithin, ?_, ?_⟩
  · intro earlier hmem
    exact h.encodable earlier (by simp [hmem])
  · have hnodup := h.names_nodup
    rw [definedNames_append] at hnodup
    exact (List.nodup_append.mp hnodup).1
  · have hfits := h.fits
    cases htext : originText? instruction with
    | none =>
        rw [finalOrigin_append_of_none htext, machineCode_append, List.length_append] at hfits
        omega
    | some text =>
        rw [h.code_eq_nil htext, List.length_nil, Nat.add_zero]
        exact finalOrigin_le hwithin

/-- The last instruction of a list that is `Placeable` is `Admissible` after the others. -/
theorem Placeable.admissible (h : Placeable capacity (before ++ [instruction])) :
    Admissible capacity before instruction := by
  refine ⟨h.encodable instruction (by simp), ?_, ?_, ?_⟩
  · intro text htext
    exact ⟨h.code_eq_nil htext, h.origin_within text (by simp [htext])⟩
  · intro name hname hmem
    have hnodup := h.names_nodup
    rw [definedNames_append, definedNames_singleton, hname, Option.toList_some] at hnodup
    exact (List.nodup_append.mp hnodup).2.2 name hmem name (by simp) rfl
  · have hfits := h.fits
    cases htext : originText? instruction with
    | none =>
        rw [finalOrigin_append_of_none htext, machineCode_append, machineCode_singleton,
          List.length_append] at hfits
        omega
    | some text =>
        rw [wordsOf_eq_nil_of_origin htext, List.length_nil, Nat.add_zero]
        exact h.of_append_singleton.fits

/-- A list is `Placeable` exactly when its last instruction is `Admissible` after the others and
these are `Placeable`. -/
theorem placeable_append_singleton :
    Placeable capacity (before ++ [instruction]) ↔
      Placeable capacity before ∧ Admissible capacity before instruction := by
  refine ⟨fun h => ⟨h.of_append_singleton, h.admissible⟩, ?_⟩
  rintro ⟨h, hadm⟩
  refine ⟨?_, ?_, ?_, ?_, ?_⟩
  · intro earlier hmem
    rcases List.mem_append.mp hmem with hold | hnew
    · exact h.encodable earlier hold
    · rw [List.mem_singleton.mp hnew]
      exact hadm.encodable
  · refine List.pairwise_append.mpr ⟨h.origin_first, List.pairwise_singleton _ _, ?_⟩
    intro earlier hmem later hlater hwords
    rw [List.mem_singleton.mp hlater]
    cases htext : originText? instruction with
    | none => rfl
    | some text =>
        have hcode := (hadm.origin text htext).1
        exact absurd ((machineCode_eq_nil_iff before).mp hcode earlier hmem) hwords
  · intro text hmem
    rw [originTexts_append, originTexts_singleton] at hmem
    rcases List.mem_append.mp hmem with hold | hnew
    · exact h.origin_within text hold
    · exact (hadm.origin text (Option.mem_toList.mp hnew)).2
  · rw [definedNames_append, definedNames_singleton]
    refine List.nodup_append.mpr ⟨h.names_nodup, ?_, ?_⟩
    · cases definedName? instruction <;> simp
    · intro name hmem other hother heq
      exact hadm.name other (Option.mem_toList.mp hother) (heq ▸ hmem)
  · cases htext : originText? instruction with
    | none =>
        rw [finalOrigin_append_of_none htext, machineCode_append, machineCode_singleton,
          List.length_append]
        have := hadm.room
        omega
    | some text =>
        obtain ⟨hcode, origin, hread, -, hcap⟩ := hadm.origin text htext
        rw [finalOrigin_append_of_some htext hread, machineCode_append, machineCode_singleton,
          hcode, wordsOf_eq_nil_of_origin htext]
        simpa using Nat.le_of_lt hcap

end Placeable

/-- The front of a list that is `Placeable` is so, too. -/
theorem Placeable.of_append {capacity : Nat} {before after : List (Option Instruction)}
    (h : Placeable capacity (before ++ after)) : Placeable capacity before := by
  induction after using List.reverseRecOn with
  | nil => simpa using h
  | append_singleton after instruction ih =>
      rw [← List.append_assoc] at h
      exact ih h.of_append_singleton

/-! ### Runs -/

section Run

variable {capacity : Nat} {before rest : List (Option Instruction)}
  {assembly reached last : Assembly}

/-- A `run` over instructions that can be placed goes on with those after them. -/
theorem run_append (h : assembly.run before = (reached, none)) :
    assembly.run (before ++ rest) = reached.run rest := by
  induction before generalizing assembly with
  | nil =>
      cases h
      rfl
  | cons instruction before ih =>
      rw [List.cons_append, Assembly.run]
      rw [Assembly.run] at h
      split at h
      · exact ih h
      · cases h

/-- A `run` places the instructions before `index`, and the one at `index` is at fault. -/
def StopsAt (assembly : Assembly) (instructions : List (Option Instruction)) (index : Nat)
    (reached : Assembly) (fault : AssemblyFault) : Prop :=
  assembly.run (instructions.take index) = (reached, none) ∧
    ∃ instruction, instructions[index]? = some instruction ∧
      reached.place instruction = .error fault

/-- The answer of a `run` that `StopsAt` an instruction: what it reached, and the fault in that
instruction. -/
theorem StopsAt.run_eq {instructions : List (Option Instruction)} {index : Nat}
    {fault : AssemblyFault} {instruction : Option Instruction}
    (h : StopsAt assembly instructions index reached fault)
    (hget : instructions[index]? = some instruction) :
    assembly.run instructions = (reached, some (.ofFault instruction fault)) := by
  obtain ⟨hrun, other, hother, hplace⟩ := h
  rw [hget] at hother
  cases hother
  obtain ⟨hlt, hvalue⟩ := List.getElem?_eq_some_iff.mp hget
  rw [← List.take_append_drop index instructions, run_append hrun,
    List.drop_eq_getElem_cons hlt, hvalue, Assembly.run, hplace]

/-- A `run` ends with the last instruction or `StopsAt` one before. Induction on the
instructions. -/
theorem run_cases (assembly : Assembly) (instructions : List (Option Instruction)) :
    (∃ last, assembly.run instructions = (last, none)) ∨
      ∃ index reached fault, StopsAt assembly instructions index reached fault := by
  induction instructions generalizing assembly with
  | nil => exact .inl ⟨assembly, rfl⟩
  | cons instruction rest ih =>
      cases hplace : assembly.place instruction with
      | error fault => exact .inr ⟨0, assembly, fault, rfl, instruction, rfl, hplace⟩
      | ok next =>
          rcases ih next with ⟨last, hlast⟩ | ⟨index, reached, fault, hrun, hstop⟩
          · exact .inl ⟨last, by rw [Assembly.run, hplace]; exact hlast⟩
          · refine .inr ⟨index + 1, reached, fault, ?_, hstop⟩
            rw [List.take_succ_cons, Assembly.run, hplace]
            exact hrun

/-- A `run` that ends keeps `Placed`, and its instructions are `Placeable`. Induction on the
instructions. -/
theorem Placed.run (h : Placed capacity before assembly) (hplaceable : Placeable capacity before)
    (hrun : assembly.run rest = (last, none)) :
    Placeable capacity (before ++ rest) ∧ Placed capacity (before ++ rest) last := by
  induction rest generalizing before assembly with
  | nil =>
      cases hrun
      simpa using ⟨hplaceable, h⟩
  | cons instruction rest ih =>
      rw [Assembly.run] at hrun
      cases hok : assembly.place instruction with
      | ok next =>
          rw [hok] at hrun
          have hadm := (h.place_ok_iff instruction).mp ⟨next, hok⟩
          have hboth := ih (h.step hok) (placeable_append_singleton.mpr ⟨hplaceable, hadm⟩) hrun
          simpa using hboth
      | error fault =>
          rw [hok] at hrun
          cases hrun

/-- The words of `Image.blank?`. -/
theorem words_of_blank? {size width : Int} {image : Image}
    (h : Image.blank? size width = some image) :
    image.words = List.replicate size.toNat Opcode.idle.toUInt16 := by
  rw [Image.blank?] at h
  split at h
  · cases h
    rfl
  · cases h

variable {image : Image} {instructions : List (Option Instruction)}

/-- After a `run` that ends, starting from a new image, its instructions are `Placed`. -/
theorem placed_of_run (hblank : image.words = List.replicate capacity Opcode.idle.toUInt16)
    (hrun : ({ image } : Assembly).run instructions = (last, none)) :
    Placeable capacity instructions ∧ Placed capacity instructions last := by
  simpa using (placed_nil image hblank).run placeable_nil hrun

/-- Whatever a `run` reaches, starting from a new image, a prefix of its instructions is
`Placed`. -/
theorem exists_placed_run (hblank : image.words = List.replicate capacity Opcode.idle.toUInt16) :
    ∃ placed, placed <+: instructions ∧
      Placed capacity placed (({ image } : Assembly).run instructions).1 := by
  rcases run_cases { image } instructions with ⟨last, hlast⟩ | ⟨index, reached, fault, hstop⟩
  · rw [hlast]
    exact ⟨instructions, List.prefix_rfl, (placed_of_run hblank hlast).2⟩
  · obtain ⟨instruction, hget, -⟩ := hstop.2
    rw [hstop.run_eq hget]
    exact ⟨_, List.take_prefix index instructions, (placed_of_run hblank hstop.1).2⟩

/-- A `run` comes to its end exactly on the lists that are `Placeable`. -/
theorem run_eq_none_iff (hblank : image.words = List.replicate capacity Opcode.idle.toUInt16) :
    (({ image } : Assembly).run instructions).2 = none ↔ Placeable capacity instructions := by
  rcases run_cases { image } instructions with ⟨last, hlast⟩ | ⟨index, reached, fault, hstop⟩
  · rw [hlast]
    exact ⟨fun _ => (placed_of_run hblank hlast).1, fun _ => rfl⟩
  · obtain ⟨hrun, instruction, hget, hplace⟩ := hstop
    rw [StopsAt.run_eq ⟨hrun, instruction, hget, hplace⟩ hget]
    refine ⟨fun hnone => (by cases hnone), fun hplaceable => ?_⟩
    -- The instruction where the run stops is not admissible after those before it.
    obtain ⟨hlt, hvalue⟩ := List.getElem?_eq_some_iff.mp hget
    have hfront : Placeable capacity (instructions.take index ++ [instruction]) := by
      rw [← hvalue, List.take_append_getElem hlt]
      rw [← List.take_append_drop (index + 1) instructions] at hplaceable
      exact hplaceable.of_append
    obtain ⟨next, hok⟩ :=
      ((placed_of_run hblank hrun).2.place_ok_iff instruction).mpr hfront.admissible
    rw [hplace] at hok
    cases hok

end Run

/-! ### Assemblies -/

/-- There is an `Image.blank?` of every size up to the largest. -/
theorem exists_blank? {size width : Int} (hnonneg : 0 ≤ size)
    (hmax : size ≤ Image.largestCapacity) : ∃ image, Image.blank? size width = some image := by
  rw [Image.blank?]
  rw [if_pos (by simp [hnonneg, hmax])]
  exact ⟨_, rfl⟩

/-- The answer of `assemble` is that of a `run` in a new image. -/
theorem assemble_of_blank? {assembler : Assembler} {image : Image}
    (h : Image.blank? assembler.effectiveCapacity assembler.effectiveWidth = some image)
    (instructions : List (Option Instruction)) :
    (assembler.assemble instructions).2.1 =
        (match (({ image } : Assembly).run instructions).2 with
        | none => .image (({ image } : Assembly).run instructions).1.image
        | some error => .failed error) ∧
      (assembler.assemble instructions).1 =
        { assembler with
          origin := (({ image } : Assembly).run instructions).1.origin
          labels := some (({ image } : Assembly).run instructions).1.labels } := by
  rw [Assembler.assemble]
  rw [h]
  exact ⟨rfl, rfl⟩

/-- **The closed form of an assembly.** `assemble` answers an image exactly when its instructions
are `Placeable`. The image then holds their `machineCode` from the `finalOrigin` on and does nothing
elsewhere. At every point of the run the next word goes into the image or just behind it. -/
theorem assemble_closed_form (assembler : Assembler) (instructions : List (Option Instruction))
    (hpos : 0 < assembler.effectiveCapacity)
    (hmax : assembler.effectiveCapacity ≤ Image.largestCapacity) :
    ((∃ image, (assembler.assemble instructions).2.1 = .image image) ↔
      Placeable assembler.effectiveCapacity.toNat instructions) ∧
    (∀ image, (assembler.assemble instructions).2.1 = .image image →
      image.words.length = assembler.effectiveCapacity.toNat ∧
      (assembler.assemble instructions).1.origin = finalOrigin instructions ∧
      image.words =
        List.replicate (finalOrigin instructions) Opcode.idle.toUInt16 ++
        machineCode instructions ++
        List.replicate (assembler.effectiveCapacity.toNat -
          (finalOrigin instructions + (machineCode instructions).length))
          Opcode.idle.toUInt16) ∧
    ∃ blank, Image.blank? assembler.effectiveCapacity assembler.effectiveWidth = some blank ∧
      ∀ done, done <+: instructions →
        (({ image := blank } : Assembly).run done).1.address ≤
          assembler.effectiveCapacity.toNat ∧
        (({ image := blank } : Assembly).run done).1.image.words.length =
          assembler.effectiveCapacity.toNat := by
  obtain ⟨blank, hblank⟩ := exists_blank? (Int.le_of_lt hpos) hmax
  have hwords := words_of_blank? hblank
  obtain ⟨houtcome, hassembler⟩ := assemble_of_blank? hblank instructions
  refine ⟨?_, ?_, blank, hblank, ?_⟩
  · rw [houtcome, ← run_eq_none_iff hwords]
    cases (({ image := blank } : Assembly).run instructions).2 with
    | none => exact ⟨fun _ => rfl, fun _ => ⟨_, rfl⟩⟩
    | some error => exact ⟨fun ⟨_, himage⟩ => (by cases himage), fun hnone => (by cases hnone)⟩
  · intro image himage
    rw [houtcome] at himage
    rcases hrun : ({ image := blank } : Assembly).run instructions with ⟨last, error⟩
    rw [hrun] at himage
    cases error with
    | some error => cases himage
    | none =>
        cases himage
        have hplaced := (placed_of_run hwords hrun).2
        rw [hassembler, hrun]
        exact ⟨hplaced.length_words, hplaced.origin_eq, hplaced.words_eq⟩
  · intro done _
    obtain ⟨placed, -, hplaced⟩ := exists_placed_run hwords
    exact ⟨hplaced.address_le, hplaced.length_words⟩

/-- A program that ends in a two-word move which just fits behind its origin. -/
theorem assemble_closed_form_exact_fit :
    let assembler : Assembler := { capacity := 4 }
    let program : List (Option Instruction) :=
      [ some (.unary ⟨1, 0⟩ .start ⟨.dollar, "03"⟩),
        some (.unary ⟨2, 0⟩ .start ⟨.dollar, "1"⟩),
        some (.unary ⟨3, 0⟩ .define ⟨.dot, "loop"⟩),
        some (.noOperand ⟨4, 0⟩ .hlt),
        some (.binary ⟨5, 0⟩ .mov ⟨.hash, "2A"⟩ ⟨.at, "A"⟩) ]
    0 < assembler.effectiveCapacity ∧ assembler.effectiveCapacity ≤ Image.largestCapacity ∧
      Placeable 4 program ∧ (assembler.assemble program).1.origin = 1 ∧
      ∃ image, (assembler.assemble program).2.1 = .image image ∧
        image.words = [0x00] ++ [0x20, 0x21, 0x2A] := by
  intro assembler program
  have hpos : 0 < assembler.effectiveCapacity := by decide
  have hmax : assembler.effectiveCapacity ≤ Image.largestCapacity := by decide
  obtain ⟨hiff, hcontent, -⟩ := assemble_closed_form assembler program hpos hmax
  have himage : (assembler.assemble program).2.1 =
      .image ⟨[0x00, 0x20, 0x21, 0x2A], 2, []⟩ := by rfl
  obtain ⟨-, horigin, hwords⟩ := hcontent _ himage
  exact ⟨hpos, hmax, hiff.mp ⟨_, himage⟩, horigin, _, himage, hwords⟩

end Placement

end MovAsm

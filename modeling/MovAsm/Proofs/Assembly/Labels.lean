import MovAsm.Proofs.Assembly.Agreement

/-!
# Labels, and What a Stopped Assembly Leaves

Every instruction of a list is met at an address: the origin in effect there, and as many words
further as the instructions before it have. A label names the address at which its definition is
met, and the listing tells the address of all that has a line in it. So the label table and the
listing are functions of the instructions, like the image.

An assembly that stops leaves what it had come to. That is what the instructions before the one at
fault come to by themselves.

## Main results

* `Recorded.run`: the labels and the listing of a run are functions of its instructions.
* `assemble_of_placeable`: all that an assembly answers and keeps, if its instructions can be
  placed.
* `exists_stop_of_failed`: where an assembly stops.
* `Placeable.filter`: what can be placed can be placed without its labels and jumps.
* `assemble_kept`: what an assembly keeps, whether it succeeds or stops.
-/

namespace MovAsm

/-- An `Image.write` changes nothing but the words. -/
theorem Image.write_eq (image : Image) (address : Nat) (words : List Word) :
    image.write address words = { image with words := (image.write address words).words } := by
  induction words generalizing image address with
  | nil => rfl
  | cons word rest ih => exact ih _ _

namespace Placement

/-! ### The addresses of instructions -/

/-- The address of the next word after some instructions. -/
def nextAddress (instructions : List (Option Instruction)) : Nat :=
  finalOrigin instructions + (machineCode instructions).length

/-- The instructions of a list, each with the `nextAddress` of those before it. -/
def located (instructions : List (Option Instruction)) : List (Nat × Option Instruction) :=
  instructions.mapIdx fun index instruction => (nextAddress (instructions.take index), instruction)

/-- The entry in the label table of an instruction that is met at an address. -/
def labelled (entry : Nat × Option Instruction) : Option (String × Nat) :=
  (definedName? entry.2).map (·, entry.1)

/-- The entry in the listing of an instruction that is met at an address. -/
def listed : Nat × Option Instruction → Option ListingEntry
  | (address, some (.unary _ .define operand)) => some (.label address operand.value)
  | (address, some (.unary position .jmp operand)) =>
    some (.unencoded address (.unary position .jmp operand))
  | (address, some instruction) =>
    (wordsOf (some instruction)).head?.map (.code address · instruction)
  | (_, none) => none

/-- The label table of a list of instructions. -/
def labelTable (instructions : List (Option Instruction)) : Labels :=
  (located instructions).filterMap labelled

/-- The listing of a list of instructions. -/
def fullListing (instructions : List (Option Instruction)) : List ListingEntry :=
  (located instructions).filterMap listed

section Located

variable {before instructions : List (Option Instruction)} {instruction : Option Instruction}
  {address : Nat}

/-- One more instruction is `located` at the `nextAddress`. -/
theorem located_append_singleton :
    located (before ++ [instruction]) = located before ++ [(nextAddress before, instruction)] := by
  rw [located, List.mapIdx_concat, List.take_left, located]
  congr 1
  refine List.mapIdx_eq_mapIdx_iff.mpr fun index hlt => ?_
  rw [List.take_append_of_le_length (Nat.le_of_lt hlt)]

/-- An instruction is `located` at the `nextAddress` of those before it. -/
theorem mem_located_iff :
    (address, instruction) ∈ located instructions ↔
      ∃ index, instructions[index]? = some instruction ∧
        address = nextAddress (instructions.take index) := by
  rw [located, List.mem_mapIdx]
  constructor
  · rintro ⟨index, hlt, heq⟩
    cases heq
    exact ⟨index, List.getElem?_eq_getElem hlt, rfl⟩
  · rintro ⟨index, hget, rfl⟩
    obtain ⟨hlt, rfl⟩ := List.getElem?_eq_some_iff.mp hget
    exact ⟨index, hlt, rfl⟩

/-- The instructions that are `located` are those of the list. -/
theorem map_snd_located (instructions : List (Option Instruction)) :
    (located instructions).map Prod.snd = instructions := by
  refine List.ext_getElem (by simp [located]) fun index _ _ => ?_
  simp [located]

/-- The names in the `labelTable` are the `definedNames`, in order. -/
theorem map_fst_labelTable (instructions : List (Option Instruction)) :
    (labelTable instructions).map Prod.fst = definedNames instructions := by
  have hname (entry : Nat × Option Instruction) :
      (labelled entry).map Prod.fst = definedName? entry.2 := by
    simp [labelled, Function.comp_def]
  rw [labelTable, List.map_filterMap, definedNames]
  simp only [hname]
  conv_rhs => rw [← map_snd_located instructions, List.filterMap_map]
  rfl

/-- A name and an address are in the `labelTable` exactly if an instruction that is met there
defines the name. -/
theorem mem_labelTable_iff {name : String} :
    (name, address) ∈ labelTable instructions ↔
      ∃ index, instructions[index]?.bind definedName? = some name ∧
        address = nextAddress (instructions.take index) := by
  rw [labelTable, List.mem_filterMap]
  constructor
  · rintro ⟨⟨found, instruction⟩, hmem, hlabelled⟩
    obtain ⟨index, hget, rfl⟩ := mem_located_iff.mp hmem
    obtain ⟨defined, hdefined, heq⟩ := Option.map_eq_some_iff.mp hlabelled
    cases heq
    exact ⟨index, by rw [hget]; exact hdefined, rfl⟩
  · rintro ⟨index, hbind, rfl⟩
    obtain ⟨instruction, hget, hdefined⟩ := Option.bind_eq_some_iff.mp hbind
    refine ⟨(nextAddress (instructions.take index), instruction), ?_, ?_⟩
    · exact mem_located_iff.mpr ⟨index, hget, rfl⟩
    · rw [labelled, hdefined]
      rfl

/-- An instruction that has words is `listed` with the first of them. -/
theorem listed_of_wordsOf {known : Instruction} {word : Word} {words : List Word}
    (h : wordsOf (some known) = word :: words) :
    listed (address, some known) = some (.code address word known) := by
  generalize hentry : (address, some known) = entry
  fun_cases listed entry with
  | case1 | case2 =>
      cases hentry
      cases h
  | case3 =>
      cases hentry
      rw [h]
      rfl
  | case4 => cases hentry

end Located

/-! ### What a run records -/

/-- After some instructions were placed in an image, the labels of the assembly are their
`labelTable`, its listing is their `fullListing`, and nothing but the words of the image has
changed. -/
structure Recorded (blank : Image) (instructions : List (Option Instruction))
    (assembly : Assembly) : Prop where
  labels_eq : assembly.labels = labelTable instructions
  listing_eq : assembly.listing = fullListing instructions
  image_eq : assembly.image = { blank with words := assembly.image.words }

section Record

variable {capacity : Nat} {blank : Image} {before rest : List (Option Instruction)}
  {assembly next last : Assembly} {instruction : Option Instruction}

/-- An assembly stays `Recorded` if its labels and its listing grow by those of the next
instruction. -/
theorem Recorded.append (h : Recorded blank before assembly)
    (hlabels : next.labels =
      assembly.labels ++ (labelled (nextAddress before, instruction)).toList)
    (hlisting : next.listing =
      assembly.listing ++ (listed (nextAddress before, instruction)).toList)
    (himage : next.image = { assembly.image with words := next.image.words }) :
    Recorded blank (before ++ [instruction]) next := by
  have hfilter {α : Type} (f : Nat × Option Instruction → Option α)
      (entry : Nat × Option Instruction) : [entry].filterMap f = (f entry).toList := by
    cases hentry : f entry <;> simp [hentry]
  refine ⟨?_, ?_, ?_⟩
  · rw [hlabels, h.labels_eq, labelTable, labelTable, located_append_singleton,
      List.filterMap_append, hfilter]
  · rw [hlisting, h.listing_eq, fullListing, fullListing, located_append_singleton,
      List.filterMap_append, hfilter]
  · rw [himage, h.image_eq]

/-- To `place` one more instruction keeps `Recorded`. -/
theorem Recorded.step (h : Recorded blank before assembly)
    (hplaced : Placed capacity before assembly) (hok : assembly.place instruction = .ok next) :
    Recorded blank (before ++ [instruction]) next := by
  have haddress : assembly.address = nextAddress before := hplaced.address_eq
  cases role instruction with
  | label position operand =>
      obtain ⟨-, rfl⟩ := (hplaced.define_ok_iff _).mp hok
      refine h.append ?_ ?_ rfl
      · rw [haddress]
        rfl
      · rw [haddress]
        rfl
  | origin position operand =>
      obtain ⟨-, origin, -, -, -, rfl⟩ := (hplaced.setOrigin_ok_iff _).mp hok
      exact h.append (List.append_nil _).symm (List.append_nil _).symm rfl
  | jump position operand =>
      cases hok
      refine h.append (List.append_nil _).symm ?_ rfl
      rw [haddress]
      rfl
  | @code known word words hencode hname horigin hplace =>
      rw [hplace] at hok
      obtain ⟨-, rfl⟩ := (hplaced.emit_ok_iff known word words).mp hok
      have hwords : wordsOf (some known) = word :: words := by
        simp only [wordsOf, hencode]
      refine h.append ?_ ?_ (Image.write_eq _ _ _)
      · rw [labelled, hname]
        exact (List.append_nil _).symm
      · rw [listed_of_wordsOf hwords, haddress]
        rfl
  | refused hnot hplace =>
      rw [hplace] at hok
      cases hok

/-- A `run` that ends keeps `Recorded`. Induction on the instructions. -/
theorem Recorded.run (h : Recorded blank before assembly)
    (hplaced : Placed capacity before assembly) (hrun : assembly.run rest = (last, none)) :
    Recorded blank (before ++ rest) last := by
  induction rest generalizing before assembly with
  | nil =>
      cases hrun
      simpa using h
  | cons instruction rest ih =>
      rw [Assembly.run] at hrun
      cases hok : assembly.place instruction with
      | ok next =>
          rw [hok] at hrun
          simpa using ih (h.step hplaced hok) (hplaced.step hok) hrun
      | error fault =>
          rw [hok] at hrun
          cases hrun

end Record

/-! ### Assemblies that succeed -/

section Assemblies

variable {assembler : Assembler} {instructions : List (Option Instruction)} {blank image : Image}
  {error : AssemblyError}

/-- All that `assemble` answers and keeps if its instructions are `Placeable`. -/
theorem assemble_of_placeable
    (hblank : Image.blank? assembler.effectiveCapacity assembler.effectiveWidth = some blank)
    (h : Placeable assembler.effectiveCapacity.toNat instructions) :
    assembler.assemble instructions =
      ({ assembler with
          origin := finalOrigin instructions
          labels := some (labelTable instructions) },
        .image ⟨placedWords assembler.effectiveCapacity.toNat instructions,
          assembler.effectiveWidth, []⟩,
        assembler.logIf ((fullListing instructions).map ListingEntry.text)) := by
  have hwords := words_of_blank? hblank
  have hempty : blank = ⟨blank.words, assembler.effectiveWidth, []⟩ := by
    rw [Image.blank?] at hblank
    split at hblank
    · cases hblank
      rfl
    · cases hblank
  rcases hrun : ({ image := blank } : Assembly).run instructions with ⟨last, error⟩
  obtain rfl : error = none := by
    have hnone := (run_eq_none_iff hwords).mpr h
    rw [hrun] at hnone
    exact hnone
  have hplaced := (placed_of_run hwords hrun).2
  have hnew : Recorded blank [] { image := blank } := ⟨rfl, rfl, rfl⟩
  have hrecorded : Recorded blank instructions last := by
    simpa using hnew.run (placed_nil blank hwords) hrun
  have himage := hrecorded.image_eq
  rw [hempty, hplaced.words_eq] at himage
  rw [Assembler.assemble, hblank]
  dsimp only
  rw [hrun]
  dsimp only
  rw [himage, hplaced.origin_eq, hrecorded.labels_eq, hrecorded.listing_eq]

/-- If `assemble` answers an image, its instructions are `Placeable`. -/
theorem placeable_of_image (h : (assembler.assemble instructions).2.1 = .image image) :
    (∃ blank, Image.blank? assembler.effectiveCapacity assembler.effectiveWidth = some blank) ∧
      Placeable assembler.effectiveCapacity.toNat instructions := by
  cases hblank : Image.blank? assembler.effectiveCapacity assembler.effectiveWidth with
  | none =>
      rw [Assembler.assemble, hblank] at h
      cases h
  | some blank =>
      refine ⟨⟨blank, rfl⟩, (run_eq_none_iff (words_of_blank? hblank)).mp ?_⟩
      rw [(assemble_of_blank? hblank instructions).1] at h
      split at h
      · assumption
      · cases h

/-- All that `assemble` answers and keeps if it answers an image. -/
theorem assemble_of_image (h : (assembler.assemble instructions).2.1 = .image image) :
    (assembler.assemble instructions).1 =
        { assembler with
          origin := finalOrigin instructions
          labels := some (labelTable instructions) } ∧
      image = ⟨placedWords assembler.effectiveCapacity.toNat instructions,
        assembler.effectiveWidth, []⟩ ∧
      (assembler.assemble instructions).2.2 =
        assembler.logIf ((fullListing instructions).map ListingEntry.text) := by
  obtain ⟨⟨blank, hblank⟩, hplaceable⟩ := placeable_of_image h
  rw [assemble_of_placeable hblank hplaceable] at h ⊢
  cases h
  exact ⟨rfl, rfl, rfl⟩

/-! ### Assemblies that stop -/

/-- If `assemble` fails, its run `StopsAt` an instruction, and the error is the fault in that. -/
theorem exists_stop_of_failed (h : (assembler.assemble instructions).2.1 = .failed error) :
    ∃ blank index reached instruction fault,
      Image.blank? assembler.effectiveCapacity assembler.effectiveWidth = some blank ∧
      instructions[index]? = some instruction ∧
      StopsAt { image := blank } instructions index reached fault ∧
      error = .ofFault instruction fault := by
  cases hblank : Image.blank? assembler.effectiveCapacity assembler.effectiveWidth with
  | none =>
      rw [Assembler.assemble, hblank] at h
      cases h
  | some blank =>
      rw [(assemble_of_blank? hblank instructions).1] at h
      rcases run_cases { image := blank } instructions with ⟨last, hlast⟩ |
        ⟨index, reached, fault, hstop⟩
      · rw [hlast] at h
        cases h
      · obtain ⟨instruction, hget, -⟩ := hstop.2
        rw [hstop.run_eq hget] at h
        cases h
        exact ⟨blank, index, reached, instruction, fault, rfl, hget, hstop, rfl⟩

/-- An assembly that stops keeps what the instructions before the one at fault come to. -/
theorem StopsAt.assemble_eq {index : Nat} {reached : Assembly} {fault : AssemblyFault}
    (h : StopsAt { image := blank } instructions index reached fault)
    (hblank : Image.blank? assembler.effectiveCapacity assembler.effectiveWidth = some blank) :
    (assembler.assemble instructions).1 = (assembler.assemble (instructions.take index)).1 := by
  obtain ⟨instruction, hget, -⟩ := h.2
  rw [(assemble_of_blank? hblank instructions).2, (assemble_of_blank? hblank _).2, h.run_eq hget,
    h.1]

/-- The first instructions of a list are `Placeable` exactly if they are before the one at which the
run stops. -/
theorem StopsAt.placeable_take_iff {capacity index : Nat} {reached : Assembly}
    {fault : AssemblyFault} (h : StopsAt { image := blank } instructions index reached fault)
    (hwords : blank.words = List.replicate capacity Opcode.idle.toUInt16) (count : Nat) :
    Placeable capacity (instructions.take count) ↔ count ≤ index := by
  obtain ⟨hrun, instruction, hget, hplace⟩ := h
  constructor
  · intro hplaceable
    by_contra hlt
    have hstop : StopsAt { image := blank } (instructions.take count) index reached fault := by
      refine ⟨?_, instruction, ?_, hplace⟩
      · rwa [List.take_take, Nat.min_eq_left (by omega)]
      · rwa [List.getElem?_take_of_lt (by omega)]
    have hnone := (run_eq_none_iff hwords).mpr hplaceable
    rw [hstop.run_eq (by rwa [List.getElem?_take_of_lt (by omega)])] at hnone
    cases hnone
  · intro hle
    have hfront : Placeable capacity (instructions.take index) :=
      (run_eq_none_iff hwords).mp (by rw [hrun])
    rw [← List.take_append_drop count (instructions.take index), List.take_take,
      Nat.min_eq_left hle] at hfront
    exact hfront.of_append

end Assemblies

/-! ### Programs without their labels and jumps -/

/-- The keyword of the instruction is `DEF` or `JMP`, whatever its form. -/
def isAside : Option Instruction → Bool
  | some instruction => instruction.keyword ∈ [Keyword.define, .jmp]
  | none => false

section Filter

variable {capacity : Nat} {instructions : List (Option Instruction)}

/-- Instructions that are `isAside` have no words and set no origin. -/
theorem quiet_of_isAside {instruction : Option Instruction} (h : isAside instruction = true) :
    wordsOf instruction = [] ∧ originText? instruction = none := by
  cases instruction with
  | none => exact ⟨rfl, rfl⟩
  | some instruction =>
      have hkeyword : instruction.keyword = .define ∨ instruction.keyword = .jmp := by
        simpa [isAside] using h
      cases instruction <;> rcases hkeyword with rfl | rfl <;> exact ⟨rfl, rfl⟩

/-- The `machineCode` without the instructions that are `isAside`. -/
theorem machineCode_filter :
    machineCode (instructions.filter (!isAside ·)) = machineCode instructions := by
  induction instructions with
  | nil => rfl
  | cons instruction rest ih =>
      cases haside : isAside instruction with
      | false =>
          rw [List.filter_cons_of_pos (by simp [haside]), machineCode, List.flatMap_cons,
            machineCode, List.flatMap_cons]
          exact congrArg _ ih
      | true =>
          rw [List.filter_cons_of_neg (by simp [haside]), ih, machineCode, machineCode,
            List.flatMap_cons, (quiet_of_isAside haside).1, List.nil_append]

/-- The `originTexts` without the instructions that are `isAside`. -/
theorem originTexts_filter :
    originTexts (instructions.filter (!isAside ·)) = originTexts instructions := by
  rw [originTexts, originTexts, List.filterMap_filter]
  refine List.filterMap_congr fun instruction _ => ?_
  cases haside : isAside instruction with
  | false => rfl
  | true => exact (quiet_of_isAside haside).2.symm

/-- What is `Placeable` is so without the instructions that are `isAside`. -/
theorem Placeable.filter (h : Placeable capacity instructions) :
    Placeable capacity (instructions.filter (!isAside ·)) where
  encodable instruction hmem := h.encodable instruction (List.mem_filter.mp hmem).1
  origin_first := h.origin_first.filter _
  origin_within := by
    rw [originTexts_filter]
    exact h.origin_within
  names_nodup := h.names_nodup.sublist (List.filter_sublist.filterMap _)
  fits := by
    rw [finalOrigin, originTexts_filter, machineCode_filter]
    exact h.fits

end Filter

/-! ### What is kept -/

/-- A `lookup` in the `labelTable` finds every entry of it. -/
theorem Placeable.lookup_labelTable {capacity address : Nat}
    {instructions : List (Option Instruction)} {name : String}
    (h : Placeable capacity instructions) (hmem : (name, address) ∈ labelTable instructions) :
    (labelTable instructions).lookup name = some address := by
  have hnodup := h.names_nodup
  rw [← map_fst_labelTable] at hnodup
  obtain ⟨front, back, hsplit⟩ := List.append_of_mem hmem
  rw [hsplit, List.map_append, List.map_cons] at hnodup
  refine List.lookup_eq_some_iff.mpr ⟨front, back, hsplit, fun entry hentry => ?_⟩
  have hne := (List.nodup_append.mp hnodup).2.2 entry.1 (List.mem_map_of_mem hentry) name (by simp)
  simpa using hne.symm

/-- **What an assembly keeps.** If it fails, then at the first instruction that cannot be placed
after those before it, and it keeps what these come to by themselves. If it succeeds, the names of
its labels are the `definedNames`, and each stands for the origin in effect at its definition and as
many words further as were emitted before that; this lies within the image or just behind it.
Without the instructions that are `isAside` the image and the origin are the same. -/
theorem assemble_kept (assembler : Assembler) (instructions : List (Option Instruction))
    (hnonneg : 0 ≤ assembler.capacity) :
    (∀ error, (assembler.assemble instructions).2.1 = .failed error →
      ∃ index instruction fault, instructions[index]? = some instruction ∧
        error = .ofFault instruction fault ∧
        (∀ count, (∃ image, (assembler.assemble (instructions.take count)).2.1 = .image image) ↔
          count ≤ index) ∧
        (assembler.assemble instructions).1 = (assembler.assemble (instructions.take index)).1) ∧
    (∀ image, (assembler.assemble instructions).2.1 = .image image →
      (∃ table, (assembler.assemble instructions).1.labels = some table ∧
        table.map Prod.fst = definedNames instructions ∧
        (∀ index name, instructions[index]?.bind definedName? = some name →
          table.lookup name = some (finalOrigin (instructions.take index) +
            (machineCode (instructions.take index)).length)) ∧
        ∀ entry ∈ table, entry.2 ≤ assembler.effectiveCapacity.toNat) ∧
      (assembler.assemble (instructions.filter (!isAside ·))).2.1 = .image image ∧
      (assembler.assemble (instructions.filter (!isAside ·))).1.origin =
        (assembler.assemble instructions).1.origin) ∧
    (assembler.capacity ≤ Image.largestCapacity →
      (assembler.assemble instructions).2.1 ≠ .unallocatable) := by
  refine ⟨?_, ?_, ?_⟩
  · intro error hfailed
    obtain ⟨blank, index, reached, instruction, fault, hblank, hget, hstop, herror⟩ :=
      exists_stop_of_failed hfailed
    refine ⟨index, instruction, fault, hget, herror, fun count => ?_, hstop.assemble_eq hblank⟩
    rw [← hstop.placeable_take_iff (words_of_blank? hblank) count]
    constructor
    · rintro ⟨image, himage⟩
      exact (placeable_of_image himage).2
    · intro hplaceable
      exact ⟨_, by rw [assemble_of_placeable hblank hplaceable]⟩
  · intro image himage
    obtain ⟨⟨blank, hblank⟩, hplaceable⟩ := placeable_of_image himage
    obtain ⟨hkept, rfl, -⟩ := assemble_of_image himage
    refine ⟨⟨labelTable instructions, by rw [hkept], map_fst_labelTable instructions, ?_, ?_⟩, ?_⟩
    · intro index name hdefined
      exact hplaceable.lookup_labelTable (mem_labelTable_iff.mpr ⟨index, hdefined, rfl⟩)
    · rintro ⟨name, address⟩ hmem
      obtain ⟨index, -, rfl⟩ := mem_labelTable_iff.mp hmem
      rw [← List.take_append_drop index instructions] at hplaceable
      exact hplaceable.of_append.fits
    · have hsame : finalOrigin (instructions.filter (!isAside ·)) = finalOrigin instructions := by
        rw [finalOrigin, originTexts_filter, finalOrigin]
      rw [assemble_of_placeable hblank hplaceable.filter, hkept]
      dsimp only
      rw [placedWords, hsame, machineCode_filter]
      exact ⟨rfl, rfl⟩
  · intro hmax houtcome
    obtain ⟨hlow, hhigh⟩ := effectiveCapacity_bounds hnonneg hmax
    obtain ⟨blank, hblank⟩ := exists_blank? hlow hhigh
    rw [(assemble_of_blank? hblank instructions).1] at houtcome
    split at houtcome <;> cases houtcome

/-- A program with a label on each side of its origin, which stops where the first is defined once
more. -/
theorem assemble_kept_redefined :
    let assembler : Assembler := { capacity := 4 }
    let program : List (Option Instruction) :=
      [ some (.unary ⟨1, 0⟩ .define ⟨.dot, "a"⟩),
        some (.unary ⟨2, 0⟩ .start ⟨.dollar, "1"⟩),
        some (.noOperand ⟨3, 0⟩ .hlt),
        some (.unary ⟨4, 0⟩ .jmp ⟨.dot, "b"⟩),
        some (.unary ⟨5, 0⟩ .define ⟨.dot, "b"⟩),
        some (.unary ⟨6, 0⟩ .define ⟨.dot, "a"⟩) ]
    0 ≤ assembler.capacity ∧
      (∃ index, (∀ count, (∃ image,
          (assembler.assemble (program.take count)).2.1 = .image image) ↔ count ≤ index) ∧
        (assembler.assemble program).1 = (assembler.assemble (program.take index)).1) ∧
      ∃ image table, (assembler.assemble (program.take 5)).2.1 = .image image ∧
        (assembler.assemble (program.take 5)).1.labels = some table ∧
        table.lookup "a" = some 0 ∧ table.lookup "b" = some 2 ∧
        (assembler.assemble [program[1], program[2]]).2.1 = .image image := by
  intro assembler program
  have hnonneg : 0 ≤ assembler.capacity := by decide
  have hfailed : (assembler.assemble program).2.1 =
      .failed (.ofFault program[5] (.labelDuplicate "a")) := by rfl
  have himage : (assembler.assemble (program.take 5)).2.1 =
      .image ⟨[0x00, 0x20, 0x00, 0x00], 2, []⟩ := by rfl
  obtain ⟨index, -, -, -, -, hcounts, hkept⟩ :=
    (assemble_kept assembler program hnonneg).1 _ hfailed
  obtain ⟨⟨table, hlabels, -, hlookup, -⟩, hwithout, -⟩ :=
    (assemble_kept assembler (program.take 5) hnonneg).2.1 _ himage
  exact ⟨hnonneg, ⟨index, hcounts, hkept⟩, _, table, himage, hlabels, hlookup 0 "a" rfl,
    hlookup 4 "b" rfl, hwithout⟩

end Placement

end MovAsm

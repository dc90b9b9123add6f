import Mathlib.Algebra.GroupWithZero.Nat
import MovAsm.Proofs.Assembly.Labels
import MovAsm.Proofs.Image.Reading
import MovAsm.Proofs.Text.Utf8
import MovAsm.Settings

/-!
# The Size of a Dump

Words that an assembly writes are bytes, so at the widths that settings allow every word takes the
same room in a dump. Row addresses do so in any case. The rows of a dump then differ in nothing but
the number of their words, and the size of the whole is known before anything is assembled.

## Main results

* `Placement.forall_word_le`: the words of every image that is assembled are bytes.
* `Image.rowsFrom_eq`: the rows of some words, by their index.
* `Image.sum_length_rowsFrom`: the length of all rows.
* `Writing.ofList_line`: a sink without a limit takes all lines and counts them.
* `Image.ascii_dump`: all of a dump is ASCII.
* `dump_size`: the size and the columns of the dump of an assembled image.
-/

namespace MovAsm

/-! ### Words are bytes -/

/-- An `Opcode` is a byte. -/
theorem Opcode.toUInt16_le (opcode : Opcode) : opcode.toUInt16 ≤ 0xFF := by
  rw [UInt16.le_iff_toNat_le, UInt8.toNat_toUInt16]
  exact Nat.le_of_lt_succ opcode.toNat_lt

/-- The `byte` of an operand is a byte. -/
theorem Operand.byte_le {operand : Operand} {word : Word} (h : operand.byte = .ok word) :
    word ≤ 0xFF := by
  revert h
  fun_cases Operand.byte operand with
  | case1 value hvalue hlt =>
      rintro ⟨⟩
      rw [UInt16.le_iff_toNat_le, Nat.toUInt16_eq,
        UInt16.toNat_ofNat_of_lt' (Nat.lt_trans hlt (by decide))]
      exact Nat.le_of_lt_succ hlt
  | case2 | case3 => rintro ⟨⟩

/-- The words of `encodeMove` are bytes. -/
theorem encodeMove_le {source destination : Operand} {words : List Word}
    (h : encodeMove source destination = .ok words) : ∀ word ∈ words, word ≤ 0xFF := by
  rw [encodeMove] at h
  cases hopcode : moveOpcode? source destination with
  | none =>
      rw [hopcode] at h
      cases h
  | some opcode =>
      rw [hopcode] at h
      dsimp only at h
      by_cases hkind : (moveArgument source destination).kind = .location
      · rw [if_pos hkind] at h
        cases h
        simpa using opcode.toUInt16_le
      · rw [if_neg hkind] at h
        obtain ⟨byte, hbyte, hwords⟩ := Check.bind_eq_ok_iff.mp h
        cases hwords
        simpa using ⟨opcode.toUInt16_le, Operand.byte_le hbyte⟩

/-- The words of `Instruction.encode` are bytes. -/
theorem Instruction.encode_le {instruction : Instruction} {words : List Word}
    (h : instruction.encode = .ok words) : ∀ word ∈ words, word ≤ 0xFF := by
  unfold Instruction.encode at h
  split at h
  · cases h
    simpa using Opcode.toUInt16_le Opcode.halt
  · cases h
    simpa using Opcode.toUInt16_le Opcode.idle
  · cases h
    simp
  · cases h
    simp
  · cases h
    simp
  · exact encodeMove_le h
  · cases h

namespace Placement

/-- The `placedWords` are bytes. -/
theorem forall_word_le (capacity : Nat) (instructions : List (Option Instruction)) :
    ∀ word ∈ placedWords capacity instructions, word ≤ 0xFF := by
  have hidle : ∀ count, ∀ word ∈ List.replicate count Opcode.idle.toUInt16, word ≤ 0xFF := by
    intro count word hmem
    rw [(List.mem_replicate.mp hmem).2]
    exact Opcode.toUInt16_le Opcode.idle
  intro word hmem
  rw [placedWords, List.mem_append, List.mem_append] at hmem
  rcases hmem with (hfront | hcode) | hback
  · exact hidle _ word hfront
  · obtain ⟨instruction, -, hword⟩ := List.mem_flatMap.mp hcode
    revert hword
    fun_cases wordsOf instruction with
    | case1 known words hencode => exact Instruction.encode_le hencode word
    | case2 | case3 => rintro ⟨⟩
  · exact hidle _ word hback

end Placement

/-! ### The room that lines take -/

/-- The text is made of `size` hexadecimal digits. -/
def Text.IsNumeral (size : Nat) (text : String) : Prop :=
  text.length = size ∧ ∀ c ∈ text.toList, isHexit c = true

/-- The length of an `intercalate` of parts of one size: a separator less than one for each part. -/
theorem length_intercalate_singleton {separator : Char} {size : Nat} {parts : List (List Char)}
    (hne : parts ≠ []) (h : ∀ part ∈ parts, part.length = size) :
    ([separator].intercalate parts).length + 1 = parts.length * (size + 1) := by
  induction parts with
  | nil => exact absurd rfl hne
  | cons part rest ih =>
      have hpart := h part (by simp)
      cases rest with
      | nil => simp [hpart]
      | cons next rest =>
          have hrest := ih (List.cons_ne_nil _ _) fun part hmem => h part (by simp [hmem])
          rw [List.intercalate_cons_cons, List.length_append, List.length_append, hpart,
            List.length_singleton, List.length_cons, Nat.succ_mul, ← hrest]
          omega

namespace Image

variable {digits size address capacity : Nat} {width : Int} {words : List Word}

/-- The `wordText` of a byte has exactly two or four digits at these widths. -/
theorem isNumeral_wordText {word : Word} (hwidth : width = 2 ∨ width = 4) (hword : word ≤ 0xFF) :
    Text.IsNumeral width.toNat (wordText width word) := by
  have hdigits : (Text.hexits word.toNat).length ≤ 2 := by
    rw [UInt16.le_iff_toNat_le] at hword
    have hlog : Nat.log 16 word.toNat < 2 :=
      Nat.log_lt_of_lt_pow' (by decide) (Nat.lt_succ_of_le hword)
    rw [Text.length_hexits]
    omega
  refine ⟨?_, (DumpRow.wordText_spec (by omega) (by omega) word).1⟩
  rw [DumpRow.wordText_eq (by omega) (by omega), String.length_ofList, Text.length_padLeft,
    List.length_map]
  omega

/-- The `lowerHex` of an address that fits its column has exactly as many digits. -/
theorem isNumeral_lowerHex (h : (Text.hexits address).length ≤ digits) :
    Text.IsNumeral digits (Text.lowerHex digits address) := by
  refine ⟨?_, (DumpRow.lowerHex_spec digits address).1⟩
  rw [Text.lowerHex, String.length_ofList, Text.length_padLeft]
  omega

/-- The length of a `row` with its end. -/
theorem length_row (hne : words ≠ []) (haddress : (Text.hexits address).length ≤ digits)
    (hwords : ∀ word ∈ words, (wordText width word).length = size) :
    (row digits width address words).length + 1 = digits + 2 + words.length * (size + 1) := by
  have hsizes : ∀ part ∈ words.map fun word => (wordText width word).toList,
      part.length = size := by
    intro part hmem
    obtain ⟨word, hword, rfl⟩ := List.mem_map.mp hmem
    rw [String.length_toList, hwords word hword]
  have hparts := @length_intercalate_singleton ' ' size _ (by simpa using hne) hsizes
  rw [List.length_map] at hparts
  rw [← hparts, ← String.length_toList, DumpRow.toList_row, List.length_append, List.length_cons,
    List.length_cons, String.length_toList, (isNumeral_lowerHex haddress).1]
  omega

/-- The rows of `rowsFrom`, by their index. Induction along `rowsFrom`. -/
theorem rowsFrom_eq (digits : Nat) (width : Int) (address : Nat) (words : List Word) :
    rowsFrom digits width address words =
      (List.range ((words.length + 15) / 16)).map fun index =>
        row digits width (address + 16 * index) ((words.drop (16 * index)).take 16) := by
  fun_induction rowsFrom digits width address words with
  | case1 address => rfl
  | case2 address word rest chunk ih =>
      have hcount : ((word :: rest).length + 15) / 16 =
          (((word :: rest).drop rowLength).length + 15) / 16 + 1 := by
        rw [List.length_drop, List.length_cons, rowLength]
        omega
      rw [hcount, List.range_succ_eq_map, List.map_cons, List.map_map, ih]
      refine congrArg₂ List.cons rfl (List.map_congr_left fun index hmem => ?_)
      -- There is another row only if this one is full.
      have hfull : chunk.length = 16 := by
        rw [List.mem_range, List.length_drop, rowLength] at hmem
        rw [List.length_take, rowLength]
        omega
      rw [hfull, List.drop_drop, rowLength, Function.comp_apply, Nat.succ_eq_add_one, Nat.mul_add,
        Nat.add_assoc, Nat.add_comm 16]

/-- The length of all of `rowsFrom`, with their ends. -/
theorem sum_length_rowsFrom (hbound : address + words.length ≤ capacity)
    (hdigits : (Text.hexits (capacity - 1)).length ≤ digits)
    (hwords : ∀ word ∈ words, (wordText width word).length = size) :
    ((rowsFrom digits width address words).map fun row => row.length + 1).sum =
      (rowsFrom digits width address words).length * (digits + 2) + words.length * (size + 1) := by
  fun_induction rowsFrom digits width address words with
  | case1 address => simp
  | case2 address word rest chunk ih =>
      have hparts : chunk.length + ((word :: rest).drop rowLength).length =
          (word :: rest).length := by
        rw [← List.length_append, List.take_append_drop]
      have hrest := ih (by omega) fun word hmem => hwords word (List.mem_of_mem_drop hmem)
      have haddress : (Text.hexits address).length ≤ digits := by
        have hmono : Nat.log 16 address ≤ Nat.log 16 (capacity - 1) := by
          refine Nat.log_mono_right ?_
          rw [List.length_cons] at hbound
          omega
        rw [Text.length_hexits] at hdigits ⊢
        omega
      have hfirst := @length_row digits size address width chunk (by simp [chunk, rowLength])
        haddress fun word hmem => hwords word (List.mem_of_mem_take hmem)
      rw [List.map_cons, List.sum_cons, hfirst, hrest, List.length_cons, Nat.succ_mul, ← hparts,
        Nat.add_mul]
      omega

end Image

/-! ### Writing without a limit -/

/-- A sink without a limit takes all lines, and their lengths are counted. -/
theorem Writing.ofList_line (lines : List String) {writing : Writing}
    (hroom : writing.sink.room = none) (hcomplete : writing.complete = true) :
    (Emitter.ofList lines Writing.line writing).1.complete = true ∧
      (Emitter.ofList lines Writing.line writing).1.count =
        writing.count + (lines.map fun line => line.length + 1).sum := by
  induction lines generalizing writing with
  | nil => exact ⟨hcomplete, rfl⟩
  | cons line rest ih =>
      rw [Emitter.ofList, Writing.line_of_room hroom]
      dsimp only
      refine ⟨(ih rfl rfl).1, ?_⟩
      rw [(ih rfl rfl).2, String.length_append, List.map_cons, List.sum_cons]
      exact Nat.add_assoc _ _ _

/-! ### Whole dumps -/

namespace Image

variable {image : Image} {index size : Nat} {text : String}

/-- The `addressDigits` of an image, by the number of its words. -/
theorem addressDigits_eq (image : Image) :
    image.addressDigits = max 2 (Nat.log 16 (image.words.length - 1) + 1) := by
  rw [addressDigits, Text.length_hexits]

/-- There is a row for every sixteen words, and one for those that are left. -/
theorem length_rows (image : Image) : image.rows.length = (image.words.length + 15) / 16 := by
  rw [rows, rowsFrom_eq, List.length_map, List.length_range]

/-- A row by its index. It begins at an address of the image, so it needs no more than
`addressDigits`. -/
theorem row_of_getElem? (h : image.rows[index]? = some text) :
    text = row image.addressDigits image.width (16 * index)
        ((image.words.drop (16 * index)).take 16) ∧
      Text.IsNumeral image.addressDigits (Text.lowerHex image.addressDigits (16 * index)) := by
  rw [rows, rowsFrom_eq, List.getElem?_map, Option.map_eq_some_iff] at h
  obtain ⟨found, hfound, rfl⟩ := h
  obtain ⟨hlt, hsame⟩ := List.getElem?_eq_some_iff.mp hfound
  rw [List.getElem_range] at hsame
  subst hsame
  rw [List.length_range] at hlt
  refine ⟨by rw [Nat.zero_add], isNumeral_lowerHex ?_⟩
  have hmono : Nat.log 16 (16 * index) ≤ Nat.log 16 (image.words.length - 1) :=
    Nat.log_mono_right (by omega)
  rw [Text.length_hexits, addressDigits_eq]
  omega

/-- The length of the lines of a dump, if all words have the same length. -/
theorem sum_length_lines (h : ∀ word ∈ image.words, (wordText image.width word).length = size) :
    ((header :: image.rows).map fun line => line.length + 1).sum =
      25 + (image.words.length + 15) / 16 * (image.addressDigits + 2) +
        image.words.length * (size + 1) := by
  have hrows : (image.rows.map fun line => line.length + 1).sum =
      image.rows.length * (image.addressDigits + 2) + image.words.length * (size + 1) :=
    sum_length_rowsFrom (Nat.le_of_eq (Nat.zero_add _)) (Nat.le_max_right _ _) h
  have hheader : header.length = 24 := rfl
  rw [List.map_cons, List.sum_cons, hrows, hheader, length_rows]
  omega

/-- The length of a `dump` is that of its lines and their ends. -/
theorem length_dump (image : Image) :
    image.dump.length = ((header :: image.rows).map fun line => line.length + 1).sum := by
  rw [← String.length_toList, image.toList_dump, List.length_flatMap]
  simp [String.length_toList]

/-- A sink without a limit takes all of a `dump`. -/
theorem writeTo_of_room (image : Image) {sink : Sink} (hroom : sink.room = none) :
    (image.writeTo sink).complete = true ∧ (image.writeTo sink).count = image.dump.length ∧
      (image.writeTo sink).sink.stored = sink.stored ++ image.dump := by
  obtain ⟨hcomplete, hcount⟩ := @Writing.ofList_line (header :: image.rows) { sink } hroom rfl
  rw [image.writeTo_eq, length_dump]
  refine ⟨hcomplete, hcount.trans (Nat.zero_add _), ?_⟩
  rw [← String.toList_inj, toList_stored_ofList _ hroom, String.toList_append, image.toList_dump]

end Image

/-! ### Characters and bytes -/

/-- Text in ASCII has a byte for each character. -/
theorem Text.toUTF8_of_ascii {text : String} (h : ∀ c ∈ text.toList, c.val ≤ 127) :
    text.toUTF8.data.toList = text.toList.map fun c => c.val.toUInt8 := by
  have hone : ∀ c ∈ text.toList, String.utf8EncodeChar c = [c.val.toUInt8] := fun c hc =>
    String.utf8EncodeChar_eq_singleton (Char.utf8Size_eq_one_iff.mpr (h c hc))
  rw [Utf8.toUTF8_eq_flatMap, List.flatMap_congr hone, ← List.map_eq_flatMap]

/-- Text in ASCII has as many bytes as characters. -/
theorem Text.utf8ByteSize_of_ascii {text : String} (h : ∀ c ∈ text.toList, c.val ≤ 127) :
    text.utf8ByteSize = text.length := by
  have hbytes := congrArg List.length (toUTF8_of_ascii h)
  rw [List.length_map, String.length_toList] at hbytes
  exact hbytes

/-- A hexadecimal digit is in ASCII. -/
theorem Text.ascii_of_isHexit {c : Char} (h : isHexit c = true) : c.val ≤ 127 := by
  have hlist : ("0123456789ABCDEFabcdef".toList.all fun d => d.val ≤ 127) = true := by decide
  exact of_decide_eq_true (List.all_eq_true.mp hlist c (mem_of_isHexit h))

/-- A `wordText` is in ASCII at any width. -/
theorem Image.ascii_wordText (width : Int) (word : Word) :
    ∀ c ∈ (wordText width word).toList, c.val ≤ 127 := by
  have hdigits : ∀ c ∈ (Text.hexits word.toNat).map Char.toUpper, c.val ≤ 127 := by
    intro c hc
    obtain ⟨d, hd, rfl⟩ := List.mem_map.mp hc
    exact Text.ascii_of_isHexit (Text.isHexit_toUpper (Text.isHexit_of_mem_hexits hd))
  intro c hc
  rw [wordText] at hc
  split at hc
  · rw [String.toList_append, List.mem_append] at hc
    rcases hc with hmark | hdigit
    · have hlist : ("%!(BADWIDTH)".toList.all fun d => d.val ≤ 127) = true := by decide
      exact of_decide_eq_true (List.all_eq_true.mp hlist c hmark)
    · rw [String.toList_ofList] at hdigit
      exact hdigits c hdigit
  split at hc
  · rw [String.toList_ofList, Text.padRight, List.mem_append] at hc
    rcases hc with hdigit | hblank
    · exact hdigits c hdigit
    · rw [(List.mem_replicate.mp hblank).2]
      decide
  · rw [String.toList_ofList, Text.padLeft, List.mem_append] at hc
    rcases hc with hzero | hdigit
    · rw [(List.mem_replicate.mp hzero).2]
      decide
    · exact hdigits c hdigit

/-- A `dump` is in ASCII. -/
theorem Image.ascii_dump (image : Image) : ∀ c ∈ image.dump.toList, c.val ≤ 127 := by
  intro c hc
  rw [image.toList_dump] at hc
  obtain ⟨line, hline, hc⟩ := List.mem_flatMap.mp hc
  rcases List.mem_append.mp hc with hc | hend
  · rcases List.mem_cons.mp hline with rfl | hrow
    · have hheader : (Image.header.toList.all fun d => d.val ≤ 127) = true := by decide
      exact of_decide_eq_true (List.all_eq_true.mp hheader c hc)
    · obtain ⟨address, chunk, rfl⟩ := DumpRow.exists_row_of_mem hrow
      rw [DumpRow.toList_row, List.mem_append, List.mem_cons, List.mem_cons] at hc
      rcases hc with hdigit | rfl | rfl | hwords
      · exact Text.ascii_of_isHexit ((DumpRow.lowerHex_spec _ _).1 c hdigit)
      · decide
      · decide
      · rcases mem_intercalate_singleton hwords with rfl | ⟨part, hpart, hdigit⟩
        · decide
        · obtain ⟨word, -, rfl⟩ := List.mem_map.mp hpart
          exact ascii_wordText image.width word c hdigit
  · rw [List.mem_singleton.mp hend]
    decide

/-! ### Assembled images -/

/-- The settings that `validate` accepts. -/
theorem Settings.validate_eq_ok_iff {settings : Settings} :
    settings.validate = .ok () ↔ (1 ≤ settings.capacity ∧ settings.capacity ≤ 0x10000) ∧
      (settings.width = 2 ∨ settings.width = 4) := by
  have hlargest : Settings.largestCapacity = 0x10000 := rfl
  fun_cases Settings.validate settings with
  | case1 hcapacity =>
      simp only [Bool.or_eq_true, decide_eq_true_eq] at hcapacity
      simp only [Check.throw_eq_error, reduceCtorEq, false_iff]
      omega
  | case2 hcapacity hwidth =>
      simp only [Bool.and_eq_true, bne_iff_ne] at hwidth
      simp only [Check.throw_eq_error, reduceCtorEq, false_iff]
      omega
  | case3 hcapacity hwidth =>
      simp only [Bool.or_eq_true, decide_eq_true_eq] at hcapacity
      simp only [Bool.and_eq_true, bne_iff_ne] at hwidth
      simp only [Check.pure_eq_ok, true_iff]
      omega

/-- An image that was assembled with valid settings has their capacity and width. -/
theorem Settings.image_shape {settings : Settings} {instructions : List (Option Instruction)}
    {image : Image} (hvalid : settings.validate = .ok ())
    (himage : (settings.assembler.assemble instructions).2.1 = .image image) :
    image.words = Placement.placedWords settings.capacity.toNat instructions ∧
      image.words.length = settings.capacity.toNat ∧ image.width = settings.width := by
  obtain ⟨⟨hlow, hhigh⟩, hwidth⟩ := Settings.validate_eq_ok_iff.mp hvalid
  have hcapacity : settings.assembler.effectiveCapacity = settings.capacity := by
    rw [Assembler.effectiveCapacity]
    exact if_neg (by simp only [Settings.assembler]; omega)
  have hshown : image.width = settings.width := by
    rw [(Placement.assemble_of_image himage).2.1, Assembler.effectiveWidth]
    exact if_neg (by simp only [Settings.assembler]; omega)
  have hwords : image.words = Placement.placedWords settings.capacity.toNat instructions := by
    rw [(Placement.assemble_of_image himage).2.1, hcapacity]
  have hlength : image.words.length = settings.capacity.toNat := by
    have hplaceable := (Placement.placeable_of_image himage).2
    rw [hcapacity] at hplaceable
    rw [hwords, Placement.length_placedWords hplaceable.fits]
  exact ⟨hwords, hlength, hshown⟩

/-- **The size of a dump.** The words of an image that was assembled with valid settings are bytes.
In its `dump` every word has as many digits as the settings say, and every row address as many as
the last address of the image, but at least two. There is a row for every sixteen words, and one for
those that are left. A sink without a limit takes all of the dump, and counts exactly the bytes that
follow from the settings. -/
theorem dump_size (settings : Settings) (instructions : List (Option Instruction)) (image : Image)
    (hvalid : settings.validate = .ok ())
    (himage : (settings.assembler.assemble instructions).2.1 = .image image) :
    let capacity := settings.capacity.toNat
    let width := settings.width.toNat
    let digits := max 2 (Nat.log 16 (capacity - 1) + 1)
    let rowCount := (capacity + 15) / 16
    let size := 25 + rowCount * (digits + 2) + capacity * (width + 1)
    image.words.length = capacity ∧
    (∀ word ∈ image.words,
      word ≤ 0xFF ∧ Text.IsNumeral width (Image.wordText image.width word)) ∧
    image.rows.length = rowCount ∧
    (∀ index row, image.rows[index]? = some row →
      ∃ address, Text.IsNumeral digits address ∧ Text.readHex? address = some (16 * index) ∧
        row = address ++ ": " ++ " ".intercalate
          (((image.words.drop (16 * index)).take 16).map (Image.wordText image.width))) ∧
    ∀ sink : Sink, sink.room = none →
      (image.writeTo sink).complete = true ∧ (image.writeTo sink).count = size ∧
      (image.writeTo sink).sink.stored = sink.stored ++ image.dump ∧
      image.dump.utf8ByteSize = size := by
  intro capacity width digits rowCount size
  obtain ⟨-, hwidth⟩ := Settings.validate_eq_ok_iff.mp hvalid
  obtain ⟨hwords, hlength, hshown⟩ := Settings.image_shape hvalid himage
  have hnumeral : ∀ word ∈ image.words,
      word ≤ 0xFF ∧ Text.IsNumeral width (Image.wordText image.width word) := by
    intro word hmem
    rw [hwords] at hmem
    have hbyte := Placement.forall_word_le _ _ word hmem
    rw [hshown]
    exact ⟨hbyte, Image.isNumeral_wordText hwidth hbyte⟩
  have hdigits : image.addressDigits = digits := by
    rw [image.addressDigits_eq, hlength]
  have hsize : image.dump.length = size := by
    rw [image.length_dump, Image.sum_length_lines fun word hmem => (hnumeral word hmem).2.1,
      hlength, hdigits]
  refine ⟨hlength, hnumeral, by rw [image.length_rows, hlength], ?_, ?_⟩
  · intro index row hrow
    obtain ⟨hline, haddress⟩ := Image.row_of_getElem? hrow
    rw [hdigits] at hline haddress
    exact ⟨_, haddress, (DumpRow.lowerHex_spec _ _).2, hline⟩
  · intro sink hroom
    obtain ⟨hcomplete, hcount, hstored⟩ := image.writeTo_of_room hroom
    refine ⟨hcomplete, hcount.trans hsize, hstored, ?_⟩
    rw [Text.utf8ByteSize_of_ascii image.ascii_dump, hsize]

/-- An image with a last row of one word, at the width of four digits. -/
theorem dump_size_last_row :
    let settings : Settings := { capacity := 17, width := 4 }
    let program : List (Option Instruction) :=
      [ some (.unary ⟨1, 0⟩ .start ⟨.dollar, "10"⟩), some (.noOperand ⟨2, 0⟩ .hlt) ]
    settings.validate = .ok () ∧
      ∃ image, (settings.assembler.assemble program).2.1 = .image image ∧
        image.rows.length = 2 ∧ image.rows[1]? = some "10: 0020" ∧
        (∃ address, Text.IsNumeral 2 address ∧ Text.readHex? address = some 16) ∧
        (image.writeTo .unlimited).count = 118 ∧ image.dump.utf8ByteSize = 118 := by
  intro settings program
  have hvalid : settings.validate = .ok () := by rfl
  have himage : (settings.assembler.assemble program).2.1 =
      .image ⟨List.replicate 16 0 ++ [0x20], 4, []⟩ := by rfl
  have hlog : Nat.log 16 (settings.capacity.toNat - 1) = 1 :=
    Nat.log_eq_of_pow_le_of_lt_pow (by decide) (by decide)
  obtain ⟨-, -, hrows, haddress, hwrite⟩ := dump_size settings program _ hvalid himage
  rw [hlog] at haddress hwrite
  have hlast : (Image.mk (List.replicate 16 0 ++ [0x20]) 4 []).rows[1]? = some "10: 0020" := by
    decide +kernel
  obtain ⟨address, hnumeral, hread, -⟩ := haddress 1 _ hlast
  obtain ⟨-, hcount, -, hbytes⟩ := hwrite .unlimited rfl
  exact ⟨hvalid, _, himage, hrows.trans (by decide), hlast, ⟨address, hnumeral, hread⟩,
    hcount.trans (by decide), hbytes.trans (by decide)⟩

end MovAsm

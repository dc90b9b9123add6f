import Mathlib.Data.List.Induction
import Mathlib.Logic.Function.Basic
import MovAsm.Image.Dump
import MovAsm.Proofs.Emitter
import MovAsm.Proofs.Text.Numeral

/-!
# Reading Dumps Back

A dump is read line by line: the header is left out, and every other line stores its words from its
address on. This module defines such a reader and shows that it finds in a dump exactly the words of
the image, whatever their number and whatever the width at which they are written.

Row by row, the addresses count up in sixteens, so that no address is stored to twice and none is
left out.

## Main results

* `Image.toList_dump`: a dump is its lines, each with its end.
* `DumpRow.ofLine?_row`: a row is read as the address and the words that were written.
* `DumpRow.exists_rows`: the rows of some words are read back, one after the other.
* `dump_read_back`: the dump of an image is read back.
-/

namespace MovAsm

/-! ### A reader of dumps -/

/-- A row of a dump as it is read: the digits of its address, the address that they write, and the
words from that address on. -/
structure DumpRow where
  digits : List Char
  address : Nat
  words : List Word
  deriving DecidableEq, Repr

namespace DumpRow

/-- The word that `digits` write, if it has no more than sixteen bits. -/
def word? (digits : List Char) : Option Word :=
  match Text.readHex? (String.ofList digits) with
  | some value => if value < 0x10000 then some value.toUInt16 else none
  | none => none

/-- Reads a row: an address, a colon, and a blank before each word. -/
def ofLine? (line : List Char) : Option DumpRow :=
  match line.splitOn ':' with
  | [digits, ' ' :: rest] => do
    let address ← Text.readHex? (String.ofList digits)
    let words ← (rest.splitOn ' ').mapM word?
    pure { digits, address, words }
  | _ => none

/-- What a row stores, in order: each word with the address that it goes to. -/
def stores (row : DumpRow) : List (Nat × Word) :=
  row.words.mapIdx fun offset word => (row.address + offset, word)

/-- The rows of a dump: all lines behind the first that are not empty. -/
def readAll? (text : String) : Option (List DumpRow) :=
  ((text.toList.splitOn '\n').tail.filter fun line => !line.isEmpty).mapM ofLine?

/-- The memory after some stores, of which the last one to an address counts. -/
def contents (stores : List (Nat × Word)) : Nat → Option Word :=
  stores.foldl (fun memory store => Function.update memory store.1 (some store.2)) fun _ => none

end DumpRow

/-! ### The text of a dump -/

/-- A sink without a limit takes a `line`, with its end. -/
theorem Writing.line_of_room {writing : Writing} (hroom : writing.sink.room = none)
    (line : String) :
    Writing.line line writing =
      ({ sink := { room := none, stored := writing.sink.stored ++ (line ++ "\n") }
         count := writing.count + (line ++ "\n").length }, true) := by
  simp only [Writing.line, Sink.write, hroom]

/-- A sink without a limit takes all lines, each with its end. -/
theorem toList_stored_ofList (lines : List String) {writing : Writing}
    (hroom : writing.sink.room = none) :
    (Emitter.ofList lines Writing.line writing).1.sink.stored.toList =
      writing.sink.stored.toList ++ lines.flatMap fun line => line.toList ++ ['\n'] := by
  induction lines generalizing writing with
  | nil => simp [Emitter.ofList]
  | cons line rest ih =>
      rw [Emitter.ofList, Writing.line_of_room hroom]
      dsimp only
      rw [ih rfl]
      simp

/-- The emitter `emitLines` is that of a list: the header and the rows. -/
theorem Image.emitLines_eq {σ : Type} (image : Image) :
    (image.emitLines : Emitter String σ) = .ofList (Image.header :: image.rows) := by
  funext consumer state
  have hconcat := Emitter.concat_map_ofList [[Image.header], image.rows] consumer state
  rw [List.flatten_cons, List.flatten_cons, List.flatten_nil, List.append_nil] at hconcat
  exact hconcat

/-- A `writeTo` writes the header and the rows, line by line. -/
theorem Image.writeTo_eq (image : Image) (sink : Sink) :
    image.writeTo sink =
      (Emitter.ofList (Image.header :: image.rows) Writing.line { sink }).1 := by
  rw [Image.writeTo, image.emitLines_eq]

/-- The characters of a `dump` are those of its lines, each with its end. -/
theorem Image.toList_dump (image : Image) :
    image.dump.toList =
      (Image.header :: image.rows).flatMap fun line => line.toList ++ ['\n'] := by
  rw [Image.dump, image.writeTo_eq, toList_stored_ofList _ rfl]
  rfl

/-- Lines with their ends are cut by `splitOn` into these lines, and nothing behind the last end. -/
theorem splitOn_lines {lines : List (List Char)} (h : ∀ line ∈ lines, '\n' ∉ line) :
    (lines.flatMap fun line => line ++ ['\n']).splitOn '\n' = lines ++ [[]] := by
  induction lines with
  | nil => rfl
  | cons line rest ih =>
      have hline : ∀ c ∈ line, (c == '\n') = false := by
        intro c hc
        rw [beq_eq_false_iff_ne]
        rintro rfl
        exact h line (by simp) hc
      rw [List.flatMap_cons, List.append_assoc, List.singleton_append, List.splitOn_eq_splitOnP,
        List.splitOnP_append_cons_of_forall_mem hline _ (by decide), ← List.splitOn_eq_splitOnP,
        ih fun line hmem => h line (by simp [hmem]), List.cons_append]

/-- A character of an `intercalate` is the separator or in one of the parts. -/
theorem mem_intercalate_singleton {separator c : Char} {parts : List (List Char)}
    (h : c ∈ [separator].intercalate parts) : c = separator ∨ ∃ part ∈ parts, c ∈ part := by
  induction parts with
  | nil => simp at h
  | cons part rest ih =>
      cases rest with
      | nil => exact .inr ⟨part, by simp, by simpa using h⟩
      | cons next rest =>
          rw [List.intercalate_cons_cons, List.append_assoc, List.mem_append,
            List.singleton_append, List.mem_cons] at h
          rcases h with hpart | hseparator | hrest
          · exact .inr ⟨part, by simp, hpart⟩
          · exact .inl hseparator
          · rcases ih hrest with hseparator | ⟨other, hmem, hc⟩
            · exact .inl hseparator
            · exact .inr ⟨other, by simp [hmem], hc⟩

/-! ### Rows -/

namespace DumpRow

variable {width : Int} {size address : Nat} {words : List Word}

/-- A character that is no `isHexit` is not among digits. -/
theorem not_mem_of_forall_isHexit {digits : List Char} {c : Char}
    (hdigits : ∀ d ∈ digits, Text.isHexit d = true) (hc : Text.isHexit c = false) : c ∉ digits := by
  intro hmem
  rw [hdigits c hmem] at hc
  cases hc

/-- The `wordText` at a width that is honoured: digits in upper case, filled up with zeros. -/
theorem wordText_eq (hlow : 0 ≤ width) (hhigh : width ≤ 1000000) (word : Word) :
    Image.wordText width word = String.ofList
      (Text.padLeft '0' width.natAbs ((Text.hexits word.toNat).map Char.toUpper)) := by
  have hbound : ¬width.natAbs > Image.largestWidth.natAbs := by
    have hlargest : Image.largestWidth.natAbs = 1000000 := rfl
    omega
  rw [Image.wordText]
  rw [if_neg hbound, if_neg (by omega)]

/-- The `wordText` of a word has digits only, and `word?` reads them as the word. -/
theorem wordText_spec (hlow : 0 ≤ width) (hhigh : width ≤ 1000000) (word : Word) :
    (∀ c ∈ (Image.wordText width word).toList, Text.isHexit c = true) ∧
      word? (Image.wordText width word).toList = some word := by
  have hdigits : ∀ c ∈ (Text.hexits word.toNat).map Char.toUpper, Text.isHexit c = true := by
    intro c hc
    obtain ⟨d, hd, rfl⟩ := List.mem_map.mp hc
    exact Text.isHexit_toUpper (Text.isHexit_of_mem_hexits hd)
  have hvalue : Text.hexValue ((Text.hexits word.toNat).map Char.toUpper) = word.toNat := by
    rw [Text.hexValue_map_toUpper fun c hc => Text.isHexit_of_mem_hexits hc, Text.hexValue_hexits]
  rw [wordText_eq hlow hhigh, String.toList_ofList]
  refine ⟨fun c hc => Text.isHexit_of_mem_padLeft hdigits hc, ?_⟩
  rw [word?, Text.readHex?_padLeft (by simpa using Text.hexits_ne_nil _) hdigits, hvalue]
  simp [word.toNat_lt]

/-- The `lowerHex` of an address has digits only, and `readHex?` reads them as the address. -/
theorem lowerHex_spec (size address : Nat) :
    (∀ c ∈ (Text.lowerHex size address).toList, Text.isHexit c = true) ∧
      Text.readHex? (Text.lowerHex size address) = some address := by
  have hdigits : ∀ c ∈ Text.hexits address, Text.isHexit c = true :=
    fun c hc => Text.isHexit_of_mem_hexits hc
  rw [Text.lowerHex, String.toList_ofList, Text.readHex?_padLeft (Text.hexits_ne_nil _) hdigits,
    Text.hexValue_hexits]
  exact ⟨fun c hc => Text.isHexit_of_mem_padLeft hdigits hc, rfl⟩

/-- The characters of a `row`. -/
theorem toList_row (width : Int) (size address : Nat) (words : List Word) :
    (Image.row size width address words).toList =
      (Text.lowerHex size address).toList ++ ':' :: ' ' ::
        [' '].intercalate (words.map fun word => (Image.wordText width word).toList) := by
  simp [Image.row, String.toList_intercalate, List.map_map, Function.comp_def]

/-- Between the words of a `row` there are blanks, and nothing else. -/
theorem not_mem_words {c : Char} (hlow : 0 ≤ width) (hhigh : width ≤ 1000000)
    (hc : Text.isHexit c = false) (hblank : c ≠ ' ') :
    c ∉ [' '].intercalate (words.map fun word => (Image.wordText width word).toList) := by
  intro hmem
  rcases mem_intercalate_singleton hmem with heq | ⟨part, hpart, hmem⟩
  · exact hblank heq
  · obtain ⟨word, -, rfl⟩ := List.mem_map.mp hpart
    exact not_mem_of_forall_isHexit (wordText_spec hlow hhigh word).1 hc hmem

/-- There is no end of line in a `row`. -/
theorem newline_not_mem_row (hlow : 0 ≤ width) (hhigh : width ≤ 1000000) :
    '\n' ∉ (Image.row size width address words).toList := by
  rw [toList_row]
  intro hmem
  simp only [List.mem_append, List.mem_cons] at hmem
  rcases hmem with haddress | hcolon | hblank | hwords
  · exact not_mem_of_forall_isHexit (lowerHex_spec size address).1 (by decide) haddress
  · exact absurd hcolon (by decide)
  · exact absurd hblank (by decide)
  · exact not_mem_words hlow hhigh (by decide) (by decide) hwords

/-- The only colon of a `row` stands behind its address. -/
theorem splitOn_row (hlow : 0 ≤ width) (hhigh : width ≤ 1000000) :
    (Image.row size width address words).toList.splitOn ':' =
      [(Text.lowerHex size address).toList,
        ' ' :: [' '].intercalate (words.map fun word => (Image.wordText width word).toList)] := by
  have hcolon {text : List Char} (h : ':' ∉ text) : ∀ c ∈ text, (c == ':') = false := by
    intro c hc
    rw [beq_eq_false_iff_ne]
    rintro rfl
    exact h hc
  have haddress : ':' ∉ (Text.lowerHex size address).toList :=
    not_mem_of_forall_isHexit (lowerHex_spec size address).1 (by decide)
  have hwords : ':' ∉ ' ' ::
      [' '].intercalate (words.map fun word => (Image.wordText width word).toList) :=
    List.not_mem_cons_of_ne_of_not_mem (by decide)
      (not_mem_words hlow hhigh (by decide) (by decide))
  rw [toList_row, List.splitOn_eq_splitOnP,
    List.splitOnP_append_cons_of_forall_mem (hcolon haddress) _ (by decide),
    List.splitOnP_eq_singleton (hcolon hwords)]

/-- Words with blanks between them are read back by `word?`. -/
theorem mapM_words (hlow : 0 ≤ width) (hhigh : width ≤ 1000000) (hwords : words ≠ []) :
    (([' '].intercalate (words.map fun word => (Image.wordText width word).toList)).splitOn
      ' ').mapM word? = some words := by
  have hblank : ∀ part ∈ words.map fun word => (Image.wordText width word).toList, ' ' ∉ part := by
    intro part hpart
    obtain ⟨word, -, rfl⟩ := List.mem_map.mp hpart
    exact not_mem_of_forall_isHexit (wordText_spec hlow hhigh word).1 (by decide)
  have hread : (word? ∘ fun word => (Image.wordText width word).toList) = some :=
    funext fun word => (wordText_spec hlow hhigh word).2
  rw [List.splitOn_intercalate ' ' hblank (by simpa using hwords), List.mapM_map, hread]
  simpa using @List.mapM_pure Option Word Word _ _ words id

/-- The answer of `ofLine?` to a `row`: the address and the words that were written. -/
theorem ofLine?_row (hlow : 0 ≤ width) (hhigh : width ≤ 1000000) (hwords : words ≠ []) :
    ofLine? (Image.row size width address words).toList =
      some ⟨(Text.lowerHex size address).toList, address, words⟩ := by
  rw [ofLine?, splitOn_row hlow hhigh]
  simp [(lowerHex_spec size address).2, mapM_words hlow hhigh hwords]

/-! ### Rows one after the other -/

/-- The rows that are read from those of `words` from `address` on: together they store the words,
each once and in order; their addresses count up in sixteens; all but the last have sixteen words,
and the last has some; and their addresses are written in `size` digits. -/
structure Hold (size address : Nat) (words : List Word) (rows : List DumpRow) : Prop where
  stores_eq : rows.flatMap stores = words.mapIdx fun offset word => (address + offset, word)
  addresses_eq : rows.map DumpRow.address =
    (List.range rows.length).map fun index => address + 16 * index
  full : ∀ row ∈ rows.dropLast, row.words.length = 16
  nonempty : ∀ row ∈ rows, row.words ≠ []
  digits_eq : ∀ row ∈ rows, row.digits = (Text.lowerHex size row.address).toList

/-- One row is in the relation `Hold` with the words that are in it. -/
theorem hold_singleton (hwords : words ≠ []) :
    Hold size address words [⟨(Text.lowerHex size address).toList, address, words⟩] where
  stores_eq := by simp [stores]
  addresses_eq := by simp
  full := by simp
  nonempty := by simpa using hwords
  digits_eq := by simp

/-- A full row goes before others. -/
theorem Hold.cons {chunk : List Word} {rows : List DumpRow} (hchunk : chunk.length = 16)
    (h : Hold size (address + 16) words rows) :
    Hold size address (chunk ++ words)
      (⟨(Text.lowerHex size address).toList, address, chunk⟩ :: rows) where
  stores_eq := by
    rw [List.flatMap_cons, h.stores_eq, List.mapIdx_append, stores, hchunk]
    congr 2
    funext offset word
    rw [Nat.add_right_comm, Nat.add_assoc]
  addresses_eq := by
    rw [List.map_cons, h.addresses_eq, List.length_cons, List.range_succ_eq_map, List.map_cons,
      List.map_map]
    congr 2
    funext index
    simp only [Function.comp_apply]
    omega
  full := by
    intro row hmem
    cases rows with
    | nil => cases hmem
    | cons next rest =>
        rw [List.dropLast_cons_cons] at hmem
        rcases List.mem_cons.mp hmem with rfl | hmem
        · exact hchunk
        · exact h.full row hmem
  nonempty := by
    intro row hmem
    rcases List.mem_cons.mp hmem with rfl | hmem
    · have hpos : 0 < chunk.length := by omega
      exact List.ne_nil_of_length_pos hpos
    · exact h.nonempty row hmem
  digits_eq := by
    intro row hmem
    rcases List.mem_cons.mp hmem with rfl | hmem
    · rfl
    · exact h.digits_eq row hmem

/-- The rows of `rowsFrom` are read as rows that `Hold` the words. Induction along `rowsFrom`. -/
theorem exists_rows (hlow : 0 ≤ width) (hhigh : width ≤ 1000000) (size address : Nat)
    (words : List Word) :
    ∃ rows, ((Image.rowsFrom size width address words).map String.toList).mapM ofLine? =
      some rows ∧ Hold size address words rows := by
  fun_induction Image.rowsFrom size width address words with
  | case1 address => exact ⟨[], rfl, by simp, by simp, by simp, by simp, by simp⟩
  | case2 address word rest chunk ih =>
      obtain ⟨rows, hread, hhold⟩ := ih
      have hchunk : chunk ≠ [] := by simp [chunk, Image.rowLength]
      have hfirst := @ofLine?_row width size address chunk hlow hhigh hchunk
      rw [List.map_cons, List.mapM_cons, hfirst, hread]
      refine ⟨_, rfl, ?_⟩
      by_cases hlong : Image.rowLength < (word :: rest).length
      · have hlength : chunk.length = 16 := by
          rw [List.length_take]
          exact Nat.min_eq_left (Nat.le_of_lt hlong)
        rw [hlength] at hhold
        have hcons := hhold.cons hlength
        rw [List.take_append_drop] at hcons
        exact hcons
      · -- Nothing is left for other rows.
        have hnone : (word :: rest).drop Image.rowLength = [] :=
          List.drop_eq_nil_of_le (by omega)
        have hall : chunk = word :: rest := List.take_of_length_le (by omega)
        rw [hnone, Image.rowsFrom] at hread
        cases hread
        rw [hall]
        exact hold_singleton (List.cons_ne_nil _ _)

/-! ### Memory -/

/-- To store words from address zero on leaves them in memory, and nothing else. -/
theorem contents_mapIdx (words : List Word) :
    contents (words.mapIdx fun address word => (address, word)) =
      fun address => words[address]? := by
  induction words using List.reverseRecOn with
  | nil => rfl
  | append_singleton words word ih =>
      funext address
      rw [List.mapIdx_concat, contents, List.foldl_append]
      change Function.update (contents _) words.length (some word) address = _
      rw [ih, Function.update_apply, List.getElem?_append, List.getElem?_singleton]
      rcases Nat.lt_trichotomy address words.length with hbelow | rfl | habove
      · rw [if_neg (by omega), if_pos hbelow]
      · simp
      · rw [if_neg (by omega), if_neg (by omega), if_neg (by omega),
          List.getElem?_eq_none (by omega)]

/-! ### Whole dumps -/

/-- Each of the texts of `rowsFrom` is a `row` of some of the words. -/
theorem exists_row_of_mem {text : String} (h : text ∈ Image.rowsFrom size width address words) :
    ∃ first chunk, text = Image.row size width first chunk := by
  fun_induction Image.rowsFrom size width address words with
  | case1 address => cases h
  | case2 address word rest chunk ih =>
      rcases List.mem_cons.mp h with rfl | h
      · exact ⟨address, chunk, rfl⟩
      · exact ih h

/-- The lines that `readAll?` reads from a `dump` are the rows of the image. -/
theorem readAll?_dump {image : Image} (hlow : 0 ≤ image.width) (hhigh : image.width ≤ 1000000) :
    readAll? image.dump = (image.rows.map String.toList).mapM ofLine? := by
  have hrow : ∀ line ∈ image.rows.map String.toList, '\n' ∉ line ∧ line ≠ [] := by
    intro line hline
    obtain ⟨text, htext, rfl⟩ := List.mem_map.mp hline
    obtain ⟨first, chunk, rfl⟩ := exists_row_of_mem htext
    exact ⟨newline_not_mem_row hlow hhigh, by simp [toList_row]⟩
  have hlines : ∀ line ∈ Image.header.toList :: image.rows.map String.toList, '\n' ∉ line := by
    intro line hline
    rcases List.mem_cons.mp hline with rfl | hline
    · decide
    · exact (hrow line hline).1
  have hsplit : image.dump.toList.splitOn '\n' =
      Image.header.toList :: image.rows.map String.toList ++ [[]] := by
    rw [← splitOn_lines hlines, image.toList_dump, ← List.map_cons, List.flatMap_map]
  rw [readAll?, hsplit, List.cons_append, List.tail_cons, List.filter_append]
  have hkeep : ((image.rows.map String.toList).filter fun line => !line.isEmpty) =
      image.rows.map String.toList := by
    rw [List.filter_eq_self]
    intro line hline
    simpa using (hrow line hline).2
  rw [hkeep]
  simp

/-- **Dumps are read back.** Reading the `dump` of an image by `readAll?` puts each of its words
back where it was, and stores to no address twice. The rows begin at every sixteenth address, all
but the last have sixteen words, and their addresses have as many digits as the last address of the
image, but at least two. -/
theorem dump_read_back (image : Image) (hlow : 0 ≤ image.width) (hhigh : image.width ≤ 1000000) :
    ∃ rows, readAll? image.dump = some rows ∧
      contents (rows.flatMap stores) = (fun address => image.words[address]?) ∧
      (rows.flatMap stores).map Prod.fst = List.range image.words.length ∧
      rows.map DumpRow.address = (List.range rows.length).map (fun index => 16 * index) ∧
      (∀ row ∈ rows.dropLast, row.words.length = 16) ∧
      ∀ row ∈ rows, row.digits.length = max 2 (Nat.log 16 (image.words.length - 1) + 1) := by
  obtain ⟨rows, hread, hhold⟩ := exists_rows hlow hhigh image.addressDigits 0 image.words
  have hstores := hhold.stores_eq
  simp only [Nat.zero_add] at hstores
  refine ⟨rows, (readAll?_dump hlow hhigh).trans hread, ?_, ?_, ?_, hhold.full, ?_⟩
  · rw [hstores, contents_mapIdx]
  · rw [hstores]
    exact List.ext_getElem (by simp) (by simp)
  · simpa using hhold.addresses_eq
  · intro row hmem
    -- A row begins at an address of the image, so it needs no more digits than the last one.
    obtain ⟨word, rest, hwords⟩ := List.exists_cons_of_ne_nil (hhold.nonempty row hmem)
    have hfirst : (row.address, word) ∈ rows.flatMap stores :=
      List.mem_flatMap.mpr ⟨row, hmem, by simp [stores, hwords]⟩
    rw [hstores] at hfirst
    obtain ⟨address, hlt, heq⟩ := List.mem_mapIdx.mp hfirst
    cases heq
    have hle : Nat.log 16 row.address ≤ Nat.log 16 (image.words.length - 1) :=
      Nat.log_mono_right (by omega)
    rw [hhold.digits_eq row hmem, Text.lowerHex, String.toList_ofList, Text.length_padLeft,
      Image.addressDigits, Text.length_hexits, Text.length_hexits]
    omega

/-- An image with a row of two words, one of which is wider than the width. -/
theorem dump_read_back_partial_row :
    let image : Image := { words := List.replicate 16 0 ++ [0x12AB, 0x2C], width := 3 }
    0 ≤ image.width ∧ image.width ≤ 1000000 ∧
      image.dump = "v3.0 hex words addressed\n" ++
        "00: 000 000 000 000 000 000 000 000 000 000 000 000 000 000 000 000\n" ++
        "10: 12AB 02C\n" ∧
      ∃ rows, readAll? image.dump = some rows ∧ rows.length = 2 ∧
        contents (rows.flatMap stores) 16 = some 0x12AB ∧
        contents (rows.flatMap stores) 17 = some 0x2C ∧
        contents (rows.flatMap stores) 18 = none := by
  intro image
  have hlow : 0 ≤ image.width := by decide
  have hhigh : image.width ≤ 1000000 := by decide
  have hdump : image.dump = "v3.0 hex words addressed\n" ++
      "00: 000 000 000 000 000 000 000 000 000 000 000 000 000 000 000 000\n" ++
      "10: 12AB 02C\n" := by decide +kernel
  obtain ⟨rows, hread, hcontents, -, -, -, -⟩ := dump_read_back image hlow hhigh
  have hrows : (readAll? image.dump).map List.length = some 2 := by decide +kernel
  rw [hread] at hrows
  refine ⟨hlow, hhigh, hdump, rows, hread, by simpa using hrows, ?_, ?_, ?_⟩
  · rw [hcontents]
    rfl
  · rw [hcontents]
    rfl
  · rw [hcontents]
    rfl

end DumpRow

end MovAsm

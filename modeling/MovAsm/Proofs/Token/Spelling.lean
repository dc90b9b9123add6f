import Mathlib.Data.List.TakeWhile
import MovAsm.Proofs.Text.Numeral
import MovAsm.Token.Lexer

/-!
# How Tokens Are Spelled

Each kind of token has its spellings, and each kind its characters that would continue a token.
The lexer takes a piece of text for a token exactly if the piece is spelled as the kind demands and
the character after it, if there is one, would not continue it. This module states that rule
without the lexer and shows that the lexer follows it.

## Main results

* `lexeme_append`: a lexeme covers the front of the text, whatever is wrong with it.
* `lexeme_of_spells` and `spells_of_lexeme`: the lexer reads what is spelled right, and nothing
  else without a fault.
* `Lexer.next_of_spells`: the token that a lexer answers there, and where it goes on.
* `Lexer.isSpelled_of_next`: tokens that are answered without a failure are spelled right.
* `Token.IsSpelled.spells_value`: the value of such a token spells the token again.
* `Lexer.tokens_of_separated`: a text of pieces that do not continue each other is read piece by
  piece.
-/

namespace MovAsm

/-! ### Classes of characters -/

/-- A hexadecimal digit does not end a byte literal. -/
theorem isHexStop_of_isHexit {c : Char} (h : Text.isHexit c = true) : isHexStop c = false := by
  cases hstop : isHexStop c with
  | false => rfl
  | true =>
      simp only [isHexStop, isBlank, isNewline, Bool.or_eq_true, decide_eq_true_eq,
        List.contains_iff_mem, List.mem_cons, List.not_mem_nil, or_false] at hstop
      rcases hstop with (((rfl | rfl) | rfl) | rfl | rfl) | rfl | rfl | rfl | rfl | rfl | rfl <;>
        exact absurd h (by decide)

/-- Ranges that all begin above a character do not contain it. -/
theorem contains_eq_false_of_lt {ranges : Text.CharRanges} {c : Char}
    (h : ∀ range ∈ ranges, c.toNat < range.1) : ranges.contains c = false := by
  rw [Text.CharRanges.contains, List.any_eq_false]
  intro range hrange
  have := h range hrange
  simp only [Bool.and_eq_true, decide_eq_true_eq]
  omega

/-- On ASCII, `Text.isLetter` is `Char.isAlpha`. -/
theorem isLetter_of_ascii {c : Char} (h : c.toNat < 0x80) : Text.isLetter c = c.isAlpha := by
  have htable : ∀ range ∈ Text.lettersBeyondAscii, 0x80 ≤ range.1 := by decide +kernel
  have hnot : Text.lettersBeyondAscii.contains c = false := by
    refine contains_eq_false_of_lt fun range hrange => ?_
    have := htable range hrange
    omega
  rw [Text.isLetter, hnot, Bool.or_false]

/-- On ASCII, `isNameChar` is `Char.isAlphanum`. -/
theorem isNameChar_of_ascii {c : Char} (h : c.toNat < 0x80) : isNameChar c = c.isAlphanum := by
  have htable : ∀ range ∈ Text.decimalDigitsBeyondAscii, 0x80 ≤ range.1 := by decide +kernel
  have hnot : Text.decimalDigitsBeyondAscii.contains c = false := by
    refine contains_eq_false_of_lt fun range hrange => ?_
    have := htable range hrange
    omega
  rw [isNameChar, isLetter_of_ascii h, Text.isDecimalDigit, hnot, Bool.or_false, Char.isAlphanum]

/-- A letter differs from every ASCII character that is not `isAlpha`. -/
theorem ne_of_isLetter {c d : Char} (hc : Text.isLetter c = true) (hd : d.toNat < 0x80)
    (halpha : d.isAlpha = false) : c ≠ d := by
  rintro rfl
  rw [isLetter_of_ascii hd, halpha] at hc
  cases hc

/-- A letter continues a name. -/
theorem isNameChar_of_isLetter {c : Char} (h : Text.isLetter c = true) : isNameChar c = true := by
  simp [isNameChar, h]

/-- What is not `isHexStop` does not end a line. -/
theorem isNewline_eq_false_of_not_isHexStop {c : Char} (h : isHexStop c = false) :
    isNewline c = false := by
  simp only [isHexStop, Bool.or_eq_false_iff] at h
  exact h.1.2

/-- What continues a name does not end a line. -/
theorem isNewline_eq_false_of_isNameChar {c : Char} (h : isNameChar c = true) :
    isNewline c = false := by
  rw [← Bool.not_eq_true]
  intro hnewline
  simp only [isNewline, Bool.or_eq_true, decide_eq_true_eq] at hnewline
  rcases hnewline with rfl | rfl
  · rw [isNameChar_of_ascii (by decide)] at h
    cases h
  · rw [isNameChar_of_ascii (by decide)] at h
    cases h

/-- What `isBlank` does not end a line. -/
theorem isNewline_eq_false_of_isBlank {c : Char} (h : isBlank c = true) : isNewline c = false := by
  simp only [isBlank, Bool.or_eq_true, decide_eq_true_eq] at h
  rcases h with (rfl | rfl) | rfl <;> decide

/-! ### Spellings -/

/-- The digits of a byte literal: one or two, of either case. -/
def IsByte (digits : List Char) : Prop :=
  (digits.length = 1 ∨ digits.length = 2) ∧ ∀ c ∈ digits, Text.isHexit c = true

/-- The spellings of the kinds of tokens: the grammar that the lexer is held against. -/
inductive Spells : Kind → List Char → Prop
  | word {name : List Char} (hname : ∀ c ∈ name, isNameChar c = true) : Spells .word ('.' :: name)
  | comma : Spells .comma [',']
  | comment {text : List Char} (htext : ∀ c ∈ text, isNewline c = false) :
      Spells .comment (';' :: text)
  | hex {digits : List Char} (hdigits : IsByte digits) : Spells .hex ('#' :: digits)
  | address {digits : List Char} (hdigits : IsByte digits) : Spells .address ('$' :: digits)
  | location {name : List Char} (hname : ∀ c ∈ name, isNameChar c = true) :
      Spells .location ('@' :: name)
  | operation {c : Char} {name : List Char} (hc : Text.isLetter c = true)
      (hname : ∀ c ∈ name, isNameChar c = true) : Spells .operation (c :: name)
  | newline {c : Char} {chars : List Char} (hc : isNewline c = true)
      (hchars : ∀ c ∈ chars, isNewline c = true) : Spells .newline (c :: chars)
  | whitespace {c : Char} {chars : List Char} (hc : isBlank c = true)
      (hchars : ∀ c ∈ chars, isBlank c = true) : Spells .whitespace (c :: chars)

/-- The characters that would continue a token of a kind. -/
def Kind.isContinuedBy : Kind → Char → Bool
  | .word, c | .location, c | .operation, c => isNameChar c
  | .comment, c => !isNewline c
  | .hex, c | .address, c => !isHexStop c
  | .newline, c => isNewline c
  | .whitespace, c => isBlank c
  | .comma, _ | .endOfFile, _ | .other _, _ => false

/-- A token of a kind ends before `rest`: its first character does not continue the token. -/
def Kind.EndsBefore (kind : Kind) (rest : List Char) : Prop :=
  ∀ c ∈ rest.head?, kind.isContinuedBy c = false

/-- A form has at least one character. -/
theorem Spells.ne_nil {kind : Kind} {chars : List Char} (h : Spells kind chars) : chars ≠ [] := by
  cases h <;> exact List.cons_ne_nil _ _

/-- No form is of kind `endOfFile`. -/
theorem Spells.ne_endOfFile {kind : Kind} {chars : List Char} (h : Spells kind chars) :
    kind ≠ .endOfFile := by
  cases h <;> decide

/-- Only forms of kind `newline` have characters that end a line. -/
theorem Spells.isNewline_eq_false {kind : Kind} {chars : List Char} (h : Spells kind chars)
    (hkind : kind ≠ .newline) : ∀ c ∈ chars, isNewline c = false := by
  have hbyte {digits : List Char} (hdigits : IsByte digits) : ∀ c ∈ digits, isNewline c = false :=
    fun c hc => isNewline_eq_false_of_not_isHexStop (isHexStop_of_isHexit (hdigits.2 c hc))
  cases h with
  | word hname | location hname =>
      exact List.forall_mem_cons.mpr
        ⟨by decide, fun c hc => isNewline_eq_false_of_isNameChar (hname c hc)⟩
  | comma => exact List.forall_mem_singleton.mpr (by decide)
  | comment htext => exact List.forall_mem_cons.mpr ⟨by decide, htext⟩
  | hex hdigits | address hdigits => exact List.forall_mem_cons.mpr ⟨by decide, hbyte hdigits⟩
  | operation hc hname =>
      exact List.forall_mem_cons.mpr
        ⟨isNewline_eq_false_of_isNameChar (isNameChar_of_isLetter hc),
          fun c hc => isNewline_eq_false_of_isNameChar (hname c hc)⟩
  | newline hc hchars => exact absurd rfl hkind
  | whitespace hc hchars =>
      exact List.forall_mem_cons.mpr
        ⟨isNewline_eq_false_of_isBlank hc, fun c hc => isNewline_eq_false_of_isBlank (hchars c hc)⟩

/-- Only forms of kind `whitespace` begin with a blank. -/
theorem Spells.isBlank_eq_false {kind : Kind} {c : Char} {chars : List Char}
    (h : Spells kind (c :: chars)) (hkind : kind ≠ .whitespace) : isBlank c = false := by
  rw [← Bool.not_eq_true]
  intro hblank
  cases h with
  | word | comma | comment | hex | address | location => revert hblank; decide
  | operation hc hname =>
      simp only [isBlank, Bool.or_eq_true, decide_eq_true_eq] at hblank
      rcases hblank with (rfl | rfl) | rfl <;>
        exact absurd rfl (ne_of_isLetter hc (by decide) (by decide))
  | newline hc hchars =>
      rw [isNewline_eq_false_of_isBlank hblank] at hc
      cases hc
  | whitespace hc hchars => exact absurd rfl hkind

/-! ### Runs of characters -/

/-- A `List.takeWhile` takes a run of the class up to where a character is not of it. -/
theorem takeWhile_append_of_stop {class_ : Char → Bool} {run rest : List Char}
    (hrun : ∀ c ∈ run, class_ c = true) (hstop : ∀ c ∈ rest.head?, class_ c = false) :
    (run ++ rest).takeWhile class_ = run := by
  rw [List.takeWhile_append_of_pos hrun]
  cases rest with
  | nil => simp
  | cons c rest => simp [hstop c rfl]

/-- After a `List.takeWhile` comes no character of the class. -/
theorem head?_drop_takeWhile {class_ : Char → Bool} (text : List Char) :
    ∀ c ∈ (text.drop (text.takeWhile class_).length).head?, class_ c = false := by
  induction text with
  | nil => simp
  | cons d text ih =>
      by_cases hd : class_ d = true
      · simpa [hd] using ih
      · simp [hd]

/-- The answer of `takeHexits` at digits with a character behind them that ends the literal. -/
theorem takeHexits_append {room : Nat} {digits rest : List Char} (hroom : digits.length ≤ room)
    (hdigits : ∀ c ∈ digits, Text.isHexit c = true) (hstop : ∀ c ∈ rest.head?, isHexStop c = true) :
    takeHexits room (digits ++ rest) = (digits, none) := by
  induction digits generalizing room with
  | nil =>
      cases rest with
      | nil => simp [takeHexits]
      | cons c rest =>
          unfold takeHexits
          simp [hstop c rfl]
  | cons d digits ih =>
      obtain ⟨room, rfl⟩ : ∃ more, room = more + 1 := ⟨room - 1, by simp at hroom; omega⟩
      have hd : Text.isHexit d = true := hdigits d (by simp)
      have hrec := @ih room (by simpa using hroom) fun c hc => hdigits c (by simp [hc])
      simp [takeHexits, isHexStop_of_isHexit hd, hd, hrec]

/-- What `takeHexits` has read: digits, as many as there is room for, and without a fault a
character that ends the literal comes after them. Induction on the text. -/
theorem takeHexits_spec (room : Nat) (text : List Char) :
    (takeHexits room text).1 <+: text ∧ (takeHexits room text).1.length ≤ room ∧
      (∀ c ∈ (takeHexits room text).1, Text.isHexit c = true) ∧
      ((takeHexits room text).2 = none →
        ∀ c ∈ (text.drop (takeHexits room text).1.length).head?, isHexStop c = true) := by
  fun_induction takeHexits room text with
  | case1 room => simp
  | case2 room c rest hstop => simpa using hstop
  | case3 c rest hstop => simp
  | case4 c rest hstop room hc digits fault hrec ih =>
      rw [hrec] at ih
      obtain ⟨hfront, hlength, hdigits, hnone⟩ := ih
      refine ⟨by simpa using hfront, by simpa using hlength, ?_, by simpa using hnone⟩
      intro d hd
      rcases List.mem_cons.mp hd with rfl | hd
      · exact hc
      · exact hdigits d hd
  | case5 c rest hstop room hc => simp

/-! ### Lexemes -/

/-- The `lexeme` of a character that is no sigil and no mark: a name, white space, or no token at
all. -/
theorem lexeme_of_not_mem {c : Char} {tail : List Char} (h : c ∉ ['.', ',', ';', '#', '$', '@']) :
    lexeme c tail =
      if Text.isLetter c then runLexeme .operation isNameChar c tail
      else if isNewline c then runLexeme .newline isNewline c tail
      else if isBlank c then runLexeme .whitespace isBlank c tail
      else { kind := .operation, chars := [c], fault := some (.unknownCharacter, 0, c.toNat) } := by
  simp only [List.mem_cons, List.not_mem_nil, or_false, not_or] at h
  obtain ⟨hdot, hcomma, hsemicolon, hhash, hdollar, hat⟩ := h
  rw [lexeme, if_neg hdot, if_neg hcomma, if_neg hsemicolon, if_neg hhash, if_neg hdollar,
    if_neg hat]

/-- The rules of the lexer: which `Lexeme` begins with the character `c`. -/
inductive Rule (c : Char) (tail : List Char) : Lexeme → Prop
  | word (h : c = '.') : Rule c tail (runLexeme .word isNameChar c tail)
  | comma (h : c = ',') : Rule c tail { kind := .comma, chars := [c] }
  | comment (h : c = ';') : Rule c tail (runLexeme .comment (!isNewline ·) c tail)
  | hex (h : c = '#') : Rule c tail (hexLexeme .hex c tail)
  | address (h : c = '$') : Rule c tail (hexLexeme .address c tail)
  | location (h : c = '@') : Rule c tail (runLexeme .location isNameChar c tail)
  | operation (h : Text.isLetter c = true) : Rule c tail (runLexeme .operation isNameChar c tail)
  | newline (h : isNewline c = true) : Rule c tail (runLexeme .newline isNewline c tail)
  | whitespace (h : isBlank c = true) : Rule c tail (runLexeme .whitespace isBlank c tail)
  | unknown (hmark : c ∉ ['.', ',', ';', '#', '$', '@']) (hletter : Text.isLetter c = false)
      (hnewline : isNewline c = false) (hblank : isBlank c = false) :
      Rule c tail
        { kind := .operation, chars := [c], fault := some (.unknownCharacter, 0, c.toNat) }

/-- Every `lexeme` comes from one of the rules. The case split of all that follows. -/
theorem lexeme_rule (c : Char) (tail : List Char) : Rule c tail (lexeme c tail) := by
  by_cases hmark : c ∈ ['.', ',', ';', '#', '$', '@']
  · simp only [List.mem_cons, List.not_mem_nil, or_false] at hmark
    rcases hmark with rfl | rfl | rfl | rfl | rfl | rfl
    · exact .word rfl
    · exact .comma rfl
    · exact .comment rfl
    · exact .hex rfl
    · exact .address rfl
    · exact .location rfl
  · rw [lexeme_of_not_mem hmark]
    by_cases hletter : Text.isLetter c = true
    · rw [if_pos hletter]
      exact .operation hletter
    rw [if_neg hletter]
    by_cases hnewline : isNewline c = true
    · rw [if_pos hnewline]
      exact .newline hnewline
    rw [if_neg hnewline]
    by_cases hblank : isBlank c = true
    · rw [if_pos hblank]
      exact .whitespace hblank
    · rw [if_neg hblank]
      exact .unknown hmark (by simpa using hletter) (by simpa using hnewline)
        (by simpa using hblank)

/-- A `lexeme` covers its first character and some that follow it. -/
theorem exists_chars_lexeme (c : Char) (tail : List Char) :
    ∃ piece, (lexeme c tail).chars = c :: piece ∧ piece <+: tail := by
  have hrule := lexeme_rule c tail
  generalize lexeme c tail = read at hrule ⊢
  cases hrule with
  | word | comment | location | operation | newline | whitespace =>
      exact ⟨_, rfl, List.takeWhile_prefix _⟩
  | hex | address => exact ⟨_, rfl, (takeHexits_spec 2 tail).1⟩
  | comma | unknown => exact ⟨[], rfl, List.nil_prefix⟩

/-- A `lexeme` covers the front of the text, whatever is wrong with it. -/
theorem lexeme_append (c : Char) (tail : List Char) :
    (lexeme c tail).chars ++ tail.drop ((lexeme c tail).chars.length - 1) = c :: tail := by
  obtain ⟨piece, hchars, hfront⟩ := exists_chars_lexeme c tail
  rw [hchars, List.length_cons, Nat.add_sub_cancel, List.cons_append,
    List.prefix_iff_eq_append.mp hfront]

/-- A `hexLexeme` has no fault if it has one or two digits and ends after them. -/
theorem hexLexeme_of_isByte {kind : Kind} {sigil : Char} {digits rest : List Char}
    (hdigits : IsByte digits) (hends : ∀ c ∈ rest.head?, isHexStop c = true) :
    hexLexeme kind sigil (digits ++ rest) = { kind, chars := sigil :: digits } := by
  obtain ⟨hlength, hall⟩ := hdigits
  have hne : digits.isEmpty = false := by
    cases digits with
    | nil => simp at hlength
    | cons c digits => rfl
  rw [hexLexeme]
  rw [takeHexits_append (by omega) hall hends]
  simp [hne]

/-- A `hexLexeme` without a fault has one or two digits and ends after them. -/
theorem isByte_of_hexLexeme {kind : Kind} {sigil : Char} {tail : List Char}
    (h : (hexLexeme kind sigil tail).fault = none) :
    ∃ digits, hexLexeme kind sigil tail = { kind, chars := sigil :: digits } ∧ IsByte digits ∧
      ∀ c ∈ (tail.drop digits.length).head?, isHexStop c = true := by
  obtain ⟨-, hlength, hall, hstop⟩ := takeHexits_spec 2 tail
  rw [hexLexeme] at h ⊢
  rcases hread : takeHexits 2 tail with ⟨digits, stop⟩
  rw [hread] at h hlength hall hstop
  cases stop with
  | some stop => cases h
  | none =>
      dsimp only at h ⊢
      by_cases hempty : digits.isEmpty = true
      · rw [if_pos hempty] at h
        cases h
      · refine ⟨digits, by simp [hempty], ⟨?_, hall⟩, hstop rfl⟩
        have hpos : digits.length ≠ 0 := by simpa using hempty
        dsimp only at hlength
        omega

/-- A `runLexeme` takes a run of the class up to the first character that is not of it. -/
theorem runLexeme_of_all {kind : Kind} {class_ : Char → Bool} {c : Char} {run rest : List Char}
    (hrun : ∀ d ∈ run, class_ d = true) (hstop : ∀ d ∈ rest.head?, class_ d = false) :
    runLexeme kind class_ c (run ++ rest) = { kind, chars := c :: run } := by
  rw [runLexeme, takeWhile_append_of_stop hrun hstop]

/-- A form that `EndsBefore` the rest is read as a `lexeme` of its kind. -/
theorem lexeme_of_spells {kind : Kind} {c : Char} {chars rest : List Char}
    (hspells : Spells kind (c :: chars)) (hends : kind.EndsBefore rest) :
    lexeme c (chars ++ rest) = { kind, chars := c :: chars } := by
  have hhex : kind = .hex ∨ kind = .address → ∀ d ∈ rest.head?, isHexStop d = true := by
    rintro (rfl | rfl) d hd
    · simpa [Kind.isContinuedBy] using hends d hd
    · simpa [Kind.isContinuedBy] using hends d hd
  cases hspells with
  | word hname => exact runLexeme_of_all hname hends
  | comma => rfl
  | comment htext => exact runLexeme_of_all (fun d hd => by simp [htext d hd]) hends
  | hex hdigits => exact hexLexeme_of_isByte hdigits (hhex (.inl rfl))
  | address hdigits => exact hexLexeme_of_isByte hdigits (hhex (.inr rfl))
  | location hname => exact runLexeme_of_all hname hends
  | operation hc hname =>
      rw [lexeme_of_not_mem, if_pos hc]
      · exact runLexeme_of_all hname hends
      · intro hmem
        simp only [List.mem_cons, List.not_mem_nil, or_false] at hmem
        rcases hmem with rfl | rfl | rfl | rfl | rfl | rfl <;>
          exact absurd rfl (ne_of_isLetter hc (by decide) (by decide))
  | newline hc hchars =>
      have hcases : c = '\n' ∨ c = '\r' := by simpa [isNewline] using hc
      have hletter : Text.isLetter c = false := by
        rcases hcases with rfl | rfl <;> exact isLetter_of_ascii (by decide)
      rw [lexeme_of_not_mem, hletter, if_neg (by decide), if_pos hc]
      · exact runLexeme_of_all hchars hends
      · rcases hcases with rfl | rfl <;> decide
  | whitespace hc hchars =>
      have hcases : (c = ' ' ∨ c = '\t') ∨ c = '\x0c' := by simpa [isBlank] using hc
      have hletter : Text.isLetter c = false := by
        rcases hcases with (rfl | rfl) | rfl <;> exact isLetter_of_ascii (by decide)
      have hnewline : isNewline c = false := isNewline_eq_false_of_isBlank hc
      rw [lexeme_of_not_mem, hletter, hnewline, if_neg (by decide), if_neg (by decide), if_pos hc]
      · exact runLexeme_of_all hchars hends
      · rcases hcases with (rfl | rfl) | rfl <;> decide

/-- What a `runLexeme` has read: characters of the class, and none of it after them. -/
theorem runLexeme_spec (kind : Kind) (class_ : Char → Bool) (c : Char) (tail : List Char) :
    ∃ run, runLexeme kind class_ c tail = { kind, chars := c :: run } ∧
      (∀ d ∈ run, class_ d = true) ∧ ∀ d ∈ (tail.drop run.length).head?, class_ d = false :=
  ⟨_, rfl, fun _ hd => List.mem_takeWhile_imp hd, head?_drop_takeWhile tail⟩

/-- A `lexeme` without a fault is a form, and `EndsBefore` the rest. -/
theorem spells_of_lexeme {c : Char} {tail : List Char} (h : (lexeme c tail).fault = none) :
    Spells (lexeme c tail).kind (lexeme c tail).chars ∧
      (lexeme c tail).kind.EndsBefore (tail.drop ((lexeme c tail).chars.length - 1)) := by
  have hrule := lexeme_rule c tail
  generalize lexeme c tail = read at h hrule ⊢
  cases hrule with
  | word hc =>
      obtain ⟨run, heq, hrun, hends⟩ := runLexeme_spec .word isNameChar c tail
      rw [heq, hc]
      exact ⟨.word hrun, hends⟩
  | comma hc =>
      rw [hc]
      exact ⟨.comma, fun d hd => rfl⟩
  | comment hc =>
      obtain ⟨run, heq, hrun, hends⟩ := runLexeme_spec .comment (!isNewline ·) c tail
      rw [heq, hc]
      exact ⟨.comment fun d hd => by simpa using hrun d hd, hends⟩
  | hex hc =>
      obtain ⟨digits, heq, hdigits, hends⟩ := isByte_of_hexLexeme h
      rw [heq, hc]
      exact ⟨.hex hdigits, fun d hd => by simpa [Kind.isContinuedBy] using hends d hd⟩
  | address hc =>
      obtain ⟨digits, heq, hdigits, hends⟩ := isByte_of_hexLexeme h
      rw [heq, hc]
      exact ⟨.address hdigits, fun d hd => by simpa [Kind.isContinuedBy] using hends d hd⟩
  | location hc =>
      obtain ⟨run, heq, hrun, hends⟩ := runLexeme_spec .location isNameChar c tail
      rw [heq, hc]
      exact ⟨.location hrun, hends⟩
  | operation hletter =>
      obtain ⟨run, heq, hrun, hends⟩ := runLexeme_spec .operation isNameChar c tail
      rw [heq]
      exact ⟨.operation hletter hrun, hends⟩
  | newline hnewline =>
      obtain ⟨run, heq, hrun, hends⟩ := runLexeme_spec .newline isNewline c tail
      rw [heq]
      exact ⟨.newline hnewline hrun, hends⟩
  | whitespace hblank =>
      obtain ⟨run, heq, hrun, hends⟩ := runLexeme_spec .whitespace isBlank c tail
      rw [heq]
      exact ⟨.whitespace hblank hrun, hends⟩
  | unknown hmark hletter hnewline hblank =>
      cases h

/-! ### Tokens -/

/-- The token of a kind that `chars` spell, at the position `start`. -/
def Kind.token (kind : Kind) (chars : List Char) (start : Position) : Token :=
  ⟨kind, Lexeme.value { kind, chars }, start⟩

/-- A token is spelled as its kind demands, or is the end of the text. -/
def Token.IsSpelled (token : Token) : Prop :=
  token.kind = .endOfFile ∨
    ∃ chars, Spells token.kind chars ∧ token = token.kind.token chars token.start

/-- The digits of a byte literal are such digits in upper case. -/
theorem IsByte.map_toUpper {digits : List Char} (h : IsByte digits) :
    IsByte (digits.map Char.toUpper) := by
  obtain ⟨hlength, hdigits⟩ := h
  refine ⟨by simpa using hlength, ?_⟩
  intro c hc
  obtain ⟨d, hd, rfl⟩ := List.mem_map.mp hc
  exact Text.isHexit_toUpper (hdigits d hd)

/-- On the digits of a byte literal, upper case is idempotent. -/
theorem IsByte.map_toUpper_map_toUpper {digits : List Char} (h : IsByte digits) :
    (digits.map Char.toUpper).map Char.toUpper = digits.map Char.toUpper := by
  rw [List.map_map]
  refine List.map_congr_left fun c hc => ?_
  exact Text.toUpper_toUpper_of_isHexit (h.2 c hc)

/-- The `value` of a token is a spelling of it, and that spelling has the same value. -/
theorem Token.IsSpelled.spells_value {token : Token} (h : token.IsSpelled)
    (hkind : token.kind ≠ .endOfFile) :
    Spells token.kind token.value.toList ∧
      token = token.kind.token token.value.toList token.start := by
  obtain ⟨kind, value, start⟩ := token
  rcases h with hend | ⟨chars, hspells, htoken⟩
  · exact absurd hend hkind
  obtain rfl : value = Lexeme.value { kind, chars } := congrArg Token.value htoken
  dsimp only at hspells
  -- Only byte literals have a value that is not written as they are.
  by_cases hbyte : kind = .hex ∨ kind = .address
  · rcases hbyte with rfl | rfl
    · cases hspells with
      | hex hdigits =>
          simp only [Lexeme.value, Kind.token, String.toList_ofList, List.map_cons,
            hdigits.map_toUpper_map_toUpper]
          exact ⟨.hex hdigits.map_toUpper, rfl⟩
    · cases hspells with
      | address hdigits =>
          simp only [Lexeme.value, Kind.token, String.toList_ofList, List.map_cons,
            hdigits.map_toUpper_map_toUpper]
          exact ⟨.address hdigits.map_toUpper, rfl⟩
  · obtain ⟨hhex, haddress⟩ := not_or.mp hbyte
    have hvalue : Lexeme.value { kind, chars } = String.ofList chars := by
      simp [Lexeme.value]
    rw [hvalue, String.toList_ofList, Kind.token, hvalue]
    exact ⟨hspells, rfl⟩

namespace Lexer

variable {lexer : Lexer}

/-- At the end of a text that can be read, `next` answers the end of file, again and again. -/
theorem next_of_nil (hrest : lexer.rest = []) (hfailure : lexer.failure = none) :
    lexer.next = (⟨⟨.endOfFile, "", lexer.position⟩, none⟩, lexer) := by
  rw [next]
  rw [hrest, hfailure]
  rfl

/-- In front of a form that `EndsBefore` the rest, `next` answers its token and goes on with the
rest. -/
theorem next_of_spells {kind : Kind} {chars rest : List Char} (hrest : lexer.rest = chars ++ rest)
    (hfailure : lexer.failure = none) (hspells : Spells kind chars)
    (hends : kind.EndsBefore rest) :
    lexer.next = (⟨kind.token chars lexer.position, none⟩,
      { lexer with rest, cursor := lexer.cursor.advanceAll chars }) := by
  obtain ⟨c, chars, rfl⟩ := List.exists_cons_of_ne_nil hspells.ne_nil
  have hdrop : (chars ++ rest).drop ((c :: chars).length - 1) = rest := by
    simp
  rw [next]
  rw [hrest, List.cons_append]
  simp only [lexeme_of_spells hspells hends, hdrop, hfailure, Option.map_none, ite_self]
  rfl

/-- What `next` answers without a failure: the end of file, or a token that is spelled at the front
of the text and `EndsBefore` the rest. -/
theorem next_cases (h : lexer.next.1.failure = none) :
    (lexer.rest = [] ∧ lexer.next = (⟨⟨.endOfFile, "", lexer.position⟩, none⟩, lexer)) ∨
      ∃ kind chars rest, lexer.rest = chars ++ rest ∧ Spells kind chars ∧ kind.EndsBefore rest ∧
        lexer.next = (⟨kind.token chars lexer.position, none⟩,
          { lexer with rest, cursor := lexer.cursor.advanceAll chars }) := by
  cases hrest : lexer.rest with
  | nil =>
      refine .inl ⟨rfl, ?_⟩
      rw [next] at h ⊢
      rw [hrest] at h ⊢
      dsimp only at h ⊢
      rw [h]
  | cons c tail =>
      refine .inr ?_
      rw [next] at h ⊢
      rw [hrest] at h ⊢
      dsimp only at h ⊢
      cases hfault : (lexeme c tail).fault with
      | some entry =>
        rw [hfault] at h
        cases h
      | none =>
        rw [hfault] at h
        obtain ⟨hspells, hends⟩ := spells_of_lexeme hfault
        refine ⟨_, _, _, (lexeme_append c tail).symm, hspells, hends, ?_⟩
        rw [h]
        rfl

/-- A token that `next` answers without a failure `IsSpelled`. -/
theorem isSpelled_of_next (h : lexer.next.1.failure = none) : lexer.next.1.token.IsSpelled := by
  rcases next_cases h with ⟨-, hnext⟩ | ⟨kind, chars, rest, -, hspells, -, hnext⟩
  · rw [hnext]
    exact .inl rfl
  · rw [hnext]
    exact .inr ⟨chars, hspells, rfl⟩

/-! ### All tokens of a text -/

/-- The tokens of the rest of a text, up to its end or the first failure. -/
def tokens (lexer : Lexer) : List Token :=
  lexer.all.1.map Reading.token

/-- The rest of a text is read to its end without a failure. -/
def IsClean (lexer : Lexer) : Prop :=
  ∀ reading ∈ lexer.all.1, reading.failure = none

/-- The step of `all` at the end of file: nothing is read after it. -/
theorem all_of_endOfFile (h : lexer.next.1.token.kind = .endOfFile) :
    lexer.all = ([lexer.next.1], lexer.next.2) := by
  rw [all, dif_pos (by simp [Reading.isFinal, h])]

/-- The step of `all` at any other token without a failure: the reading goes on. -/
theorem all_of_ne_endOfFile (hfailure : lexer.next.1.failure = none)
    (hkind : lexer.next.1.token.kind ≠ .endOfFile) :
    lexer.all = (lexer.next.1 :: lexer.next.2.all.1, lexer.next.2.all.2) := by
  rw [all, dif_neg (by simp [Reading.isFinal, hfailure, hkind])]

/-- A lexer that `IsClean` answers its first token without a failure. -/
theorem IsClean.next_failure (h : lexer.IsClean) : lexer.next.1.failure = none := by
  refine h lexer.next.1 ?_
  rw [all]
  split <;> simp

/-- A lexer that `IsClean` stays so after its first token. -/
theorem IsClean.tail (h : lexer.IsClean) (hkind : lexer.next.1.token.kind ≠ .endOfFile) :
    lexer.next.2.IsClean ∧ lexer.tokens = lexer.next.1.token :: lexer.next.2.tokens := by
  have hall := all_of_ne_endOfFile h.next_failure hkind
  refine ⟨fun reading hmem => h reading ?_, ?_⟩
  · rw [hall]
    exact List.mem_cons_of_mem _ hmem
  · rw [tokens, hall]
    rfl

/-- The tokens of pieces of text one after the other, from `cursor` on. -/
def locate (cursor : Cursor) : List Lexeme → List Token
  | [] => []
  | piece :: rest =>
    piece.kind.token piece.chars cursor.position :: locate (cursor.advanceAll piece.chars) rest

/-- Pieces of text that are spelled right, none of which continues into what comes after it. -/
def Separated (after : List Char) : List Lexeme → Prop
  | [] => True
  | piece :: rest =>
    Spells piece.kind piece.chars ∧ piece.kind.EndsBefore (rest.flatMap Lexeme.chars ++ after) ∧
      Separated after rest

/-- Pieces are `Separated` together with others, if these are the text after them. -/
theorem Separated.append {after : List Char} {pieces others : List Lexeme}
    (hpieces : Separated (others.flatMap Lexeme.chars ++ after) pieces)
    (hothers : Separated after others) : Separated after (pieces ++ others) := by
  induction pieces with
  | nil => exact hothers
  | cons piece rest ih =>
      obtain ⟨hspells, hends, hrest⟩ := hpieces
      rw [List.cons_append]
      refine ⟨hspells, ?_, ih hrest⟩
      rw [List.flatMap_append, List.append_assoc]
      exact hends

/-- Each of `Separated` pieces is spelled right. -/
theorem Separated.spells {after : List Char} {pieces : List Lexeme} (h : Separated after pieces) :
    ∀ piece ∈ pieces, Spells piece.kind piece.chars := by
  induction pieces with
  | nil => simp
  | cons piece rest ih =>
      intro other hmem
      rcases List.mem_cons.mp hmem with rfl | hmem
      · exact h.1
      · exact ih h.2.2 other hmem

/-- The tokens that `locate` makes of `pieces ++ others`. -/
theorem locate_append (cursor : Cursor) (pieces others : List Lexeme) :
    locate cursor (pieces ++ others) = locate cursor pieces ++
      locate (cursor.advanceAll (pieces.flatMap Lexeme.chars)) others := by
  induction pieces generalizing cursor with
  | nil => rfl
  | cons piece rest ih =>
      have hcursor : cursor.advanceAll ((piece :: rest).flatMap Lexeme.chars) =
          (cursor.advanceAll piece.chars).advanceAll (rest.flatMap Lexeme.chars) :=
        List.foldl_append
      rw [hcursor, List.cons_append, locate, locate, ih, List.cons_append]

/-- The tokens that `locate` makes are of the kinds of the pieces. -/
theorem exists_piece_of_mem_locate {cursor : Cursor} {pieces : List Lexeme} {token : Token}
    (h : token ∈ locate cursor pieces) : ∃ piece ∈ pieces, token.kind = piece.kind := by
  induction pieces generalizing cursor with
  | nil => cases h
  | cons piece rest ih =>
      rcases List.mem_cons.mp h with rfl | h
      · exact ⟨piece, by simp, rfl⟩
      · obtain ⟨other, hmem, hkind⟩ := ih h
        exact ⟨other, by simp [hmem], hkind⟩

/-- A text of `Separated` pieces is read piece by piece. Induction on the pieces. -/
theorem tokens_of_separated {pieces : List Lexeme}
    (hrest : lexer.rest = pieces.flatMap Lexeme.chars) (hfailure : lexer.failure = none)
    (hseparated : Separated [] pieces) :
    lexer.IsClean ∧ lexer.tokens = locate lexer.cursor pieces ++
      [⟨.endOfFile, "", (lexer.cursor.advanceAll lexer.rest).position⟩] := by
  induction pieces generalizing lexer with
  | nil =>
      have hnext := next_of_nil hrest hfailure
      have hall := @all_of_endOfFile lexer (by rw [hnext])
      rw [hnext] at hall
      refine ⟨?_, ?_⟩
      · simp [IsClean, hall]
      · rw [tokens, hall, hrest]
        rfl
  | cons piece rest ih =>
      obtain ⟨hspells, hends, hseparated⟩ := hseparated
      rw [List.append_nil] at hends
      have hnext := next_of_spells hrest hfailure hspells hends
      have hall := @all_of_ne_endOfFile lexer (by rw [hnext])
        (by rw [hnext]; exact hspells.ne_endOfFile)
      rw [hnext] at hall
      obtain ⟨hclean, htokens⟩ := @ih { lexer with
        rest := rest.flatMap Lexeme.chars
        cursor := lexer.cursor.advanceAll piece.chars } rfl hfailure hseparated
      refine ⟨?_, ?_⟩
      · intro reading hmem
        rw [hall] at hmem
        rcases List.mem_cons.mp hmem with rfl | hmem
        · rfl
        · exact hclean reading hmem
      · have hcursor : lexer.cursor.advanceAll lexer.rest =
            (lexer.cursor.advanceAll piece.chars).advanceAll (rest.flatMap Lexeme.chars) := by
          rw [hrest]
          exact List.foldl_append
        rw [tokens, hall, List.map_cons, hcursor]
        exact congrArg _ htokens

end Lexer

end MovAsm

import MovAsm.Proofs.Program.Correspondence
import MovAsm.Proofs.Text.Utf8

/-!
# Texts Made of Token Values

The value of a token is the text that it covers, with the digits of byte literals in upper case. So
the values of all tokens of a text, one after the other, are a text again: the same one with its
byte literals in upper case. Nothing that a lexer, a reader or an assembler can tell of the two is
different.

Between two tokens, all that can be seen of the next one is its first character, and that is never a
digit of a byte literal. So every token ends where it did, and covers as many characters.

## Main definitions

* `Source.normalised` — the values of all tokens;
* `Lexer.Normalised` — a lexer has before it the values of what another has.

## Main results

* `Spells.advanceAll_value`: a cursor moves over the value of a token as over the token.
* `Lexer.IsClean.head?_valueText`: the values begin with the same character as the text.
* `Lexer.Normalised.next`: the next token is the same.
* `normalised_unchanged`: the values of the tokens have the same tokens.
-/

namespace MovAsm

/-! ### Values of tokens -/

section Values

variable {kind : Kind} {chars : List Char}

/-- The value of a token begins with the first character of its spelling. -/
theorem Spells.head?_value (h : Spells kind chars) (start : Position) :
    (kind.token chars start).value.toList.head? = chars.head? := by
  cases h with
  | hex | address =>
      rw [Kind.token, Lexeme.value, String.toList_ofList, List.map_cons]
      rfl
  | word | comma | comment | location | operation | newline | whitespace =>
      rw [Kind.token, Lexeme.value, String.toList_ofList]

/-- The value of a token `Spells` the token, too. -/
theorem Spells.spells_value (h : Spells kind chars) (start : Position) :
    Spells kind (kind.token chars start).value.toList ∧
      kind.token chars start = kind.token (kind.token chars start).value.toList start := by
  have hspelled : (kind.token chars start).IsSpelled := .inr ⟨chars, h, rfl⟩
  exact hspelled.spells_value h.ne_endOfFile

/-- Two texts of one length without newlines move a cursor alike. -/
theorem Cursor.advanceAll_congr {text other : List Char} (cursor : Cursor)
    (hlength : text.length = other.length) (htext : ∀ c ∈ text, isNewline c = false)
    (hother : ∀ c ∈ other, isNewline c = false) :
    cursor.advanceAll text = cursor.advanceAll other := by
  have hadvance (cursor : Cursor) {c : Char} (hc : isNewline c = false) :
      cursor.advance c = ⟨⟨cursor.position.line, cursor.position.column + 1⟩, false⟩ := by
    obtain ⟨hfeed, hreturn⟩ : c ≠ '\n' ∧ c ≠ '\r' := by simpa [isNewline] using hc
    simp [advance, hfeed, hreturn]
  induction text generalizing other cursor with
  | nil => rw [List.length_eq_zero_iff.mp hlength.symm]
  | cons c text ih =>
      obtain ⟨d, other, rfl⟩ : ∃ d rest, other = d :: rest :=
        List.exists_cons_of_length_pos (by simp [← hlength])
      obtain ⟨hc, htext⟩ := List.forall_mem_cons.mp htext
      obtain ⟨hd, hother⟩ := List.forall_mem_cons.mp hother
      have hrest := ih (cursor.advance c) (by simpa using hlength) htext hother
      rw [hadvance cursor hc, ← hadvance cursor hd] at hrest
      rw [advanceAll, List.foldl_cons, hadvance cursor hc, ← hadvance cursor hd]
      exact hrest

/-- A cursor moves over the value of a token as over its spelling. -/
theorem Spells.advanceAll_value (h : Spells kind chars) (start : Position) (cursor : Cursor) :
    cursor.advanceAll (kind.token chars start).value.toList = cursor.advanceAll chars := by
  by_cases hkind : kind = .newline
  · subst hkind
    rw [Kind.token, Lexeme.value, String.toList_ofList]
  · obtain ⟨hvalue, -⟩ := h.spells_value start
    refine cursor.advanceAll_congr ?_ (hvalue.isNewline_eq_false hkind) (h.isNewline_eq_false hkind)
    exact length_value { kind, chars }

end Values

namespace Lexer

/-- The values of the tokens of a lexer, one after the other. -/
def valueText (lexer : Lexer) : String :=
  String.join (lexer.tokens.map Token.value)

variable {lexer other : Lexer}

/-- The `valueText` at the end of file. -/
theorem valueText_of_endOfFile
    (h : lexer.next = (⟨⟨.endOfFile, "", lexer.position⟩, none⟩, lexer)) :
    lexer.valueText.toList = [] := by
  have hkind : lexer.next.1.token.kind = .endOfFile := by rw [h]
  rw [valueText, tokens, all_of_endOfFile hkind, h]
  simp [String.join]

/-- The `valueText` of a lexer that `IsClean`: the value of the next token, and the `valueText`
behind it. -/
theorem IsClean.valueText (hclean : lexer.IsClean)
    (hkind : lexer.next.1.token.kind ≠ .endOfFile) :
    lexer.valueText.toList =
      lexer.next.1.token.value.toList ++ lexer.next.2.valueText.toList := by
  obtain ⟨-, htokens⟩ := hclean.tail hkind
  rw [Lexer.valueText, htokens, List.map_cons, String.join_cons, String.toList_append]
  rfl

/-- The `valueText` begins with the same character as the text. -/
theorem IsClean.head?_valueText (hclean : lexer.IsClean) :
    lexer.valueText.toList.head? = lexer.rest.head? := by
  rcases next_cases hclean.next_failure with
    ⟨hrest, hnext⟩ | ⟨kind, chars, rest, hrest, hspells, -, hnext⟩
  · rw [valueText_of_endOfFile hnext, hrest]
  · have hkind : lexer.next.1.token.kind ≠ .endOfFile := by
      rw [hnext]
      exact hspells.ne_endOfFile
    obtain ⟨c, tail, rfl⟩ := List.exists_cons_of_ne_nil hspells.ne_nil
    have hvalue := hspells.head?_value lexer.position
    rw [hclean.valueText hkind, hnext, hrest, List.head?_append, hvalue]
    rfl

/-! ### Lexers of token values -/

/-- The lexer `other` has the `valueText` of `lexer` as its text, at the same cursor. -/
structure Normalised (lexer other : Lexer) : Prop where
  clean : lexer.IsClean
  rest : other.rest = lexer.valueText.toList
  failure : other.failure = none
  cursor : other.cursor = lexer.cursor

/-- The answer of `next` is the same on a `Normalised` lexer. -/
theorem Normalised.next (h : Normalised lexer other) :
    other.next.1 = lexer.next.1 ∧ Normalised lexer.next.2 other.next.2 := by
  have hposition : other.position = lexer.position := congrArg Cursor.position h.cursor
  rcases next_cases h.clean.next_failure with
    ⟨-, hnext⟩ | ⟨kind, chars, rest, -, hspells, hends, hnext⟩
  · have hother := next_of_nil (h.rest.trans (valueText_of_endOfFile hnext)) h.failure
    rw [hnext, hother, hposition]
    exact ⟨rfl, h⟩
  · have hkind : lexer.next.1.token.kind ≠ .endOfFile := by
      rw [hnext]
      exact hspells.ne_endOfFile
    obtain ⟨hclean, -⟩ := h.clean.tail hkind
    obtain ⟨hvalue, htoken⟩ := hspells.spells_value lexer.position
    have hrest := h.rest.trans (h.clean.valueText hkind)
    -- All that the token depends on behind it is one character.
    have hbefore : kind.EndsBefore lexer.next.2.valueText.toList := by
      rw [Kind.EndsBefore, hclean.head?_valueText, hnext]
      exact hends
    rw [hnext] at hrest hclean hbefore ⊢
    rw [next_of_spells hrest h.failure hvalue hbefore, hposition]
    refine ⟨?_, hclean, rfl, h.failure, ?_⟩
    · exact congrArg (Reading.mk · none) htoken.symm
    · rw [h.cursor]
      exact hspells.advanceAll_value lexer.position lexer.cursor

/-- The relation `Normalised` is a `Simulation`. -/
theorem simulation_normalised : Simulation id Normalised where
  position h := congrArg Cursor.position h.cursor
  token h := .inl (by rw [h.next.1]; rfl)
  failure h := by
    rw [h.next.1]
    simp
  next h := h.next.2

/-- A `Normalised` lexer has the same tokens, and ends at the same place. -/
theorem Normalised.all (h : Normalised lexer other) :
    other.all.1 = lexer.all.1 ∧ Normalised lexer.all.2 other.all.2 := by
  fun_induction Lexer.all lexer generalizing other with
  | case1 lexer hfinal =>
      obtain ⟨hnext, hlast⟩ := h.next
      rw [Lexer.all, dif_pos (by rw [hnext]; exact hfinal)]
      exact ⟨by rw [hnext], hlast⟩
  | case2 lexer hfinal readings last hall ih =>
      obtain ⟨hnext, hlast⟩ := h.next
      obtain ⟨hreadings, hend⟩ := ih hlast
      rw [hall] at hreadings hend
      rw [Lexer.all, dif_neg (by rw [hnext]; exact hfinal)]
      exact ⟨congrArg₂ List.cons hnext hreadings, hend⟩

end Lexer

/-! ### Normalised sources -/

/-- The source whose bytes are the `valueText` of a source. -/
def Source.normalised (source : Source) : Source :=
  .ofBytes (Lexer.ofSource source).valueText.toUTF8.data.toList none

/-- The lexers of a source and of `Source.normalised` are in the relation `Normalised`. -/
theorem Source.lexer_normalised {source : Source} (hclean : (Lexer.ofSource source).IsClean) :
    Lexer.Normalised (Lexer.ofSource source) (Lexer.ofSource source.normalised) :=
  ⟨hclean, Text.Utf8.decode_toUTF8 _, rfl, rfl⟩

/-- **A text can be read again from its tokens.** Take a source that `IsClean`, and the values of
its tokens one after the other: `Source.normalised`. Both have the same tokens at the same places,
and end at the same place. An assembler comes to the same outcome and keeps the same origin, the
same labels and the same log. -/
theorem normalised_unchanged (source : Source) (hclean : (Lexer.ofSource source).IsClean) :
    (Lexer.ofSource source.normalised).all.1 = (Lexer.ofSource source).all.1 ∧
      (Lexer.ofSource source.normalised).all.2.position =
        (Lexer.ofSource source).all.2.position ∧
      ∀ assembler : Assembler,
        assembler.compile source.normalised = assembler.compile source := by
  have hstart := Source.lexer_normalised hclean
  obtain ⟨htokens, hlast⟩ := hstart.all
  refine ⟨htokens, congrArg Cursor.position hlast.cursor, fun assembler => ?_⟩
  obtain ⟨hinstructions, hdiagnostics, hlines, hfatal⟩ :=
    Reader.drain_of_simulation Lexer.simulation_normalised hstart
  simp only [Assembler.compile, Reader.complaints, hinstructions, hdiagnostics, hlines, hfatal]

/-- Byte literals in lower case, a name that stays as it is, a comment, a line ending of two
characters, and a line that makes no instruction. -/
theorem normalised_unchanged_lower_case :
    let source : Source := ⟨"\tDEF .ab;#f\r\nMOV #0a,B\n\n$c".toList, none⟩
    (Lexer.ofSource source).IsClean ∧
      source.normalised.chars = "\tDEF .ab;#f\r\nMOV #0A,B\n\n$C".toList ∧
      (Lexer.ofSource source.normalised).all.2.position = ⟨4, 2⟩ ∧
      (Assembler.compile {} source.normalised).2.1 =
        .rejected [⟨⟨4, 0⟩, .line (.tokenKind .address [.operation])⟩] := by
  intro source
  have hclean : (Lexer.ofSource source).IsClean := by
    rw [Lexer.IsClean]
    decide +kernel
  obtain ⟨-, hposition, hcompile⟩ := normalised_unchanged source hclean
  refine ⟨hclean, ?_, ?_, ?_⟩
  · rw [show source.normalised.chars = _ from (Source.lexer_normalised hclean).rest]
    decide +kernel
  · rw [hposition]
    decide +kernel
  · rw [hcompile]
    decide +kernel

end MovAsm

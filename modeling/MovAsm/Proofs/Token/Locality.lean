import MovAsm.Proofs.Token.Lookahead

/-!
# Tokens Within a Line

A token that does not begin with an end of line ends before the next one, and what comes after that
has no part in it: not in its length, not in its kind, and not in what is wrong with it. So a line
of tokens can be compared with the same line in another text.

## Main results

* `lexeme_firstLine`: a piece of text depends on the rest of its line only.
* `isNewline_eq_false_of_mem_lexeme`: a piece of text stays on its line.
* `lexeme_of_isNewline`: a piece of text that begins with an end of line is a run of them.
-/

namespace MovAsm

/-- The part of a text before its first end of line. -/
def firstLine (text : List Char) : List Char :=
  text.takeWhile (!isNewline ·)

/-- The characters of the `firstLine` do not end a line. -/
theorem isNewline_eq_false_of_mem_firstLine {text : List Char} {c : Char} (h : c ∈ firstLine text) :
    isNewline c = false := by
  simpa using List.mem_takeWhile_imp h

/-- A `List.takeWhile` does not go past an element that is not of the class. -/
theorem takeWhile_append_cons {α : Type} {p : α → Bool} {x : α} (hx : p x = false)
    (before after : List α) : (before ++ x :: after).takeWhile p = before.takeWhile p := by
  induction before with
  | nil => simp [hx]
  | cons y before ih => rw [List.cons_append, List.takeWhile_cons, List.takeWhile_cons, ih]

/-- The `firstLine` ends before the first end of line, whatever comes after it. -/
theorem firstLine_append_cons {c : Char} (hc : isNewline c = true) (text more : List Char) :
    firstLine (text ++ c :: more) = firstLine text :=
  takeWhile_append_cons (by simp [hc]) text more

/-- The `firstLine` of a text with an end of line does not depend on what comes after the text. -/
theorem firstLine_append_right {text : List Char} {c : Char} (hmem : c ∈ text)
    (hc : isNewline c = true) (more : List Char) : firstLine (text ++ more) = firstLine text := by
  obtain ⟨before, after, rfl⟩ := List.append_of_mem hmem
  rw [List.append_assoc, List.cons_append, firstLine_append_cons hc, firstLine_append_cons hc]

/-- A `runLexeme` of a class without ends of line depends on the rest of its line only. -/
theorem runLexeme_firstLine {kind : Kind} {class_ : Char → Bool} (c : Char) (tail : List Char)
    (hclass : ∀ d, class_ d = true → isNewline d = false) :
    runLexeme kind class_ c (firstLine tail) = runLexeme kind class_ c tail := by
  have hsame : (fun d => decide (class_ d = true ∧ (!isNewline d) = true)) = class_ := by
    funext d
    cases hd : class_ d with
    | false => simp
    | true => simp [hclass d hd]
  rw [runLexeme, runLexeme, firstLine, List.takeWhile_takeWhile, hsame]

/-- The answer of `takeHexits` depends on the rest of the line only: an end of line ends the digits
as well as the end of the text does. Induction on the text. -/
theorem takeHexits_firstLine (room : Nat) (tail : List Char) :
    takeHexits room (firstLine tail) = takeHexits room tail := by
  have hcons {d : Char} {rest : List Char} (hd : isNewline d = false) :
      firstLine (d :: rest) = d :: firstLine rest := by
    simp [firstLine, hd]
  fun_induction takeHexits room tail with
  | case1 room => simp [firstLine, takeHexits]
  | case2 room d rest hstop =>
      cases hd : isNewline d with
      | true => simp [firstLine, hd, takeHexits]
      | false =>
          rw [hcons hd]
          unfold takeHexits
          simp [hstop]
  | case3 d rest hstop =>
      rw [hcons (isNewline_eq_false_of_not_isHexStop (by simpa using hstop))]
      unfold takeHexits
      simp [hstop]
  | case4 d rest hstop room hd digits stop hrec ih =>
      rw [hcons (isNewline_eq_false_of_not_isHexStop (by simpa using hstop))]
      unfold takeHexits
      simp only [hstop, hd, Bool.false_eq_true, if_false, if_true]
      rw [ih, hrec]
  | case5 d rest hstop room hd =>
      rw [hcons (isNewline_eq_false_of_not_isHexStop (by simpa using hstop))]
      unfold takeHexits
      simp [hstop, hd]

/-- A `lexeme` that does not begin with an end of line depends on the rest of its line only. -/
theorem lexeme_firstLine {c : Char} (hc : isNewline c = false) (tail : List Char) :
    lexeme c (firstLine tail) = lexeme c tail := by
  have hname (d : Char) (hd : isNameChar d = true) : isNewline d = false :=
    isNewline_eq_false_of_isNameChar hd
  have hcomment (d : Char) (hd : (!isNewline d) = true) : isNewline d = false := by simpa using hd
  have hblank (d : Char) (hd : isBlank d = true) : isNewline d = false :=
    isNewline_eq_false_of_isBlank hd
  rw [lexeme, lexeme]
  simp only [hc, Bool.false_eq_true, if_false, runLexeme_firstLine c tail hname,
    runLexeme_firstLine c tail hcomment, runLexeme_firstLine c tail hblank, hexLexeme,
    takeHexits_firstLine]

/-- Two texts with the same `firstLine` have the same `lexeme` in front. -/
theorem lexeme_congr {c : Char} (hc : isNewline c = false) {tail other : List Char}
    (h : firstLine other = firstLine tail) : lexeme c other = lexeme c tail := by
  rw [← lexeme_firstLine hc, h, lexeme_firstLine hc]

/-- A `lexeme` that does not begin with an end of line has none among its characters. -/
theorem isNewline_eq_false_of_mem_lexeme {c : Char} (hc : isNewline c = false) {tail : List Char}
    {d : Char} (hd : d ∈ (lexeme c tail).chars) : isNewline d = false := by
  obtain ⟨piece, hchars, hfront⟩ := exists_chars_lexeme c (firstLine tail)
  rw [← lexeme_firstLine hc, hchars] at hd
  rcases List.mem_cons.mp hd with rfl | hd
  · exact hc
  · exact isNewline_eq_false_of_mem_firstLine (hfront.subset hd)

/-- A `lexeme` that does not begin with an end of line is not of kind `newline`. -/
theorem kind_lexeme_ne_newline {c : Char} (hc : isNewline c = false) (tail : List Char) :
    (lexeme c tail).kind ≠ .newline := by
  have hrule := lexeme_rule c tail
  generalize lexeme c tail = piece at hrule
  cases hrule with
  | newline hnewline =>
      rw [hc] at hnewline
      cases hnewline
  | word | comma | comment | hex | address | location | operation | whitespace | unknown =>
      exact Kind.noConfusion

/-- A `lexeme` that begins with an end of line takes all ends of line that follow. -/
theorem lexeme_of_isNewline {c : Char} (hc : isNewline c = true) (tail : List Char) :
    lexeme c tail = { kind := .newline, chars := c :: tail.takeWhile isNewline } := by
  have hspells : Spells .newline (c :: tail.takeWhile isNewline) :=
    .newline hc fun d hd => List.mem_takeWhile_imp hd
  have hends : Kind.EndsBefore .newline (tail.dropWhile isNewline) := by
    intro d hd
    have hhead := List.head?_dropWhile_not isNewline tail
    rw [Option.mem_def.mp hd] at hhead
    simpa [Kind.isContinuedBy] using hhead
  have hread := lexeme_of_spells hspells hends
  rw [List.takeWhile_append_dropWhile] at hread
  exact hread

end MovAsm

import MovAsm.Proofs.Program.Correspondence
import MovAsm.Proofs.Token.Locality

/-!
# Styles of Line Endings

Lines end in one of three ways: with a line feed, with a carriage return, or with both. A text that
uses the first can be rewritten to use one of the others, and means the same then. Ends of line are
looked at in several places: they are tokens, they end names, comments and byte literals, and they
move the place to the next line. In none of them does the style matter.

A lexer of the rewritten text follows the one of the text token by token. Between two tokens the
text behind is rewritten, too, and the places are the same; a carriage return that was passed is of
no consequence there, because no line feed follows it.

## Main results

* `lexeme_restyle`: the first lexeme of a rewritten text.
* `Cursor.position_advanceAll_restyle`: positions in a rewritten text.
* `Lexer.simulation_restyled`: rewritten texts are read alike.
* `restyle_unchanged`: the style of line endings matters neither to readers nor to assemblers.
-/

namespace MovAsm

/-- The ways to end a line other than with a line feed alone: a carriage return and a line feed, or
a carriage return alone. -/
inductive EndingStyle where
  | returnFeed
  | carriageReturn
  deriving DecidableEq, Repr

/-- The characters of a line ending. -/
def EndingStyle.chars : EndingStyle → List Char
  | returnFeed => ['\r', '\n']
  | carriageReturn => ['\r']

/-- The text with each line feed replaced by the line ending of `style`. -/
def restyle (style : EndingStyle) (text : List Char) : List Char :=
  text.flatMap fun c => if c = '\n' then style.chars else [c]

variable {style : EndingStyle} {text tail : List Char} {c : Char}

/-! ### Rewritten texts -/

/-- The empty text after `restyle`. -/
@[simp] theorem restyle_nil : restyle style [] = [] :=
  rfl

/-- A text in two parts after `restyle`. -/
@[simp] theorem restyle_append (style : EndingStyle) (text more : List Char) :
    restyle style (text ++ more) = restyle style text ++ restyle style more :=
  List.flatMap_append

/-- A line feed after `restyle`. -/
@[simp] theorem restyle_newline (style : EndingStyle) (tail : List Char) :
    restyle style ('\n' :: tail) = style.chars ++ restyle style tail := by
  simp [restyle]

/-- Any other character after `restyle`. -/
theorem restyle_cons_of_ne (hc : c ≠ '\n') (tail : List Char) :
    restyle style (c :: tail) = c :: restyle style tail := by
  simp [restyle, hc]

/-- A text without newlines is its own `restyle`. -/
theorem restyle_of_forall_ne (h : ∀ c ∈ text, isNewline c = false) : restyle style text = text := by
  induction text with
  | nil => rfl
  | cons c text ih =>
      have hc : c ≠ '\n' := by
        rintro rfl
        simpa [isNewline] using h '\n' (by simp)
      rw [restyle_cons_of_ne hc, ih fun d hd => h d (by simp [hd])]

/-- Only the empty text has an empty `restyle`. -/
@[simp] theorem restyle_eq_nil_iff : restyle style text = [] ↔ text = [] := by
  cases text with
  | nil => simp
  | cons c tail =>
      by_cases hc : c = '\n'
      · subst hc
        cases style <;> simp [EndingStyle.chars]
      · simp [restyle_cons_of_ne hc]

/-- A character that is neither line feed nor carriage return is no newline. -/
theorem isNewline_eq_false_of_ne (hfeed : c ≠ '\n') (hreturn : c ≠ '\r') : isNewline c = false := by
  simp [isNewline, hfeed, hreturn]

/-- The `firstLine` is the same after `restyle`. -/
theorem firstLine_restyle (hreturn : '\r' ∉ text) :
    firstLine (restyle style text) = firstLine text := by
  induction text with
  | nil => rfl
  | cons c tail ih =>
      obtain ⟨hc, htail⟩ := List.ne_and_not_mem_of_not_mem_cons hreturn
      by_cases hfeed : c = '\n'
      · subst hfeed
        cases style <;> simp [firstLine, EndingStyle.chars, isNewline]
      · have hline := isNewline_eq_false_of_ne hfeed hc.symm
        rw [restyle_cons_of_ne hfeed]
        simpa [firstLine, hline] using ih htail

/-- The newlines at the front after `restyle`. -/
theorem takeWhile_isNewline_restyle (style : EndingStyle) (hreturn : '\r' ∉ text) :
    (restyle style text).takeWhile isNewline = restyle style (text.takeWhile isNewline) := by
  induction text with
  | nil => rfl
  | cons c tail ih =>
      obtain ⟨hc, htail⟩ := List.ne_and_not_mem_of_not_mem_cons hreturn
      by_cases hfeed : c = '\n'
      · subst hfeed
        have hnewline : isNewline '\n' = true := by decide
        rw [restyle_newline, List.takeWhile_cons_of_pos hnewline, restyle_newline, ← ih htail]
        refine List.takeWhile_append_of_pos ?_
        cases style <;> simp [EndingStyle.chars, isNewline]
      · have hline := isNewline_eq_false_of_ne hfeed hc.symm
        rw [restyle_cons_of_ne hfeed]
        simp [hline]

/-! ### Pieces of rewritten texts -/

/-- The first `lexeme` after `restyle` is that of the text, after `restyle`. If it has newlines, it
is a run of them. -/
theorem lexeme_restyle (style : EndingStyle) (hreturn : '\r' ∉ c :: tail) :
    (∃ d rest, restyle style (c :: tail) = d :: rest ∧
      lexeme d rest = { lexeme c tail with chars := restyle style (lexeme c tail).chars }) ∧
    ((∀ d ∈ (lexeme c tail).chars, isNewline d = false) ∨
      (lexeme c tail).kind = .newline ∧ (lexeme c tail).fault = none) := by
  obtain ⟨hc, htail⟩ := List.ne_and_not_mem_of_not_mem_cons hreturn
  by_cases hfeed : c = '\n'
  · subst hfeed
    obtain ⟨more, hmore⟩ : ∃ more, style.chars = '\r' :: more := by cases style <;> exact ⟨_, rfl⟩
    have hfront : restyle style ('\n' :: tail) = '\r' :: (more ++ restyle style tail) := by
      rw [restyle_newline, hmore, List.cons_append]
    have hchars : '\r' :: (more ++ restyle style tail).takeWhile isNewline =
        restyle style ('\n' :: tail.takeWhile isNewline) := by
      have hrun := takeWhile_isNewline_restyle style hreturn
      rw [hfront, List.takeWhile_cons_of_pos (by decide),
        List.takeWhile_cons_of_pos (by decide)] at hrun
      exact hrun
    rw [lexeme_of_isNewline (by decide : isNewline '\n' = true)]
    refine ⟨⟨'\r', more ++ restyle style tail, hfront, ?_⟩, .inr ⟨rfl, rfl⟩⟩
    rw [lexeme_of_isNewline (by decide), hchars]
  · have hline := isNewline_eq_false_of_ne hfeed hc.symm
    have hchars : ∀ d ∈ (lexeme c tail).chars, isNewline d = false :=
      fun d hd => isNewline_eq_false_of_mem_lexeme hline hd
    refine ⟨⟨c, restyle style tail, restyle_cons_of_ne hfeed tail, ?_⟩, .inl hchars⟩
    rw [restyle_of_forall_ne hchars]
    exact lexeme_congr hline (firstLine_restyle htail)

/-- What is left behind the first `lexeme` after `restyle`. -/
theorem drop_lexeme_restyle {d : Char} {rest : List Char}
    (hfront : restyle style (c :: tail) = d :: rest)
    (hpiece : (lexeme d rest).chars = restyle style (lexeme c tail).chars) :
    rest.drop ((lexeme d rest).chars.length - 1) =
      restyle style (tail.drop ((lexeme c tail).chars.length - 1)) := by
  have hwhole := lexeme_append d rest
  rw [← hfront, ← lexeme_append c tail, restyle_append, ← hpiece] at hwhole
  exact List.append_cancel_left hwhole

/-! ### Places in rewritten texts -/

/-- A line ending takes a cursor to the beginning of the next line in any style, whatever the cursor
has passed before. -/
theorem Cursor.position_advanceAll_chars (style : EndingStyle) (cursor : Cursor) :
    (cursor.advanceAll style.chars).position = ⟨cursor.position.line + 1, 0⟩ := by
  cases style <;> simp [EndingStyle.chars, advanceAll, advance]

/-- A text takes a cursor to the same position after `restyle`. Induction on the text. -/
theorem Cursor.position_advanceAll_restyle (style : EndingStyle) {cursor other : Cursor}
    (hposition : other.position = cursor.position) (hafter : cursor.afterReturn = false)
    (hreturn : '\r' ∉ text) :
    (other.advanceAll (restyle style text)).position = (cursor.advanceAll text).position ∧
      (cursor.advanceAll text).afterReturn = false := by
  induction text generalizing cursor other with
  | nil => exact ⟨hposition, hafter⟩
  | cons c tail ih =>
      obtain ⟨hc, htail⟩ := List.ne_and_not_mem_of_not_mem_cons hreturn
      have hnext : (cursor.advance c).afterReturn = false := by
        simpa [advance] using hc.symm
      by_cases hfeed : c = '\n'
      · subst hfeed
        rw [restyle_newline, advanceAll, List.foldl_append]
        refine ih ?_ hnext htail
        have hend := position_advanceAll_chars style other
        rw [advanceAll] at hend
        rw [hend, hposition]
        simp [advance, hafter]
      · rw [restyle_cons_of_ne hfeed]
        exact ih (by simp [advance, hfeed, hposition]) hnext htail

/-- The fault of a lexeme is at the same position after `restyle`: where there is a fault, there are
no newlines. -/
theorem failure?_restyle (style : EndingStyle) {piece : Lexeme} {cursor other : Cursor}
    (hposition : other.position = cursor.position) (hafter : cursor.afterReturn = false)
    (h : (∀ d ∈ piece.chars, isNewline d = false) ∨ piece.fault = none) :
    { piece with chars := restyle style piece.chars }.failure? other = piece.failure? cursor := by
  rcases h with hchars | hnone
  · rw [restyle_of_forall_ne hchars, Lexeme.failure?, Lexeme.failure?]
    refine Option.map_congr fun entry _ => ?_
    obtain ⟨fault, offset, offender⟩ := entry
    have htake : ∀ d ∈ piece.chars.take offset, isNewline d = false :=
      fun d hd => hchars d (List.mem_of_mem_take hd)
    have hreturn : '\r' ∉ piece.chars.take offset := by
      intro hmem
      simpa [isNewline] using htake '\r' hmem
    obtain ⟨hplace, -⟩ := Cursor.position_advanceAll_restyle style hposition hafter hreturn
    rw [restyle_of_forall_ne htake] at hplace
    dsimp only
    rw [hplace]
  · simp [Lexeme.failure?, hnone]

/-! ### Readers of rewritten texts -/

namespace Lexer

/-- The lexer `other` has the `restyle` of the text of `lexer`, at the same position. The text of
`lexer` has no carriage returns, and none was just passed. -/
structure Restyled (style : EndingStyle) (lexer other : Lexer) : Prop where
  rest : other.rest = restyle style lexer.rest
  failure : other.failure = lexer.failure
  position : other.position = lexer.position
  noReturn : '\r' ∉ lexer.rest
  afterReturn : lexer.cursor.afterReturn = false

variable {lexer other : Lexer}

/-- The token of `next` is the same on a `Restyled` lexer, or both are newlines. -/
theorem Restyled.next (h : Restyled style lexer other) :
    (other.next.1.token = lexer.next.1.token ∨
        lexer.next.1.token.kind = .newline ∧ other.next.1.token.kind = .newline) ∧
      other.next.1.failure = lexer.next.1.failure ∧
      Restyled style lexer.next.2 other.next.2 := by
  cases hrest : lexer.rest with
  | nil =>
      have hother : other.rest = [] := by simp [h.rest, hrest]
      rw [next_nil hrest, next_nil hother, h.position, h.failure]
      exact ⟨.inl rfl, rfl, h⟩
  | cons c tail =>
      have hreturn := h.noReturn
      rw [hrest] at hreturn
      obtain ⟨⟨d, rest, hfront, hpiece⟩, hchars⟩ := lexeme_restyle style hreturn
      have hother : other.rest = d :: rest := by rw [h.rest, hrest, hfront]
      have hdrop := drop_lexeme_restyle hfront (by rw [hpiece])
      have hwhole := lexeme_append c tail
      have hafter : '\r' ∉ (lexeme c tail).chars ∧
          '\r' ∉ tail.drop ((lexeme c tail).chars.length - 1) := by
        rw [← hwhole] at hreturn
        simpa using hreturn
      rw [next_cons hrest, next_cons hother, hdrop, hpiece, h.failure, h.position]
      refine ⟨?_, ?_, ?_⟩
      · rcases hchars with hline | ⟨hnewline, -⟩
        · refine .inl ?_
          rw [restyle_of_forall_ne hline]
        · exact .inr ⟨hnewline, hnewline⟩
      · have hfault : (∀ d ∈ (lexeme c tail).chars, isNewline d = false) ∨
            (lexeme c tail).fault = none := hchars.imp_right And.right
        rw [failure?_restyle style h.position h.afterReturn hfault]
        simp only [restyle_eq_nil_iff]
      · obtain ⟨hposition, hlast⟩ :=
          Cursor.position_advanceAll_restyle style h.position h.afterReturn hafter.1
        exact ⟨rfl, rfl, hposition, hafter.2, hlast⟩

/-- The relation `Restyled` is a `Simulation`. -/
theorem simulation_restyled (style : EndingStyle) : Simulation id (Restyled style) where
  position h := h.position
  token h := h.next.1
  failure h := by
    rw [h.next.2.1]
    simp
  next h := h.next.2.2

end Lexer

/-- The source with each line feed replaced by the line ending of `style`. -/
def Source.restyle (style : EndingStyle) (source : Source) : Source :=
  { source with chars := MovAsm.restyle style source.chars }

/-- A `drain` reads the same from a source after `restyle`. -/
theorem Reader.drain_restyle (style : EndingStyle) {source : Source}
    (hreturn : '\r' ∉ source.chars) :
    let (reader, fatal) := (Reader.ofSource source).drain
    let (other, fatal') := (Reader.ofSource (source.restyle style)).drain
    other.instructions = reader.instructions ∧ other.diagnostics = reader.diagnostics ∧
      other.lines = reader.lines ∧ fatal' = fatal := by
  have hstart : Lexer.Restyled style (Lexer.ofSource source)
      (Lexer.ofSource (source.restyle style)) := ⟨rfl, rfl, rfl, hreturn, rfl⟩
  exact drain_of_simulation (Lexer.simulation_restyled style) hstart

/-- **The style of line endings does not matter.** Take a source without carriage returns, whether
or not it can be read to its end, and `restyle` it. A reader finds the same instructions and the
same diagnostics at the same places, in the same lines of tokens, and is stopped by the same
diagnostic or not at all. An assembler comes to the same outcome and keeps the same origin, the same
labels and the same log. -/
theorem restyle_unchanged (style : EndingStyle) (source : Source) (hreturn : '\r' ∉ source.chars) :
    (let (reader, fatal) := (Reader.ofSource source).drain
     let (other, fatal') := (Reader.ofSource (source.restyle style)).drain
     other.instructions = reader.instructions ∧ other.diagnostics = reader.diagnostics ∧
       other.lines = reader.lines ∧ fatal' = fatal) ∧
    ∀ assembler : Assembler,
      assembler.compile (source.restyle style) = assembler.compile source := by
  have hread := Reader.drain_restyle style hreturn
  refine ⟨hread, fun assembler => ?_⟩
  obtain ⟨hinstructions, hdiagnostics, hlines, hfatal⟩ := hread
  simp only [Assembler.compile, Reader.complaints, hinstructions, hdiagnostics, hlines, hfatal]

/-- An empty line, a comment before the end of a line, a line that makes no instruction, and a
malformed token on the last line. -/
theorem restyle_unchanged_returnFeed :
    let source : Source := ⟨"MOV #1,A\n\nHLT ;x\nMOV A\n !".toList, none⟩
    '\r' ∉ source.chars ∧
      (source.restyle .returnFeed).chars = "MOV #1,A\r\n\r\nHLT ;x\r\nMOV A\r\n !".toList ∧
      (Reader.ofSource (source.restyle .returnFeed)).drain.1.instructions =
        [.binary ⟨1, 0⟩ .mov ⟨.hash, "1"⟩ ⟨.bare, "A"⟩, .noOperand ⟨3, 0⟩ .hlt] ∧
      (Reader.ofSource (source.restyle .returnFeed)).drain.2 =
        some ⟨⟨5, 1⟩, .lexical (.malformed ⟨⟨5, 1⟩, .unknownCharacter, 33⟩)⟩ := by
  intro source
  obtain ⟨⟨hinstructions, -, -, hfatal⟩, -⟩ :=
    restyle_unchanged .returnFeed source (by decide)
  refine ⟨by decide, by decide, ?_, ?_⟩
  · rw [hinstructions]
    decide +kernel
  · rw [hfatal]
    decide +kernel

end MovAsm

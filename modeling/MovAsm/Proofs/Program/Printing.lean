import MovAsm.Proofs.Program.Acceptance
import MovAsm.Proofs.Text.Utf8

/-!
# Printed Programs

A program is printed with an instruction on each line, in the text that messages show. Reading that
text gives the program back, each instruction at the beginning of its line.

The printed text is cut into pieces, one for each token of the lines from which the program was
read, with a blank behind the keyword and an end of line between the lines. The pieces do not
continue each other, so the lexer reads them one by one, and the lines have the same forms as
before, because a form does not depend on where tokens stand.

## Main results

* `Line.separated_pieces`, `Line.separated_joined`: the pieces do not continue each other.
* `Line.form_locate`: a printed line has the same form as the line.
* `Line.forms_joined`: the printed lines have the forms of the program, one below the other.
* `printed_program`: a printed program is read back without complaint.
-/

namespace MovAsm

/-- The `Instruction.text` of the instructions of a program, each on a line. -/
def printedText (program : List Instruction) : String :=
  "\n".intercalate (program.map Instruction.text)

/-- The source whose bytes are the `printedText` of a program. -/
def printed (program : List Instruction) : Source :=
  .ofBytes (printedText program).toUTF8.data.toList none

/-! ### Pieces of text -/

/-- The lexeme that a token is printed as. -/
def Token.piece (token : Token) : Lexeme :=
  { kind := token.kind, chars := token.value.toList }

/-- A kind that is not trivial differs from one that is. -/
theorem Kind.ne_of_isTrivial {kind other : Kind} (h : kind.isTrivial = false)
    (hother : other.isTrivial = true) : kind ≠ other := by
  rintro rfl
  rw [h] at hother
  cases hother

/-- A token that `IsSpelled` is read from its `piece`, wherever that stands. -/
theorem Token.IsSpelled.token_piece {token : Token} (h : token.IsSpelled)
    (hkind : token.kind.isTrivial = false) (start : Position) :
    token.piece.kind.token token.piece.chars start = { token with start } := by
  have hvalue := congrArg Token.value (h.spells_value (Kind.ne_of_isTrivial hkind rfl)).2
  rw [Kind.token] at hvalue ⊢
  exact congrArg (Token.mk token.kind · start) hvalue.symm

namespace Line

/-- The blank behind a keyword. -/
def blank : Lexeme := { kind := .whitespace, chars := [' '] }

/-- The end of a printed line. -/
def ending : Lexeme := { kind := .newline, chars := ['\n'] }

/-- The lexemes of a printed line: a `blank` behind the keyword, nothing between the operands. -/
def pieces : List Token → List Lexeme
  | [] => []
  | [word] => [word.piece]
  | word :: others => word.piece :: blank :: others.map Token.piece

/-- The `pieces` of printed lines, with an `ending` between them. -/
def joined : List (List Token) → List Lexeme
  | [] => []
  | [line] => pieces line
  | line :: lines => pieces line ++ ending :: joined lines

/-- The `pieces` of a line with operands. -/
theorem pieces_cons_cons (word other : Token) (others : List Token) :
    pieces (word :: other :: others) =
      word.piece :: blank :: (other :: others).map Token.piece :=
  rfl

/-- The `joined` pieces of two lines and more. -/
theorem joined_cons_cons (line next : List Token) (lines : List (List Token)) :
    joined (line :: next :: lines) = pieces line ++ ending :: joined (next :: lines) :=
  rfl

/-- Each of the `pieces` of a line is the `piece` of a token or a `blank`. -/
theorem mem_pieces {line : List Token} {piece : Lexeme} (h : piece ∈ pieces line) :
    piece = blank ∨ ∃ token ∈ line, piece = token.piece := by
  rcases line with _ | ⟨word, _ | ⟨other, others⟩⟩
  · cases h
  · exact .inr ⟨word, List.mem_singleton_self word, List.mem_singleton.mp h⟩
  · rw [pieces_cons_cons] at h
    rcases List.mem_cons.mp h with h | h
    · exact .inr ⟨word, List.mem_cons_self, h⟩
    · rcases List.mem_cons.mp h with h | h
      · exact .inl h
      · obtain ⟨token, hmem, rfl⟩ := List.mem_map.mp h
        exact .inr ⟨token, List.mem_cons_of_mem word hmem, rfl⟩

section Separated

open Lexer

variable {token : Token} {rest : List Lexeme} {after : List Char}

/-- An operand ends before a blank, a comma or an end of line. -/
theorem endsBefore_of_isOperand (hoperand : token.IsOperand) {text : List Char}
    (htext : ∀ c ∈ text.head?, c ∈ [' ', ',', '\n']) : token.kind.EndsBefore text := by
  intro c hc
  have hmem := htext c hc
  have hstop : isNameChar c = false ∧ isHexStop c = true := by
    simp only [List.mem_cons, List.not_mem_nil, or_false] at hmem
    rcases hmem with rfl | rfl | rfl
    · exact ⟨isNameChar_of_ascii (by decide), by decide⟩
    · exact ⟨isNameChar_of_ascii (by decide), by decide⟩
    · exact ⟨isNameChar_of_ascii (by decide), by decide⟩
  simp only [Token.IsOperand, List.mem_cons, List.not_mem_nil, or_false] at hoperand
  rcases hoperand with hkind | hkind | hkind | hkind | hkind <;>
    simp [hkind, Kind.isContinuedBy, hstop]

/-- The `piece` of an operand begins with a character that is no white space. -/
theorem exists_cons_of_isOperand (hspelled : token.IsSpelled) (hoperand : token.IsOperand) :
    ∃ c chars, token.piece.chars = c :: chars ∧ isBlank c = false ∧ isNewline c = false := by
  obtain ⟨hkind, hnewline⟩ := hoperand.kind_spec
  obtain ⟨hspells, -⟩ := hspelled.spells_value (Kind.ne_of_isTrivial hkind rfl)
  obtain ⟨c, chars, htext⟩ := List.exists_cons_of_ne_nil hspells.ne_nil
  rw [htext] at hspells
  exact ⟨c, chars, htext, hspells.isBlank_eq_false (Kind.ne_of_isTrivial hkind rfl),
    hspells.isNewline_eq_false hnewline c (by simp)⟩

/-- An operand may come before a blank, a comma or an end of line. -/
theorem separated_operand (hspelled : token.IsSpelled) (hoperand : token.IsOperand)
    (hnext : ∀ c ∈ (rest.flatMap Lexeme.chars ++ after).head?, c ∈ [' ', ',', '\n'])
    (hrest : Separated after rest) : Separated after (token.piece :: rest) :=
  ⟨(hspelled.spells_value (Kind.ne_of_isTrivial hoperand.kind_spec.1 rfl)).1,
    endsBefore_of_isOperand hoperand hnext, hrest⟩

/-- An operand may come last on a line. -/
theorem separated_last (hspelled : token.IsSpelled) (hoperand : token.IsOperand)
    (hafter : ∀ c ∈ after.head?, c = '\n') : Separated after [token.piece] := by
  refine separated_operand hspelled hoperand ?_ trivial
  intro c hc
  simp [hafter c hc]

/-- A `blank` may come before an operand. -/
theorem separated_blank (hspelled : token.IsSpelled) (hoperand : token.IsOperand)
    (hrest : Separated after (token.piece :: rest)) :
    Separated after (blank :: token.piece :: rest) := by
  obtain ⟨c, chars, htext, hblank, -⟩ := exists_cons_of_isOperand hspelled hoperand
  refine ⟨.whitespace rfl (by simp), ?_, hrest⟩
  intro d hd
  rw [List.flatMap_cons, htext] at hd
  cases hd
  exact hblank

/-- An `ending` may come before an operand. -/
theorem separated_ending (hspelled : token.IsSpelled) (hoperand : token.IsOperand)
    (hrest : Separated after (token.piece :: rest)) :
    Separated after (ending :: token.piece :: rest) := by
  obtain ⟨c, chars, htext, -, hnewline⟩ := exists_cons_of_isOperand hspelled hoperand
  refine ⟨.newline rfl (by simp), ?_, hrest⟩
  intro d hd
  rw [List.flatMap_cons, htext] at hd
  cases hd
  exact hnewline

/-- The `piece` of a comma is `,`. -/
theorem piece_of_comma (hspelled : token.IsSpelled) (hcomma : token.kind = .comma) :
    token.piece = { kind := .comma, chars := [','] } := by
  obtain ⟨hspells, -⟩ := hspelled.spells_value (by simp [hcomma])
  rw [hcomma] at hspells
  rw [Token.piece, hcomma]
  cases htext : token.value.toList with
  | nil => exact absurd htext hspells.ne_nil
  | cons c chars =>
      rw [htext] at hspells
      cases hspells with
      | comma => rfl

/-- The `pieces` of a keyword and its operand are `Separated`, also from the end of the line. -/
theorem separated_pair {word argument : Token} (hword : word.IsOperand)
    (hargument : argument.IsOperand) (hspelled : ∀ token ∈ [word, argument], token.IsSpelled)
    (hafter : ∀ c ∈ after.head?, c = '\n') : Separated after (pieces [word, argument]) := by
  have hlast := separated_last (hspelled argument (by simp)) hargument hafter
  refine separated_operand (hspelled word (by simp)) hword ?_
    (separated_blank (hspelled argument (by simp)) hargument hlast)
  simp [blank]

/-- The `pieces` of a line that has a `Form` are `Separated`, also from the end of the line. -/
theorem separated_pieces {isFirst : Bool} {line : List Token} {instruction : Instruction}
    (hform : Form isFirst line instruction) (hspelled : ∀ token ∈ line, token.IsSpelled)
    (hafter : ∀ c ∈ after.head?, c = '\n') : Separated after (pieces line) := by
  cases hform with
  | @halt word hword | @idle word hword =>
      exact separated_last (hspelled word (by simp)) hword.isOperand hafter
  | @define word argument _ hword hargument hoperand =>
      exact separated_pair hword.isOperand (by simp [Token.IsOperand, hargument]) hspelled hafter
  | @start word argument _ hfirst hword hargument hoperand =>
      exact separated_pair hword.isOperand (by simp [Token.IsOperand, hargument]) hspelled hafter
  | @jump word argument _ hword hargument hoperand =>
      refine separated_pair hword.isOperand ?_ hspelled hafter
      rcases hargument with hargument | hargument <;> simp [Token.IsOperand, hargument]
  | @move word source comma destination _ _ hword hsource hcomma hdestination hstart hgoal =>
      have hcommaPiece := piece_of_comma (hspelled comma (by simp)) hcomma
      have hsourceOperand := isOperand_of_isSource hsource
      have hdestinationOperand := isOperand_of_isDestination hdestination
      have hlast := separated_last (hspelled destination (by simp)) hdestinationOperand hafter
      have hmiddle : Separated after [comma.piece, destination.piece] := by
        rw [hcommaPiece]
        exact ⟨.comma, fun _ _ => rfl, hlast⟩
      have hoperands : Separated after [source.piece, comma.piece, destination.piece] := by
        refine separated_operand (hspelled source (by simp)) hsourceOperand ?_ hmiddle
        simp [hcommaPiece]
      refine separated_operand (hspelled word (by simp)) hword.isOperand ?_
        (separated_blank (hspelled source (by simp)) hsourceOperand hoperands)
      simp [blank]

/-- The `joined` pieces of lines begin with the keyword of the first line. -/
theorem exists_joined_eq (word : Token) (others : List Token) (lines : List (List Token)) :
    ∃ rest, joined ((word :: others) :: lines) = word.piece :: rest := by
  cases others <;> cases lines <;> exact ⟨_, rfl⟩

/-- The `joined` pieces of lines that have `Forms` are `Separated`. Induction on `Forms`. -/
theorem separated_joined {isFirst : Bool} {lines : List (List Token)} {program : List Instruction}
    (hforms : Forms isFirst lines program)
    (hspelled : ∀ line ∈ lines, ∀ token ∈ line, token.IsSpelled) : Separated [] (joined lines) := by
  induction hforms with
  | nil => exact trivial
  | @cons _ line _ lines _ hline hlines ih =>
      have hfirst := hspelled line (by simp)
      have hrest := ih fun line hmem => hspelled line (by simp [hmem])
      cases hlines with
      | nil => exact separated_pieces hline hfirst (by simp)
      | @cons _ next _ lines _ hnext hlines =>
          obtain ⟨word, others, rfl, hword⟩ := hnext.exists_cons
          obtain ⟨rest, hjoined⟩ := exists_joined_eq word others lines
          have hending : Separated [] (ending :: joined ((word :: others) :: lines)) := by
            rw [hjoined] at hrest ⊢
            exact separated_ending (hspelled (word :: others) (by simp) word (by simp)) hword hrest
          exact (separated_pieces hline hfirst (by simp [ending])).append hending

end Separated

/-! ### Text -/

/-- The characters of the `pieces` of a line are the `text` of its instruction. -/
theorem text_pieces {isFirst : Bool} {line : List Token} {instruction : Instruction}
    (hform : Form isFirst line instruction) (hspelled : ∀ token ∈ line, token.IsSpelled) :
    (pieces line).flatMap Lexeme.chars = instruction.text.toList := by
  cases hform with
  | halt hword | idle hword =>
      simp [pieces, Token.piece, Instruction.text, hword.2]
  | define hword hargument hoperand | jump hword hargument hoperand =>
      simp [pieces, Token.piece, blank, Instruction.text, hword.2, hoperand.2]
  | start hfirst hword hargument hoperand =>
      simp [pieces, Token.piece, blank, Instruction.text, hword.2, hoperand.2]
  | @move word source comma destination _ _ hword hsource hcomma hdestination hstart hgoal =>
      have hpiece := piece_of_comma (hspelled comma (by simp)) hcomma
      have hchars : comma.value.toList = [','] := congrArg Lexeme.chars hpiece
      simp [pieces, Token.piece, blank, Instruction.text, hword.2, hstart.2, hgoal.2, hchars]

/-- The characters of the `joined` pieces are the `printedText` of the program. -/
theorem text_joined {isFirst : Bool} {lines : List (List Token)} {program : List Instruction}
    (hforms : Forms isFirst lines program)
    (hspelled : ∀ line ∈ lines, ∀ token ∈ line, token.IsSpelled) :
    (joined lines).flatMap Lexeme.chars = (printedText program).toList := by
  rw [printedText, String.toList_intercalate, List.map_map]
  induction hforms with
  | nil => rfl
  | @cons _ line instruction lines program hline hlines ih =>
      have hfirst := text_pieces hline (hspelled line (by simp))
      have hrest := ih fun line hmem => hspelled line (by simp [hmem])
      cases hlines with
      | nil => simpa [joined] using hfirst
      | cons hnext hlines =>
          rw [List.map_cons, List.map_cons, List.intercalate_cons_cons, ← List.map_cons, ← hrest,
            joined_cons_cons, List.flatMap_append, hfirst]
          simp [ending]

end Line

/-! ### Places -/

/-- Characters that are no newline leave a cursor on its line. -/
theorem Cursor.advanceAll_of_forall_ne {cursor : Cursor} {chars : List Char}
    (hreturn : cursor.afterReturn = false) (hchars : ∀ c ∈ chars, isNewline c = false) :
    (cursor.advanceAll chars).position.line = cursor.position.line ∧
      (cursor.advanceAll chars).afterReturn = false := by
  induction chars generalizing cursor with
  | nil => exact ⟨rfl, hreturn⟩
  | cons c chars ih =>
      have hc := hchars c (by simp)
      simp only [isNewline, Bool.or_eq_false_iff, decide_eq_false_iff_not] at hc
      have hline : (cursor.advance c).position.line = cursor.position.line := by
        simp [advance, hc]
      obtain ⟨hrest, hlast⟩ := @ih (cursor.advance c) (by simp [advance, hc])
        fun d hd => hchars d (by simp [hd])
      exact ⟨hrest.trans hline, hlast⟩

/-- After the characters of a line and a line feed, a cursor is at the beginning of the next
line. -/
theorem Cursor.advanceAll_line {cursor : Cursor} {chars : List Char}
    (hreturn : cursor.afterReturn = false) (hchars : ∀ c ∈ chars, isNewline c = false) :
    (cursor.advanceAll chars).advanceAll ['\n'] = ⟨⟨cursor.position.line + 1, 0⟩, false⟩ := by
  obtain ⟨hline, hlast⟩ := advanceAll_of_forall_ne hreturn hchars
  simp [advanceAll, advance] at hline hlast ⊢
  simp [hline, hlast]

namespace Line

open Lexer

/-- A token that means something is read from its `piece`, at the cursor. -/
theorem nontrivial_locate_piece {token : Token} {rest : List Lexeme} (cursor : Cursor)
    (hspelled : token.IsSpelled) (hkind : token.kind.isTrivial = false) :
    nontrivial (locate cursor (token.piece :: rest)) =
      { token with start := cursor.position } ::
        nontrivial (locate (cursor.advanceAll token.piece.chars) rest) := by
  rw [locate, hspelled.token_piece hkind, nontrivial, List.filter_cons_of_pos (by simp [hkind])]
  rfl

/-- The tokens that are read from the pieces of tokens are these tokens, `Moved`. -/
theorem moved_locate {tokens : List Token} (cursor : Cursor)
    (hspelled : ∀ token ∈ tokens, token.IsSpelled)
    (hkind : ∀ token ∈ tokens, token.kind.isTrivial = false) :
    List.Forall₂ Token.Moved tokens (nontrivial (locate cursor (tokens.map Token.piece))) := by
  induction tokens generalizing cursor with
  | nil => exact .nil
  | cons token tokens ih =>
      rw [List.map_cons, nontrivial_locate_piece cursor (hspelled token (by simp))
        (hkind token (by simp))]
      exact .cons ⟨_, rfl⟩ (ih _ (fun other hmem => hspelled other (by simp [hmem]))
        fun other hmem => hkind other (by simp [hmem]))

/-- The tokens that are read from the `pieces` of a line have the `Form` of that line. -/
theorem form_locate {isFirst : Bool} {line : List Token} {instruction : Instruction}
    (hform : Form isFirst line instruction) (hspelled : ∀ token ∈ line, token.IsSpelled)
    (cursor : Cursor) :
    Form isFirst (nontrivial (locate cursor (pieces line)))
      (instruction.relocate cursor.position) := by
  have hkind (token : Token) (hmem : token ∈ line) : token.kind.isTrivial = false :=
    (hform.kind_of_mem hmem).1
  obtain ⟨word, others, rfl, -⟩ := hform.exists_cons
  have hword := hspelled word (by simp)
  have hothers (cursor : Cursor) := @moved_locate others cursor
    (fun token hmem => hspelled token (by simp [hmem]))
    fun token hmem => hkind token (by simp [hmem])
  cases others with
  | nil =>
      rw [pieces, nontrivial_locate_piece cursor hword (hkind word (by simp))]
      exact hform.relocate (.cons ⟨_, rfl⟩ .nil)
  | cons other others =>
      rw [pieces_cons_cons, nontrivial_locate_piece cursor hword (hkind word (by simp))]
      exact hform.relocate (.cons ⟨_, rfl⟩ (hothers _))

/-- None of the `pieces` of a line is a newline. -/
theorem kind_ne_newline_of_mem_pieces {isFirst : Bool} {line : List Token}
    {instruction : Instruction} (hform : Form isFirst line instruction) {piece : Lexeme}
    (hmem : piece ∈ pieces line) : piece.kind ≠ .newline := by
  rcases mem_pieces hmem with rfl | ⟨token, htoken, rfl⟩
  · decide
  · exact (hform.kind_of_mem htoken).2

/-- The `pieces` of a line are read as one line. -/
theorem split_locate {isFirst : Bool} {line : List Token} {instruction : Instruction}
    (hform : Form isFirst line instruction) (hspelled : ∀ token ∈ line, token.IsSpelled)
    (cursor : Cursor) {rest : List Token} (hrest : ∀ token ∈ rest, token.kind = .endOfFile) :
    split (locate cursor (pieces line) ++ rest) = [nontrivial (locate cursor (pieces line))] := by
  have hnone : nontrivial rest = [] := by
    rw [nontrivial, List.filter_eq_nil_iff]
    intro token hmem
    rw [hrest token hmem]
    decide
  have hkeep : nontrivial (locate cursor (pieces line) ++ rest) =
      nontrivial (locate cursor (pieces line)) := by
    rw [nontrivial, List.filter_append]
    exact (congrArg _ hnone).trans (List.append_nil _)
  obtain ⟨word, others, hcons, -⟩ := (form_locate hform hspelled cursor).exists_cons
  rw [split_of_forall_ne, hkeep, List.filter_cons_of_pos (by rw [hcons]; rfl), List.filter_nil]
  intro token hmem
  rcases List.mem_append.mp hmem with hmem | hmem
  · obtain ⟨piece, hpiece, hkind⟩ := exists_piece_of_mem_locate hmem
    rw [hkind]
    exact kind_ne_newline_of_mem_pieces hform hpiece
  · rw [hrest token hmem]
    decide

/-- The `pieces` of a line and the `ending` take a cursor from the beginning of a row to that of the
next. -/
theorem advanceAll_pieces {isFirst : Bool} {line : List Token} {instruction : Instruction}
    (hform : Form isFirst line instruction) (hspelled : ∀ token ∈ line, token.IsSpelled)
    (row : UInt64) :
    ((⟨⟨row, 0⟩, false⟩ : Cursor).advanceAll ((pieces line).flatMap Lexeme.chars)).advanceAll
      ending.chars = ⟨⟨row + 1, 0⟩, false⟩ := by
  refine Cursor.advanceAll_line rfl ?_
  intro c hc
  obtain ⟨piece, hpiece, hc⟩ := List.mem_flatMap.mp hc
  have hseparated : Separated [] (pieces line) := separated_pieces hform hspelled (by simp)
  exact (hseparated.spells piece hpiece).isNewline_eq_false
    (kind_ne_newline_of_mem_pieces hform hpiece) c hc

/-- The lines that are read from the `joined` pieces have the `Forms` of the program, one row below
the other. Induction on `Forms`. -/
theorem forms_joined {isFirst : Bool} {lines : List (List Token)} {program : List Instruction}
    (hforms : Forms isFirst lines program)
    (hspelled : ∀ line ∈ lines, ∀ token ∈ line, token.IsSpelled) {last : Token}
    (hlast : last.kind = .endOfFile) (row : UInt64) :
    Forms isFirst (split (locate ⟨⟨row, 0⟩, false⟩ (joined lines) ++ [last]))
      (program.mapIdx fun index instruction =>
        instruction.relocate ⟨row + UInt64.ofNat index, 0⟩) := by
  induction hforms generalizing row with
  | nil =>
      have hnone : split [last] = [] := by
        simp [split, nontrivial, hlast, Kind.isTrivial]
      rw [joined, locate, List.nil_append, hnone]
      exact .nil
  | @cons _ line instruction lines program hline hlines ih =>
      have hfirst := hspelled line (by simp)
      have hform := form_locate hline hfirst ⟨⟨row, 0⟩, false⟩
      have hrest := ih (fun line hmem => hspelled line (by simp [hmem])) (row + 1)
      have hindex (index : Nat) :
          row + 1 + UInt64.ofNat index = row + UInt64.ofNat (index + 1) := by
        rw [UInt64.ofNat_add, UInt64.add_assoc, UInt64.add_comm 1]
        rfl
      have hzero : row + UInt64.ofNat 0 = row := UInt64.add_zero row
      simp only [hindex] at hrest
      rw [List.mapIdx_cons, hzero]
      cases hlines with
      | nil =>
          rw [joined, split_locate hline hfirst _ (by simpa using hlast)]
          exact .cons hform .nil
      | @cons _ next _ lines _ hnext hlines =>
          have hline' := split_locate hline hfirst ⟨⟨row, 0⟩, false⟩ (List.forall_mem_nil _)
          rw [List.append_nil] at hline'
          rw [joined_cons_cons, locate_append, locate, advanceAll_pieces hline hfirst,
            List.append_assoc, List.cons_append, split_append_newline rfl, hline']
          exact .cons hform hrest

end Line

/-- The program with its instructions at the beginnings of the lines 1, 2, …. -/
def renumbered (program : List Instruction) : List Instruction :=
  program.mapIdx fun index instruction => instruction.relocate ⟨UInt64.ofNat (index + 1), 0⟩

/-- **A printed program is read back.** The source `printed` from a program is accepted without
complaint and read as the program, `renumbered`. -/
theorem printed_program {program : List Instruction} (h : Line.IsProgram program) :
    (printed program).complaints = [] ∧ (printed program).program = renumbered program := by
  obtain ⟨lines, hspelled, hforms⟩ := h
  have hchars : (Lexer.ofSource (printed program)).rest =
      (Line.joined lines).flatMap Lexeme.chars := by
    rw [Line.text_joined hforms hspelled]
    exact Text.Utf8.decode_toUTF8 _
  obtain ⟨hclean, htokens⟩ := Lexer.tokens_of_separated hchars rfl
    (Line.separated_joined hforms hspelled)
  have hprinted : Line.Forms true (Line.split (Lexer.ofSource (printed program)).tokens)
      (renumbered program) := by
    have hindex (index : Nat) : 1 + UInt64.ofNat index = UInt64.ofNat (index + 1) := by
      rw [UInt64.ofNat_add, UInt64.add_comm]
      rfl
    obtain ⟨last, hlast, htokens⟩ : ∃ last : Token, last.kind = .endOfFile ∧
        (Lexer.ofSource (printed program)).tokens =
          Lexer.locate .start (Line.joined lines) ++ [last] := ⟨_, rfl, htokens⟩
    have hjoined := Line.forms_joined hforms hspelled hlast 1
    simp only [hindex] at hjoined
    rw [htokens]
    exact hjoined
  rcases Source.program_cases hclean with ⟨hnil, hread⟩ | ⟨-, hnot⟩
  · exact ⟨hnil, hread.unique hprinted⟩
  · exact absurd hprinted (hnot _)

end MovAsm

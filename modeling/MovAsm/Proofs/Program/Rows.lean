import MovAsm.Program.Reader
import MovAsm.Proofs.Token.Locality
import MovAsm.Proofs.Token.Places

/-!
# Rows of a Text

The lines of a text are numbered by machine words, and these begin again if there are too many of
them. The row of a place is its number without that: the line ends before it are counted. All tokens
of a line begin on one row, and behind the line is a row further down. A failure that keeps a line
from being read is on the row of that line, or behind it.

A line ending of two characters might be cut in two by the end of a token, and would then be counted
twice. This does not happen, since ends of line are taken off the text as long as there are any.

## Main definitions

* `Source.OnRow` — a place is on a row of a source;
* `Lexer.Behind` — a lexer stands behind some text, and no line ending is cut there.

## Main results

* `Lexer.Behind.next`: only an end of line leads to another row.
* `Lexer.Behind.line`: where the tokens of a line begin, and where the next line does.
-/

namespace MovAsm

/-! ### Rows -/

/-- The position is on that row of the source, the first row being one. -/
def Source.OnRow (source : Source) (row : Nat) (position : Position) : Prop :=
  ∃ before, before <+: source.chars ∧ position = .behind before ∧ row = lineEnds before + 1

namespace Source.OnRow

variable {source : Source} {row : Nat} {position : Position}

/-- The line number of a position is its row, as a machine word. -/
theorem line (h : source.OnRow row position) : position.line = UInt64.ofNat row := by
  obtain ⟨before, -, rfl, rfl⟩ := h
  rw [Position.behind, ← lineEnds_eq, Nat.add_comm]

/-- There is no row behind the last one. -/
theorem le (h : source.OnRow row position) : row ≤ lineEnds source.chars + 1 := by
  obtain ⟨before, ⟨rest, hchars⟩, -, rfl⟩ := h
  have hle := lineEnds_le_append before rest
  rw [hchars] at hle
  omega

/-- The line number of a position is its row, if the row numbers fit a word. -/
theorem toNat_line (h : source.OnRow row position)
    (hbound : lineEnds source.chars + 1 < UInt64.size) : position.line.toNat = row := by
  have hle := h.le
  rw [h.line]
  exact UInt64.toNat_ofNat_of_lt' (by omega)

/-- A position on a row further down has a greater line number, if the row numbers fit a word. -/
theorem line_lt {row' : Nat} {position' : Position} (h : source.OnRow row position)
    (h' : source.OnRow row' position') (hlt : row < row')
    (hbound : lineEnds source.chars + 1 < UInt64.size) : position.line < position'.line := by
  rw [UInt64.lt_iff_toNat_lt, h.toNat_line hbound, h'.toNat_line hbound]
  exact hlt

end Source.OnRow

/-! ### Pieces of text -/

/-- A `lexeme` has line ends exactly if it is a newline, and never ends between a carriage return
and a line feed. -/
theorem lineEnds_lexeme (c : Char) (tail : List Char) :
    ((lexeme c tail).kind = .newline ↔ 0 < lineEnds (lexeme c tail).chars) ∧
      ((lexeme c tail).chars.getLast? = some '\r' →
        (tail.drop ((lexeme c tail).chars.length - 1)).head? ≠ some '\n') := by
  cases hc : isNewline c with
  | true =>
      rw [lexeme_of_isNewline hc]
      refine ⟨iff_of_true rfl (lineEnds_pos hc _), fun _ hfeed => ?_⟩
      have hstop := @head?_drop_takeWhile isNewline tail '\n' hfeed
      cases hstop
  | false =>
      have hline : ∀ d ∈ (lexeme c tail).chars, isNewline d = false :=
        fun d hd => isNewline_eq_false_of_mem_lexeme hc hd
      refine ⟨iff_of_false (kind_lexeme_ne_newline hc tail) ?_, fun hreturn => ?_⟩
      · rw [lineEnds_eq_zero hline]
        exact Nat.lt_irrefl 0
      · have habsurd := hline '\r' (List.mem_of_getLast? hreturn)
        cases habsurd

namespace Lexer

/-! ### Lexers behind a text -/

/-- The lexer stands behind the text `before` of a source, with its cursor moved over that text, and
not between a carriage return and a line feed. -/
structure Behind (source : Source) (before : List Char) (lexer : Lexer) : Prop where
  chars : source.chars = before ++ lexer.rest
  cursor : lexer.cursor = Cursor.start.advanceAll before
  uncut : before.getLast? = some '\r' → lexer.rest.head? ≠ some '\n'

variable {source : Source} {before : List Char} {lexer : Lexer}

/-- At the beginning of a source, a lexer is `Behind` nothing. -/
theorem behind_ofSource (source : Source) : (Lexer.ofSource source).Behind source [] :=
  ⟨rfl, rfl, by simp⟩

/-- The row on which a lexer stands. -/
theorem Behind.onRow_position (h : lexer.Behind source before) :
    source.OnRow (lineEnds before + 1) lexer.position := by
  refine ⟨before, ⟨lexer.rest, h.chars.symm⟩, ?_, rfl⟩
  rw [← Cursor.position_advanceAll_start, position, h.cursor]

/-- The row on which the token of `next` begins. -/
theorem Behind.onRow_start (h : lexer.Behind source before) :
    source.OnRow (lineEnds before + 1) lexer.next.1.token.start := by
  rw [start_next]
  exact h.onRow_position

/-- A call of `next` takes a lexer behind another piece of text, and to another row exactly if its
token is a newline. -/
theorem Behind.next (h : lexer.Behind source before) :
    ∃ piece, lexer.next.2.Behind source (before ++ piece) ∧
      lineEnds (before ++ piece) = lineEnds before + lineEnds piece ∧
      (lexer.next.1.token.kind = .newline ↔ 0 < lineEnds piece) := by
  cases hrest : lexer.rest with
  | nil =>
      rw [next_nil hrest]
      refine ⟨[], ?_, ?_, ?_⟩
      · rw [List.append_nil]
        exact h
      · rw [List.append_nil]
        rfl
      · exact iff_of_false Kind.noConfusion (Nat.lt_irrefl 0)
  | cons c tail =>
      obtain ⟨hkind, huncut⟩ := lineEnds_lexeme c tail
      obtain ⟨more, hchars, -⟩ := exists_chars_lexeme c tail
      rw [next_cons hrest]
      refine ⟨(lexeme c tail).chars, ⟨?_, ?_, fun hreturn => huncut ?_⟩, lineEnds_append ?_, hkind⟩
      · rw [h.chars, hrest, ← lexeme_append c tail, List.append_assoc]
      · rw [h.cursor]
        exact List.foldl_append.symm
      · rw [hchars] at hreturn ⊢
        simpa using hreturn
      · have hhead := h.uncut
        rw [hrest] at hhead
        rw [hchars]
        exact hhead

/-- A failure of `next` is on the row on which the lexer stands, or below. -/
theorem Behind.exists_onRow_of_failure {token : Token} {failure : LexFailure} {next : Lexer}
    (h : lexer.Behind source before) (hnext : lexer.next = (⟨token, some failure⟩, next)) :
    ∃ row, source.OnRow row (Diagnostic.ofFailure next.position failure).position ∧
      lineEnds before < row := by
  cases failure with
  | malformed error =>
      obtain ⟨front, hfault, hposition⟩ := position_of_malformed h.cursor (by rw [hnext])
      obtain ⟨⟨rest, hrest⟩, hline⟩ := hfault.front_spec
      refine ⟨lineEnds (before ++ front) + 1, ⟨before ++ front, ⟨rest, ?_⟩, hposition, rfl⟩, ?_⟩
      · rw [List.append_assoc, hrest, h.chars]
      · have hle := lineEnds_le_append before front
        omega
  | unreadable reason =>
      obtain ⟨piece, hbehind, hends, -⟩ := h.next
      rw [hnext] at hbehind
      exact ⟨_, hbehind.onRow_position, by omega⟩

/-- All tokens of a `line` begin on the row on which the lexer stands. Behind a line that ends by a
newline is a row further down, and a failure is nowhere before the line. Induction along `line`. -/
theorem Behind.line {tokens : List Token} {ending : LineEnd} {last : Lexer}
    (h : lexer.Behind source before) (hline : lexer.line = (tokens, ending, last)) :
    ∃ after, last.Behind source after ∧
      (∀ token ∈ tokens, source.OnRow (lineEnds before + 1) token.start) ∧
      (ending = .newline → lineEnds before < lineEnds after) ∧
      ∀ diagnostic, ending = .failed diagnostic →
        ∃ row, source.OnRow row diagnostic.position ∧ lineEnds before < row := by
  fun_induction Lexer.line lexer generalizing before tokens ending last with
  | case1 lexer token failure next hnext =>
      cases hline
      obtain ⟨piece, hbehind, -⟩ := h.next
      rw [hnext] at hbehind
      refine ⟨_, hbehind, by simp, by simp, fun diagnostic heq => ?_⟩
      cases heq
      exact h.exists_onRow_of_failure hnext
  | case2 lexer token next hnext hended =>
      cases hline
      obtain ⟨piece, hbehind, -⟩ := h.next
      have hstart := h.onRow_start
      rw [hnext] at hbehind hstart
      exact ⟨_, hbehind, List.forall_mem_singleton.mpr hstart, by simp, by simp⟩
  | case3 lexer token next hnext hended hnewline =>
      cases hline
      obtain ⟨piece, hbehind, hends, hkind⟩ := h.next
      have hstart := h.onRow_start
      rw [hnext] at hbehind hstart hkind
      refine ⟨_, hbehind, List.forall_mem_singleton.mpr hstart, fun _ => ?_, by simp⟩
      have hpos := hkind.mp hnewline
      omega
  | case4 lexer token next hnext hended hnewline tokens ending last hrec ih =>
      cases hline
      obtain ⟨piece, hbehind, hends, hkind⟩ := h.next
      have hstart := h.onRow_start
      rw [hnext] at hbehind hstart hkind
      -- A token within the line leads to no other row, so the rest of the line is on this one, too.
      have hsame : lineEnds (before ++ piece) = lineEnds before := by
        have hzero := mt hkind.mpr hnewline
        omega
      obtain ⟨after, hafter, htokens, hlast, hfailed⟩ := ih hbehind hrec
      rw [hsame] at htokens hlast hfailed
      exact ⟨after, hafter, List.forall_mem_cons.mpr ⟨hstart, htokens⟩, hlast, hfailed⟩

end Lexer

end MovAsm

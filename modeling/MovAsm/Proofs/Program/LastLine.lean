import MovAsm.Proofs.Program.Concatenation
import MovAsm.Proofs.Program.Conservation
import MovAsm.Proofs.Text.Utf8

/-!
# The End of the Last Line

The last line of a text need not end with an end of line. This module compares a text with the same
text and a line feed behind it. A lexer that comes to the end of the first finds the line feed in
the second, and so do all pieces of text that go up to the end. Where the first text breaks off, the
last call before the end may notice it, and in the second the call behind it does.

The tokens of the last line are then the same, but that it ends with an end of line and not with
the end of the text. That is seen in one place only. A complaint about the number of tokens of a
line counts an end of line among them, and so it is larger by one.

## Main results

* `Lexer.line_terminated`: the lines of a text and of the same text with a line feed behind it.
* `Line.instruction_count`: which lines the number of tokens matters to.
* `Reader.drain_closes`: both texts are read alike.
* `terminator_optional`: a source is read and compiled alike with and without a line feed behind it.
-/

namespace MovAsm

/-! ### A line feed behind a text -/

/-- The diagnostics are equal, or both are `unreadable` with the same reason. -/
def Diagnostic.Alike (diagnostic other : Diagnostic) : Prop :=
  other = diagnostic ∨ ∃ reason, diagnostic.cause = .lexical (.unreadable reason) ∧
    other.cause = .lexical (.unreadable reason)

namespace Lexer

variable {lexer : Lexer} {c : Char} {tail : List Char}

/-- The lexer with a line feed behind its text. -/
def terminated (lexer : Lexer) : Lexer :=
  lexer.extend ⟨['\n'], lexer.failure⟩

/-- There is nothing left of the text, and it does not break off. -/
def AtEnd (lexer : Lexer) : Prop :=
  lexer.rest = [] ∧ lexer.failure = none

/-- The second lexer is the first one `terminated`, or both are `AtEnd`. -/
def Closes (lexer other : Lexer) : Prop :=
  other = lexer.terminated ∨ lexer.AtEnd ∧ other.AtEnd

/-- At the end of its text, a `terminated` lexer answers a newline. -/
theorem next_terminated_of_nil (hrest : lexer.rest = []) :
    ∃ token, token.kind = .newline ∧ lexer.terminated.next =
      (⟨token, lexer.failure.map .unreadable⟩, lexer.terminated.skipNewlines) ∧
      lexer.terminated.skipNewlines.rest = [] := by
  have hother : lexer.terminated.rest = '\n' :: [] := by
    rw [terminated, extend, hrest]
    rfl
  have hlast : lexer.terminated.skipNewlines.rest = [] := by
    rw [skipNewlines, hother]
    rfl
  obtain ⟨token, hkind, hnext⟩ := next_of_isNewline hother (by decide)
  rw [if_pos hlast] at hnext
  exact ⟨token, hkind, hnext, hlast⟩

/-- In front of newlines, both lexers answer a newline. If the text does not break off behind them,
the second lexer `Closes` the first again. -/
theorem next_terminated_of_newline (hrest : lexer.rest = c :: tail) (hc : isNewline c = true) :
    ∃ token token' failure, token.kind = .newline ∧ token'.kind = .newline ∧
      lexer.next = (⟨token, failure⟩, lexer.skipNewlines) ∧
      lexer.terminated.next = (⟨token', failure⟩, lexer.terminated.skipNewlines) ∧
      (failure = none ∧ lexer.skipNewlines.Closes lexer.terminated.skipNewlines ∨
        ∃ reason, failure = some (.unreadable reason)) := by
  have hother : lexer.terminated.rest = c :: (tail ++ ['\n']) := by
    rw [terminated, extend, hrest]
    rfl
  have hskip : lexer.terminated.skipNewlines = lexer.skipNewlines.terminated.skipNewlines :=
    skipNewlines_extend lexer ⟨['\n'], lexer.failure⟩
  obtain ⟨token, hkind, hnext⟩ := next_of_isNewline hrest hc
  obtain ⟨token', hkind', hnext'⟩ := next_of_isNewline hother hc
  by_cases hnil : lexer.skipNewlines.rest = []
  · obtain ⟨-, -, -, hnil'⟩ := next_terminated_of_nil hnil
    rw [← hskip] at hnil'
    rw [if_pos hnil] at hnext
    rw [if_pos hnil'] at hnext'
    refine ⟨token, token', _, hkind, hkind', hnext, hnext', ?_⟩
    cases hfailure : lexer.failure with
    | none => exact .inl ⟨rfl, .inr ⟨⟨hnil, hfailure⟩, hnil', hfailure⟩⟩
    | some reason => exact .inr ⟨reason, rfl⟩
  · -- Something else comes behind the line endings, and the line feed behind that.
    have hstop : ∀ d ∈ lexer.skipNewlines.terminated.rest.head?, isNewline d = false := by
      intro d hd
      have hhead := List.head?_dropWhile_not isNewline lexer.rest
      obtain ⟨first, others, hcons⟩ := List.exists_cons_of_ne_nil hnil
      rw [show lexer.rest.dropWhile isNewline = first :: others from hcons] at hhead
      rw [terminated, extend, hcons] at hd
      cases hd
      simpa using hhead
    rw [skipNewlines_of_head hstop] at hskip
    have hnil' : lexer.terminated.skipNewlines.rest ≠ [] := by
      rw [hskip, terminated, extend]
      simp
    rw [if_neg hnil] at hnext
    rw [if_neg hnil'] at hnext'
    exact ⟨token, token', none, hkind, hkind', hnext, hnext', .inl ⟨rfl, .inl hskip⟩⟩

/-- In front of anything else, both lexers answer the same, except that the first may notice that
the text breaks off and the `terminated` one does not yet. -/
theorem next_terminated_of_line (hrest : lexer.rest = c :: tail) (hc : isNewline c = false) :
    lexer.terminated.next = (lexer.next.1, lexer.next.2.terminated) ∨
      ∃ reason, lexer.next = (⟨lexer.next.1.token, some (.unreadable reason)⟩, lexer.next.2) ∧
        lexer.next.2.rest = [] ∧ lexer.next.2.failure = some reason ∧
        lexer.terminated.next = (⟨lexer.next.1.token, none⟩, lexer.next.2.terminated) := by
  have hother : lexer.terminated.rest = c :: (tail ++ ['\n']) := by
    rw [terminated, extend, hrest]
    rfl
  have hpiece : lexeme c (tail ++ ['\n']) = lexeme c tail :=
    lexeme_congr hc (firstLine_append_cons (by decide) tail [])
  have hlength : (lexeme c tail).chars.length - 1 ≤ tail.length := by
    have hwhole := congrArg List.length (lexeme_append c tail)
    simp only [List.length_append, List.length_cons] at hwhole
    omega
  have hdrop : (tail ++ ['\n']).drop ((lexeme c tail).chars.length - 1) =
      tail.drop ((lexeme c tail).chars.length - 1) ++ ['\n'] :=
    List.drop_append_of_le_length hlength
  have hcursor : lexer.terminated.cursor = lexer.cursor := rfl
  rw [next_cons hrest, next_cons hother, hpiece, hdrop, hcursor]
  cases hfault : (lexeme c tail).failure? lexer.cursor with
  | some failure => exact .inl rfl
  | none =>
      by_cases hlast : tail.drop ((lexeme c tail).chars.length - 1) = [] ∧
          (lexeme c tail).kind ≠ .comma
      · cases hfailure : lexer.failure with
        | none => exact .inl (by simp [terminated, extend, hfailure, position])
        | some reason =>
            refine .inr ⟨reason, ?_, hlast.1, rfl, ?_⟩
            · rw [if_pos hlast]
              rfl
            · simp [terminated, extend, hfailure, position]
      · rw [if_neg hlast]
        exact .inl (by simp [terminated, extend, position])

/-- The `line` of a lexer and that of the `terminated` one.

* `failed`: both fail with diagnostics that are `Alike`.
* `newline`: both end by a newline, after the same tokens.
* `last`: the first ends by `endOfFile`, the second by the line feed, and is `AtEnd` then. -/
inductive LineCloses : List Token × LineEnd × Lexer → List Token × LineEnd × Lexer → Prop
  | failed {tokens tokens' : List Token} {diagnostic other : Diagnostic} {last last' : Lexer}
      (halike : diagnostic.Alike other) :
      LineCloses (tokens, .failed diagnostic, last) (tokens', .failed other, last')
  | newline {tokens : List Token} {ending ending' : Token} {last last' : Lexer}
      (hending : ending.kind = .newline) (hending' : ending'.kind = .newline)
      (hlast : last.Closes last') :
      LineCloses (tokens ++ [ending], .newline, last) (tokens ++ [ending'], .newline, last')
  | last {tokens : List Token} {final ending : Token} {last last' : Lexer}
      (htokens : ∀ token ∈ tokens, token.kind ≠ .newline) (hfinal : final.kind = .endOfFile)
      (hending : ending.kind = .newline) (hlast : last'.AtEnd) :
      LineCloses (tokens ++ [final], .endOfFile, last) (tokens ++ [ending], .newline, last')

/-- Lines stay in the relation `LineCloses` with another token in front. -/
theorem LineCloses.cons {token : Token} {line line' : List Token × LineEnd × Lexer}
    (h : LineCloses line line') (htoken : token.kind ≠ .newline) :
    LineCloses (token :: line.1, line.2) (token :: line'.1, line'.2) := by
  cases h with
  | failed halike => exact .failed halike
  | @newline tokens _ _ _ _ hending hending' hlast =>
      exact @LineCloses.newline (token :: tokens) _ _ _ _ hending hending' hlast
  | @last tokens _ _ _ _ htokens hfinal hending hlast =>
      exact @LineCloses.last (token :: tokens) _ _ _ _
        (List.forall_mem_cons.mpr ⟨htoken, htokens⟩) hfinal hending hlast

/-- At the end of its text, the `line` of a lexer ends by `endOfFile` and that of the `terminated`
one by the line feed, unless the text breaks off. -/
theorem line_terminated_of_nil (hrest : lexer.rest = []) :
    (∃ final ending, final.kind = .endOfFile ∧ ending.kind = .newline ∧
      lexer.failure = none ∧ lexer.line = ([final], .endOfFile, lexer) ∧
      lexer.terminated.line = ([ending], .newline, lexer.terminated.skipNewlines) ∧
      lexer.terminated.skipNewlines.AtEnd) ∨
    ∃ reason position position' last', lexer.failure = some reason ∧
      lexer.line = ([], .failed ⟨position, .lexical (.unreadable reason)⟩, lexer) ∧
      lexer.terminated.line = ([], .failed ⟨position', .lexical (.unreadable reason)⟩, last') := by
  obtain ⟨ending, hending, hother, hlast⟩ := next_terminated_of_nil hrest
  have hnext := next_nil hrest
  cases hfailure : lexer.failure with
  | none =>
      rw [hfailure] at hother hnext
      refine .inl ⟨_, ending, rfl, hending, rfl, line_of_token hnext, ?_, hlast, hfailure⟩
      rw [line_of_token hother, if_neg (by simp [hending]), if_pos hending]
  | some reason =>
      rw [hfailure] at hother hnext
      exact .inr ⟨reason, _, _, _, rfl, line_of_failure hnext, line_of_failure hother⟩

/-- In front of newlines, both lines are just a newline. -/
theorem line_terminated_of_newline (hrest : lexer.rest = c :: tail) (hc : isNewline c = true) :
    LineCloses lexer.line lexer.terminated.line := by
  obtain ⟨ending, ending', failure, hending, hending', hnext, hother, hcases⟩ :=
    next_terminated_of_newline hrest hc
  rcases hcases with ⟨rfl, hlast⟩ | ⟨reason, rfl⟩
  · rw [line_of_token hnext, if_neg (by simp [hending]), if_pos hending,
      line_of_token hother, if_neg (by simp [hending']), if_pos hending']
    exact @LineCloses.newline [] ending ending' _ _ hending hending' hlast
  · rw [line_of_failure hnext, line_of_failure hother]
    exact .failed (.inr ⟨reason, rfl, rfl⟩)

/-- The `line` of a lexer and that of the `terminated` one are in the relation `LineCloses`.
Induction along `line`. -/
theorem line_terminated (lexer : Lexer) : LineCloses lexer.line lexer.terminated.line := by
  cases hrest : lexer.rest with
  | nil =>
      rcases line_terminated_of_nil hrest with
        ⟨final, ending, hfinal, hending, -, hline, hother, hlast⟩ |
        ⟨reason, position, position', last', -, hline, hother⟩
      · rw [hline, hother]
        exact @LineCloses.last [] final ending _ _ (by simp) hfinal hending hlast
      · rw [hline, hother]
        exact .failed (.inr ⟨reason, rfl, rfl⟩)
  | cons c tail =>
      cases hc : isNewline c with
      | true => exact line_terminated_of_newline hrest hc
      | false =>
          have hlt := rest_next_length_lt (show lexer.rest ≠ [] by simp [hrest])
          have hkind : lexer.next.1.token.kind ≠ .endOfFile := by
            rw [Ne, kind_next_eq_endOfFile_iff, hrest]
            simp
          have hnewline : lexer.next.1.token.kind ≠ .newline := by
            rw [next_cons hrest]
            exact kind_lexeme_ne_newline hc tail
          have ih := line_terminated lexer.next.2
          have hread := next_terminated_of_line hrest hc
          rcases hnext : lexer.next with ⟨⟨token, failure⟩, next⟩
          rw [hnext] at hkind hnewline ih hread
          rcases hread with hother | ⟨reason, hbreak, hnil, hfailure, hother⟩
          · cases failure with
            | some failure =>
                rw [line_of_failure hnext, line_of_failure hother]
                exact .failed (.inl rfl)
            | none =>
                rw [line_of_token hnext, if_neg hkind, if_neg hnewline, line_of_token hother,
                  if_neg hkind, if_neg hnewline]
                exact ih.cons hnewline
          · -- The first text breaks off here, and the second one behind its line feed.
            rcases line_terminated_of_nil hnil with
              ⟨-, -, -, -, hplain, -⟩ | ⟨found, -, position, last', hreason, -, hlast⟩
            · rw [hplain] at hfailure
              cases hfailure
            · rw [hreason] at hfailure
              cases hfailure
              rw [line_of_failure (hnext.trans hbreak), line_of_token hother, if_neg hkind,
                if_neg hnewline, hlast]
              exact .failed (.inr ⟨reason, rfl, rfl⟩)
termination_by lexer.rest.length

end Lexer

/-! ### The last line -/

/-- The significant tokens behind the last newline of the text. -/
def Lexer.openLine (lexer : Lexer) : List Token :=
  Line.nontrivial (lexer.tokens.rtakeWhile fun token => token.kind ≠ .newline)

/-- The significant tokens of the last line of a source, if it does not end by a newline. -/
def Source.openLine (source : Source) : List Token :=
  (Lexer.ofSource source).openLine

/-- The `openLine` of a text that is one line without a newline. -/
theorem Lexer.openLine_of_endOfFile {lexer last : Lexer} {tokens : List Token}
    (hclean : lexer.IsClean) (hline : lexer.line = (tokens, .endOfFile, last)) :
    lexer.openLine = Line.nontrivial tokens := by
  rcases hclean.line_cases with ⟨tokens', last', hline', hall, hnone⟩ |
    ⟨tokens', newline, last', hline', -⟩
  · rw [hline] at hline'
    cases hline'
    rw [openLine, hall, List.rtakeWhile_eq_self_iff.mpr]
    simpa using hnone
  · rw [hline] at hline'
    cases hline'

/-- The `openLine` is behind every line that ends by a newline. -/
theorem Lexer.openLine_of_newline {lexer last : Lexer} {tokens : List Token}
    (hclean : lexer.IsClean) (hline : lexer.line = (tokens, .newline, last)) :
    lexer.openLine = last.openLine := by
  rcases hclean.line_cases with ⟨tokens', last', hline', -⟩ |
    ⟨tokens', newline, last', hline', hnewline, -, hall, -⟩
  · rw [hline] at hline'
    cases hline'
  · rw [hline] at hline'
    cases hline'
    rw [openLine, hall, openLine, List.rtakeWhile, List.reverse_append, List.reverse_cons,
      List.append_assoc, List.singleton_append, takeWhile_append_cons (by simp [hnewline])]
    rfl

namespace Line

/-- The end of file is not among the `nontrivial` tokens. -/
theorem nontrivial_append_endOfFile {tokens : List Token} {final : Token}
    (hfinal : final.kind = .endOfFile) : nontrivial (tokens ++ [final]) = nontrivial tokens := by
  simp [nontrivial, hfinal, Kind.isTrivial]

/-- The `significant` tokens of a line that ends by the end of file. -/
theorem significant_append_endOfFile {tokens : List Token} {final : Token}
    (htokens : ∀ token ∈ tokens, token.kind ≠ .newline) (hfinal : final.kind = .endOfFile) :
    significant (tokens ++ [final]) = nontrivial tokens := by
  rw [significant_of_forall_ne, nontrivial_append_endOfFile hfinal]
  intro token hmem
  rcases List.mem_append.mp hmem with hmem | hmem
  · exact htokens token hmem
  · rw [List.mem_singleton.mp hmem, hfinal]
    simp

/-- The diagnostics about the number of tokens of a line: one with `count`, if no instruction has as
many tokens as the line. -/
def miscount (line : List Token) (count : Nat) : List Diagnostic :=
  match line with
  | [] | [_] | [_, _] | [_, _, _, _] => []
  | first :: _ => [complain first (.expressionLength count)]

/-- Whether there is a `miscount` does not depend on the number that it gives. -/
theorem miscount_eq_nil_iff {line : List Token} {count other : Nat} :
    miscount line other = [] ↔ miscount line count = [] := by
  match line with
  | [] | [_] | [_, _] | [_, _, _, _] => exact Iff.rfl
  | [_, _, _] | _ :: _ :: _ :: _ :: _ :: _ => simp [miscount]

/-- The number of tokens that `Line.instruction` is given matters only if there is a `miscount`, and
then that is its answer. -/
theorem instruction_count (afterOthers : Bool) (first : Token) (others : List Token) :
    (∀ count other, miscount (first :: others) count = [] ∧
      Line.instruction afterOthers count first others =
        Line.instruction afterOthers other first others) ∨
    ∀ count, miscount (first :: others) count = [complain first (.expressionLength count)] ∧
      Line.instruction afterOthers count first others =
        .error (complain first (.expressionLength count)) := by
  match others with
  | [] | [_] | [_, _, _] => exact .inl fun _ _ => ⟨rfl, rfl⟩
  | [_, _] | _ :: _ :: _ :: _ :: _ => exact .inr fun _ => ⟨rfl, rfl⟩

end Line

namespace Reader

variable {reader other : Reader} {tokens tokens' : List Token}

/-- Lines with the same `significant` tokens are accepted alike, if as many tokens are
`nontrivial`. -/
theorem accept_congr (hsignificant : Line.significant tokens' = Line.significant tokens)
    (hlength : (Line.nontrivial tokens').length = (Line.nontrivial tokens).length) :
    reader.accept tokens' = reader.accept tokens := by
  rw [accept, accept, hsignificant, hlength]

/-- What is read of a text, and of the same text with a line feed behind it. The instructions and
lines are equal, and the `fatal` diagnostics are `Alike`. If the reading was not ended early, the
diagnostics may differ in the `miscount` of the last line. -/
structure ReadAlike (openLine : List Token) (read reread : Reader × Option Diagnostic) : Prop where
  instructions : reread.1.instructions = read.1.instructions
  lines : reread.1.lines = read.1.lines
  fatal : Option.Rel Diagnostic.Alike read.2 reread.2
  stopped : read.2 ≠ none → reread.1.diagnostics = read.1.diagnostics
  ended : read.2 = none → ∃ before,
    read.1.diagnostics = before ++ Line.miscount openLine openLine.length ∧
      reread.1.diagnostics = before ++ Line.miscount openLine (openLine.length + 1)

/-- The last line is accepted with the end of file and with a newline. -/
theorem readAlike_accept {final ending : Token}
    (hinstructions : other.instructions = reader.instructions)
    (hdiagnostics : other.diagnostics = reader.diagnostics) (hlines : other.lines = reader.lines)
    (htokens : ∀ token ∈ tokens, token.kind ≠ .newline) (hfinal : final.kind = .endOfFile)
    (hending : ending.kind = .newline) :
    ReadAlike (Line.nontrivial tokens) (reader.accept (tokens ++ [final]))
      (other.accept (tokens ++ [ending])) := by
  have hsame := @Line.nontrivial_append_endOfFile tokens final hfinal
  have hread := Line.significant_append_endOfFile htokens hfinal
  have hreread := @Line.significant_append_newline tokens ending hending
  have hcount : (Line.nontrivial (tokens ++ [ending])).length =
      (Line.nontrivial tokens).length + 1 := by
    rw [Line.nontrivial_append_newline hending, List.length_append, List.length_singleton]
  generalize Line.nontrivial tokens = line at hsame hread hreread hcount ⊢
  cases line with
  | nil =>
      rw [accept_of_nil hread, accept_of_nil hreread]
      exact ⟨hinstructions, hlines, .none, fun _ => hdiagnostics,
        fun _ => ⟨reader.diagnostics, by simp [Line.miscount, hdiagnostics]⟩⟩
  | cons first others =>
      rcases Line.instruction_count (!reader.instructions.isEmpty) first others with hany | hwrong
      · -- The count does not matter, so the answer is the same.
        have hnone (count : Nat) : Line.miscount (first :: others) count = [] := (hany count 0).1
        cases hanswer : Line.instruction (!reader.instructions.isEmpty) 0 first others with
        | ok instruction =>
            rw [accept_of_ok hread ((hany _ 0).2.trans hanswer), accept_of_ok hreread
              (by rw [hinstructions]; exact (hany _ 0).2.trans hanswer)]
            exact ⟨by rw [hinstructions], by rw [hlines], .none, fun _ => hdiagnostics,
              fun _ => ⟨reader.diagnostics, by simp [hnone, hdiagnostics]⟩⟩
        | error diagnostic =>
            rw [accept_of_error hread ((hany _ 0).2.trans hanswer), accept_of_error hreread
              (by rw [hinstructions]; exact (hany _ 0).2.trans hanswer)]
            split
            · exact ⟨hinstructions, by rw [hlines], .some (.inl rfl), fun _ => hdiagnostics,
                by simp⟩
            · exact ⟨hinstructions, by rw [hlines], .none, by simp,
                fun _ => ⟨reader.diagnostics ++ [diagnostic], by simp [hnone, hdiagnostics]⟩⟩
      · rw [accept_of_error hread (hwrong _).2, accept_of_error hreread
            (by rw [hinstructions]; exact (hwrong _).2),
          if_neg (by simp [Line.complain]), if_neg (by simp [Line.complain]), hsame, hcount]
        refine ⟨hinstructions, by rw [hlines], .none, by simp, fun _ => ⟨reader.diagnostics, ?_⟩⟩
        rw [(hwrong _).1, (hwrong _).1, hdiagnostics]
        exact ⟨rfl, rfl⟩

/-- The last line matters to `ReadAlike` only if it is reached. -/
theorem ReadAlike.congr {line line' : List Token} {read reread : Reader × Option Diagnostic}
    (h : ReadAlike line read reread) (hline : read.2 = none → line' = line) :
    ReadAlike line' read reread where
  instructions := h.instructions
  lines := h.lines
  fatal := h.fatal
  stopped := h.stopped
  ended hnone := by
    rw [hline hnone]
    exact h.ended hnone

/-- A `drain` is one `step` if that ends the reading. -/
theorem drain_eq_step (h : reader.step.1.done = true) : reader.drain = reader.step := by
  rcases hstep : reader.step with ⟨next, _ | diagnostic⟩
  · rw [hstep] at h
    rw [drain_of_step_eq_none hstep, drain_of_done h]
  · exact drain_of_step_eq_some hstep

/-- A `drain` reads nothing from a text that is `AtEnd`. -/
theorem drain_of_atEnd (hdone : reader.done = false) (hend : reader.lexer.AtEnd) :
    reader.drain = ({ reader with done := true }, none) := by
  rw [drain_of_step_eq_none (step_of_nil hdone hend.1 hend.2), drain_of_done rfl]

/-- The `drain` of the last line is `ReadAlike` with and without a line feed. -/
theorem drain_closes_of_last {final ending : Token} {last last' : Lexer}
    (hdone : reader.done = false)
    (hline : reader.lexer.line = (tokens ++ [final], .endOfFile, last))
    (hline' : reader.lexer.terminated.line = (tokens ++ [ending], .newline, last'))
    (htokens : ∀ token ∈ tokens, token.kind ≠ .newline) (hfinal : final.kind = .endOfFile)
    (hending : ending.kind = .newline) (hlast : last'.AtEnd) :
    ReadAlike reader.lexer.openLine reader.drain
      { reader with lexer := reader.lexer.terminated }.drain := by
  have hstep := step_of_endOfFile hdone hline
  have hother : { reader with lexer := reader.lexer.terminated }.step =
      { reader with lexer := last' }.accept (tokens ++ [ending]) := step_of_newline hdone hline'
  have hended : reader.step.1.done = true := by
    rw [hstep]
    exact done_accept _ _ rfl
  have hopen : reader.lexer.openLine = Line.nontrivial tokens := by
    rw [Lexer.openLine_of_endOfFile ((Lexer.isClean_of_line hline).1 rfl).1 hline,
      Line.nontrivial_append_endOfFile hfinal]
  have hread : ReadAlike (Line.nontrivial tokens)
      ({ reader with lexer := last, done := true }.accept (tokens ++ [final]))
      ({ reader with lexer := last' }.accept (tokens ++ [ending])) :=
    readAlike_accept rfl rfl rfl htokens hfinal hending
  have hlexer := lexer_accept { reader with lexer := last' } (tokens ++ [ending])
  have hcases := accept_done_cases { reader with lexer := last' } (tokens ++ [ending])
  rw [hopen, drain_eq_step hended, hstep]
  rw [← hother] at hread hlexer hcases
  rcases hcases with ⟨hnone, hgoes⟩ | ⟨-, -, -, hstopped⟩
  · -- Behind the end of line, there is the end of the text.
    rcases hnext : { reader with lexer := reader.lexer.terminated }.step with ⟨next, fatal⟩
    rw [hnext] at hread hlexer hnone hgoes
    obtain rfl : fatal = none := hnone
    rw [drain_of_step_eq_none hnext, drain_of_atEnd (hgoes.trans hdone) (hlexer ▸ hlast)]
    exact ⟨hread.instructions, hread.lines, hread.fatal, hread.stopped, hread.ended⟩
  · rw [drain_eq_step hstopped]
    exact hread

/-- A `step` over the same tokens and any newline does the same. -/
theorem step_closes_of_newline {ending ending' : Token} {lexer last last' : Lexer}
    (hdone : reader.done = false)
    (hline : reader.lexer.line = (tokens ++ [ending], .newline, last))
    (hline' : lexer.line = (tokens ++ [ending'], .newline, last'))
    (hending : ending.kind = .newline) (hending' : ending'.kind = .newline) :
    { reader with lexer := lexer }.step =
      ({ reader.step.1 with lexer := last' }, reader.step.2) := by
  have hother : { reader with lexer := lexer }.step =
      { reader with lexer := last' }.accept (tokens ++ [ending']) := step_of_newline hdone hline'
  have hsame : { reader with lexer := last' }.accept (tokens ++ [ending']) =
      { reader with lexer := last' }.accept (tokens ++ [ending]) := by
    refine accept_congr ?_ ?_
    · rw [Line.significant_append_newline hending, Line.significant_append_newline hending']
    · rw [Line.nontrivial_append_newline hending, Line.nontrivial_append_newline hending']
      simp
  rw [hother, hsame, step_of_newline hdone hline]
  exact accept_withLexer { reader with lexer := last } last' (tokens ++ [ending])

/-- The `drain` of a reader and that of the same reader with a lexer that `Closes` its own are
`ReadAlike`. Induction along `drain`. -/
theorem drain_closes (reader : Reader) (hdone : reader.done = false) {lexer : Lexer}
    (hlexer : reader.lexer.Closes lexer) :
    ReadAlike reader.lexer.openLine reader.drain { reader with lexer := lexer }.drain := by
  rcases hlexer with rfl | ⟨hend, hend'⟩
  · have hlines := reader.lexer.line_terminated
    rcases hline : reader.lexer.line with ⟨tokens, ending, last⟩
    rcases hline' : reader.lexer.terminated.line with ⟨tokens', ending', last'⟩
    rw [hline, hline'] at hlines
    cases hlines with
    | failed halike =>
        have hstep : { reader with lexer := reader.lexer.terminated }.step = _ :=
          step_of_failed hdone hline'
        rw [drain_of_step_eq_some (step_of_failed hdone hline), drain_of_step_eq_some hstep]
        exact ⟨rfl, rfl, .some halike, fun _ => rfl, by simp⟩
    | last htokens hfinal hending hlast =>
        exact drain_closes_of_last hdone hline hline' htokens hfinal hending hlast
    | newline hending hending' hlast =>
        have hother := step_closes_of_newline hdone hline hline' hending hending'
        have hgoes := done_step hdone (by rw [hline]; simp)
        have hnext : reader.step.1.lexer = last := by
          rw [step_of_newline hdone hline]
          exact lexer_accept _ _
        rcases hstep : reader.step with ⟨next, _ | diagnostic⟩
        · rw [hstep] at hother hgoes hnext
          obtain rfl : next.lexer = last := hnext
          have hlt := reader.lexer.line_rest_length_lt hline
          rw [drain_of_step_eq_none hstep, drain_of_step_eq_none hother]
          refine (drain_closes next (hgoes rfl) hlast).congr fun hnone => ?_
          have hclean := (isClean_of_drain (hgoes rfl) hnone).1
          exact Lexer.openLine_of_newline ((Lexer.isClean_of_line hline).2 rfl hclean) hline
        · rw [hstep] at hother
          rw [drain_of_step_eq_some hstep, drain_of_step_eq_some hother]
          exact ⟨rfl, rfl, .some (.inl rfl), fun _ => rfl, by simp⟩
  · have hdrain : { reader with lexer := lexer }.drain = _ := drain_of_atEnd hdone hend'
    have hopen : reader.lexer.openLine = [] := by
      obtain ⟨hrest, hfailure⟩ := hend
      have hnext := Lexer.next_nil hrest
      rw [hfailure] at hnext
      have hline := Lexer.line_of_token hnext
      rw [Lexer.openLine_of_endOfFile ((Lexer.isClean_of_line hline).1 rfl).1 hline]
      rfl
    rw [drain_of_atEnd hdone hend, hdrain, hopen]
    exact ⟨rfl, rfl, .none, fun _ => rfl, fun _ => ⟨reader.diagnostics, by simp [Line.miscount]⟩⟩
termination_by reader.lexer.rest.length

/-- There are complaints about both texts or about none. -/
theorem ReadAlike.complaints_eq_nil_iff {line : List Token}
    {read reread : Reader × Option Diagnostic} (h : ReadAlike line read reread) :
    reread.1.complaints reread.2 = [] ↔ read.1.complaints read.2 = [] := by
  obtain ⟨first, fatal⟩ := read
  obtain ⟨second, fatal'⟩ := reread
  obtain ⟨-, -, hfatal, -, hended⟩ := h
  cases hfatal with
  | some halike => simp [complaints]
  | none =>
      obtain ⟨before, hfirst, hsecond⟩ := hended rfl
      have hcount := @Line.miscount_eq_nil_iff line line.length (line.length + 1)
      dsimp only at hfirst hsecond
      simp [complaints, hfirst, hsecond, hcount]

end Reader

/-! ### Sources with a line feed behind them -/

/-- A `Source.Stop` that is `unreadable` gives the reason of the source, at its `ending`. -/
theorem Source.Stop.of_unreadable {source : Source} {diagnostic : Diagnostic} {reason : String}
    (h : source.Stop diagnostic) (hcause : diagnostic.cause = .lexical (.unreadable reason)) :
    source.failure = some reason ∧
      diagnostic = ⟨source.ending, .lexical (.unreadable reason)⟩ := by
  cases h with
  | unreadable hreason =>
      cases hcause
      exact ⟨hreason, rfl⟩
  | malformed | loneSigil | lateStart => cases hcause

/-- Diagnostics that are `Alike` and stop two sources are equal, or each is the reason for which its
source breaks off. -/
theorem Source.Stop.eq_or_unreadable {source other : Source} {fatal fatal' : Option Diagnostic}
    (h : Option.Rel Diagnostic.Alike fatal fatal')
    (hstop : ∀ diagnostic, fatal = some diagnostic → source.Stop diagnostic)
    (hstop' : ∀ diagnostic, fatal' = some diagnostic → other.Stop diagnostic) :
    fatal' = fatal ∨ ∃ reason, source.failure = some reason ∧
      fatal = some ⟨source.ending, .lexical (.unreadable reason)⟩ ∧
      fatal' = some ⟨other.ending, .lexical (.unreadable reason)⟩ := by
  cases h with
  | none => exact .inl rfl
  | some halike =>
      rcases halike with rfl | ⟨reason, hcause, hcause'⟩
      · exact .inl rfl
      · obtain ⟨hfailure, hfirst⟩ := (hstop _ rfl).of_unreadable hcause
        obtain ⟨-, hsecond⟩ := (hstop' _ rfl).of_unreadable hcause'
        exact .inr ⟨reason, hfailure, congrArg some hfirst, congrArg some hsecond⟩

/-- What `compile` makes of a source depends on its complaints, instructions and lines only. -/
theorem Assembler.compile_congr (assembler : Assembler) {source other : Source}
    (hcomplaints : other.complaints = source.complaints) (hprogram : other.program = source.program)
    (hlines : (Reader.ofSource other).drain.1.lines = (Reader.ofSource source).drain.1.lines) :
    assembler.compile other = assembler.compile source := by
  rw [Source.complaints, Source.complaints] at hcomplaints
  rw [Source.program, Source.program] at hprogram
  rw [compile, compile]
  simp only [hcomplaints, hprogram, hlines]

/-- **The end of the last line is optional.** Read a source, and the same source with a line feed
behind its bytes. The instructions are the same, at the same places. The reading is ended early by
the same diagnostic. Only if the source breaks off, that may be the reason for it, which is reported
at the `ending` of either text. The diagnostics of lines are the same, except for the `miscount` of
a last line that does not end, which gives a number larger by one in the second. So there are
complaints about both or about none. Without complaints, and with the same ones, an assembler makes
the same of both: the image or the error of assembly, the origin, the labels and the log. Otherwise
it refuses both with their complaints and stays as it is. -/
theorem terminator_optional (bytes : List UInt8) (failure : Option String) :
    let source := Source.ofBytes bytes failure
    let ended := Source.ofBytes (bytes ++ [0x0A]) failure
    let read := (Reader.ofSource source).drain
    let reread := (Reader.ofSource ended).drain
    let line := source.openLine
    reread.1.instructions = read.1.instructions ∧
    (reread.2 = read.2 ∨ ∃ reason, failure = some reason ∧
      read.2 = some ⟨source.ending, .lexical (.unreadable reason)⟩ ∧
      reread.2 = some ⟨ended.ending, .lexical (.unreadable reason)⟩) ∧
    (read.2 ≠ none → reread.1.diagnostics = read.1.diagnostics) ∧
    (read.2 = none → ∃ before,
      read.1.diagnostics = before ++ Line.miscount line line.length ∧
        reread.1.diagnostics = before ++ Line.miscount line (line.length + 1)) ∧
    ∀ assembler : Assembler,
      (source.complaints = [] ∨ ended.complaints = source.complaints →
        assembler.compile ended = assembler.compile source) ∧
      (source.complaints ≠ [] →
        (assembler.compile source).1 = assembler ∧ (assembler.compile ended).1 = assembler ∧
        (assembler.compile source).2.1 = .rejected source.complaints ∧
        (assembler.compile ended).2.1 = .rejected ended.complaints) := by
  intro source ended read reread line
  have hended : ended = ⟨source.chars ++ ['\n'], failure⟩ := by
    simp only [ended, source, Source.ofBytes, Text.Utf8.decode_append_feed]
  have hreader : Reader.ofSource ended =
      { Reader.ofSource source with lexer := (Lexer.ofSource source).terminated } := by
    rw [hended]
    rfl
  have halike : Reader.ReadAlike line read reread := by
    have hdrain := (Reader.ofSource source).drain_closes rfl (.inl rfl)
    rw [show { Reader.ofSource source with lexer := (Reader.ofSource source).lexer.terminated } =
      Reader.ofSource ended from hreader.symm] at hdrain
    exact hdrain
  refine ⟨halike.instructions, ?_, halike.stopped, halike.ended, fun assembler => ⟨?_, ?_⟩⟩
  · have hstop := (@Reader.drain_spec (Reader.ofSource source) source rfl
      (Lexer.within_ofSource source)).1
    have hstop' := (@Reader.drain_spec (Reader.ofSource ended) ended rfl
      (Lexer.within_ofSource ended)).1
    exact Source.Stop.eq_or_unreadable halike.fatal hstop hstop'
  · intro hcases
    have hsame : ended.complaints = source.complaints := by
      rcases hcases with hnil | hsame
      · rw [hnil]
        exact halike.complaints_eq_nil_iff.mpr hnil
      · exact hsame
    exact assembler.compile_congr hsame halike.instructions halike.lines
  · intro hne
    have hne' : ended.complaints ≠ [] := mt halike.complaints_eq_nil_iff.mp hne
    exact ⟨Placement.state_compile_of_ne_nil assembler hne,
      Placement.state_compile_of_ne_nil assembler hne',
      Placement.compile_of_ne_nil assembler hne, Placement.compile_of_ne_nil assembler hne'⟩

/-- A last line of three tokens that does not end: it is counted as four with a line feed behind
it. -/
theorem terminator_optional_counted :
    let bytes : List UInt8 := [0x48, 0x4C, 0x54, 0x0A, 0x4D, 0x4F, 0x56, 0x20, 0x41, 0x20, 0x42]
    let source := Source.ofBytes bytes none
    let ended := Source.ofBytes (bytes ++ [0x0A]) none
    source.chars = "HLT\nMOV A B".toList ∧ (Reader.ofSource source).drain.2 = none ∧
      ended.program = source.program ∧ source.program ≠ [] ∧
      ∃ before, (Reader.ofSource source).drain.1.diagnostics =
          before ++ [⟨⟨2, 0⟩, .line (.expressionLength 3)⟩] ∧
        (Reader.ofSource ended).drain.1.diagnostics =
          before ++ [⟨⟨2, 0⟩, .line (.expressionLength 4)⟩] := by
  intro bytes source ended
  obtain ⟨hprogram, -, -, hcount, -⟩ := terminator_optional bytes none
  have hnone : (Reader.ofSource source).drain.2 = none := by decide +kernel
  have hread : Line.miscount source.openLine source.openLine.length =
      [⟨⟨2, 0⟩, .line (.expressionLength 3)⟩] := by decide +kernel
  have hreread : Line.miscount source.openLine (source.openLine.length + 1) =
      [⟨⟨2, 0⟩, .line (.expressionLength 4)⟩] := by decide +kernel
  obtain ⟨before, hfirst, hsecond⟩ := hcount hnone
  rw [hread] at hfirst
  rw [hreread] at hsecond
  exact ⟨by decide +kernel, hnone, hprogram, by decide +kernel, before, hfirst, hsecond⟩

end MovAsm

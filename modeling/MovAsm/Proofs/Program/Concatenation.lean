import MovAsm.Proofs.Program.Correspondence
import MovAsm.Proofs.Token.Locality
import MovAsm.Proofs.Token.Places

/-!
# Texts One After the Other

Lines are read one by one, and what is read of a line depends on the lines before it in two ways
only: by the number of its line, and by the rule that an origin comes first. So the reading of two
texts, one after the other, is the reading of each, as long as the first one ends its last line.

There is more to it than lines, because ends of line come in runs. The run that ends the first text
goes on into the second one, if that begins with empty lines, and a reader of both takes these off
together. It makes no difference to a reader of the second text whether it begins before or behind
them.

## Main results

* `Reader.drain_skipNewlines`: empty lines in front of a text do not matter.
* `Lexer.line_extend`: a line is the same with another text behind it.
* `Reader.drain_extend`: the first text is read as if it were alone, and then the second one.
* `Lexer.simulation_shifted`: a text that stands further down is read alike.
* `Cursor.advanceAll_of_endsLine`: where the second text begins.
* `drain_concatenated`: what is read of two texts, one after the other.
-/

namespace MovAsm

/-! ### Texts that end their last line -/

/-- A text is empty or its last character is a line feed. -/
def EndsLine (text : List Char) : Prop :=
  ∀ c ∈ text.getLast?, c = '\n'

instance (text : List Char) : Decidable (EndsLine text) :=
  inferInstanceAs (Decidable (∀ c ∈ text.getLast?, c = '\n'))

/-- A suffix of a text that `EndsLine` also does. -/
theorem EndsLine.of_append {before rest : List Char} (h : EndsLine (before ++ rest)) :
    EndsLine rest := by
  intro c hc
  refine h c ?_
  rw [List.getLast?_append, Option.mem_def.mp hc]
  rfl

/-- A text that `EndsLine` and is not empty has a line feed last. -/
theorem EndsLine.exists_eq_append {text : List Char} (h : EndsLine text) (hne : text ≠ []) :
    ∃ before, text = before ++ ['\n'] := by
  refine ⟨text.dropLast, ?_⟩
  have hlast := h _ (List.getLast?_eq_some_getLast hne)
  rw [← hlast, List.dropLast_append_getLast]

/-- The source does not break off, or it has a character that is no newline. -/
def Source.ReachesLine (source : Source) : Prop :=
  source.failure = none ∨ ∃ c ∈ source.chars, isNewline c = false

/-! ### Empty lines in front -/

namespace Lexer

variable {lexer : Lexer} {c : Char} {tail : List Char}

/-- The lexer behind the newlines at its front. -/
def skipNewlines (lexer : Lexer) : Lexer :=
  { lexer with
    rest := lexer.rest.dropWhile isNewline
    cursor := lexer.cursor.advanceAll (lexer.rest.takeWhile isNewline) }

/-- In front of anything but a newline, `skipNewlines` does nothing. -/
theorem skipNewlines_of_head (h : ∀ c ∈ lexer.rest.head?, isNewline c = false) :
    lexer.skipNewlines = lexer := by
  obtain ⟨rest, failure, cursor⟩ := lexer
  cases rest with
  | nil => rfl
  | cons c tail =>
      have hc : isNewline c = false := h c rfl
      simp [skipNewlines, hc, Cursor.advanceAll]

/-- In front of a newline, `next` answers the whole run of them and goes on at `skipNewlines`. -/
theorem next_of_isNewline (hrest : lexer.rest = c :: tail) (hc : isNewline c = true) :
    ∃ token, token.kind = .newline ∧
      lexer.next = (⟨token, if lexer.skipNewlines.rest = [] then lexer.failure.map .unreadable
        else none⟩, lexer.skipNewlines) := by
  have hpiece := lexeme_of_isNewline hc tail
  have hdrop : tail.drop ((lexeme c tail).chars.length - 1) = tail.dropWhile isNewline := by
    have hwhole : (lexeme c tail).chars ++ tail.drop ((lexeme c tail).chars.length - 1) =
        (lexeme c tail).chars ++ tail.dropWhile isNewline := by
      rw [lexeme_append, hpiece, List.cons_append, List.takeWhile_append_dropWhile]
    exact List.append_cancel_left hwhole
  have hskip : lexer.skipNewlines =
      ⟨tail.dropWhile isNewline, lexer.failure, lexer.cursor.advanceAll (lexeme c tail).chars⟩ := by
    rw [skipNewlines, hrest, List.dropWhile_cons_of_pos hc, List.takeWhile_cons_of_pos hc, hpiece]
  have hkind : (lexeme c tail).kind = .newline := by rw [hpiece]
  have hfault : (lexeme c tail).failure? lexer.cursor = none := by
    rw [hpiece]
    rfl
  refine ⟨⟨.newline, (lexeme c tail).value, lexer.position⟩, rfl, ?_⟩
  rw [next_cons hrest, hdrop, hskip, hfault, hkind]
  by_cases hempty : tail.dropWhile isNewline = []
  · rw [if_pos ⟨hempty, by decide⟩, if_pos hempty]
    rfl
  · rw [if_neg fun hlast => hempty hlast.1, if_neg hempty]
    rfl

/-- The lexer with another source behind its text. -/
def extend (lexer : Lexer) (more : Source) : Lexer :=
  { lexer with rest := lexer.rest ++ more.chars, failure := more.failure }

/-- The newlines skipped after `extend` are those of the first text and, if it has nothing else,
those of the second. -/
theorem skipNewlines_extend (lexer : Lexer) (more : Source) :
    (lexer.extend more).skipNewlines = (lexer.skipNewlines.extend more).skipNewlines := by
  obtain ⟨rest, failure, cursor⟩ := lexer
  simp only [skipNewlines, extend]
  induction rest generalizing cursor with
  | nil => rfl
  | cons c tail ih =>
      cases hc : isNewline c with
      | true => simpa [hc, Cursor.advanceAll] using ih (cursor.advance c)
      | false => simp [hc, Cursor.advanceAll]

variable {more : Source}

/-- In front of anything but a newline, `next` answers the same after `extend`. -/
theorem next_extend_of_line (hrest : lexer.rest = c :: tail) (hc : isNewline c = false)
    (hends : EndsLine lexer.rest) (more : Source) :
    (lexer.extend more).next = (lexer.next.1, lexer.next.2.extend more) ∧
      lexer.next.2.rest ≠ [] := by
  have hother : (lexer.extend more).rest = c :: (tail ++ more.chars) := by
    rw [extend, hrest]
    rfl
  -- The line ends within the first text, so that the piece of text does, too.
  obtain ⟨before, hbefore⟩ := hends.exists_eq_append (by simp [hrest])
  have hfeed : '\n' ∈ c :: tail := by
    rw [← hrest, hbefore]
    simp
  have htail : '\n' ∈ tail := by
    rcases List.mem_cons.mp hfeed with rfl | htail
    · simp [isNewline] at hc
    · exact htail
  have hpiece : lexeme c (tail ++ more.chars) = lexeme c tail :=
    lexeme_congr hc (firstLine_append_right htail (by decide) more.chars)
  have hleft : '\n' ∈ tail.drop ((lexeme c tail).chars.length - 1) := by
    rw [← lexeme_append c tail] at hfeed
    rcases List.mem_append.mp hfeed with hmem | hmem
    · have hline := isNewline_eq_false_of_mem_lexeme hc hmem
      simp [isNewline] at hline
    · exact hmem
  have hne := List.ne_nil_of_mem hleft
  have hdrop : (tail ++ more.chars).drop ((lexeme c tail).chars.length - 1) =
      tail.drop ((lexeme c tail).chars.length - 1) ++ more.chars := by
    refine List.drop_append_of_le_length ?_
    by_contra hlt
    exact hne (List.drop_eq_nil_of_le (by omega))
  rw [next_cons hrest, next_cons hother, hpiece, hdrop]
  exact ⟨by simp [extend, hne, position], hne⟩

/-- In front of newlines, `next` goes on into the second text after `extend`. -/
theorem next_extend_of_newline (hrest : lexer.rest = c :: tail) (hc : isNewline c = true)
    (hfailure : lexer.failure = none) (hmore : more.ReachesLine) :
    ∃ token token', token.kind = .newline ∧ token'.kind = .newline ∧
      lexer.next = (⟨token, none⟩, lexer.skipNewlines) ∧
      (lexer.extend more).next =
        (⟨token', none⟩, (lexer.skipNewlines.extend more).skipNewlines) := by
  obtain ⟨token, hkind, hnext⟩ := next_of_isNewline hrest hc
  have hother : (lexer.extend more).rest = c :: (tail ++ more.chars) := by
    rw [extend, hrest]
    rfl
  obtain ⟨token', hkind', hnext'⟩ := next_of_isNewline hother hc
  refine ⟨token, token', hkind, hkind', ?_, ?_⟩
  · rw [hnext, hfailure]
    simp
  · rw [hnext', skipNewlines_extend]
    rcases hmore with hnone | ⟨d, hd, hline⟩
    · simp [extend, hnone]
    · have hleft : (lexer.skipNewlines.extend more).skipNewlines.rest ≠ [] := by
        rw [← skipNewlines_extend]
        intro hnil
        have hall := List.dropWhile_eq_nil_iff.mp hnil d (by simp [extend, hd])
        rw [hline] at hall
        cases hall
      rw [if_neg hleft]

/-- After `extend`, `next` answers a newline again and goes on into the second text, or it answers
the same. -/
theorem next_extend (hne : lexer.rest ≠ []) (hends : EndsLine lexer.rest)
    (hfailure : lexer.failure = none) (hmore : more.ReachesLine) :
    (∃ token token', token.kind = .newline ∧ token'.kind = .newline ∧
      lexer.next = (⟨token, none⟩, lexer.next.2) ∧
      (lexer.extend more).next = (⟨token', none⟩, (lexer.next.2.extend more).skipNewlines)) ∨
    (lexer.extend more).next = (lexer.next.1, lexer.next.2.extend more) ∧
      lexer.next.2.rest ≠ [] := by
  obtain ⟨c, tail, hrest⟩ := List.exists_cons_of_ne_nil hne
  cases hc : isNewline c with
  | true =>
      obtain ⟨token, token', hkind, hkind', hnext, hother⟩ :=
        next_extend_of_newline hrest hc hfailure hmore
      rw [hnext]
      exact .inl ⟨token, token', hkind, hkind', rfl, hother⟩
  | false => exact .inr (next_extend_of_line hrest hc hends more)

/-- The second lexer is the first after `extend`, possibly behind the newlines at its front. -/
def Extends (more : Source) (lexer other : Lexer) : Prop :=
  other = lexer.extend more ∨ other = (lexer.extend more).skipNewlines

/-- A `line` is the same after `extend`, and does not end by `endOfFile`. Induction along `line`. -/
theorem line_extend (hne : lexer.rest ≠ []) (hends : EndsLine lexer.rest)
    (hfailure : lexer.failure = none) (hmore : more.ReachesLine) :
    LinesMatch id (Extends more) lexer.line (lexer.extend more).line ∧
      lexer.line.2.1 ≠ .endOfFile := by
  fun_induction Lexer.line lexer with
  | case1 lexer token failure next hnext =>
      rcases next_extend hne hends hfailure hmore with ⟨token', _, -, -, hnone, -⟩ | ⟨hother, -⟩
      · rw [hnext] at hnone
        cases hnone
      · rw [hnext] at hother
        have hfailed : LinesMatch id (Extends more)
            ([], .failed (.ofFailure next.position failure), next)
            ([], .failed ((Diagnostic.ofFailure next.position failure).mapPosition id),
              next.extend more) := .failed (.inl rfl)
        rw [Diagnostic.mapPosition_id] at hfailed
        rw [line_of_failure hother]
        exact ⟨hfailed, by simp⟩
  | case2 lexer token next hnext hkind =>
      rcases next_extend hne hends hfailure hmore with ⟨token', _, hnewline, -, hread, -⟩ |
        ⟨-, hleft⟩
      · rw [hnext] at hread
        cases hread
        rw [hkind] at hnewline
        cases hnewline
      · exact absurd (rest_of_endOfFile (by rw [hnext]) (by rw [hnext]; exact hkind)) hleft
  | case3 lexer token next hnext hkind hnewline =>
      -- The token may be longer with the other text behind, but it ends the line just as well.
      have hline {token' : Token} {next' : Lexer} (hnewline' : token'.kind = .newline)
          (hother : (lexer.extend more).next = (⟨token', none⟩, next'))
          (hlast : Extends more next next') :
          LinesMatch id (Extends more) ([token], .newline, next) (lexer.extend more).line := by
        rw [line_of_token hother, if_neg (by simp [hnewline']), if_pos hnewline']
        exact @LinesMatch.newline id (Extends more) [] token token' next next' (by simp) hnewline
          hnewline' hlast
      rcases next_extend hne hends hfailure hmore with ⟨_, token', -, hnewline', -, hother⟩ |
        ⟨hother, -⟩
      · rw [hnext] at hother
        exact ⟨hline hnewline' hother (.inr rfl), by simp⟩
      · rw [hnext] at hother
        exact ⟨hline hnewline hother (.inl rfl), by simp⟩
  | case4 lexer token next hnext hkind hnewline tokens ending last hline ih =>
      rcases next_extend hne hends hfailure hmore with ⟨token', _, hnewline', -, hread, -⟩ |
        ⟨hother, hleft⟩
      · rw [hnext] at hread
        cases hread
        exact absurd hnewline' hnewline
      · obtain ⟨piece, hpiece, -, hsame, -⟩ := exists_piece_next lexer
        rw [hnext] at hother hleft hpiece hsame
        rw [hpiece] at hends
        obtain ⟨hlines, hending⟩ := ih hleft hends.of_append (hsame.trans hfailure)
        rw [hline] at hlines hending
        rw [line_of_token hother, if_neg hkind, if_neg hnewline]
        exact ⟨hlines.cons hnewline, hending⟩

end Lexer

/-! ### The first text -/

namespace Reader

variable {reader : Reader} {more source : Source}

/-- A `line` that `failed` ends the reading. -/
theorem step_of_failed {tokens : List Token} {diagnostic : Diagnostic} {last : Lexer}
    (hdone : reader.done = false) (hline : reader.lexer.line = (tokens, .failed diagnostic, last)) :
    reader.step = ({ reader with lexer := last, done := true }, some diagnostic) := by
  rw [step, if_neg (by simp [hdone]), hline]

/-- A `line` that ends by `endOfFile` is accepted, and the reading is done. -/
theorem step_of_endOfFile {tokens : List Token} {last : Lexer} (hdone : reader.done = false)
    (hline : reader.lexer.line = (tokens, .endOfFile, last)) :
    reader.step = { reader with lexer := last, done := true }.accept tokens := by
  rw [step, if_neg (by simp [hdone]), hline]

/-- A `line` that ends by `newline` is accepted. -/
theorem step_of_newline {tokens : List Token} {last : Lexer} (hdone : reader.done = false)
    (hline : reader.lexer.line = (tokens, .newline, last)) :
    reader.step = { reader with lexer := last }.accept tokens := by
  rw [step, if_neg (by simp [hdone]), hline]

/-- At the end of the text, a `step` only ends the reading. -/
theorem step_of_nil (hdone : reader.done = false) (hrest : reader.lexer.rest = [])
    (hfailure : reader.lexer.failure = none) :
    reader.step = ({ reader with done := true }, none) := by
  have hnext := Lexer.next_nil hrest
  rw [hfailure] at hnext
  rw [step_of_endOfFile hdone (Lexer.line_of_token hnext)]
  exact accept_of_nil rfl

/-- Newlines in front of a text do not matter to `drain`. -/
theorem drain_skipNewlines (hdone : reader.done = false) :
    { reader with lexer := reader.lexer.skipNewlines }.drain = reader.drain := by
  by_cases hhead : ∀ c ∈ reader.lexer.rest.head?, isNewline c = false
  · rw [Lexer.skipNewlines_of_head hhead]
  · obtain ⟨c, hc, hnewline⟩ : ∃ c ∈ reader.lexer.rest.head?, isNewline c = true := by
      simpa using hhead
    obtain ⟨tail, hrest⟩ := List.head?_eq_some_iff.mp (Option.mem_def.mp hc)
    obtain ⟨token, hkind, hnext⟩ := Lexer.next_of_isNewline hrest hnewline
    have hgo (hplain : reader.lexer.next = (⟨token, none⟩, reader.lexer.skipNewlines)) :
        { reader with lexer := reader.lexer.skipNewlines }.drain = reader.drain := by
      have hsays : Line.significant ([] ++ [token]) = [] := Line.significant_append_newline hkind
      have hstep : reader.step = ({ reader with lexer := reader.lexer.skipNewlines }, none) := by
        have hline := Lexer.line_of_token hplain
        rw [if_neg (by simp [hkind]), if_pos hkind] at hline
        rw [step_of_newline hdone hline]
        exact accept_of_nil hsays
      exact (drain_of_step_eq_none hstep).symm
    by_cases hempty : reader.lexer.skipNewlines.rest = []
    · rw [if_pos hempty] at hnext
      cases hfailure : reader.lexer.failure with
      | none =>
          rw [hfailure] at hnext
          exact hgo hnext
      | some reason =>
          -- The text breaks off here: the line endings tell the reason, or else the end does.
          rw [hfailure] at hnext
          have hend := Lexer.next_nil hempty
          rw [show reader.lexer.skipNewlines.failure = some reason from hfailure] at hend
          rw [drain_of_step_eq_some (step_of_failed hdone (Lexer.line_of_failure hnext))]
          exact drain_of_step_eq_some (step_of_failed hdone (Lexer.line_of_failure hend))
    · rw [if_neg hempty] at hnext
      exact hgo hnext

/-- A `step` keeps a reader `Within` its source. -/
theorem within_step (h : reader.lexer.Within source) : reader.step.1.lexer.Within source := by
  cases hdone : reader.done with
  | true =>
      rw [step_of_done hdone]
      exact h
  | false =>
      rcases step_of_not_done hdone with ⟨tokens, diagnostic, last, hline, hstep⟩ |
        ⟨tokens, last, hline, hstep⟩ | ⟨tokens, last, hline, hstep⟩
      · rw [hstep]
        exact (Lexer.line_spec h hline).1
      · rw [hstep, lexer_accept]
        exact (Lexer.line_spec h hline).1
      · rw [hstep, lexer_accept]
        exact (Lexer.line_spec h hline).1

/-- Reading is not done after a `step` without a diagnostic, unless its line ends by `endOfFile`. -/
theorem done_step (hdone : reader.done = false) (hending : reader.lexer.line.2.1 ≠ .endOfFile)
    (hnone : reader.step.2 = none) : reader.step.1.done = false := by
  rcases step_of_not_done hdone with ⟨tokens, diagnostic, last, hline, hstep⟩ |
    ⟨tokens, last, hline, hstep⟩ | ⟨tokens, last, hline, hstep⟩
  · rw [hstep] at hnone
    cases hnone
  · rw [hline] at hending
    exact absurd rfl hending
  · rw [hstep] at hnone ⊢
    rcases accept_done_cases { reader with lexer := last } tokens with
      ⟨-, hsame⟩ | ⟨diagnostic, hsome, -, -⟩
    · exact hsame.trans hdone
    · rw [hnone] at hsome
      cases hsome

/-- The reader with another source behind its text. -/
def extend (reader : Reader) (more : Source) : Reader :=
  { reader with lexer := reader.lexer.extend more }

/-- The reader going on with another lexer. -/
def resume (reader : Reader) (lexer : Lexer) : Reader :=
  { reader with lexer, done := false }

/-- A `step` does the same after `extend`, and the reading is not done unless a diagnostic ends
it. -/
theorem step_extend (hdone : reader.done = false) (hne : reader.lexer.rest ≠ [])
    (hends : EndsLine reader.lexer.rest) (hfailure : reader.lexer.failure = none)
    (hmore : more.ReachesLine) :
    (∃ lexer, Lexer.Extends more reader.step.1.lexer lexer ∧
      (reader.extend more).step = ({ reader.step.1 with lexer := lexer }, reader.step.2)) ∧
    (reader.step.2 = none → reader.step.1.done = false) := by
  obtain ⟨hlines, hending⟩ := Lexer.line_extend hne hends hfailure hmore
  refine ⟨?_, done_step hdone hending⟩
  have hhere : Tracks id (fun _ _ => True) { lexer := reader.lexer } reader (reader.extend more) :=
    ⟨trivial, rfl, by simp [extend], by simp [extend], by simp [extend]⟩
  obtain ⟨hnext, hfatal⟩ := hhere.step_of_line hdone hlines (.inl rfl)
  have hinstructions : (reader.extend more).step.1.instructions = reader.step.1.instructions := by
    simpa using hnext.instructions
  have hdiagnostics : (reader.extend more).step.1.diagnostics = reader.step.1.diagnostics := by
    simpa using hnext.diagnostics
  have hread : (reader.extend more).step.1.lines = reader.step.1.lines := by
    simpa using hnext.lines
  refine ⟨(reader.extend more).step.1.lexer, hnext.lexer, Prod.ext ?_ ?_⟩
  · dsimp only
    rw [← hinstructions, ← hdiagnostics, ← hnext.done, ← hread]
  · simpa using hfatal

/-- After `extend`, the first text is read as if it were alone. If a diagnostic ends the reading of
it, that is all; else the second text is read next, by the same reader. Induction along `drain`. -/
theorem drain_extend (hdone : reader.done = false) (hwithin : reader.lexer.Within source)
    (hends : EndsLine source.chars) (hfailure : source.failure = none) (hmore : more.ReachesLine) :
    (∀ diagnostic, reader.drain.2 = some diagnostic →
      (reader.extend more).drain.2 = some diagnostic ∧
      (reader.extend more).drain.1.instructions = reader.drain.1.instructions ∧
      (reader.extend more).drain.1.diagnostics = reader.drain.1.diagnostics) ∧
    (reader.drain.2 = none → (reader.extend more).drain =
      (reader.drain.1.resume ⟨more.chars, more.failure,
        Cursor.start.advanceAll source.chars⟩).drain) := by
  fun_induction Reader.drain reader with
  | case1 reader hended =>
      rw [hdone] at hended
      cases hended
  | case2 reader hended next diagnostic hstep =>
      obtain ⟨before, hchars, hcursor, hsame⟩ := hwithin
      have hplain := hsame.trans hfailure
      rw [hchars] at hends
      have hne : reader.lexer.rest ≠ [] := by
        intro hnil
        rw [step_of_nil hdone hnil hplain] at hstep
        cases hstep
      obtain ⟨⟨lexer, -, hother⟩, -⟩ := step_extend hdone hne hends.of_append hplain hmore
      rw [hstep] at hother
      rw [drain_of_step_eq_some hother]
      refine ⟨?_, by simp⟩
      rintro _ ⟨⟩
      exact ⟨rfl, rfl, rfl⟩
  | case3 reader hended next hstep ih =>
      have hnext := within_step hwithin
      rw [hstep] at hnext
      obtain ⟨before, hchars, hcursor, hsame⟩ := hwithin
      have hplain := hsame.trans hfailure
      by_cases hnil : reader.lexer.rest = []
      · rw [step_of_nil hdone hnil hplain] at hstep
        cases hstep
        rw [drain_of_done rfl]
        refine ⟨by simp, fun _ => ?_⟩
        rw [hnil, List.append_nil] at hchars
        rw [hchars, ← hcursor]
        simp only [extend, resume, Lexer.extend, hnil, List.nil_append, hdone]
      · rw [hchars] at hends
        obtain ⟨⟨lexer, hlexer, hother⟩, hgo⟩ := step_extend hdone hnil hends.of_append hplain hmore
        rw [hstep] at hlexer hother hgo
        have hlast : next.done = false := hgo rfl
        have hsame : (reader.extend more).drain = (next.extend more).drain := by
          rw [drain_of_step_eq_none hother]
          rcases hlexer with rfl | rfl
          · rfl
          · exact @drain_skipNewlines (next.extend more) hlast
        rw [hsame]
        rw [← hchars] at hends
        exact ih hlast hnext

end Reader

/-! ### The second text -/

/-- The position that many lines further down. -/
def Position.shift (lines : Nat) (position : Position) : Position :=
  ⟨position.line + UInt64.ofNat lines, position.column⟩

/-- The cursor that many lines further down. -/
def Cursor.shift (lines : Nat) (cursor : Cursor) : Cursor :=
  { cursor with position := cursor.position.shift lines }

/-- Advancing a cursor commutes with `shift`. -/
theorem Cursor.advance_shift (lines : Nat) (cursor : Cursor) (c : Char) :
    (cursor.shift lines).advance c = (cursor.advance c).shift lines := by
  obtain ⟨⟨line, column⟩, afterReturn⟩ := cursor
  have hadd : line + UInt64.ofNat lines + 1 = line + 1 + UInt64.ofNat lines := by
    rw [UInt64.add_assoc, UInt64.add_comm (UInt64.ofNat lines), ← UInt64.add_assoc]
  by_cases hfeed : c = '\n'
  · cases afterReturn <;> simp [advance, shift, Position.shift, hfeed, hadd]
  · by_cases hreturn : c = '\r'
    · simp [advance, shift, Position.shift, hreturn, hadd]
    · simp [advance, shift, Position.shift, hfeed, hreturn]

/-- Advancing a cursor over characters commutes with `shift`. -/
theorem Cursor.advanceAll_shift (lines : Nat) (cursor : Cursor) (chars : List Char) :
    (cursor.shift lines).advanceAll chars = (cursor.advanceAll chars).shift lines := by
  induction chars generalizing cursor with
  | nil => rfl
  | cons c chars ih =>
      have hnext := ih (cursor.advance c)
      rw [← advance_shift] at hnext
      exact hnext

/-- The fault of a lexeme at a cursor after `shift` is its fault at the cursor, further down. -/
theorem failure?_shift (lines : Nat) (piece : Lexeme) (cursor : Cursor) :
    piece.failure? (cursor.shift lines) =
      (piece.failure? cursor).map (LexFailure.mapPosition (Position.shift lines)) := by
  rw [Lexeme.failure?, Lexeme.failure?, Option.map_map]
  refine Option.map_congr fun entry _ => ?_
  obtain ⟨fault, offset, offender⟩ := entry
  simp only [Function.comp, Cursor.advanceAll_shift]
  rfl

/-- The lexer with the same text, that many lines further down. -/
def Lexer.shift (lines : Nat) (lexer : Lexer) : Lexer :=
  { lexer with cursor := lexer.cursor.shift lines }

/-- A call of `Lexer.next` commutes with `shift`. -/
theorem Lexer.next_shift (lines : Nat) (lexer : Lexer) :
    (lexer.shift lines).next =
      (⟨lexer.next.1.token.mapPosition (Position.shift lines),
        lexer.next.1.failure.map (LexFailure.mapPosition (Position.shift lines))⟩,
      lexer.next.2.shift lines) := by
  have hreason : (lexer.failure.map LexFailure.unreadable).map
      (LexFailure.mapPosition (Position.shift lines)) = lexer.failure.map .unreadable := by
    cases lexer.failure <;> rfl
  cases hrest : lexer.rest with
  | nil =>
      have hother : (lexer.shift lines).rest = [] := hrest
      rw [next_nil hrest, next_nil hother, hreason]
      rfl
  | cons c tail =>
      have hother : (lexer.shift lines).rest = c :: tail := hrest
      have hcursor : (lexer.shift lines).cursor = lexer.cursor.shift lines := rfl
      rw [next_cons hrest, next_cons hother, hcursor, failure?_shift, Cursor.advanceAll_shift]
      cases hfault : (lexeme c tail).failure? lexer.cursor with
      | some failure => rfl
      | none =>
          by_cases hlast : tail.drop ((lexeme c tail).chars.length - 1) = [] ∧
              (lexeme c tail).kind ≠ .comma
          · rw [if_pos hlast, if_pos hlast]
            exact Prod.ext (congrArg (Reading.mk _) hreason.symm) rfl
          · rw [if_neg hlast, if_neg hlast]
            rfl

/-- A lexer and its `shift` are in a `Simulation`. -/
theorem Lexer.simulation_shifted (lines : Nat) :
    Simulation (Position.shift lines) (fun lexer other => other = lexer.shift lines) where
  position h := by
    rw [h]
    rfl
  token h := by
    rw [h, next_shift]
    exact .inl rfl
  failure h := by
    rw [h, next_shift]
  next h := by
    rw [h, next_shift]

/-- A text that `EndsLine` takes the cursor to the beginning of the line behind it. -/
theorem Cursor.advanceAll_of_endsLine {text : List Char} (h : EndsLine text) :
    Cursor.start.advanceAll text = Cursor.start.shift (lineEnds text) := by
  cases hrest : text with
  | nil => rfl
  | cons c tail =>
      rw [← hrest]
      obtain ⟨before, hbefore⟩ := h.exists_eq_append (by simp [hrest])
      have hlast : Cursor.start.advanceAll text =
          (Cursor.start.advanceAll before).advance '\n' := by
        rw [hbefore, advanceAll, List.foldl_append]
        rfl
      have hline := @Cursor.line_advanceAll text Cursor.start (by simp [start])
      have hcolumn : (Cursor.start.advanceAll text).position.column = 0 := by
        rw [hlast]
        cases hafter : (Cursor.start.advanceAll before).afterReturn with
        | true =>
            have hzero := column_of_afterReturn before (fun _ => rfl) hafter
            simp [advance, hafter, hzero]
        | false => simp [advance, hafter]
      have hafter : (Cursor.start.advanceAll text).afterReturn = false := by
        rw [hlast]
        simp [advance]
      generalize Cursor.start.advanceAll text = last at hline hcolumn hafter
      obtain ⟨⟨line, column⟩, afterReturn⟩ := last
      obtain rfl : line = _ := hline
      obtain rfl : column = 0 := hcolumn
      obtain rfl : afterReturn = false := hafter
      rfl

/-- A reader that goes on with another source further down reads what `drain` finds in that source
alone, unless an origin comes too late. -/
theorem Reader.drain_resume {base : Reader} {source : Source} (lines : Nat)
    (hbase : base.Tolerates (Reader.ofSource source).drain.1) :
    Tracks (Position.shift lines) (fun lexer other => other = lexer.shift lines) base
        (Reader.ofSource source).drain.1
        (base.resume ((Lexer.ofSource source).shift lines)).drain.1 ∧
      (base.resume ((Lexer.ofSource source).shift lines)).drain.2 =
        (Reader.ofSource source).drain.2.map (Diagnostic.mapPosition (Position.shift lines)) := by
  have hstart : Tracks (Position.shift lines) (fun lexer other => other = lexer.shift lines) base
      (Reader.ofSource source) (base.resume ((Lexer.ofSource source).shift lines)) :=
    ⟨rfl, rfl, by simp [resume, ofSource], by simp [resume, ofSource], by simp [resume, ofSource]⟩
  exact hstart.drain (Lexer.simulation_shifted lines) hbase

/-- **Two texts, one after the other.** The first is a text that `EndsLine`. The second is any text,
or even a source that breaks off if it `ReachesLine`. Read both at once. If the reading of the first
ends with a diagnostic, nothing else comes of both. If it does not, and if there is no instruction
in the first or no line that `BeginsOrigin` is read in the second, then the instructions and
diagnostics of both are those of the first and then those of the second, as many lines further down
as the first has `lineEnds`, and the reading ends with the diagnostic of the second, so much further
down, or with none. In particular, a second text that fails in its first line leaves all that comes
of the first as it is. -/
theorem drain_concatenated (first : List Char) (hends : EndsLine first) (second : Source)
    (hsecond : second.ReachesLine) :
    let alone := (Reader.ofSource ⟨first, none⟩).drain
    let other := (Reader.ofSource second).drain
    let both := (Reader.ofSource ⟨first ++ second.chars, second.failure⟩).drain
    let further := Position.shift (lineEnds first)
    (∀ diagnostic, alone.2 = some diagnostic →
      both.1.instructions = alone.1.instructions ∧ both.1.diagnostics = alone.1.diagnostics ∧
        both.2 = some diagnostic) ∧
    (alone.2 = none →
      (alone.1.instructions = [] ∨ ∀ line ∈ other.1.lines, ¬Line.BeginsOrigin line) →
      both.1.instructions =
          alone.1.instructions ++ other.1.instructions.map (.mapPosition further) ∧
        both.1.diagnostics =
          alone.1.diagnostics ++ other.1.diagnostics.map (.mapPosition further) ∧
        both.2 = other.2.map (.mapPosition further)) ∧
    ∀ tokens diagnostic last, (Lexer.ofSource second).line = (tokens, .failed diagnostic, last) →
      alone.2 = none →
      both.1.instructions = alone.1.instructions ∧ both.1.diagnostics = alone.1.diagnostics ∧
        both.2 = some (diagnostic.mapPosition further) := by
  intro alone other both further
  obtain ⟨hstop, hgo⟩ := @Reader.drain_extend (Reader.ofSource ⟨first, none⟩) second ⟨first, none⟩
    rfl (Lexer.within_ofSource _) hends rfl hsecond
  have hboth : (Reader.ofSource ⟨first, none⟩).extend second =
      Reader.ofSource ⟨first ++ second.chars, second.failure⟩ := rfl
  have hlexer : (⟨second.chars, second.failure, Cursor.start.advanceAll first⟩ : Lexer) =
      (Lexer.ofSource second).shift (lineEnds first) := by
    rw [Cursor.advanceAll_of_endsLine hends]
    rfl
  rw [hboth] at hstop hgo
  refine ⟨?_, ?_, ?_⟩
  · intro diagnostic hfatal
    obtain ⟨hsame, hinstructions, hdiagnostics⟩ := hstop diagnostic hfatal
    exact ⟨hinstructions, hdiagnostics, hsame⟩
  · intro hnone hbase
    obtain ⟨hlast, hfatal⟩ := Reader.drain_resume (lineEnds first) hbase
    rw [← hlexer, ← hgo hnone] at hlast hfatal
    exact ⟨hlast.instructions, hlast.diagnostics, hfatal⟩
  · intro tokens diagnostic last hline hnone
    have hdrain := Reader.drain_of_step_eq_some
      (@Reader.step_of_failed (Reader.ofSource second) _ _ _ rfl hline)
    obtain ⟨hlast, hfatal⟩ := @Reader.drain_resume (Reader.ofSource ⟨first, none⟩).drain.1 second
      (lineEnds first) (.inr (by rw [hdrain]; simp [Reader.ofSource]))
    rw [← hlexer, ← hgo hnone, hdrain] at hlast hfatal
    exact ⟨hlast.instructions.trans (List.append_nil _),
      hlast.diagnostics.trans (List.append_nil _), hfatal⟩

/-- A text with two line ends, one of them of two characters, and behind it one that begins with an
empty line and ends with a lone sigil. -/
theorem drain_concatenated_two_lines :
    let first := "HLT\r\nMOV A\n".toList
    let second : Source := ⟨"\n NOP\n#".toList, none⟩
    let both := (Reader.ofSource ⟨first ++ second.chars, second.failure⟩).drain
    EndsLine first ∧ second.ReachesLine ∧ lineEnds first = 2 ∧
      both.1.instructions = [.noOperand ⟨1, 0⟩ .hlt, .noOperand ⟨4, 1⟩ .nop] ∧
      both.2 = some ⟨⟨5, 1⟩, .lexical (.malformed ⟨⟨5, 1⟩, .hexLength, 0⟩)⟩ := by
  intro first second both
  have hends : EndsLine first := by simp [EndsLine, first]
  have hsecond : second.ReachesLine := .inl rfl
  obtain ⟨-, hgo, -⟩ := drain_concatenated first hends second hsecond
  obtain ⟨hinstructions, -, hfatal⟩ := hgo (by decide +kernel) (.inr (by decide +kernel))
  refine ⟨hends, hsecond, by decide +kernel, hinstructions.trans ?_, hfatal.trans ?_⟩
  · decide +kernel
  · decide +kernel

-- What ends the first text is read together with what follows. If that breaks off before there is
-- anything to read, the last line is lost.
example : (Reader.ofSource ⟨"HLT\n".toList, some "gone"⟩).drain.1.instructions = [] := by
  decide +kernel

end MovAsm

import Mathlib.Data.Nat.Find
import MovAsm.Proofs.Program.Interruption

/-!
# Nothing Is Lost and Everything Ends

A lexer goes through its text from the front to the end. Each call takes a piece off the front, also
where it answers a failure, and the token shows that piece: as it stands, or with the digits of a
byte literal in upper case. So the tokens of all calls show the whole text, nothing of it twice and
nothing else. No piece is empty while there are characters left. Therefore the end comes after at
most as many calls as there are characters, and stays.

Whoever takes tokens up to the end or to a failure is done after one call more, and so is a reader,
which takes them line by line.

## Main results

* `Lexer.shows_next`: a call takes a piece of text that its token shows.
* `Lexer.shows_run`: the tokens of many calls show the text, piece by piece.
* `Lexer.all_eq_run`: how many tokens there are up to the end or the first failure.
* `Lexer.exists_run_line`, `Reader.exists_run_drain`: how many calls a line and a program take.
* `Reader.exists_serve_eq_drain`: how many lines a program takes.
* `text_conserved`: all of this for a source of bytes.
-/

namespace MovAsm

/-! ### Pieces of text and their tokens -/

/-- The value of the token is the text, with the digits of a byte literal in upper case. -/
def Token.Shows (token : Token) (piece : List Char) : Prop :=
  if token.kind = .hex ∨ token.kind = .address then
    ∃ sigil digits, piece = sigil :: digits ∧ (sigil = '#' ∨ sigil = '$') ∧
      (∀ c ∈ digits, Text.isHexit c = true) ∧
      token.value = String.ofList (sigil :: digits.map Char.toUpper)
  else token.value = String.ofList piece

/-- The token of a `hexLexeme` `Shows` its characters, whatever is wrong with it. -/
theorem shows_hexLexeme {kind : Kind} {sigil : Char} (tail : List Char) (start : Position)
    (hkind : kind = .hex ∨ kind = .address) (hsigil : sigil = '#' ∨ sigil = '$') :
    (Token.mk kind (hexLexeme kind sigil tail).value start).Shows
      (hexLexeme kind sigil tail).chars := by
  obtain ⟨-, -, hdigits, -⟩ := takeHexits_spec 2 tail
  rw [Token.Shows, if_pos hkind]
  refine ⟨sigil, (takeHexits 2 tail).1, rfl, hsigil, hdigits, ?_⟩
  have hupper : sigil.toUpper = sigil := by rcases hsigil with rfl | rfl <;> decide
  have hvalue : (hexLexeme kind sigil tail).value =
      String.ofList ((sigil :: (takeHexits 2 tail).1).map Char.toUpper) := by
    rcases hkind with rfl | rfl <;> rfl
  rw [hvalue, List.map_cons, hupper]

/-- The token of any `lexeme` `Shows` its characters. -/
theorem shows_lexeme (c : Char) (tail : List Char) (start : Position) :
    (Token.mk (lexeme c tail).kind (lexeme c tail).value start).Shows (lexeme c tail).chars := by
  have hrule := lexeme_rule c tail
  generalize lexeme c tail = piece at hrule ⊢
  cases hrule with
  | hex hc => exact shows_hexLexeme tail start (.inl rfl) (.inl hc)
  | address hc => exact shows_hexLexeme tail start (.inr rfl) (.inr hc)
  | word | comma | comment | location | operation | newline | whitespace | unknown => rfl

namespace Lexer

variable {lexer : Lexer} {source : Source}

/-- A call of `next` takes a piece off the front of the text, and its token `Shows` the piece. -/
theorem shows_next (lexer : Lexer) :
    ∃ piece, lexer.next.1.token.Shows piece ∧ lexer.rest = piece ++ lexer.next.2.rest := by
  cases hrest : lexer.rest with
  | nil =>
      rw [next_nil hrest]
      exact ⟨[], rfl, hrest.symm⟩
  | cons c tail =>
      rw [next_cons hrest]
      exact ⟨_, shows_lexeme c tail lexer.position, (lexeme_append c tail).symm⟩

/-- A call of `next` answers `endOfFile` exactly if there are no characters left. -/
theorem kind_next_eq_endOfFile_iff :
    lexer.next.1.token.kind = .endOfFile ↔ lexer.rest = [] := by
  cases hrest : lexer.rest with
  | nil =>
      rw [next_nil hrest]
      simp
  | cons c tail =>
      have hkind : (lexeme c tail).kind ≠ .endOfFile := by
        intro hend
        have hrule := lexeme_rule c tail
        generalize lexeme c tail = piece at hrule hend
        cases hrule <;> cases hend
      rw [next_cons hrest]
      simpa using hkind

/-- While there are characters left, `next` takes some. -/
theorem rest_next_length_lt (hrest : lexer.rest ≠ []) :
    lexer.next.2.rest.length < lexer.rest.length :=
  lexer.next_rest_length_lt (mt kind_next_eq_endOfFile_iff.mp hrest)

/-! ### Many calls -/

/-- The tokens of `run` show the text piece by piece, up to what is left. Induction on the number of
calls. -/
theorem shows_run (n : Nat) (lexer : Lexer) :
    ∃ pieces, List.Forall₂ Token.Shows ((run n lexer).1.map Reading.token) pieces ∧
      lexer.rest = pieces.flatten ++ (run n lexer).2.rest := by
  induction n generalizing lexer with
  | zero => exact ⟨[], .nil, rfl⟩
  | succ n ih =>
      obtain ⟨piece, hshows, hpiece⟩ := shows_next lexer
      obtain ⟨pieces, hpieces, hrest⟩ := ih lexer.next.2
      refine ⟨piece :: pieces, .cons hshows hpieces, ?_⟩
      rw [List.flatten_cons, List.append_assoc, hpiece, hrest]
      rfl

/-- A `run` of `n + m` calls is one of `n` calls and then one of `m`. -/
theorem run_add (n m : Nat) (lexer : Lexer) :
    (run (n + m) lexer).2 = (run m (run n lexer).2).2 := by
  induction m with
  | zero => rfl
  | succ m ih => rw [← Nat.add_assoc, run_succ, ih, run_succ]

/-- There is a first call that answers `endOfFile`, and all calls from then on do so at the same
place. -/
theorem Within.exists_run_endOfFile (h : lexer.Within source) :
    ∃ n ≤ lexer.rest.length, (∀ m < n, (Lexer.run m lexer).2.next.1.token.kind ≠ .endOfFile) ∧
      ∀ m ≥ n, (Lexer.run m lexer).2.next.1.token = ⟨.endOfFile, "", source.ending⟩ := by
  have hend : (Lexer.run lexer.rest.length lexer).2.rest = [] := by
    have hlength := rest_run_length lexer lexer.rest.length
    exact List.eq_nil_of_length_eq_zero (by omega)
  have hex : ∃ n, (Lexer.run n lexer).2.rest = [] := ⟨_, hend⟩
  refine ⟨Nat.find hex, Nat.find_min' hex hend, ?_, ?_⟩
  · intro m hlt hkind
    exact Nat.find_min hex hlt (kind_next_eq_endOfFile_iff.mp hkind)
  · intro m hle
    have hrest := rest_run_of_le hle (Nat.find_spec hex)
    rw [next_nil hrest, (h.run m).position_of_nil hrest]
    rfl

/-- The tokens of `all` are those of a `run` of at most one call more than there are characters. The
last of them is final, and no other is. -/
theorem all_eq_run (lexer : Lexer) :
    ∃ n ≤ lexer.rest.length + 1, lexer.all = run n lexer ∧
      ∃ before last, lexer.all.1 = before ++ [last] ∧ last.isFinal = true ∧
        ∀ reading ∈ before, reading.isFinal = false := by
  fun_induction Lexer.all lexer with
  | case1 lexer hfinal =>
      exact ⟨1, by omega, rfl, [], lexer.next.1, rfl, hfinal, by simp⟩
  | case2 lexer hfinal readings last hall ih =>
      rw [hall] at ih
      obtain ⟨n, hle, hrun, before, final, hsplit, hlast, hbefore⟩ := ih
      have hkind : lexer.next.1.token.kind ≠ .endOfFile := by
        intro hkind
        simp [Reading.isFinal, hkind] at hfinal
      have hlt := lexer.next_rest_length_lt hkind
      refine ⟨n + 1, by omega, ?_, lexer.next.1 :: before, final, ?_, hlast, ?_⟩
      · simp only [run, ← hrun]
      · exact congrArg (lexer.next.1 :: ·) hsplit
      · exact List.forall_mem_cons.mpr ⟨by simpa using hfinal, hbefore⟩

/-- A `line` is a `run`, and each call but the last takes some characters. Where the line ends by a
newline, the last one does so, too. Induction along `line`. -/
theorem exists_run_line (lexer : Lexer) :
    ∃ n, lexer.line.2.2 = (run n lexer).2 ∧
      n + lexer.line.2.2.rest.length ≤ lexer.rest.length + 1 ∧
      (lexer.line.2.1 = .newline → n + lexer.line.2.2.rest.length ≤ lexer.rest.length) := by
  have hle {lexer next : Lexer} {reading : Reading} (hnext : lexer.next = (reading, next)) :
      next.rest.length ≤ lexer.rest.length := by
    obtain ⟨piece, hpiece, -⟩ := exists_piece_next lexer
    rw [hpiece, hnext, List.length_append]
    exact Nat.le_add_left _ _
  have hlt {lexer next : Lexer} {reading : Reading} (hnext : lexer.next = (reading, next))
      (hkind : reading.token.kind ≠ .endOfFile) : next.rest.length < lexer.rest.length := by
    have hshorter := lexer.next_rest_length_lt (by rw [hnext]; exact hkind)
    rw [hnext] at hshorter
    exact hshorter
  fun_induction Lexer.line lexer with
  | case1 lexer token failure next hnext =>
      refine ⟨1, by rw [run_succ, run, hnext], ?_, by simp⟩
      have hshorter := hle hnext
      dsimp only
      omega
  | case2 lexer token next hnext hkind =>
      refine ⟨1, by rw [run_succ, run, hnext], ?_, by simp⟩
      have hshorter := hle hnext
      dsimp only
      omega
  | case3 lexer token next hnext hkind hnewline =>
      have hshorter := hlt hnext hkind
      refine ⟨1, by rw [run_succ, run, hnext], ?_, fun _ => ?_⟩ <;> dsimp only <;> omega
  | case4 lexer token next hnext hkind hnewline tokens ending last hline ih =>
      rw [hline] at ih
      obtain ⟨n, hrun, hcount, hended⟩ := ih
      have hshorter := hlt hnext hkind
      refine ⟨n + 1, ?_, by dsimp only at hcount ⊢; omega, fun heq => ?_⟩
      · rw [Nat.add_comm, run_add, run_succ, run, hnext]
        exact hrun
      · have hless := hended heq
        dsimp only at hless ⊢
        omega

end Lexer

/-! ### Readers -/

namespace Reader

variable {reader : Reader}

/-- A bound on the lines that are left to a reader: one for each character, and the end. -/
def remaining (reader : Reader) : Nat :=
  if reader.done then 0 else reader.lexer.rest.length + 1

/-- The `remaining` lines of a reader that is done. -/
theorem remaining_of_done (hdone : reader.done = true) : reader.remaining = 0 :=
  if_pos hdone

/-- The `remaining` lines of one that is not. -/
theorem remaining_of_not_done (hdone : reader.done = false) :
    reader.remaining = reader.lexer.rest.length + 1 :=
  if_neg (by simp [hdone])

/-- There are at most as many `remaining` lines as characters, and the end. -/
theorem remaining_le (reader : Reader) : reader.remaining ≤ reader.lexer.rest.length + 1 := by
  rw [remaining]
  split <;> omega

/-- A `step` of a reader that is not done leaves fewer `remaining` lines. -/
theorem remaining_step_lt (hdone : reader.done = false) :
    reader.step.1.remaining < reader.remaining := by
  rw [remaining_of_not_done hdone]
  rcases reader.step_progress hdone with hended | hshorter
  · rw [remaining_of_done hended]
    omega
  · have hle := reader.step.1.remaining_le
    omega

/-- A `drain` is to `serve` so many requests of a line. -/
theorem exists_serve_eq_drain (reader : Reader) :
    ∃ n ≤ reader.remaining,
      reader.serve (List.replicate n .line) = (reader.drain.1, reader.drain.2.toList) := by
  fun_induction Reader.drain reader with
  | case1 reader hdone => exact ⟨0, by omega, rfl⟩
  | case2 reader hdone next diagnostic hstep =>
      have hless := remaining_step_lt (Bool.eq_false_iff.mpr hdone)
      refine ⟨1, by omega, ?_⟩
      simp [serve, answer, hstep]
  | case3 reader hdone next hstep ih =>
      obtain ⟨n, hle, hserve⟩ := ih
      have hless := remaining_step_lt (Bool.eq_false_iff.mpr hdone)
      rw [hstep] at hless
      refine ⟨n + 1, by dsimp only at hless; omega, ?_⟩
      simp [List.replicate_succ, serve, answer, hstep, hserve]

/-- The lexer after a `step` is that of a `run`. -/
theorem exists_run_step (hdone : reader.done = false) :
    ∃ n, reader.step.1.lexer = (Lexer.run n reader.lexer).2 ∧
      n + reader.step.1.remaining ≤ reader.remaining := by
  obtain ⟨n, hrun, hcount, hended⟩ := reader.lexer.exists_run_line
  rw [remaining_of_not_done hdone]
  rcases step_of_not_done hdone with ⟨tokens, diagnostic, last, hline, hstep⟩ |
    ⟨tokens, last, hline, hstep⟩ | ⟨tokens, last, hline, hstep⟩
  · rw [hline] at hrun hcount
    rw [hstep, remaining_of_done rfl]
    exact ⟨n, hrun, by omega⟩
  · rw [hline] at hrun hcount
    rw [hstep, lexer_accept, remaining_of_done (done_accept _ tokens rfl)]
    exact ⟨n, hrun, by omega⟩
  · -- The text goes on behind the line, and the last call took some characters, too.
    rw [hline] at hrun hended
    have hless := hended rfl
    have hle := ({ reader with lexer := last }.accept tokens).1.remaining_le
    rw [lexer_accept] at hle
    rw [hstep, lexer_accept]
    exact ⟨n, hrun, by dsimp only at hless hle; omega⟩

/-- The lexer after `drain` is that of a `run`. -/
theorem exists_run_drain (reader : Reader) :
    ∃ n ≤ reader.remaining, reader.drain.1.lexer = (Lexer.run n reader.lexer).2 := by
  fun_induction Reader.drain reader with
  | case1 reader hdone => exact ⟨0, by omega, rfl⟩
  | case2 reader hdone next diagnostic hstep =>
      obtain ⟨n, hrun, hcount⟩ := exists_run_step (Bool.eq_false_iff.mpr hdone)
      rw [hstep] at hrun
      exact ⟨n, by omega, hrun⟩
  | case3 reader hdone next hstep ih =>
      obtain ⟨n, hrun, hcount⟩ := exists_run_step (Bool.eq_false_iff.mpr hdone)
      obtain ⟨m, hle, hlast⟩ := ih
      rw [hstep] at hrun hcount
      refine ⟨n + m, by dsimp only at hcount; omega, ?_⟩
      rw [hlast, hrun, Lexer.run_add]

end Reader

/-- **Nothing is lost and everything ends.** Take the source that any bytes hold, whether or not it
breaks off behind them, and call its lexer again and again, past every failure. The tokens show the
text piece by piece up to what is left, and each call takes some characters while there are any.
After as many calls as there are characters at the latest, and not before the end of the text, calls
answer `endOfFile`, empty and always at the same place. `Lexer.all` takes at most one call more than
there are characters. `Reader.drain` takes no more calls, and no more lines, and ends the
reading. -/
theorem text_conserved (bytes : List UInt8) (failure : Option String) :
    let source := Source.ofBytes bytes failure
    let lexer := Lexer.ofSource source
    let reader := Reader.ofSource source
    (∀ n, ∃ pieces,
      List.Forall₂ Token.Shows ((Lexer.run n lexer).1.map Reading.token) pieces ∧
      Text.Utf8.decode bytes = pieces.flatten ++ (Lexer.run n lexer).2.rest) ∧
    (∀ n, (Lexer.run n lexer).2.rest ≠ [] →
      (Lexer.run (n + 1) lexer).2.rest.length < (Lexer.run n lexer).2.rest.length) ∧
    (∃ n ≤ (Text.Utf8.decode bytes).length,
      (Lexer.run n lexer).2.rest = [] ∧
      (∀ m < n, (Lexer.run m lexer).2.next.1.token.kind ≠ .endOfFile) ∧
      ∀ m ≥ n, (Lexer.run m lexer).2.next.1.token = ⟨.endOfFile, "", source.ending⟩) ∧
    (∃ n ≤ (Text.Utf8.decode bytes).length + 1, lexer.all = Lexer.run n lexer ∧
      ∃ before last, lexer.all.1 = before ++ [last] ∧ last.isFinal = true ∧
        ∀ reading ∈ before, reading.isFinal = false) ∧
    reader.drain.1.done = true ∧
    (∃ n ≤ (Text.Utf8.decode bytes).length + 1,
      reader.serve (List.replicate n .line) = (reader.drain.1, reader.drain.2.toList)) ∧
    ∃ n ≤ (Text.Utf8.decode bytes).length + 1,
      reader.drain.1.lexer = (Lexer.run n lexer).2 := by
  intro source lexer reader
  refine ⟨fun n => Lexer.shows_run n lexer, fun n hrest => ?_, ?_, lexer.all_eq_run,
    reader.done_drain, reader.exists_serve_eq_drain, reader.exists_run_drain⟩
  · rw [Lexer.run_succ]
    exact Lexer.rest_next_length_lt hrest
  · obtain ⟨n, hle, hbefore, hafter⟩ := (Lexer.within_ofSource source).exists_run_endOfFile
    refine ⟨n, hle, ?_, hbefore, hafter⟩
    rw [← Lexer.kind_next_eq_endOfFile_iff, hafter n (Nat.le_refl n)]

-- A literal that is too long, one without digits and a character that begins no token: three
-- failures, and the pieces are all there.
example :
    ((Lexer.run 6 (Lexer.ofSource ⟨"#abc$!,".toList, none⟩)).1.map fun reading =>
      (reading.token.value, reading.failure.isSome)) =
      [("#AB", true), ("c", false), ("$", true), ("!", true), (",", false), ("", false)] := by
  decide +kernel

end MovAsm

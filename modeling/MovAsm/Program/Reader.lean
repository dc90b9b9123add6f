import MovAsm.Program.Line

/-!
# Reading Programs

A reader turns a text into instructions, one line at a time. It collects the diagnostics of lines
that make no instruction and goes on with the next line. Only three things end its work early: a
malformed token, a text that cannot be read, and a `START` after another instruction.

## Main definitions

* `Lexer.line` — the tokens up to the next end of line;
* `Reader.step` — reads one line;
* `Reader.drain` — reads all lines that are left.
-/

namespace MovAsm

/-- How the tokens of a line end: with an end of line, with the end of the text, or with a failure,
in which case the tokens before it are of no use. -/
inductive LineEnd where
  | newline
  | endOfFile
  | failed (diagnostic : Diagnostic)
  deriving DecidableEq, Repr

/-- The diagnostic of a `LexFailure` after which the lexer stands at the position `after`. -/
def Diagnostic.ofFailure (after : Position) (failure : LexFailure) : Diagnostic :=
  match failure with
  | .malformed error => ⟨error.position, .lexical failure⟩
  | .unreadable _ => ⟨after, .lexical failure⟩

/-- Takes tokens up to and including the next end of line or the end of the text, or up to a
failure. -/
def Lexer.line (lexer : Lexer) : List Token × LineEnd × Lexer :=
  match _h : lexer.next with
  | (⟨_, some failure⟩, next) => ([], .failed (.ofFailure next.position failure), next)
  | (⟨token, none⟩, next) =>
    if _hk : token.kind = .endOfFile then ([token], .endOfFile, next)
    else if token.kind = .newline then ([token], .newline, next)
    else
      let (tokens, ending, last) := next.line
      (token :: tokens, ending, last)
termination_by lexer.rest.length
decreasing_by
  have := lexer.next_rest_length_lt (by simp_all)
  simp_all

/-- The rest of the text gets shorter when `Lexer.line` ends with an end of line. -/
theorem Lexer.line_rest_length_lt (lexer : Lexer) {tokens : List Token} {last : Lexer}
    (h : lexer.line = (tokens, .newline, last)) : last.rest.length < lexer.rest.length := by
  fun_induction Lexer.line lexer generalizing tokens last with
  | case1 => simp at h
  | case2 => simp at h
  | case3 lexer token next heq hk hn =>
    have := lexer.next_rest_length_lt (by simp_all)
    simp_all
  | case4 lexer token next heq hk hn tokens' ending last' hrec ih =>
    have := lexer.next_rest_length_lt (by simp_all)
    simp_all
    omega

/-- A program that is being read: the rest of its text, the instructions so far, the diagnostics of
lines that made none, whether reading is `done`, and the significant tokens of every line so far
that has any. -/
structure Reader where
  lexer : Lexer
  instructions : List Instruction := []
  diagnostics : List Diagnostic := []
  done : Bool := false
  lines : List (List Token) := []
  deriving DecidableEq, Repr

namespace Reader

/-- A reader at the beginning of a source. -/
def ofSource (source : Source) : Reader :=
  { lexer := .ofSource source }

/-- Reads the tokens of one line, by `Line.instruction`. A diagnostic is kept in the reader, unless
it is `startNotFirst`: this one ends the reading and is answered. -/
def accept (reader : Reader) (tokens : List Token) : Reader × Option Diagnostic :=
  match Line.significant tokens with
  | [] => (reader, none)
  | first :: others =>
    let length := (Line.nontrivial tokens).length
    let afterOthers := !reader.instructions.isEmpty
    let reader := { reader with lines := reader.lines ++ [first :: others] }
    match Line.instruction afterOthers length first others with
    | .ok instruction =>
      ({ reader with instructions := reader.instructions ++ [instruction] }, none)
    | .error diagnostic =>
      if diagnostic.cause = .line .startNotFirst then
        ({ reader with done := true }, some diagnostic)
      else ({ reader with diagnostics := reader.diagnostics ++ [diagnostic] }, none)

/-- Reads one line, by `Lexer.line` and `accept`. Answers a diagnostic if it ends the reading. -/
def step (reader : Reader) : Reader × Option Diagnostic :=
  if reader.done then (reader, none)
  else
    match reader.lexer.line with
    | (_, .failed diagnostic, lexer) => ({ reader with lexer, done := true }, some diagnostic)
    | (tokens, .endOfFile, lexer) => { reader with lexer, done := true }.accept tokens
    | (tokens, .newline, lexer) => { reader with lexer }.accept tokens

/-- The text is not touched by `accept`. -/
@[simp] theorem lexer_accept (reader : Reader) (tokens : List Token) :
    (reader.accept tokens).1.lexer = reader.lexer := by
  unfold accept
  split
  · rfl
  · dsimp only
    split
    · rfl
    · split <;> rfl

/-- Once reading is `done`, it stays so in `accept`. -/
theorem done_accept (reader : Reader) (tokens : List Token) (h : reader.done = true) :
    (reader.accept tokens).1.done = true := by
  unfold accept
  split
  · exact h
  · dsimp only
    split
    · exact h
    · split
      · rfl
      · exact h

/-- Every `step` ends the reading or takes something off the text, so `drain` terminates. -/
theorem step_progress (reader : Reader) (h : reader.done = false) :
    reader.step.1.done = true ∨
      reader.step.1.lexer.rest.length < reader.lexer.rest.length := by
  unfold step
  simp only [h, Bool.false_eq_true, if_false]
  rcases hline : reader.lexer.line with ⟨tokens, _ | _ | diagnostic, last⟩
  · exact .inr (by simpa using reader.lexer.line_rest_length_lt hline)
  · exact .inl (done_accept _ _ rfl)
  · exact .inl rfl

/-- Reads all lines that are left, by `step`. Answers the diagnostic that ended the reading
early. -/
def drain (reader : Reader) : Reader × Option Diagnostic :=
  if _h : reader.done then (reader, none)
  else
    match _hs : reader.step with
    | (next, some diagnostic) => (next, some diagnostic)
    | (next, none) => next.drain
termination_by if reader.done then 0 else reader.lexer.rest.length + 1
decreasing_by
  have hp := reader.step_progress (by simpa using _h)
  simp only [_hs] at hp
  rcases hp with hp | hp
  · simp [hp, _h]
  · by_cases hn : next.done <;> simp [hn, _h]
    omega

/-- All diagnostics of a program: those of its lines, and the one with which `drain` ended. -/
def complaints (reader : Reader) (fatal : Option Diagnostic) : List Diagnostic :=
  reader.diagnostics ++ fatal.toList

/-- Takes a token off the text without looking at it. -/
def skipToken (reader : Reader) : Reading × Reader :=
  let (reading, lexer) := reader.lexer.next
  (reading, { reader with lexer })

/-- The lines of a verbose log of the lines that were read, one for each. -/
def log (lines : List (List Token)) : List String :=
  lines.map fun tokens =>
    let line := (tokens.head?.map fun token => token.start.line.toNat).getD 0
    "parse: " ++ toString line ++ ": [" ++ " ".intercalate (tokens.map Token.text) ++ "]"

end Reader

end MovAsm

import MovAsm.Proofs.Program.Interleaving
import MovAsm.Proofs.Program.Interruption

/-!
# Texts That Are Read Alike

Two texts can be read step for step in the same way, although their characters or the places of
these differ: a text that stands further down in a file, or one with other ends of line. What is
read then differs in the places only, and those are found by one function on positions.

The comparison is made once, for any such function. It is enough to know of single tokens that they
correspond; that lines, steps and whole programs do so follows.

## Main definitions

* `Token.mapPosition`, `Instruction.mapPosition`, `Diagnostic.mapPosition` — a function applied to
  the positions;
* `Lexer.Simulation` — a relation between lexers whose tokens correspond;
* `Reader.Tracks` — a reader has what another has, at mapped positions and behind what a third has.

## Main results

* `Line.instruction_mapPosition`: the checks on a line do not depend on positions.
* `Line.instruction_of_not_origin`: only an origin depends on what was read before.
* `Lexer.Simulation.line`: corresponding tokens make corresponding lines.
* `Reader.Tracks.step_of_line`: corresponding lines are read alike.
* `Reader.Tracks.drain`: corresponding texts are read alike.
* `Reader.drain_of_simulation`: sources with the same tokens at the same positions are read alike.
-/

namespace MovAsm

/-! ### Other places -/

/-- The token with `f` applied to its position. -/
def Token.mapPosition (f : Position → Position) (token : Token) : Token :=
  { token with start := f token.start }

/-- The instruction with `f` applied to its position. -/
def Instruction.mapPosition (f : Position → Position) (instruction : Instruction) : Instruction :=
  instruction.relocate (f instruction.position)

/-- The failure with `f` applied to its position. The reason why a text breaks off has none. -/
def LexFailure.mapPosition (f : Position → Position) : LexFailure → LexFailure
  | .malformed error => .malformed { error with position := f error.position }
  | .unreadable reason => .unreadable reason

/-- The diagnostic with `f` applied to its position, and to that of the lexical error it may
hold. -/
def Diagnostic.mapPosition (f : Position → Position) (diagnostic : Diagnostic) : Diagnostic where
  position := f diagnostic.position
  cause :=
    match diagnostic.cause with
    | .lexical failure => .lexical (failure.mapPosition f)
    | .line fault => .line fault

variable {f : Position → Position}

/-- Applying `id` to the position of a token. -/
@[simp] theorem Token.mapPosition_id : Token.mapPosition id = id :=
  rfl

/-- Applying `id` to the position of an instruction. -/
@[simp] theorem Instruction.mapPosition_id : Instruction.mapPosition id = id := by
  funext instruction
  cases instruction <;> rfl

/-- Applying `id` to the position of a failure. -/
@[simp] theorem LexFailure.mapPosition_id : LexFailure.mapPosition id = id := by
  funext failure
  cases failure <;> rfl

/-- Applying `id` to the positions of a diagnostic. -/
@[simp] theorem Diagnostic.mapPosition_id : Diagnostic.mapPosition id = id := by
  funext ⟨position, cause⟩
  cases cause with
  | lexical failure => simp [Diagnostic.mapPosition]
  | line fault => rfl

/-- Mapping the positions of `Diagnostic.ofFailure` is mapping those of the failure. -/
theorem Diagnostic.mapPosition_ofFailure (after : Position) (failure : LexFailure) :
    (Diagnostic.ofFailure after failure).mapPosition f =
      .ofFailure (f after) (failure.mapPosition f) := by
  cases failure <;> rfl

/-- Whether a diagnostic is a certain `LineFault` does not depend on its position. -/
theorem Diagnostic.cause_mapPosition_iff (diagnostic : Diagnostic) {fault : LineFault} :
    (diagnostic.mapPosition f).cause = .line fault ↔ diagnostic.cause = .line fault := by
  obtain ⟨position, cause⟩ := diagnostic
  cases cause <;> simp [Diagnostic.mapPosition]

/-! ### Checks on a line -/

namespace Line

/-- The answer of `Line.instruction` with `f` applied to its positions. -/
def relocated (f : Position → Position) :
    Except Diagnostic Instruction → Except Diagnostic Instruction
  | .ok instruction => .ok (instruction.mapPosition f)
  | .error diagnostic => .error (diagnostic.mapPosition f)

/-- The check `expect` does not depend on positions. -/
theorem expect_mapPosition (want : List Kind) (token : Token) :
    expect want (token.mapPosition f) =
      (expect want token).mapError (Diagnostic.mapPosition f) := by
  rw [expect, expect]
  by_cases hkind : token.kind ∈ want
  · rw [if_pos hkind, if_pos (show (token.mapPosition f).kind ∈ want from hkind)]
    rfl
  · rw [if_neg hkind, if_neg (show (token.mapPosition f).kind ∉ want from hkind)]
    rfl

/-- The check `keyword` does not depend on positions. -/
theorem keyword_mapPosition (shape : Shape) (token : Token) :
    keyword shape (token.mapPosition f) =
      (keyword shape token).mapError (Diagnostic.mapPosition f) := by
  rw [keyword, keyword, expect_mapPosition]
  cases expect [Kind.operation] token with
  | error diagnostic => rfl
  | ok answer =>
      simp only [Except.mapError, Check.ok_bind, Token.mapPosition]
      cases Keyword.ofName? token.value with
      | none => rfl
      | some read =>
          dsimp only
          split <;> rfl

/-- The check `operand` does not depend on positions. -/
theorem operand_mapPosition (token : Token) :
    Line.operand (token.mapPosition f) =
      (Line.operand token).mapError (Diagnostic.mapPosition f) := by
  have hhere : Line.operand (token.mapPosition f) =
      if (Operand.ofText token.value).kind = .location &&
          (Operand.ofText token.value).register?.isNone then
        throw (complain (token.mapPosition f) .locationInvalid)
      else pure (Operand.ofText token.value) := rfl
  rw [hhere, Line.operand]
  split <;> rfl

/-- The check `checkDestination` does not depend on positions. -/
theorem checkDestination_mapPosition (source destination : Token) (start goal : Operand) :
    checkDestination (source.mapPosition f) (destination.mapPosition f) start goal =
      (checkDestination source destination start goal).mapError (Diagnostic.mapPosition f) := by
  rw [checkDestination, checkDestination]
  split
  · rfl
  · cases goal.register? with
    | none => rfl
    | some register =>
        dsimp only
        split
        · rfl
        · split <;> rfl

/-- The answer of `noOperand` at other positions. -/
theorem noOperand_mapPosition (first : Token) :
    noOperand (first.mapPosition f) = relocated f (noOperand first) := by
  rw [noOperand, noOperand, keyword_mapPosition]
  cases keyword .noOperand first <;> rfl

/-- The answer of `unary` at other positions. -/
theorem unary_mapPosition (afterOthers : Bool) (first argument : Token) :
    unary afterOthers (first.mapPosition f) (argument.mapPosition f) =
      relocated f (unary afterOthers first argument) := by
  rw [unary, unary, keyword_mapPosition]
  cases keyword .unary first with
  | error diagnostic => rfl
  | ok read =>
      simp only [Except.mapError, Check.ok_bind, expect_mapPosition]
      cases expect (operandKinds read) argument with
      | error diagnostic => rfl
      | ok answer =>
          simp only [Except.mapError, Check.ok_bind, operand_mapPosition]
          split
          · rfl
          · cases Line.operand argument <;> rfl

/-- The answer of `binary` at other positions. -/
theorem binary_mapPosition (first source comma destination : Token) :
    binary (first.mapPosition f) (source.mapPosition f) (comma.mapPosition f)
        (destination.mapPosition f) =
      relocated f (binary first source comma destination) := by
  simp only [binary, keyword_mapPosition, expect_mapPosition, operand_mapPosition,
    checkDestination_mapPosition]
  -- The checks are made one after the other, and the first that fails is the answer.
  cases keyword .binary first with
  | error diagnostic => rfl
  | ok read =>
  cases expect sourceKinds source with
  | error diagnostic => rfl
  | ok answer =>
  cases expect [.comma] comma with
  | error diagnostic => rfl
  | ok answer =>
  cases expect destinationKinds destination with
  | error diagnostic => rfl
  | ok answer =>
  cases Line.operand source with
  | error diagnostic => rfl
  | ok start =>
  cases Line.operand destination with
  | error diagnostic => rfl
  | ok goal =>
      simp only [Except.mapError, Check.ok_bind]
      cases checkDestination source destination start goal <;> rfl

/-- The answer of `Line.instruction` at other positions is `relocated`. -/
theorem instruction_mapPosition (afterOthers : Bool) (length : Nat) (first : Token)
    (others : List Token) :
    Line.instruction afterOthers length (first.mapPosition f) (others.map (Token.mapPosition f)) =
      relocated f (Line.instruction afterOthers length first others) := by
  match others with
  | [] => exact noOperand_mapPosition first
  | [argument] => exact unary_mapPosition afterOthers first argument
  | [source, comma, destination] => exact binary_mapPosition first source comma destination
  | [_, _] => rfl
  | _ :: _ :: _ :: _ :: _ => rfl

/-- The first token of the line is the keyword of an origin. -/
def BeginsOrigin (line : List Token) : Prop :=
  ∃ word ∈ line.head?, word.IsKeyword .start

instance (token : Token) (keyword : Keyword) : Decidable (token.IsKeyword keyword) :=
  inferInstanceAs (Decidable (_ ∧ _))

instance (line : List Token) : Decidable (BeginsOrigin line) :=
  inferInstanceAs (Decidable (∃ word ∈ line.head?, word.IsKeyword .start))

/-- Only a line that `BeginsOrigin` depends on whether there are instructions before it. -/
theorem instruction_of_not_origin {afterOthers : Bool} (other : Bool) {length : Nat} {first : Token}
    {others : List Token} (h : ¬BeginsOrigin (first :: others)) :
    Line.instruction afterOthers length first others =
      Line.instruction other length first others := by
  match others with
  | [] => rfl
  | [argument] =>
      rw [Line.instruction, Line.instruction, unary, unary]
      cases hread : keyword .unary first with
      | error diagnostic => rfl
      | ok read =>
          have hne : read ≠ .start := by
            rintro rfl
            exact h ⟨first, rfl, (keyword_eq_ok_iff.mp hread).2.1⟩
          simp [hne]
  | [source, comma, destination] => rfl
  | [_, _] => rfl
  | _ :: _ :: _ :: _ :: _ => rfl

/-- Mapping positions does not change which tokens are `nontrivial`. -/
theorem nontrivial_mapPosition (tokens : List Token) :
    nontrivial (tokens.map (Token.mapPosition f)) =
      (nontrivial tokens).map (Token.mapPosition f) :=
  List.filter_map

/-- A newline is among the `nontrivial` tokens of its line. -/
theorem nontrivial_append_newline {tokens : List Token} {newline : Token}
    (hnewline : newline.kind = .newline) :
    nontrivial (tokens ++ [newline]) = nontrivial tokens ++ [newline] := by
  simp [nontrivial, hnewline, Kind.isTrivial]

end Line

/-! ### Corresponding lexers -/

namespace Lexer

/-- A relation between lexers whose answers correspond, call by call: their positions, tokens and
failures are mapped by `f`, and the next lexers are related again. Two newlines correspond whatever
they are made of. -/
structure Simulation (f : Position → Position) (R : Lexer → Lexer → Prop) : Prop where
  position : ∀ {lexer other : Lexer}, R lexer other → other.position = f lexer.position
  token : ∀ {lexer other : Lexer}, R lexer other →
    other.next.1.token = lexer.next.1.token.mapPosition f ∨
      lexer.next.1.token.kind = .newline ∧ other.next.1.token.kind = .newline
  failure : ∀ {lexer other : Lexer}, R lexer other →
    other.next.1.failure = lexer.next.1.failure.map (LexFailure.mapPosition f)
  next : ∀ {lexer other : Lexer}, R lexer other → R lexer.next.2 other.next.2

/-- The answers of `line` of two lexers correspond: the tokens, the end of the line and the rest of
the text. -/
inductive LinesMatch (f : Position → Position) (R : Lexer → Lexer → Prop) :
    List Token × LineEnd × Lexer → List Token × LineEnd × Lexer → Prop
  | failed {tokens tokens' : List Token} {diagnostic : Diagnostic} {last last' : Lexer}
      (hlast : R last last') :
      LinesMatch f R (tokens, .failed diagnostic, last)
        (tokens', .failed (diagnostic.mapPosition f), last')
  | endOfFile {tokens : List Token} {last last' : Lexer}
      (htokens : ∀ token ∈ tokens, token.kind ≠ .newline) (hlast : R last last') :
      LinesMatch f R (tokens, .endOfFile, last)
        (tokens.map (Token.mapPosition f), .endOfFile, last')
  | newline {tokens : List Token} {ending ending' : Token} {last last' : Lexer}
      (htokens : ∀ token ∈ tokens, token.kind ≠ .newline) (hending : ending.kind = .newline)
      (hending' : ending'.kind = .newline) (hlast : R last last') :
      LinesMatch f R (tokens ++ [ending], .newline, last)
        (tokens.map (Token.mapPosition f) ++ [ending'], .newline, last')

variable {R : Lexer → Lexer → Prop} {lexer other : Lexer}

/-- Lines still correspond with another token in front. -/
theorem LinesMatch.cons {token : Token} {tokens tokens' : List Token} {ending ending' : LineEnd}
    {last last' : Lexer} (h : LinesMatch f R (tokens, ending, last) (tokens', ending', last'))
    (htoken : token.kind ≠ .newline) :
    LinesMatch f R (token :: tokens, ending, last)
      (token.mapPosition f :: tokens', ending', last') := by
  cases h with
  | failed hlast => exact .failed hlast
  | endOfFile htokens hlast =>
      exact .endOfFile (List.forall_mem_cons.mpr ⟨htoken, htokens⟩) hlast
  | newline htokens hending hending' hlast =>
      exact .newline (List.forall_mem_cons.mpr ⟨htoken, htokens⟩) hending hending' hlast

/-- The answer of `next` of a related lexer. -/
theorem Simulation.next_eq {token : Token} {failure : Option LexFailure} {next : Lexer}
    (hsim : Simulation f R) (h : R lexer other) (hnext : lexer.next = (⟨token, failure⟩, next)) :
    ∃ token' next', other.next = (⟨token', failure.map (LexFailure.mapPosition f)⟩, next') ∧
      (token' = token.mapPosition f ∨ token.kind = .newline ∧ token'.kind = .newline) ∧
      R next next' := by
  have htoken := hsim.token h
  have hfailure := hsim.failure h
  have hlast := hsim.next h
  rw [hnext] at htoken hfailure hlast
  rcases hother : other.next with ⟨⟨token', failure'⟩, next'⟩
  rw [hother] at htoken hfailure hlast
  obtain rfl : failure' = _ := hfailure
  exact ⟨token', next', rfl, htoken, hlast⟩

/-- The lines of related lexers are in the relation `LinesMatch`. Induction along `line`. -/
theorem Simulation.line (hsim : Simulation f R) (h : R lexer other) :
    LinesMatch f R lexer.line other.line := by
  fun_induction Lexer.line lexer generalizing other with
  | case1 lexer token failure next hnext =>
      obtain ⟨token', next', hother, -, hlast⟩ := hsim.next_eq h hnext
      rw [line_of_failure hother, hsim.position hlast, ← Diagnostic.mapPosition_ofFailure]
      exact .failed hlast
  | case2 lexer token next hnext hkind =>
      obtain ⟨token', next', hother, rfl | ⟨hnewline, -⟩, hlast⟩ := hsim.next_eq h hnext
      · rw [line_of_token hother, if_pos (show (token.mapPosition f).kind = _ from hkind)]
        exact @LinesMatch.endOfFile f R [token] next next' (by simp [hkind]) hlast
      · rw [hkind] at hnewline
        cases hnewline
  | case3 lexer token next hnext hkind hnewline =>
      obtain ⟨token', next', hother, htoken, hlast⟩ := hsim.next_eq h hnext
      have hnewline' : token'.kind = .newline := by
        rcases htoken with rfl | ⟨-, hnewline'⟩
        · exact hnewline
        · exact hnewline'
      rw [line_of_token hother, if_neg (by simp [hnewline']), if_pos hnewline']
      exact @LinesMatch.newline f R [] token token' next next' (by simp) hnewline hnewline' hlast
  | case4 lexer token next hnext hkind hnewline tokens ending last hline ih =>
      obtain ⟨token', next', hother, rfl | ⟨habsurd, -⟩, hlast⟩ := hsim.next_eq h hnext
      · rw [line_of_token hother, if_neg (show (token.mapPosition f).kind ≠ _ from hkind),
          if_neg (show (token.mapPosition f).kind ≠ _ from hnewline)]
        have hlines := ih hlast
        rw [hline] at hlines
        exact hlines.cons hnewline
      · exact absurd habsurd hnewline

/-- Lines that correspond and do not fail have the same `significant` tokens at mapped positions,
and as many `nontrivial` ones. -/
theorem LinesMatch.significant {tokens tokens' : List Token} {ending ending' : LineEnd}
    {last last' : Lexer} (h : LinesMatch f R (tokens, ending, last) (tokens', ending', last'))
    (hending : ∀ diagnostic, ending ≠ .failed diagnostic) :
    Line.significant tokens' = (Line.significant tokens).map (Token.mapPosition f) ∧
      (Line.nontrivial tokens').length = (Line.nontrivial tokens).length := by
  cases h with
  | @failed _ _ diagnostic => exact absurd rfl (hending diagnostic)
  | endOfFile htokens =>
      have hmap : ∀ token ∈ tokens.map (Token.mapPosition f), token.kind ≠ .newline := by
        simpa [Token.mapPosition] using htokens
      rw [Line.significant_of_forall_ne hmap, Line.significant_of_forall_ne htokens,
        Line.nontrivial_mapPosition]
      simp
  | newline htokens hnewline hnewline' =>
      rw [Line.significant_append_newline hnewline, Line.significant_append_newline hnewline',
        Line.nontrivial_append_newline hnewline, Line.nontrivial_append_newline hnewline',
        Line.nontrivial_mapPosition]
      simp

end Lexer

/-! ### Lines that are taken note of -/

namespace Reader

variable {reader : Reader} {tokens others : List Token} {first : Token}

/-- The answer of `accept` to a line without `significant` tokens. -/
theorem accept_of_nil (h : Line.significant tokens = []) :
    reader.accept tokens = (reader, none) := by
  rw [accept, h]

/-- The answer of `accept` to a line that can be read: one more instruction. -/
theorem accept_of_ok {instruction : Instruction} (h : Line.significant tokens = first :: others)
    (hread : Line.instruction (!reader.instructions.isEmpty) (Line.nontrivial tokens).length first
      others = .ok instruction) :
    reader.accept tokens =
      ({ reader with
          instructions := reader.instructions ++ [instruction]
          lines := reader.lines ++ [first :: others] }, none) := by
  simp only [accept, h, hread]

/-- The answer of `accept` to a line that cannot be read: one more diagnostic, or the end of the
reading at a late origin. -/
theorem accept_of_error {diagnostic : Diagnostic} (h : Line.significant tokens = first :: others)
    (hread : Line.instruction (!reader.instructions.isEmpty) (Line.nontrivial tokens).length first
      others = .error diagnostic) :
    reader.accept tokens =
      if diagnostic.cause = .line .startNotFirst then
        ({ reader with done := true, lines := reader.lines ++ [first :: others] }, some diagnostic)
      else
        ({ reader with
            diagnostics := reader.diagnostics ++ [diagnostic]
            lines := reader.lines ++ [first :: others] }, none) := by
  simp only [accept, h, hread]

/-- The line that was accepted is among the `lines`. -/
theorem mem_lines_accept (h : Line.significant tokens = first :: others) :
    first :: others ∈ (reader.accept tokens).1.lines := by
  cases hread : Line.instruction (!reader.instructions.isEmpty) (Line.nontrivial tokens).length
      first others with
  | ok instruction => simp [accept_of_ok h hread]
  | error diagnostic =>
      rw [accept_of_error h hread]
      split <;> simp

end Reader

/-! ### Corresponding readers -/

namespace Reader

variable {R : Lexer → Lexer → Prop} {base reader other : Reader}

/-- The reader `other` has what `reader` has, at positions mapped by `f` and behind what `base` has,
and their lexers are related by `R`. -/
structure Tracks (f : Position → Position) (R : Lexer → Lexer → Prop)
    (base reader other : Reader) : Prop where
  lexer : R reader.lexer other.lexer
  done : other.done = reader.done
  instructions : other.instructions =
    base.instructions ++ reader.instructions.map (Instruction.mapPosition f)
  diagnostics : other.diagnostics =
    base.diagnostics ++ reader.diagnostics.map (Diagnostic.mapPosition f)
  lines : other.lines = base.lines ++ reader.lines.map (List.map (Token.mapPosition f))

/-- There are no instructions in `base`, or none of the lines of `reader` is an origin. -/
def Tolerates (base reader : Reader) : Prop :=
  base.instructions = [] ∨ ∀ line ∈ reader.lines, ¬Line.BeginsOrigin line

/-- What a reader `Tolerates` later it does earlier. -/
theorem Tolerates.mono {later : Reader} (h : base.Tolerates later) (hgrows : reader.Grows later) :
    base.Tolerates reader :=
  h.imp_right fun hlines line hmem => hlines line (hgrows.lines.subset hmem)

/-- To `accept` lines that correspond keeps `Tracks`. -/
theorem Tracks.accept {tokens tokens' : List Token} (h : Tracks f R base reader other)
    (hsignificant : Line.significant tokens' = (Line.significant tokens).map (Token.mapPosition f))
    (hlength : (Line.nontrivial tokens').length = (Line.nontrivial tokens).length)
    (hbase : base.Tolerates (reader.accept tokens).1) :
    Tracks f R base (reader.accept tokens).1 (other.accept tokens').1 ∧
      (other.accept tokens').2 = (reader.accept tokens).2.map (Diagnostic.mapPosition f) := by
  cases hline : Line.significant tokens with
  | nil =>
      rw [hline] at hsignificant
      rw [accept_of_nil hline, accept_of_nil hsignificant]
      exact ⟨h, rfl⟩
  | cons first others =>
      rw [hline] at hsignificant
      have hread : Line.instruction (!other.instructions.isEmpty) (Line.nontrivial tokens').length
          (first.mapPosition f) (others.map (Token.mapPosition f)) =
            Line.relocated f (Line.instruction (!reader.instructions.isEmpty)
              (Line.nontrivial tokens).length first others) := by
        rw [Line.instruction_mapPosition, hlength, h.instructions]
        rcases hbase with hnone | hlines
        · simp [hnone]
        · rw [Line.instruction_of_not_origin (!reader.instructions.isEmpty)
            (hlines _ (mem_lines_accept hline))]
      cases hanswer : Line.instruction (!reader.instructions.isEmpty)
          (Line.nontrivial tokens).length first others with
      | ok instruction =>
          rw [hanswer] at hread
          rw [accept_of_ok hline hanswer, accept_of_ok hsignificant hread]
          exact ⟨⟨h.lexer, h.done, by simp [h.instructions], h.diagnostics, by simp [h.lines]⟩, rfl⟩
      | error diagnostic =>
          rw [hanswer] at hread
          rw [accept_of_error hline hanswer, accept_of_error hsignificant hread]
          simp only [Diagnostic.cause_mapPosition_iff]
          split
          · exact ⟨⟨h.lexer, rfl, h.instructions, h.diagnostics, by simp [h.lines]⟩, rfl⟩
          · exact ⟨⟨h.lexer, h.done, h.instructions, by simp [h.diagnostics], by simp [h.lines]⟩,
              rfl⟩

/-- A `step` over lines in the relation `LinesMatch` keeps `Tracks`. Behind them, the lexers may be
related in another way. -/
theorem Tracks.step_of_line {S : Lexer → Lexer → Prop} (h : Tracks f S base reader other)
    (hdone : reader.done = false)
    (hlines : Lexer.LinesMatch f R reader.lexer.line other.lexer.line)
    (hbase : base.Tolerates reader.step.1) :
    Tracks f R base reader.step.1 other.step.1 ∧
      other.step.2 = reader.step.2.map (Diagnostic.mapPosition f) := by
  rw [Reader.step, if_neg (by simp [hdone])] at hbase ⊢
  rw [Reader.step, if_neg (by simp [h.done, hdone])]
  generalize reader.lexer.line = line at hlines hbase ⊢
  generalize other.lexer.line = line' at hlines ⊢
  cases hlines with
  | failed hlast =>
      exact ⟨⟨hlast, rfl, h.instructions, h.diagnostics, h.lines⟩, rfl⟩
  | endOfFile htokens hlast =>
      obtain ⟨hsignificant, hlength⟩ :=
        (Lexer.LinesMatch.endOfFile htokens hlast).significant (by simp)
      have hhere : Tracks f R base { reader with lexer := _, done := true }
          { other with lexer := _, done := true } :=
        ⟨hlast, rfl, h.instructions, h.diagnostics, h.lines⟩
      exact hhere.accept hsignificant hlength hbase
  | newline htokens hnewline hnewline' hlast =>
      obtain ⟨hsignificant, hlength⟩ :=
        (Lexer.LinesMatch.newline htokens hnewline hnewline' hlast).significant (by simp)
      have hhere : Tracks f R base { reader with lexer := _ } { other with lexer := _ } :=
        ⟨hlast, h.done, h.instructions, h.diagnostics, h.lines⟩
      exact hhere.accept hsignificant hlength hbase

/-- A `step` keeps `Tracks` along a `Simulation`. -/
theorem Tracks.step (hsim : Lexer.Simulation f R) (h : Tracks f R base reader other)
    (hbase : base.Tolerates reader.step.1) :
    Tracks f R base reader.step.1 other.step.1 ∧
      other.step.2 = reader.step.2.map (Diagnostic.mapPosition f) := by
  cases hdone : reader.done with
  | true =>
      rw [step_of_done hdone, step_of_done (h.done.trans hdone)]
      exact ⟨h, rfl⟩
  | false => exact h.step_of_line hdone (hsim.line h.lexer) hbase

/-- A `drain` keeps `Tracks` along a `Simulation`. Induction along `drain`. -/
theorem Tracks.drain (hsim : Lexer.Simulation f R) (h : Tracks f R base reader other)
    (hbase : base.Tolerates reader.drain.1) :
    Tracks f R base reader.drain.1 other.drain.1 ∧
      other.drain.2 = reader.drain.2.map (Diagnostic.mapPosition f) := by
  fun_induction Reader.drain reader generalizing other with
  | case1 reader hdone =>
      rw [drain_of_done (h.done.trans hdone)]
      exact ⟨h, rfl⟩
  | case2 reader hdone next diagnostic hstep =>
      have hsteps := h.step hsim (by rw [hstep]; exact hbase)
      rw [hstep] at hsteps
      obtain ⟨hnext, hfatal⟩ := hsteps
      rw [drain_of_step_eq_some (Prod.ext rfl hfatal)]
      exact ⟨hnext, rfl⟩
  | case3 reader hdone next hstep ih =>
      have hsteps := h.step hsim (by rw [hstep]; exact hbase.mono (grows_drain next))
      rw [hstep] at hsteps
      obtain ⟨hnext, hfatal⟩ := hsteps
      rw [drain_of_step_eq_none (Prod.ext rfl hfatal)]
      exact ih hnext hbase

/-- Sources related by a `Simulation` that maps no positions have the same program, the same
diagnostics and the same lines. -/
theorem drain_of_simulation {source source' : Source} (hsim : Lexer.Simulation id R)
    (hstart : R (Lexer.ofSource source) (Lexer.ofSource source')) :
    let (reader, fatal) := (Reader.ofSource source).drain
    let (other, fatal') := (Reader.ofSource source').drain
    other.instructions = reader.instructions ∧ other.diagnostics = reader.diagnostics ∧
      other.lines = reader.lines ∧ fatal' = fatal := by
  have htracks : Tracks id R (Reader.ofSource source) (Reader.ofSource source)
      (Reader.ofSource source') := ⟨hstart, rfl, rfl, rfl, rfl⟩
  obtain ⟨hlast, hfatal⟩ := htracks.drain hsim (.inl rfl)
  refine ⟨?_, ?_, ?_, ?_⟩
  · simpa [ofSource] using hlast.instructions
  · simpa [ofSource] using hlast.diagnostics
  · simpa [ofSource] using hlast.lines
  · simpa using hfatal

end Reader

end MovAsm

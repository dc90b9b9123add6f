import MovAsm.Program.Reader
import MovAsm.Proofs.Program.Grammar

/-!
# Which Programs Are Accepted

A reader goes through a program line by line, in steps that do not fit the lines of the grammar
exactly: a step may find a line that is empty, and the last line may or may not end with an end of
line. This module shows that these differences do not matter. The lines of a text are its tokens
cut at the ends of line, less what means nothing, and a program that can be read is accepted
exactly if each of its lines has a form of the grammar.

## Main results

* `Lexer.IsClean.line_cases`: a step takes the tokens up to the next end of line, or all that are
  left.
* `Reader.accept_cases`: the three ways in which a line is taken note of.
* `Source.isProgram_program`: the instructions that are read are those of lines with forms, whatever
  else is in the text.
* `Reader.IsClean.step_cases`: a step accounts for the first line that is left, or for an empty one.
* `Reader.drain_cases`: the lines that are left all have forms, or there is a complaint.
* `accepts_exactly_forms`: when a program is accepted, and which instructions it has.
-/

namespace MovAsm

/-! ### Cutting a text into lines -/

namespace Line

/-- The lines of a text: its `nontrivial` tokens cut at the ends of line, without the lines that
have none. -/
def split (tokens : List Token) : List (List Token) :=
  ((nontrivial tokens).splitOnP fun token => token.kind = .newline).filter fun line => !line.isEmpty

/-- The answer of `split` on tokens without an end of line: one line, or none. -/
theorem split_of_forall_ne {tokens : List Token} (h : ∀ token ∈ tokens, token.kind ≠ .newline) :
    split tokens = [nontrivial tokens].filter fun line => !line.isEmpty := by
  rw [split]
  rw [List.splitOnP_eq_singleton]
  intro token hmem
  simpa using h token (List.mem_filter.mp hmem).1

/-- The answer of `split` at an end of line: the lines before it, and those after it. -/
theorem split_append_newline {tokens rest : List Token} {newline : Token}
    (hnewline : newline.kind = .newline) :
    split (tokens ++ newline :: rest) = split tokens ++ split rest := by
  have hkeep : nontrivial (tokens ++ newline :: rest) =
      nontrivial tokens ++ newline :: nontrivial rest := by
    simp [nontrivial, hnewline, Kind.isTrivial]
  rw [split, hkeep, List.splitOnP_append_cons _ _ (by simp [hnewline]), List.filter_append]
  rfl

/-- Without an end of line, the `significant` tokens are the `nontrivial` ones. -/
theorem significant_of_forall_ne {tokens : List Token}
    (h : ∀ token ∈ tokens, token.kind ≠ .newline) : significant tokens = nontrivial tokens := by
  rw [significant]
  cases hlast : (nontrivial tokens).getLast? with
  | none => rfl
  | some last =>
      have hmem : last ∈ nontrivial tokens := List.mem_of_getLast? hlast
      exact if_neg (h last (List.mem_filter.mp hmem).1)

/-- With an end of line last, the `significant` tokens are the `nontrivial` ones before it. -/
theorem significant_append_newline {tokens : List Token} {newline : Token}
    (hnewline : newline.kind = .newline) :
    significant (tokens ++ [newline]) = nontrivial tokens := by
  have hkeep : nontrivial (tokens ++ [newline]) = nontrivial tokens ++ [newline] := by
    simp [nontrivial, hnewline, Kind.isTrivial]
  rw [significant]
  rw [hkeep]
  simp [hnewline]

/-- Lines that have the forms of instructions, the first of them at the beginning of a program or
after others. -/
inductive Forms : Bool → List (List Token) → List Instruction → Prop
  | nil {isFirst : Bool} : Forms isFirst [] []
  | cons {isFirst : Bool} {line : List Token} {instruction : Instruction}
      {lines : List (List Token)} {program : List Instruction}
      (hline : Form isFirst line instruction) (hlines : Forms false lines program) :
      Forms isFirst (line :: lines) (instruction :: program)

/-- Lines have the `Forms` of one program only. -/
theorem Forms.unique {isFirst : Bool} {lines : List (List Token)} {program other : List Instruction}
    (h : Forms isFirst lines program) (hother : Forms isFirst lines other) : program = other := by
  induction h generalizing other with
  | nil =>
      cases hother
      rfl
  | cons hline hlines ih =>
      cases hother with
      | cons hline' hlines' => rw [hline.unique hline', ih hlines']

/-- One more line with a `Form` goes behind lines that have `Forms`. -/
theorem Forms.append_singleton {isFirst : Bool} {lines : List (List Token)} {line : List Token}
    {program : List Instruction} {instruction : Instruction} (h : Forms isFirst lines program)
    (hline : Form (isFirst && program.isEmpty) line instruction) :
    Forms isFirst (lines ++ [line]) (program ++ [instruction]) := by
  induction h with
  | nil => exact .cons (by simpa using hline) .nil
  | cons hfirst hlines ih => exact .cons hfirst (ih (by simpa using hline))

/-- Instructions are a program if they are those of lines that are spelled right and have
`Forms`. -/
def IsProgram (instructions : List Instruction) : Prop :=
  ∃ lines, (∀ line ∈ lines, ∀ token ∈ line, token.IsSpelled) ∧ Forms true lines instructions

end Line

/-! ### The tokens of one line -/

namespace Lexer

variable {lexer : Lexer}

/-- The tokens that `Lexer.line` answers are spelled right. -/
theorem isSpelled_of_mem_line {token : Token} (hmem : token ∈ lexer.line.1) :
    token.IsSpelled := by
  have hfirst {lexer next : Lexer} {token : Token} (hnext : lexer.next = (⟨token, none⟩, next)) :
      token.IsSpelled := by
    have hspelled := @isSpelled_of_next lexer (by rw [hnext])
    rw [hnext] at hspelled
    exact hspelled
  fun_induction Lexer.line lexer with
  | case1 lexer token failure next hnext => cases hmem
  | case2 lexer only next hnext hkind =>
      rw [List.mem_singleton.mp hmem]
      exact hfirst hnext
  | case3 lexer only next hnext hkind hnewline =>
      rw [List.mem_singleton.mp hmem]
      exact hfirst hnext
  | case4 lexer first next hnext hkind hnewline tokens ending last hline ih =>
      rcases List.mem_cons.mp hmem with rfl | hmem
      · exact hfirst hnext
      · rw [hline] at ih
        exact ih hmem

/-- In a text that `IsClean`, `Lexer.line` answers the tokens up to the next end of line, or all
that are left. -/
theorem IsClean.line_cases (h : lexer.IsClean) :
    (∃ tokens last, lexer.line = (tokens, .endOfFile, last) ∧ lexer.tokens = tokens ∧
      ∀ token ∈ tokens, token.kind ≠ .newline) ∨
    ∃ tokens newline last, lexer.line = (tokens ++ [newline], .newline, last) ∧
      newline.kind = .newline ∧ (∀ token ∈ tokens, token.kind ≠ .newline) ∧
      lexer.tokens = tokens ++ newline :: last.tokens ∧ last.IsClean := by
  fun_induction Lexer.line lexer with
  | case1 lexer token failure next hnext =>
      have hnone := h.next_failure
      rw [hnext] at hnone
      cases hnone
  | case2 lexer token next hnext hkind =>
      have hall := @all_of_endOfFile lexer (by rw [hnext]; exact hkind)
      rw [hnext] at hall
      refine .inl ⟨[token], next, rfl, ?_, ?_⟩
      · rw [tokens, hall]
        rfl
      · simp [hkind]
  | case3 lexer token next hnext hkind hnewline =>
      have htail := h.tail (by rw [hnext]; exact hkind)
      rw [hnext] at htail
      exact .inr ⟨[], token, next, rfl, hnewline, by simp, htail.2, htail.1⟩
  | case4 lexer token next hnext hkind hnewline tokens ending last hline ih =>
      have htail := h.tail (by rw [hnext]; exact hkind)
      rw [hnext] at htail
      obtain ⟨hclean, htokens⟩ := htail
      dsimp only at hclean htokens
      rw [hline] at ih
      rcases ih hclean with ⟨tokens', last', heq, hrest, hnone⟩ |
        ⟨tokens', newline, last', heq, hkind', hnone, hrest, hlast⟩
      · cases heq
        refine .inl ⟨token :: tokens, last, rfl, by rw [htokens, hrest], ?_⟩
        intro other hmem
        rcases List.mem_cons.mp hmem with rfl | hmem
        · exact hnewline
        · exact hnone other hmem
      · cases heq
        refine .inr ⟨token :: tokens', newline, last, rfl, hkind', ?_, ?_, hlast⟩
        · intro other hmem
          rcases List.mem_cons.mp hmem with rfl | hmem
          · exact hnewline
          · exact hnone other hmem
        · rw [htokens, hrest]
          rfl

end Lexer

/-! ### Steps of a reader -/

namespace Line

/-- The `significant` tokens of a line are tokens of it. -/
theorem mem_of_mem_significant {tokens : List Token} {token : Token}
    (hmem : token ∈ significant tokens) : token ∈ tokens := by
  simp only [significant] at hmem
  split at hmem
  · split at hmem
    · exact (List.mem_filter.mp ((List.dropLast_sublist _).subset hmem)).1
    · exact (List.mem_filter.mp hmem).1
  · exact (List.mem_filter.mp hmem).1

end Line

namespace Reader

variable {reader : Reader} {tokens : List Token}

/-- The ways in which a reader accepts a line: it has no significant tokens, it has the `Form` of an
instruction, or it has none and there is a complaint about it. -/
theorem accept_cases (reader : Reader) (hspelled : ∀ token ∈ tokens, token.IsSpelled) :
    (Line.significant tokens = [] ∧ reader.accept tokens = (reader, none)) ∨
    (∃ instruction,
      Line.Form reader.instructions.isEmpty (Line.significant tokens) instruction ∧
      reader.accept tokens = ({ reader with
        lines := reader.lines ++ [Line.significant tokens]
        instructions := reader.instructions ++ [instruction] }, none)) ∨
    (Line.significant tokens ≠ [] ∧
      (∀ instruction,
        ¬Line.Form reader.instructions.isEmpty (Line.significant tokens) instruction) ∧
      (reader.accept tokens).1.instructions = reader.instructions ∧
      ∃ diagnostic, (reader.accept tokens).1.complaints (reader.accept tokens).2 =
        reader.diagnostics ++ [diagnostic]) := by
  cases hline : Line.significant tokens with
  | nil => exact .inl ⟨rfl, by simp [accept, hline]⟩
  | cons first others =>
      have hiff (instruction : Instruction) : Line.instruction (!reader.instructions.isEmpty)
          (Line.nontrivial tokens).length first others = .ok instruction ↔
          Line.Form reader.instructions.isEmpty (first :: others) instruction := by
        rw [Line.instruction_eq_ok_iff, Bool.not_not]
        intro token hmem
        exact hspelled token (Line.mem_of_mem_significant (hline ▸ hmem))
      refine .inr ?_
      rw [accept]
      simp only [hline]
      cases hread : Line.instruction (!reader.instructions.isEmpty)
          (Line.nontrivial tokens).length first others with
      | ok instruction => exact .inl ⟨instruction, (hiff instruction).mp hread, rfl⟩
      | error diagnostic =>
          refine .inr ⟨List.cons_ne_nil _ _, ?_, ?_⟩
          · intro instruction hform
            rw [(hiff instruction).mpr hform] at hread
            cases hread
          · dsimp only
            split
            · exact ⟨rfl, diagnostic, rfl⟩
            · exact ⟨rfl, diagnostic, by simp [complaints]⟩

/-- The ways of a `step`: reading was done, it ends by a failure, or a line is accepted. -/
theorem step_cases (reader : Reader) :
    (reader.done = true ∧ reader.step = (reader, none)) ∨
    (∃ last diagnostic, reader.step = ({ reader with lexer := last, done := true },
      some diagnostic)) ∨
    ∃ tokens last done, (∀ token ∈ tokens, token.IsSpelled) ∧
      reader.step = { reader with lexer := last, done := done }.accept tokens := by
  rw [step]
  by_cases hdone : reader.done = true
  · rw [if_pos hdone]
    exact .inl ⟨hdone, rfl⟩
  · rw [if_neg hdone]
    have hspelled := @Lexer.isSpelled_of_mem_line reader.lexer
    refine .inr ?_
    rcases hline : reader.lexer.line with ⟨tokens, _ | _ | diagnostic, last⟩
    · rw [hline] at hspelled
      refine .inr ⟨tokens, last, false, fun _ => hspelled, ?_⟩
      rw [← Bool.eq_false_iff.mpr hdone]
    · rw [hline] at hspelled
      exact .inr ⟨tokens, last, true, fun _ => hspelled, rfl⟩
    · exact .inl ⟨_, _, rfl⟩

/-- A `step` keeps the instructions a program, whatever it finds. -/
theorem isProgram_step (h : Line.IsProgram reader.instructions) :
    Line.IsProgram reader.step.1.instructions := by
  rcases step_cases reader with ⟨-, hstep⟩ | ⟨last, diagnostic, hstep⟩ |
    ⟨tokens, last, done, hspelled, hstep⟩
  · rw [hstep]
    exact h
  · rw [hstep]
    exact h
  · rw [hstep]
    rcases accept_cases { reader with lexer := last, done := done } hspelled with
      ⟨-, haccept⟩ | ⟨instruction, hform, haccept⟩ | ⟨-, -, hsame, -⟩
    · rw [haccept]
      exact h
    · obtain ⟨lines, hlines, hforms⟩ := h
      rw [haccept]
      refine ⟨lines ++ [Line.significant tokens], ?_, hforms.append_singleton hform⟩
      intro line hmem
      rcases List.mem_append.mp hmem with hold | hnew
      · exact hlines line hold
      · intro token htoken
        rw [List.mem_singleton.mp hnew] at htoken
        exact hspelled token (Line.mem_of_mem_significant htoken)
    · rw [hsame]
      exact h

/-- What `drain` reads is a program, also where some lines are refused or the text cannot be read to
its end. Induction along `drain`. -/
theorem isProgram_drain (h : Line.IsProgram reader.instructions) :
    Line.IsProgram reader.drain.1.instructions := by
  fun_induction Reader.drain reader with
  | case1 reader hdone => exact h
  | case2 reader hdone next diagnostic hstep =>
      have hnext := isProgram_step h
      rw [hstep] at hnext
      exact hnext
  | case3 reader hdone next hstep ih =>
      have hnext := isProgram_step h
      rw [hstep] at hnext
      exact ih hnext

/-! ### Texts without a failure -/

/-- The lines of the text that are left to a reader. -/
def pending (reader : Reader) : List (List Token) :=
  if reader.done then [] else Line.split reader.lexer.tokens

/-- What is left to a reader is read without a failure. -/
def IsClean (reader : Reader) : Prop :=
  reader.done = false → reader.lexer.IsClean

/-- To `accept` a line leaves the rest of the text as it is. -/
theorem IsClean.accept (h : reader.IsClean) (tokens : List Token) :
    (reader.accept tokens).1.IsClean := by
  intro hdone
  rw [lexer_accept]
  refine h ?_
  cases hreader : reader.done with
  | false => rfl
  | true => rw [done_accept reader tokens hreader] at hdone; exact hdone

/-- In a text that `IsClean`, a `step` accepts the first `pending` line, or one without significant
tokens. -/
theorem IsClean.step (h : reader.IsClean) (hdone : reader.done = false) :
    ∃ tokens last done, (∀ token ∈ tokens, token.IsSpelled) ∧
      reader.step = { reader with lexer := last, done := done }.accept tokens ∧
      IsClean { reader with lexer := last, done := done } ∧
      reader.pending = ([Line.significant tokens].filter fun line => !line.isEmpty) ++
        pending { reader with lexer := last, done := done } := by
  have hspelled := @Lexer.isSpelled_of_mem_line reader.lexer
  rw [Reader.step]
  rw [pending, if_neg (by simp [hdone]), if_neg (by simp [hdone])]
  rcases (h hdone).line_cases with ⟨tokens, last, hline, htokens, hnone⟩ |
    ⟨tokens, newline, last, hline, hkind, hnone, htokens, hclean⟩
  · rw [hline] at hspelled
    refine ⟨tokens, last, true, fun _ => hspelled, ?_, nofun, ?_⟩
    · rw [hline]
    · rw [htokens, Line.split_of_forall_ne hnone, Line.significant_of_forall_ne hnone]
      exact (List.append_nil _).symm
  · rw [hline] at hspelled
    refine ⟨tokens ++ [newline], last, false, fun _ => hspelled, ?_, fun _ => hclean, ?_⟩
    · rw [hline, ← hdone]
    · rw [htokens, Line.split_append_newline hkind, Line.split_of_forall_ne hnone,
        Line.significant_append_newline hkind]
      rfl

/-- The ways of a `step` in a text that `IsClean`: the line has no significant tokens, it has the
`Form` of an instruction, or it has none and there is a complaint about it. -/
theorem IsClean.step_cases (h : reader.IsClean) (hdone : reader.done = false) :
    reader.step.1.IsClean ∧
    ((reader.step.2 = none ∧ reader.step.1.diagnostics = reader.diagnostics ∧
      reader.step.1.instructions = reader.instructions ∧
      reader.step.1.pending = reader.pending) ∨
    (reader.step.2 = none ∧ reader.step.1.diagnostics = reader.diagnostics ∧
      ∃ line instruction, Line.Form reader.instructions.isEmpty line instruction ∧
        reader.step.1.instructions = reader.instructions ++ [instruction] ∧
        reader.pending = line :: reader.step.1.pending) ∨
    ((∀ program, ¬Line.Forms reader.instructions.isEmpty reader.pending program) ∧
      ∃ diagnostic, reader.step.1.complaints reader.step.2 =
        reader.diagnostics ++ [diagnostic])) := by
  obtain ⟨tokens, last, done, hspelled, hstep, hclean, hpending⟩ := h.step hdone
  rw [hstep, hpending]
  refine ⟨hclean.accept tokens, ?_⟩
  rcases accept_cases { reader with lexer := last, done := done } hspelled with
    ⟨hempty, haccept⟩ | ⟨instruction, hform, haccept⟩ | ⟨hne, hnot, -, hcomplaint⟩
  · rw [haccept, hempty]
    exact .inl ⟨rfl, rfl, rfl, rfl⟩
  · have hne : (Line.significant tokens).isEmpty = false := by
      cases hline : Line.significant tokens with
      | nil => rw [hline] at hform; cases hform
      | cons first others => rfl
    rw [haccept]
    refine .inr (.inl ⟨rfl, rfl, Line.significant tokens, instruction, hform, rfl, ?_⟩)
    rw [List.filter_cons_of_pos (by simp [hne])]
    rfl
  · refine .inr (.inr ⟨fun program hforms => ?_, hcomplaint⟩)
    rw [List.filter_cons_of_pos (by simpa using hne)] at hforms
    cases hforms with
    | cons hline hlines => exact hnot _ hline

/-! ### Whole programs -/

/-- The ways of `drain` in a text that `IsClean`: the `pending` lines have `Forms` and are read
without complaint, or they have not and there is a complaint. Induction along `drain`. -/
theorem drain_cases (h : reader.IsClean) :
    (∃ program, Line.Forms reader.instructions.isEmpty reader.pending program ∧
      reader.drain.2 = none ∧ reader.drain.1.diagnostics = reader.diagnostics ∧
      reader.drain.1.instructions = reader.instructions ++ program) ∨
    ((∀ program, ¬Line.Forms reader.instructions.isEmpty reader.pending program) ∧
      reader.diagnostics.length < (reader.drain.1.complaints reader.drain.2).length) := by
  fun_induction Reader.drain reader with
  | case1 reader hdone =>
      refine .inl ⟨[], ?_, rfl, rfl, (List.append_nil _).symm⟩
      rw [pending, if_pos hdone]
      exact .nil
  | case2 reader hdone next diagnostic hstep =>
      obtain ⟨-, hcases⟩ := h.step_cases (Bool.eq_false_iff.mpr hdone)
      rw [hstep] at hcases
      rcases hcases with ⟨hnone, -⟩ | ⟨hnone, -⟩ | ⟨hnot, other, hcomplaints⟩
      · cases hnone
      · cases hnone
      · refine .inr ⟨hnot, ?_⟩
        rw [hcomplaints]
        simp
  | case3 reader hdone next hstep ih =>
      obtain ⟨hnext, hcases⟩ := h.step_cases (Bool.eq_false_iff.mpr hdone)
      rw [hstep] at hnext hcases
      dsimp only at hnext hcases
      rcases hcases with ⟨-, hdiagnostics, hinstructions, hpending⟩ |
        ⟨-, hdiagnostics, line, instruction, hform, hinstructions, hpending⟩ |
        ⟨hnot, other, hcomplaints⟩
      · rw [← hdiagnostics, ← hinstructions, ← hpending]
        exact ih hnext
      · rw [← hdiagnostics, hpending]
        have hempty : next.instructions.isEmpty = false := by simp [hinstructions]
        rw [hempty, hinstructions] at ih
        rcases ih hnext with ⟨program, hforms, hnone, hsame, hread⟩ | ⟨hnot, hlt⟩
        · exact .inl ⟨instruction :: program, .cons hform hforms, hnone, hsame, by simp [hread]⟩
        · refine .inr ⟨fun program hforms => ?_, hlt⟩
          cases hforms with
          | cons hline hlines => exact hnot _ hlines
      · -- A complaint is never taken back.
        have hlength : next.diagnostics.length = reader.diagnostics.length + 1 := by
          have hnone : next.complaints none = next.diagnostics := List.append_nil _
          rw [← hnone, hcomplaints, List.length_append, List.length_singleton]
        refine .inr ⟨hnot, ?_⟩
        rcases ih hnext with ⟨program, -, hnone, hsame, -⟩ | ⟨-, hlt⟩
        · rw [complaints, hnone, hsame, List.length_append, hlength]
          omega
        · omega

end Reader

/-- The instructions that `drain` reads from a source. -/
def Source.program (source : Source) : List Instruction :=
  (Reader.ofSource source).drain.1.instructions

/-- The diagnostics of `drain` on a source. -/
def Source.complaints (source : Source) : List Diagnostic :=
  (Reader.ofSource source).drain.1.complaints (Reader.ofSource source).drain.2

/-- What is read from a source is a program. -/
theorem Source.isProgram_program (source : Source) : Line.IsProgram source.program :=
  Reader.isProgram_drain ⟨[], by simp, .nil⟩

/-- The lines of a source that `IsClean` have `Forms` and make up `Source.program`, or they have not
and there is a complaint. -/
theorem Source.program_cases {source : Source} (h : (Lexer.ofSource source).IsClean) :
    (source.complaints = [] ∧
      Line.Forms true (Line.split (Lexer.ofSource source).tokens) source.program) ∨
    (source.complaints ≠ [] ∧
      ∀ program, ¬Line.Forms true (Line.split (Lexer.ofSource source).tokens) program) := by
  rcases @Reader.drain_cases (Reader.ofSource source) (fun _ => h) with
    ⟨program, hforms, hnone, hdiagnostics, hread⟩ | ⟨hnot, hlt⟩
  · refine .inl ⟨?_, ?_⟩
    · rw [complaints, Reader.complaints, hnone, hdiagnostics]
      rfl
    · rw [Source.program, hread]
      exact hforms
  · refine .inr ⟨fun hnil => ?_, hnot⟩
    rw [complaints] at hnil
    rw [hnil] at hlt
    cases hlt

/-- **What is accepted.** A source that can be read is accepted without complaint exactly if its
lines have `Forms` in the grammar, and `Source.program` is then what these make. -/
theorem accepts_exactly_forms (source : Source) (hclean : (Lexer.ofSource source).IsClean) :
    (source.complaints = [] ↔
      ∃ program, Line.Forms true (Line.split (Lexer.ofSource source).tokens) program) ∧
    ∀ program, Line.Forms true (Line.split (Lexer.ofSource source).tokens) program →
      source.program = program := by
  rcases Source.program_cases hclean with ⟨hnil, hforms⟩ | ⟨hne, hnot⟩
  · exact ⟨⟨fun _ => ⟨source.program, hforms⟩, fun _ => hnil⟩, fun _ hother => hforms.unique hother⟩
  · refine ⟨⟨fun hnil => absurd hnil hne, ?_⟩, fun program hforms => absurd hforms (hnot program)⟩
    rintro ⟨program, hforms⟩
    exact absurd hforms (hnot program)

/-- A program with an empty line, a comment and blanks has the three forms that are read from it,
and none at all once the origin comes last. -/
theorem accepts_exactly_forms_commented :
    let source : Source := ⟨"START $10\n\n; origin\r\n\tMOV @ACC , B\nJMP .é1".toList, none⟩
    let late : Source := ⟨"MOV @ACC , B\nSTART $10".toList, none⟩
    (Lexer.ofSource source).IsClean ∧ (Lexer.ofSource late).IsClean ∧
      Line.Forms true (Line.split (Lexer.ofSource source).tokens)
        [ .unary ⟨1, 0⟩ .start ⟨.dollar, "10"⟩,
          .binary ⟨4, 1⟩ .mov ⟨.at, "ACC"⟩ ⟨.bare, "B"⟩,
          .unary ⟨5, 0⟩ .jmp ⟨.dot, "é1"⟩ ] ∧
      ¬∃ program, Line.Forms true (Line.split (Lexer.ofSource late).tokens) program := by
  intro source late
  have hsource : (Lexer.ofSource source).IsClean := by
    rw [Lexer.IsClean]
    decide +kernel
  have hlate : (Lexer.ofSource late).IsClean := by
    rw [Lexer.IsClean]
    decide +kernel
  have hread : source.complaints = [] ∧ source.program =
      [ .unary ⟨1, 0⟩ .start ⟨.dollar, "10"⟩,
        .binary ⟨4, 1⟩ .mov ⟨.at, "ACC"⟩ ⟨.bare, "B"⟩,
        .unary ⟨5, 0⟩ .jmp ⟨.dot, "é1"⟩ ] := by decide +kernel
  obtain ⟨haccept, hprogram⟩ := accepts_exactly_forms source hsource
  obtain ⟨program, hforms⟩ := haccept.mp hread.1
  refine ⟨hsource, hlate, ?_, ?_⟩
  · rw [← hread.2, hprogram program hforms]
    exact hforms
  · rw [← (accepts_exactly_forms late hlate).1]
    decide +kernel

end MovAsm

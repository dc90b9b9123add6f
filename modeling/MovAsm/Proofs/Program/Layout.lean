import MovAsm.Proofs.Assembly.Relocation
import MovAsm.Proofs.Program.Correspondence

/-!
# Layout Is Irrelevant

Blanks, comments, empty lines and the ends of lines are layout. Two texts that are read without a
failure may differ in all of these and still say the same, line by line: the kinds and values of the
tokens that mean something. This module shows that they then come to the same, up to two things in
which the layout is seen: the places, and the count in a complaint about the number of tokens, to
which an end of line adds one where there is one.

The steps of the two readers do not fit each other, because one may find empty lines where the other
finds none. So they are not compared with each other. What is read is instead found from the lines
alone, by a function that knows neither texts nor steps, and each reader is compared with that.

## Main definitions

* `Source.significantLines` — the kinds and values of the significant tokens, line by line;
* `Instruction.unplaced`, `Diagnostic.gist` — instructions without positions, diagnostics without
  positions and numbers of tokens;
* `Line.outline` — what is read from lines, computed without a reader.

## Main results

* `Line.gist_instruction`: `Line.instruction` depends on the layout in positions and the number of
  tokens only.
* `Reader.IsClean.advance`: a step reads the first pending line, or an empty one.
* `Reader.drain_outline`: a reader reads the outline of its lines.
* `layout_irrelevant`: texts with the same significant lines have the same outcome.
* `count_depends_on_layout`: the number of tokens in a complaint may differ.
-/

namespace MovAsm

/-! ### Without the layout -/

/-- The instruction with its position set to `Position.start`. -/
def Instruction.unplaced (instruction : Instruction) : Instruction :=
  instruction.mapPosition fun _ => .start

/-- The diagnostic with its positions set to `Position.start`. -/
def Diagnostic.unplaced (diagnostic : Diagnostic) : Diagnostic :=
  diagnostic.mapPosition fun _ => .start

/-- The fault without the number of tokens that `expressionLength` gives. -/
def LineFault.uncounted : LineFault → LineFault
  | .expressionLength _ => .expressionLength 0
  | fault => fault

/-- The diagnostic `unplaced` and `uncounted`: what it says whatever the layout. -/
def Diagnostic.gist (diagnostic : Diagnostic) : Diagnostic where
  position := diagnostic.unplaced.position
  cause :=
    match diagnostic.unplaced.cause with
    | .lexical failure => .lexical failure
    | .line fault => .line fault.uncounted

/-- The error with its positions set to `Position.start`. -/
def AssemblyError.unplaced (error : AssemblyError) : AssemblyError where
  position := .start
  instruction := error.instruction.map Instruction.unplaced
  fault := error.fault

/-- The outcome without positions, its diagnostics changed by a function. -/
def Outcome.erase (f : Diagnostic → Diagnostic) : Outcome → Outcome
  | .image built => .image built
  | .rejected diagnostics => .rejected (diagnostics.map f)
  | .failed error => .failed error.unplaced
  | .unallocatable => .unallocatable

/-- The kinds and values of the tokens of some lines. -/
def Line.contents (lines : List (List Token)) : List (List (Kind × String)) :=
  lines.map (List.map fun token => (token.kind, token.value))

/-- The `contents` of the lines of a source. Lines without significant tokens are left out. -/
def Source.significantLines (source : Source) : List (List (Kind × String)) :=
  Line.contents (Line.split (Lexer.ofSource source).tokens)

/-! ### Single lines -/

/-- The `gist` of a diagnostic does not depend on its positions. -/
theorem Diagnostic.gist_mapPosition (f : Position → Position) (diagnostic : Diagnostic) :
    (diagnostic.mapPosition f).gist = diagnostic.gist := by
  obtain ⟨position, cause⟩ := diagnostic
  cases cause with
  | lexical failure => cases failure <;> rfl
  | line fault => rfl

/-- An `unplaced` instruction does not depend on its position. -/
theorem Instruction.unplaced_mapPosition (f : Position → Position) (instruction : Instruction) :
    (instruction.mapPosition f).unplaced = instruction.unplaced := by
  cases instruction <;> rfl

/-- The `gist` of a diagnostic tells whether it is `startNotFirst`. -/
theorem Diagnostic.cause_gist_iff (diagnostic : Diagnostic) :
    diagnostic.gist.cause = .line .startNotFirst ↔ diagnostic.cause = .line .startNotFirst := by
  obtain ⟨position, cause⟩ := diagnostic
  cases cause with
  | lexical failure => cases failure <;> simp [gist, unplaced, mapPosition]
  | line fault => cases fault <;> simp [gist, unplaced, mapPosition, LineFault.uncounted]

namespace Line

/-- The answer of `Line.instruction` with its instruction `unplaced`, or the `gist` of its
diagnostic. -/
def gist : Except Diagnostic Instruction → Except Diagnostic Instruction
  | .ok instruction => .ok instruction.unplaced
  | .error diagnostic => .error diagnostic.gist

/-- The `gist` of an answer does not depend on positions. -/
theorem gist_relocated (f : Position → Position) (answer : Except Diagnostic Instruction) :
    gist (relocated f answer) = gist answer := by
  cases answer with
  | ok instruction => exact congrArg Except.ok (instruction.unplaced_mapPosition f)
  | error diagnostic => exact congrArg Except.error (diagnostic.gist_mapPosition f)

/-- The `gist` of `Line.instruction` does not depend on the number of tokens. -/
theorem gist_instruction_count (afterOthers : Bool) (length other : Nat) (first : Token)
    (others : List Token) :
    gist (Line.instruction afterOthers length first others) =
      gist (Line.instruction afterOthers other first others) := by
  match others with
  | [] => rfl
  | [argument] => rfl
  | [source, comma, destination] => rfl
  | [_, _] => rfl
  | _ :: _ :: _ :: _ :: _ => rfl

/-- A token of that kind and value at `Position.start`. -/
def placeless (content : Kind × String) : Token :=
  ⟨content.1, content.2, .start⟩

/-- The `gist` of `Line.instruction` depends on the kinds and values of the tokens only. -/
theorem gist_instruction (afterOthers : Bool) (length : Nat) (first : Token)
    (others : List Token) :
    gist (Line.instruction afterOthers length first others) =
      gist (Line.instruction afterOthers 0 (placeless (first.kind, first.value))
        ((others.map fun token => (token.kind, token.value)).map placeless)) := by
  have hfirst : placeless (first.kind, first.value) = first.mapPosition fun _ => .start := rfl
  have hothers : (others.map fun token => (token.kind, token.value)).map placeless =
      others.map (Token.mapPosition fun _ => .start) := List.map_map
  rw [hfirst, hothers, instruction_mapPosition, gist_relocated]
  exact gist_instruction_count afterOthers length 0 first others

end Line

/-! ### What is read from lines -/

/-- What is read from a text whatever its layout: the instructions, the diagnostics after which the
reading goes on, and the `fatal` one that ends it. -/
structure Outline where
  instructions : List Instruction := []
  diagnostics : List Diagnostic := []
  fatal : Option Diagnostic := none
  deriving DecidableEq, Repr

/-- The `Outline` of lines, at the beginning of a program or after other instructions. -/
def Line.outline (afterOthers : Bool) : List (List (Kind × String)) → Outline
  | [] => {}
  | [] :: lines => outline afterOthers lines
  | (first :: others) :: lines =>
    match gist (Line.instruction afterOthers 0 (placeless first) (others.map placeless)) with
    | .ok instruction =>
      let rest := outline true lines
      { rest with instructions := instruction :: rest.instructions }
    | .error diagnostic =>
      if diagnostic.cause = .line .startNotFirst then { fatal := some diagnostic }
      else
        let rest := outline afterOthers lines
        { rest with diagnostics := diagnostic :: rest.diagnostics }

namespace Line

variable {afterOthers : Bool} {length : Nat} {first : Token} {others : List Token}
  {lines : List (List Token)}

/-- The `outline` of a line that can be read and others: its instruction comes first. -/
theorem outline_of_ok {instruction : Instruction}
    (h : Line.instruction afterOthers length first others = .ok instruction) :
    outline afterOthers (contents ((first :: others) :: lines)) =
      { outline true (contents lines) with
        instructions := instruction.unplaced :: (outline true (contents lines)).instructions } := by
  have hgist := gist_instruction afterOthers length first others
  rw [h] at hgist
  rw [contents, List.map_cons, List.map_cons, outline, ← hgist]
  rfl

/-- The `outline` of a line that cannot be read and others: its diagnostic comes first, and
`startNotFirst` is `fatal`. -/
theorem outline_of_error {diagnostic : Diagnostic}
    (h : Line.instruction afterOthers length first others = .error diagnostic) :
    outline afterOthers (contents ((first :: others) :: lines)) =
      if diagnostic.cause = .line .startNotFirst then { fatal := some diagnostic.gist }
      else
        { outline afterOthers (contents lines) with
          diagnostics :=
            diagnostic.gist :: (outline afterOthers (contents lines)).diagnostics } := by
  have hgist := gist_instruction afterOthers length first others
  rw [h] at hgist
  rw [contents, List.map_cons, List.map_cons, outline, ← hgist]
  simp only [gist, diagnostic.cause_gist_iff]
  rfl

end Line

/-! ### Readers -/

namespace Reader

variable {reader : Reader}

/-- What a `step` does with the first `pending` line.

* `skip`: it took an empty line in front of that line.
* `ok`: the line is an instruction.
* `complain`: there is a diagnostic about the line, and the reading goes on.
* `stop`: the line is a late origin, which ends the reading. -/
inductive Advance (reader : Reader) : Reader → Option Diagnostic → Prop
  | skip {next : Reader} (hpending : next.pending = reader.pending)
      (hinstructions : next.instructions = reader.instructions)
      (hdiagnostics : next.diagnostics = reader.diagnostics) : Advance reader next none
  | ok {next : Reader} {first : Token} {others : List Token} {length : Nat}
      {instruction : Instruction}
      (hread : Line.instruction (!reader.instructions.isEmpty) length first others =
        .ok instruction)
      (hpending : reader.pending = (first :: others) :: next.pending)
      (hinstructions : next.instructions = reader.instructions ++ [instruction])
      (hdiagnostics : next.diagnostics = reader.diagnostics) : Advance reader next none
  | complain {next : Reader} {first : Token} {others : List Token} {length : Nat}
      {diagnostic : Diagnostic}
      (hread : Line.instruction (!reader.instructions.isEmpty) length first others =
        .error diagnostic)
      (hcause : diagnostic.cause ≠ .line .startNotFirst)
      (hpending : reader.pending = (first :: others) :: next.pending)
      (hinstructions : next.instructions = reader.instructions)
      (hdiagnostics : next.diagnostics = reader.diagnostics ++ [diagnostic]) :
      Advance reader next none
  | stop {next : Reader} {first : Token} {others : List Token} {lines : List (List Token)}
      {length : Nat} {diagnostic : Diagnostic}
      (hread : Line.instruction (!reader.instructions.isEmpty) length first others =
        .error diagnostic)
      (hcause : diagnostic.cause = .line .startNotFirst)
      (hpending : reader.pending = (first :: others) :: lines)
      (hinstructions : next.instructions = reader.instructions)
      (hdiagnostics : next.diagnostics = reader.diagnostics) :
      Advance reader next (some diagnostic)

/-- In a text that `IsClean`, a `step` is an `Advance`, and the rest `IsClean`. -/
theorem IsClean.advance (h : reader.IsClean) (hdone : reader.done = false) :
    reader.step.1.IsClean ∧ reader.Advance reader.step.1 reader.step.2 := by
  obtain ⟨tokens, last, done, -, hstep, hclean, hpending⟩ := h.step hdone
  rw [hstep]
  refine ⟨hclean.accept tokens, ?_⟩
  cases hline : Line.significant tokens with
  | nil =>
      rw [hline] at hpending
      rw [accept_of_nil hline]
      exact .skip hpending.symm rfl rfl
  | cons first others =>
      rw [hline] at hpending
      cases hread : Line.instruction
          (!({ reader with lexer := last, done := done } : Reader).instructions.isEmpty)
          (Line.nontrivial tokens).length first others with
      | ok instruction =>
          rw [accept_of_ok hline hread]
          exact .ok hread hpending rfl rfl
      | error diagnostic =>
          rw [accept_of_error hline hread]
          by_cases hcause : diagnostic.cause = .line .startNotFirst
          · rw [if_pos hcause]
            exact .stop hread hcause hpending rfl rfl
          · rw [if_neg hcause]
            exact .complain hread hcause hpending rfl rfl

/-- The `Line.outline` of the `pending` lines of a reader. -/
def outline (reader : Reader) : Outline :=
  Line.outline (!reader.instructions.isEmpty) (Line.contents reader.pending)

/-- The `drain` of a reader that `IsClean` adds its `outline` to what was read before. Induction
along `drain`. -/
theorem drain_outline (h : reader.IsClean) :
    reader.drain.1.instructions.map Instruction.unplaced =
        reader.instructions.map Instruction.unplaced ++ reader.outline.instructions ∧
      reader.drain.1.diagnostics.map Diagnostic.gist =
        reader.diagnostics.map Diagnostic.gist ++ reader.outline.diagnostics ∧
      reader.drain.2.map Diagnostic.gist = reader.outline.fatal := by
  fun_induction Reader.drain reader with
  | case1 reader hdone =>
      have hnone : reader.outline = {} := by
        rw [outline, pending, if_pos hdone]
        rfl
      simp [hnone]
  | case2 reader hdone next diagnostic hstep =>
      obtain ⟨-, hadvance⟩ := h.advance (Bool.eq_false_iff.mpr hdone)
      rw [hstep] at hadvance
      cases hadvance with
      | stop hread hcause hpending hinstructions hdiagnostics =>
          rw [outline, hpending, Line.outline_of_error hread, if_pos hcause, hinstructions,
            hdiagnostics]
          simp
  | case3 reader hdone next hstep ih =>
      obtain ⟨hnext, hadvance⟩ := h.advance (Bool.eq_false_iff.mpr hdone)
      rw [hstep] at hnext hadvance
      dsimp only at hnext hadvance
      obtain ⟨hprogram, hcomplaints, hfatal⟩ := ih hnext
      rw [hprogram, hcomplaints, hfatal, outline, outline]
      cases hadvance with
      | skip hpending hinstructions hdiagnostics =>
          rw [hpending, hinstructions, hdiagnostics]
          exact ⟨rfl, rfl, rfl⟩
      | ok hread hpending hinstructions hdiagnostics =>
          have hafter : (!next.instructions.isEmpty) = true := by simp [hinstructions]
          rw [hafter, hpending, Line.outline_of_ok hread, hinstructions, hdiagnostics]
          simp
      | complain hread hcause hpending hinstructions hdiagnostics =>
          rw [hpending, Line.outline_of_error hread, if_neg hcause, hinstructions, hdiagnostics]
          simp

end Reader

/-- What is read from a source that `IsClean` is the `Line.outline` of its `significantLines`. -/
theorem Source.outline_eq {source : Source} (h : (Lexer.ofSource source).IsClean) :
    source.program.map Instruction.unplaced =
        (Line.outline false source.significantLines).instructions ∧
      (Reader.ofSource source).drain.1.diagnostics.map Diagnostic.gist =
        (Line.outline false source.significantLines).diagnostics ∧
      (Reader.ofSource source).drain.2.map Diagnostic.gist =
        (Line.outline false source.significantLines).fatal :=
  @Reader.drain_outline (Reader.ofSource source) fun _ => h

/-! ### Assemblies -/

/-- Instructions that are equal `unplaced` are `Moved`. -/
theorem Instruction.moved_of_unplaced_eq {instruction other : Instruction}
    (h : instruction.unplaced = other.unplaced) : instruction.Moved other := by
  refine ⟨other.position, ?_⟩
  cases instruction <;> cases other <;> cases h <;> rfl

/-- Programs that are equal `unplaced` are `Moved`, instruction by instruction. -/
theorem forall₂_moved_of_unplaced_eq {program other : List Instruction}
    (h : program.map Instruction.unplaced = other.map Instruction.unplaced) :
    List.Forall₂ Instruction.Moved program other := by
  induction program generalizing other with
  | nil =>
      obtain rfl : other = [] := by simpa using h.symm
      exact .nil
  | cons instruction program ih =>
      cases other with
      | nil => cases h
      | cons instruction' other =>
          obtain ⟨hfirst, hothers⟩ := List.cons.inj h
          exact .cons (Instruction.moved_of_unplaced_eq hfirst) (ih hothers)

/-- The `unplaced` error of a fault depends on the `unplaced` instruction only. -/
theorem AssemblyError.unplaced_ofFault {instruction other : Option Instruction}
    (fault : AssemblyFault)
    (h : instruction.map Instruction.unplaced = other.map Instruction.unplaced) :
    (AssemblyError.ofFault instruction fault).unplaced = (ofFault other fault).unplaced := by
  rw [unplaced, unplaced]
  exact congrArg (AssemblyError.mk .start · fault) h

/-- For programs that are equal `unplaced`, outcomes in the relation `SameOutcome` are equal after
`Outcome.erase`. -/
theorem Placement.SameOutcome.erase_eq {program other : List Instruction}
    {outcome outcome' : Outcome} (f : Diagnostic → Diagnostic)
    (h : SameOutcome program other outcome outcome')
    (hsame : program.map Instruction.unplaced = other.map Instruction.unplaced) :
    outcome'.erase f = outcome.erase f := by
  rcases h with ⟨image, rfl, rfl⟩ | ⟨index, fault, -, -, rfl, rfl⟩ | ⟨rfl, rfl⟩
  · rfl
  · have hget : program[index]?.map Instruction.unplaced =
        other[index]?.map Instruction.unplaced := by
      rw [← List.getElem?_map, ← List.getElem?_map, hsame]
    rw [Outcome.erase, Outcome.erase, AssemblyError.unplaced_ofFault fault hget]
  · rfl

/-- **Layout is irrelevant.** Take two sources that are read without a failure and have the same
`significantLines`. They are read as the same instructions, up to positions, with the same
diagnostics and the same `fatal` one, up to positions and numbers of tokens. An assembler that
compiles one of them keeps what it keeps after the other, origin and labels included, and has the
same outcome: the same image, the same error up to positions, or the same complaints up to positions
and numbers. -/
theorem layout_irrelevant (source other : Source) (hclean : (Lexer.ofSource source).IsClean)
    (hother : (Lexer.ofSource other).IsClean)
    (hlines : other.significantLines = source.significantLines) :
    other.program.map Instruction.unplaced = source.program.map Instruction.unplaced ∧
    (Reader.ofSource other).drain.1.diagnostics.map Diagnostic.gist =
      (Reader.ofSource source).drain.1.diagnostics.map Diagnostic.gist ∧
    (Reader.ofSource other).drain.2.map Diagnostic.gist =
      (Reader.ofSource source).drain.2.map Diagnostic.gist ∧
    ∀ assembler : Assembler,
      (assembler.compile other).1 = (assembler.compile source).1 ∧
      (assembler.compile other).2.1.erase Diagnostic.gist =
        (assembler.compile source).2.1.erase Diagnostic.gist := by
  obtain ⟨hprogram, hdiagnostics, hfatal⟩ := Source.outline_eq hclean
  obtain ⟨hprogram', hdiagnostics', hfatal'⟩ := Source.outline_eq hother
  rw [hlines, ← hprogram] at hprogram'
  rw [hlines, ← hdiagnostics] at hdiagnostics'
  rw [hlines, ← hfatal] at hfatal'
  refine ⟨hprogram', hdiagnostics', hfatal', fun assembler => ?_⟩
  have hcomplaints : other.complaints.map Diagnostic.gist =
      source.complaints.map Diagnostic.gist := by
    rw [Source.complaints, Source.complaints, Reader.complaints, Reader.complaints,
      List.map_append, List.map_append, hdiagnostics', ← Option.toList_map, hfatal',
      Option.toList_map]
  by_cases hnil : source.complaints = []
  · have hnil' : other.complaints = [] := by
      rw [hnil] at hcomplaints
      simpa using hcomplaints
    obtain ⟨hstate, houtcome⟩ := Placement.compile_of_nil assembler hnil
    obtain ⟨hstate', houtcome'⟩ := Placement.compile_of_nil assembler hnil'
    obtain ⟨hkept, hagree⟩ := Placement.assemble_agree assembler
      (Placement.sound_of_isProgram source.isProgram_program)
      (forall₂_moved_of_unplaced_eq hprogram'.symm)
    rw [hstate, hstate', houtcome, houtcome']
    exact ⟨hkept, hagree.erase_eq Diagnostic.gist hprogram'.symm⟩
  · have hne' : other.complaints ≠ [] := by
      intro hnil'
      rw [hnil'] at hcomplaints
      exact hnil (by simpa using hcomplaints.symm)
    rw [Placement.state_compile_of_ne_nil assembler hnil,
      Placement.state_compile_of_ne_nil assembler hne', Placement.compile_of_ne_nil assembler hnil,
      Placement.compile_of_ne_nil assembler hne']
    exact ⟨rfl, congrArg Outcome.rejected hcomplaints⟩

/-- Two layouts of a program with a good line and a bad one. In the second, the bad line is the last
and has no end of line. -/
theorem layout_irrelevant_respaced :
    let source : Source := ⟨"\tDEF .a;x\r\n\n A B C\n".toList, none⟩
    let other : Source := ⟨"DEF .a\nA B C".toList, none⟩
    other.significantLines = source.significantLines ∧ source.complaints ≠ [] ∧
      other.program.map Instruction.unplaced = source.program.map Instruction.unplaced ∧
      (Assembler.compile {} other).2.1.erase Diagnostic.gist =
        (Assembler.compile {} source).2.1.erase Diagnostic.gist := by
  intro source other
  have hlines : other.significantLines = source.significantLines := by decide +kernel
  have hclean : (Lexer.ofSource source).IsClean := by
    rw [Lexer.IsClean]
    decide +kernel
  have hother : (Lexer.ofSource other).IsClean := by
    rw [Lexer.IsClean]
    decide +kernel
  obtain ⟨hprogram, -, -, hcompile⟩ := layout_irrelevant source other hclean hother hlines
  exact ⟨hlines, by decide +kernel, hprogram, (hcompile {}).2⟩

/-- The `expressionLength` of a line of three tokens counts the end of the line where there is one.
So two sources with the same `significantLines` can be refused with different complaints, even
`unplaced`. -/
theorem count_depends_on_layout :
    let source : Source := ⟨"A B C".toList, none⟩
    let other : Source := ⟨"A B C\n".toList, none⟩
    (Lexer.ofSource source).IsClean ∧ (Lexer.ofSource other).IsClean ∧
      other.significantLines = source.significantLines ∧
      (Assembler.compile {} source).2.1 = .rejected [⟨.start, .line (.expressionLength 3)⟩] ∧
      (Assembler.compile {} other).2.1 = .rejected [⟨.start, .line (.expressionLength 4)⟩] ∧
      (Assembler.compile {} other).2.1.erase Diagnostic.unplaced ≠
        (Assembler.compile {} source).2.1.erase Diagnostic.unplaced := by
  intro source other
  have hclean : (Lexer.ofSource source).IsClean := by
    rw [Lexer.IsClean]
    decide +kernel
  have hother : (Lexer.ofSource other).IsClean := by
    rw [Lexer.IsClean]
    decide +kernel
  have hthree : (Assembler.compile {} source).2.1 =
      .rejected [⟨.start, .line (.expressionLength 3)⟩] := by decide +kernel
  have hfour : (Assembler.compile {} other).2.1 =
      .rejected [⟨.start, .line (.expressionLength 4)⟩] := by decide +kernel
  refine ⟨hclean, hother, by decide +kernel, hthree, hfour, ?_⟩
  rw [hthree, hfour]
  decide

end MovAsm

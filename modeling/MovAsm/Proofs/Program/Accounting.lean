import Mathlib.Data.List.Forall2
import MovAsm.Proofs.Program.Correspondence
import MovAsm.Proofs.Program.Rows

/-!
# One Line, One Outcome

A reader accounts for each line that says anything, once: it makes an instruction, or there is a
complaint about it, or it is an origin that comes too late and ends the reading. Lines that say
nothing leave no trace. A malformed token keeps its line from being accounted for, and all that
follow.

What a line becomes stands at one of its own tokens. Lines are on rows one below the other, so no
two entries are on the same line.

## Main definitions

* `Line.Settled` — the instructions and diagnostics that lines have become;
* `Source.completeLines` — the lines of a source that can be read to their ends;
* `Reader.Accounted` — a reader has settled a prefix of the lines of a source.

## Main results

* `Line.instruction_complains`: a line is complained about at one of its tokens.
* `Lexer.line_cases`: a line ends the complete lines, or is the first of them.
* `Reader.Accounted.step`, `Reader.Accounted.drain`: a step and a whole reading account for lines.
* `Line.Settled.increasing`: instructions and diagnostics are on lines further and further down.
* `one_line_one_outcome`: each line of a source is an instruction or has one diagnostic.
-/

namespace MovAsm

/-! ### Complaints about a line -/

namespace Line

/-- If a check fails, its diagnostic is a `complain` at a token of the line, and `startNotFirst` is
only at the first token. -/
def Complains (first : Token) (others : List Token) {α : Type} (check : Except Diagnostic α) :
    Prop :=
  ∀ diagnostic, check = .error diagnostic →
    ∃ token ∈ first :: others, ∃ fault, diagnostic = complain token fault ∧
      (fault = .startNotFirst → token = first)

section Checks

variable {α β : Type} {first token : Token} {others : List Token}

/-- A check that does not fail. -/
theorem complains_pure (a : α) : Complains first others (pure a : Except Diagnostic α) := by
  intro diagnostic h
  cases h

/-- A check that fails with `complain` at a token of the line. -/
theorem complains_throw {fault : LineFault} (hmem : token ∈ first :: others)
    (hfault : fault = .startNotFirst → token = first) :
    Complains first others (throw (complain token fault) : Except Diagnostic α) := by
  intro diagnostic h
  cases h
  exact ⟨token, hmem, fault, rfl, hfault⟩

/-- Two checks, one after the other. -/
theorem Complains.bind {check : Except Diagnostic α} {next : α → Except Diagnostic β}
    (h : Complains first others check) (hnext : ∀ a, Complains first others (next a)) :
    Complains first others (check >>= next) := by
  intro diagnostic hfailed
  cases check with
  | error found =>
      cases hfailed
      exact h diagnostic rfl
  | ok a => exact hnext a diagnostic hfailed

/-- The check `expect` of the kind of a token. -/
theorem expect_complains (want : List Kind) (hmem : token ∈ first :: others) :
    Complains first others (expect want token) := by
  rw [expect]
  split
  · exact complains_pure ()
  · exact complains_throw hmem (by simp)

/-- The check `keyword`. -/
theorem keyword_complains (shape : Shape) (hmem : token ∈ first :: others) :
    Complains first others (keyword shape token) := by
  refine (expect_complains _ hmem).bind fun _ => ?_
  split
  · exact complains_throw hmem (by simp)
  · split
    · exact complains_pure _
    · exact complains_throw hmem (by simp)

/-- The check `operand`. -/
theorem operand_complains (hmem : token ∈ first :: others) :
    Complains first others (Line.operand token) := by
  rw [Line.operand]
  split
  · exact complains_throw hmem (by simp)
  · exact complains_pure _

/-- The check `checkDestination`. -/
theorem checkDestination_complains {source destination : Token} (start goal : Operand)
    (hsource : source ∈ first :: others) (hdestination : destination ∈ first :: others) :
    Complains first others (checkDestination source destination start goal) := by
  rw [checkDestination]
  split
  · exact complains_pure ()
  · split
    · exact complains_throw hdestination (by simp)
    · split
      · exact complains_throw hdestination (by simp)
      · split
        · exact complains_throw hsource (by simp)
        · exact complains_pure ()

/-- If `Line.instruction` fails, its diagnostic is at a token of the line, and `startNotFirst` is at
the first. -/
theorem instruction_complains (afterOthers : Bool) (length : Nat) (first : Token)
    (others : List Token) :
    Complains first others (Line.instruction afterOthers length first others) := by
  match others with
  | [] => exact (keyword_complains _ (by simp)).bind fun _ => complains_pure _
  | [argument] =>
      refine (keyword_complains _ (by simp)).bind fun read => ?_
      refine (expect_complains _ (by simp)).bind fun _ => ?_
      split
      · exact complains_throw (by simp) fun _ => rfl
      · exact (operand_complains (by simp)).bind fun _ => complains_pure _
  | [source, comma, destination] =>
      refine (keyword_complains _ (by simp)).bind fun read => ?_
      refine (expect_complains _ (by simp)).bind fun _ => ?_
      refine (expect_complains _ (by simp)).bind fun _ => ?_
      refine (expect_complains _ (by simp)).bind fun _ => ?_
      refine (operand_complains (by simp)).bind fun start => ?_
      refine (operand_complains (by simp)).bind fun goal => ?_
      exact (checkDestination_complains start goal (by simp) (by simp)).bind
        fun _ => complains_pure _
  | [_, _] => exact complains_throw (by simp) (by simp)
  | _ :: _ :: _ :: _ :: _ => exact complains_throw (by simp) (by simp)

/-- The instruction that `Line.instruction` answers is at the first token of the line. -/
theorem position_of_instruction {afterOthers : Bool} {length : Nat} {instruction : Instruction}
    (h : Line.instruction afterOthers length first others = .ok instruction) :
    instruction.position = first.start := by
  match others with
  | [] =>
      obtain ⟨read, -, hread⟩ := Check.bind_eq_ok_iff.mp h
      cases hread
      rfl
  | [argument] =>
      obtain ⟨read, value, -, -, -, -, rfl⟩ := unary_eq_ok_iff.mp h
      rfl
  | [source, comma, destination] =>
      obtain ⟨read, start, goal, -, -, -, -, -, -, -, rfl⟩ := binary_eq_ok_iff.mp h
      rfl
  | [_, _] => cases h
  | _ :: _ :: _ :: _ :: _ => cases h

end Checks

/-! ### What becomes of lines -/

/-- What has become of some lines: instructions, diagnostics, and the diagnostic of a late origin.

* `instruction`: a line is an instruction at its first token.
* `complaint`: there is a diagnostic at a token of the line.
* `late`: the last line is an origin that comes after instructions. -/
inductive Settled :
    List (List Token) → List Instruction → List Diagnostic → Option Diagnostic → Prop
  | nil : Settled [] [] [] none
  | instruction {first : Token} {others : List Token} {lines : List (List Token)}
      {instruction : Instruction} {instructions : List Instruction} {diagnostics : List Diagnostic}
      {late : Option Diagnostic} (hposition : instruction.position = first.start)
      (hlines : Settled lines instructions diagnostics late) :
      Settled ((first :: others) :: lines) (instruction :: instructions) diagnostics late
  | complaint {line : List Token} {token : Token} {fault : LineFault} {lines : List (List Token)}
      {instructions : List Instruction} {diagnostics : List Diagnostic} {late : Option Diagnostic}
      (hmem : token ∈ line) (hfault : fault ≠ .startNotFirst)
      (hlines : Settled lines instructions diagnostics late) :
      Settled (line :: lines) instructions (complain token fault :: diagnostics) late
  | late {first : Token} {others : List Token} :
      Settled [first :: others] [] [] (some (complain first .startNotFirst))

/-- More lines go behind `Settled` lines without a late origin. -/
theorem Settled.append {lines lines' : List (List Token)}
    {instructions instructions' : List Instruction} {diagnostics diagnostics' : List Diagnostic}
    {earlier late : Option Diagnostic} (h : Settled lines instructions diagnostics earlier)
    (hnone : earlier = none) (hmore : Settled lines' instructions' diagnostics' late) :
    Settled (lines ++ lines') (instructions ++ instructions') (diagnostics ++ diagnostics')
      late := by
  induction h with
  | nil => exact hmore
  | instruction hposition hlines ih => exact .instruction hposition (ih hnone)
  | complaint hmem hfault hlines ih => exact .complaint hmem hfault (ih hnone)
  | late => cases hnone

end Line

/-! ### Complete lines -/

namespace Lexer

/-- The tokens up to the first failure of `Lexer.next`. -/
def soundTokens (lexer : Lexer) : List Token :=
  (lexer.all.1.takeWhile (·.failure.isNone)).map Reading.token

/-- The tokens of lines that can be read to their ends: the `soundTokens` up to the last newline or
the end of file. -/
def completeTokens (lexer : Lexer) : List Token :=
  lexer.soundTokens.rdropWhile fun token => token.kind ≠ .newline && token.kind ≠ .endOfFile

variable {lexer next : Lexer} {token : Token}

/-- There are no `soundTokens` if the first call fails. -/
theorem soundTokens_of_failure {failure : LexFailure}
    (hnext : lexer.next = (⟨token, some failure⟩, next)) : lexer.soundTokens = [] := by
  rw [soundTokens, all, dif_pos (by simp [hnext, Reading.isFinal]), hnext]
  rfl

/-- The end of file is the last of the `soundTokens`. -/
theorem soundTokens_of_endOfFile (hnext : lexer.next = (⟨token, none⟩, next))
    (hkind : token.kind = .endOfFile) : lexer.soundTokens = [token] := by
  rw [soundTokens, all_of_endOfFile (by rw [hnext]; exact hkind), hnext]
  rfl

/-- Any other token comes before the `soundTokens` of the rest. -/
theorem soundTokens_of_token (hnext : lexer.next = (⟨token, none⟩, next))
    (hkind : token.kind ≠ .endOfFile) : lexer.soundTokens = token :: next.soundTokens := by
  rw [soundTokens, all_of_ne_endOfFile (by rw [hnext]) (by rw [hnext]; exact hkind), hnext]
  rfl

/-- The first token stays in `rdropWhile` if something behind it stays or if the predicate fails on
it. -/
theorem rdropWhile_cons (p : Token → Bool) (token : Token) (tokens : List Token) :
    (token :: tokens).rdropWhile p =
      if tokens.rdropWhile p = [] ∧ p token = true then [] else token :: tokens.rdropWhile p := by
  have hnil : (tokens.reverse.dropWhile p).isEmpty = true ↔ tokens.rdropWhile p = [] := by
    simp [List.rdropWhile, List.isEmpty_iff]
  rw [List.rdropWhile, List.reverse_cons, List.dropWhile_append]
  by_cases hrest : tokens.rdropWhile p = []
  · rw [if_pos (hnil.mpr hrest), hrest]
    by_cases htoken : p token = true <;> simp [htoken]
  · rw [if_neg (mt hnil.mp hrest), if_neg fun h => hrest h.1, List.reverse_append]
    rfl

/-- The ways of `line`: it fails, and there are no `completeTokens`; or it has all of them; or it
has those up to a newline. Induction along `line`. -/
theorem line_cases (lexer : Lexer) :
    (∃ tokens diagnostic last failure, lexer.line = (tokens, .failed diagnostic, last) ∧
      diagnostic.cause = .lexical failure ∧ lexer.completeTokens = []) ∨
    (∃ tokens last, lexer.line = (tokens, .endOfFile, last) ∧ lexer.completeTokens = tokens ∧
      tokens ≠ [] ∧ ∀ token ∈ tokens, token.kind ≠ .newline) ∨
    ∃ tokens newline last, lexer.line = (tokens ++ [newline], .newline, last) ∧
      lexer.completeTokens = tokens ++ newline :: last.completeTokens ∧
      newline.kind = .newline ∧ ∀ token ∈ tokens, token.kind ≠ .newline := by
  fun_induction Lexer.line lexer with
  | case1 lexer token failure next hnext =>
      refine .inl ⟨_, _, _, failure, rfl, Diagnostic.cause_ofFailure _ failure, ?_⟩
      rw [completeTokens, soundTokens_of_failure hnext, List.rdropWhile_nil]
  | case2 lexer token next hnext hkind =>
      refine .inr (.inl ⟨[token], next, rfl, ?_, by simp, by simp [hkind]⟩)
      rw [completeTokens, soundTokens_of_endOfFile hnext hkind]
      simp [List.rdropWhile_singleton, hkind]
  | case3 lexer token next hnext hkind hnewline =>
      refine .inr (.inr ⟨[], token, next, rfl, ?_, hnewline, by simp⟩)
      rw [completeTokens, soundTokens_of_token hnext hkind, rdropWhile_cons, if_neg]
      · rfl
      · simp [hnewline]
  | case4 lexer token next hnext hkind hnewline tokens ending last hline ih =>
      have hcons : lexer.completeTokens =
          if next.completeTokens = [] then [] else token :: next.completeTokens := by
        rw [completeTokens, soundTokens_of_token hnext hkind, rdropWhile_cons]
        simp [completeTokens, hkind, hnewline]
      rw [hline] at ih
      rcases ih with ⟨tokens', diagnostic, last', failure, heq, hcause, hnone⟩ |
        ⟨tokens', last', heq, hall, hne, hmem⟩ | ⟨tokens', newline, last', heq, hall, hended, hmem⟩
      · cases heq
        exact .inl ⟨_, _, _, failure, rfl, hcause, by rw [hcons, if_pos hnone]⟩
      · cases heq
        refine .inr (.inl ⟨token :: tokens, last, rfl, ?_, by simp, ?_⟩)
        · rw [hcons, hall, if_neg hne]
        · exact List.forall_mem_cons.mpr ⟨hnewline, hmem⟩
      · cases heq
        refine .inr (.inr ⟨token :: tokens', newline, last, rfl, ?_, hended, ?_⟩)
        · rw [hcons, hall, if_neg (by simp)]
          rfl
        · exact List.forall_mem_cons.mpr ⟨hnewline, hmem⟩

end Lexer

/-- The lines of a source that can be read to their ends, without those that have no significant
tokens. -/
def Source.completeLines (source : Source) : List (List Token) :=
  Line.split (Lexer.ofSource source).completeTokens

/-! ### Lines on rows -/

/-- Each line has all its tokens on one of the rows, and the rows are strictly `increasing`. -/
structure Source.LinesOn (source : Source) (lines : List (List Token)) (rows : List Nat) :
    Prop where
  onRow : List.Forall₂ (fun line row => ∀ token ∈ line, source.OnRow row token.start) lines rows
  increasing : rows.Pairwise (· < ·)

/-- The first line is on the first row, above the others. -/
theorem Source.LinesOn.cons_inv {source : Source} {line : List Token} {lines : List (List Token)}
    {rows : List Nat} (h : source.LinesOn (line :: lines) rows) :
    ∃ row rest, rows = row :: rest ∧ (∀ token ∈ line, source.OnRow row token.start) ∧
      (∀ below ∈ rest, row < below) ∧ source.LinesOn lines rest := by
  obtain ⟨row, rest, honRow, hrest, rfl⟩ := List.forall₂_cons_left_iff.mp h.onRow
  obtain ⟨hbelow, hincreasing⟩ := List.pairwise_cons.mp h.increasing
  exact ⟨row, rest, rfl, honRow, hbelow, hrest, hincreasing⟩

/-- A line on a row below goes behind the lines, unless it has no significant tokens. -/
theorem Source.LinesOn.append {source : Source} {lines : List (List Token)} {rows : List Nat}
    {tokens : List Token} {row : Nat} (h : source.LinesOn lines rows)
    (htokens : ∀ token ∈ tokens, source.OnRow row token.start)
    (habove : ∀ other ∈ rows, other < row) :
    ∃ rows', source.LinesOn
        (lines ++ [Line.significant tokens].filter fun line => !line.isEmpty) rows' ∧
      ∀ other ∈ rows', other ≤ row := by
  cases hline : Line.significant tokens with
  | nil =>
      refine ⟨rows, ?_, fun other hother => (habove other hother).le⟩
      simpa using h
  | cons first others =>
      refine ⟨rows ++ [row], ⟨?_, ?_⟩, fun other hother => ?_⟩
      · refine List.rel_append h.onRow (.cons (fun token hmem => ?_) .nil)
        exact htokens token (Line.mem_of_mem_significant (hline ▸ hmem))
      · rw [List.pairwise_append]
        exact ⟨h.increasing, List.pairwise_singleton _ _, by simpa using habove⟩
      · rcases List.mem_append.mp hother with hold | hnew
        · exact (habove other hold).le
        · exact (List.mem_singleton.mp hnew).le

/-! ### Readers that account for lines -/

/-- The diagnostic is `startNotFirst`: an origin after other instructions. -/
def Diagnostic.isLate (diagnostic : Diagnostic) : Bool :=
  diagnostic.cause = .line .startNotFirst

namespace Reader

/-- To `accept` tokens adds their line to the `Settled` ones, unless it has no significant tokens,
and fails with a late origin only. -/
theorem settled_accept {reader : Reader} (tokens : List Token)
    (h : Line.Settled reader.lines reader.instructions reader.diagnostics none) :
    Line.Settled (reader.accept tokens).1.lines (reader.accept tokens).1.instructions
        (reader.accept tokens).1.diagnostics (reader.accept tokens).2 ∧
      (reader.accept tokens).1.lines =
        reader.lines ++ [Line.significant tokens].filter fun line => !line.isEmpty := by
  cases hline : Line.significant tokens with
  | nil =>
      rw [accept_of_nil hline]
      exact ⟨h, by simp⟩
  | cons first others =>
      cases hread : Line.instruction (!reader.instructions.isEmpty)
          (Line.nontrivial tokens).length first others with
      | ok instruction =>
          have hposition := Line.position_of_instruction hread
          rw [accept_of_ok hline hread]
          refine ⟨?_, rfl⟩
          have hsettled :=
            h.append rfl (@Line.Settled.instruction _ others _ _ _ _ _ hposition .nil)
          rwa [List.append_nil] at hsettled
      | error diagnostic =>
          obtain ⟨token, hmem, fault, rfl, hfirst⟩ := Line.instruction_complains _ _ _ _ _ hread
          have hcause : (Line.complain token fault).cause = .line .startNotFirst ↔
              fault = .startNotFirst := by simp [Line.complain]
          rw [accept_of_error hline hread]
          by_cases hfault : fault = .startNotFirst
          · rw [if_pos (hcause.mpr hfault)]
            refine ⟨?_, rfl⟩
            have hsettled := h.append rfl (@Line.Settled.late first others)
            rw [List.append_nil, List.append_nil] at hsettled
            rwa [hfirst hfault, hfault]
          · rw [if_neg (mt hcause.mp hfault)]
            refine ⟨?_, rfl⟩
            have hsettled := h.append rfl (.complaint hmem hfault .nil)
            rwa [List.append_nil] at hsettled

/-- The complete lines that are left to a reader. -/
def upcoming (reader : Reader) : List (List Token) :=
  if reader.done then [] else Line.split reader.lexer.completeTokens

/-- A reader has `settled` the first lines of a source, and was ended by the diagnostic `fatal` or
not at all. The lines are a prefix of `completeLines`, and none is left out unless an origin comes
late. They are on the `rows`; a failure that ended the reading, and what is left of the text, is on
a row below. -/
structure Accounted (source : Source) (rows : List Nat) (fatal : Option Diagnostic)
    (reader : Reader) : Prop where
  settled : Line.Settled reader.lines reader.instructions reader.diagnostics
    (fatal.filter Diagnostic.isLate)
  isPrefix : reader.lines <+: source.completeLines
  complete : fatal.filter Diagnostic.isLate = none →
    source.completeLines = reader.lines ++ reader.upcoming
  linesOn : source.LinesOn reader.lines rows
  failure : ∀ diagnostic ∈ fatal, diagnostic.isLate = false →
    (∃ failure, diagnostic.cause = .lexical failure) ∧
      ∃ row, source.OnRow row diagnostic.position ∧ ∀ other ∈ rows, other < row
  behind : reader.done = false →
    ∃ before, reader.lexer.Behind source before ∧ ∀ row ∈ rows, row ≤ lineEnds before

variable {source : Source} {rows : List Nat} {reader : Reader}

/-- At the beginning of a source, no line is settled. -/
theorem accounted_ofSource (source : Source) :
    (Reader.ofSource source).Accounted source [] none where
  settled := .nil
  isPrefix := List.nil_prefix
  complete _ := rfl
  linesOn := ⟨.nil, .nil⟩
  failure := by simp
  behind _ := ⟨[], Lexer.behind_ofSource source, by simp⟩

/-- To `accept` the tokens of the next row accounts for their line, if it has significant tokens. -/
theorem Accounted.accept {tokens : List Token} {row : Nat} {last : Lexer} {done : Bool}
    (h : reader.Accounted source rows none)
    (htokens : ∀ token ∈ tokens, source.OnRow row token.start)
    (habove : ∀ other ∈ rows, other < row)
    (hupcoming : reader.upcoming = ([Line.significant tokens].filter fun line => !line.isEmpty) ++
      { reader with lexer := last, done := done }.upcoming)
    (hbehind : done = false → ∃ after, last.Behind source after ∧ row ≤ lineEnds after) :
    ∃ rows', ({ reader with lexer := last, done := done }.accept tokens).1.Accounted source rows'
      ({ reader with lexer := last, done := done }.accept tokens).2 := by
  obtain ⟨rows', hlinesOn, hle⟩ := h.linesOn.append htokens habove
  have haccept := @settled_accept { reader with lexer := last, done := done } tokens h.settled
  have hlexer := lexer_accept { reader with lexer := last, done := done } tokens
  have hdone := accept_done_cases { reader with lexer := last, done := done } tokens
  have hcomplete := h.complete rfl
  rw [hupcoming, ← List.append_assoc] at hcomplete
  generalize { reader with lexer := last, done := done }.accept tokens = next at *
  obtain ⟨hsettled, hlines⟩ := haccept
  rw [← hlines] at hcomplete hlinesOn
  -- The line is on the list whatever becomes of it. A late origin ends the reading, and nothing is
  -- said of the lines behind it.
  rcases hdone with ⟨hnone, hdone⟩ | ⟨diagnostic, hsome, hlate, hdone⟩
  · rw [hnone] at hsettled ⊢
    refine ⟨rows', hsettled, ⟨_, hcomplete.symm⟩, fun _ => ?_, hlinesOn, by simp, fun hgoes => ?_⟩
    · rw [hcomplete, upcoming, upcoming, hdone, hlexer]
    · obtain ⟨after, hafter, hrow⟩ := hbehind (hdone.symm.trans hgoes)
      rw [hlexer]
      exact ⟨after, hafter, fun other hother => (hle other hother).trans hrow⟩
  · have hisLate : diagnostic.isLate = true := by simp [Diagnostic.isLate, hlate]
    rw [hsome] at hsettled ⊢
    refine ⟨rows', ?_, ⟨_, hcomplete.symm⟩, ?_, hlinesOn, ?_, ?_⟩
    · simpa [Option.filter, hisLate] using hsettled
    · simp [Option.filter, hisLate]
    · simp [hisLate]
    · simp [hdone]

/-- A `step` accounts for the next line, unless that cannot be read to its end. -/
theorem Accounted.step (h : reader.Accounted source rows none) (hdone : reader.done = false) :
    ∃ rows', reader.step.1.Accounted source rows' reader.step.2 := by
  obtain ⟨before, hbehind, hle⟩ := h.behind hdone
  have habove : ∀ other ∈ rows, other < lineEnds before + 1 :=
    fun other hother => Nat.lt_succ_of_le (hle other hother)
  have hupcoming : reader.upcoming = Line.split reader.lexer.completeTokens := by
    simp [upcoming, hdone]
  rw [Reader.step, if_neg (by simp [hdone])]
  rcases reader.lexer.line_cases with ⟨tokens, diagnostic, last, failure, hline, hcause, hnone⟩ |
    ⟨tokens, last, hline, hall, -, hmem⟩ | ⟨tokens, newline, last, hline, hall, hended, hmem⟩
  · -- What there was of the line is lost. All complete lines are settled.
    obtain ⟨-, -, -, -, hfailed⟩ := hbehind.line hline
    obtain ⟨row, honRow, hrow⟩ := hfailed diagnostic rfl
    have hlate : diagnostic.isLate = false := by simp [Diagnostic.isLate, hcause]
    have hfilter : (some diagnostic).filter Diagnostic.isLate = none := by
      simp [Option.filter, hlate]
    rw [hline]
    refine ⟨rows, ?_, h.isPrefix, fun _ => ?_, h.linesOn, ?_, by simp⟩
    · rw [hfilter]
      exact h.settled
    · rw [h.complete rfl, hupcoming, hnone]
      rfl
    · rintro other hother -
      obtain rfl := Option.mem_some.mp hother
      refine ⟨⟨failure, hcause⟩, row, honRow, fun above habove => ?_⟩
      exact (hle above habove).trans_lt hrow
  · obtain ⟨-, -, htokens, -⟩ := hbehind.line hline
    rw [hline]
    refine h.accept htokens habove ?_ (by simp)
    rw [hupcoming, hall, Line.split_of_forall_ne hmem, Line.significant_of_forall_ne hmem]
    exact (List.append_nil _).symm
  · obtain ⟨after, hafter, htokens, hlast, -⟩ := hbehind.line hline
    rw [hline]
    refine h.accept htokens habove ?_ fun _ => ⟨after, hafter, hlast rfl⟩
    rw [hupcoming, hall, Line.split_append_newline hended, Line.split_of_forall_ne hmem,
      Line.significant_append_newline hended]
    simp [upcoming, hdone]

/-- The `drain` of a reader accounts for all lines that can be read to their ends, up to a late
origin. Induction along `drain`. -/
theorem Accounted.drain (h : reader.Accounted source rows none) :
    ∃ rows', reader.drain.1.Accounted source rows' reader.drain.2 := by
  fun_induction Reader.drain reader generalizing rows with
  | case1 reader hdone => exact ⟨rows, h⟩
  | case2 reader hdone next diagnostic hstep =>
      have hnext := h.step (Bool.eq_false_iff.mpr hdone)
      rw [hstep] at hnext
      exact hnext
  | case3 reader hdone next hstep ih =>
      obtain ⟨rows', hnext⟩ := h.step (Bool.eq_false_iff.mpr hdone)
      rw [hstep] at hnext
      exact ih hnext

end Reader

/-! ### Numbers of lines -/

/-- The position is on one of the rows. -/
def Source.OnAny (source : Source) (rows : List Nat) (position : Position) : Prop :=
  ∃ row ∈ rows, source.OnRow row position

section Numbers

variable {source : Source} {lines : List (List Token)} {row : Nat} {rows : List Nat}
  {instructions : List Instruction} {diagnostics : List Diagnostic} {late : Option Diagnostic}

/-- A position `OnAny` of some rows is on any of these and another. -/
theorem Source.OnAny.cons {position : Position} (h : source.OnAny rows position) :
    source.OnAny (row :: rows) position := by
  obtain ⟨other, hmem, honRow⟩ := h
  exact ⟨other, List.mem_cons_of_mem row hmem, honRow⟩

/-- A position on rows that are all further down has a greater line number, if the row numbers fit a
word. -/
theorem Source.OnAny.line_lt {position other : Position} (h : source.OnAny rows other)
    (honRow : source.OnRow row position) (hbelow : ∀ below ∈ rows, row < below)
    (hbound : lineEnds source.chars + 1 < UInt64.size) : position.line < other.line := by
  obtain ⟨below, hmem, hother⟩ := h
  exact honRow.line_lt hother (hbelow below hmem) hbound

/-- The instructions and diagnostics of `Settled` lines are on the rows of these lines. -/
theorem Line.Settled.onAny (h : Line.Settled lines instructions diagnostics late)
    (hlines : source.LinesOn lines rows) :
    (∀ instruction ∈ instructions, source.OnAny rows instruction.position) ∧
      ∀ diagnostic ∈ diagnostics, source.OnAny rows diagnostic.position := by
  induction h generalizing rows with
  | nil => simp
  | instruction hposition hsettled ih =>
      obtain ⟨row, rest, rfl, honRow, -, hrest⟩ := hlines.cons_inv
      obtain ⟨hinstructions, hdiagnostics⟩ := ih hrest
      have hhere := honRow _ List.mem_cons_self
      rw [← hposition] at hhere
      refine ⟨List.forall_mem_cons.mpr ⟨⟨row, List.mem_cons_self, hhere⟩, fun other hmem => ?_⟩,
        fun other hmem => (hdiagnostics other hmem).cons⟩
      exact (hinstructions other hmem).cons
  | complaint hmem hfault hsettled ih =>
      obtain ⟨row, rest, rfl, honRow, -, hrest⟩ := hlines.cons_inv
      obtain ⟨hinstructions, hdiagnostics⟩ := ih hrest
      refine ⟨fun other hother => (hinstructions other hother).cons,
        List.forall_mem_cons.mpr ⟨⟨row, List.mem_cons_self, honRow _ hmem⟩, fun other hother => ?_⟩⟩
      exact (hdiagnostics other hother).cons
  | late => simp

/-- The line numbers of instructions increase, so do those of diagnostics, and no line number is
that of both, if the row numbers fit a word. Induction on `Settled`. -/
theorem Line.Settled.increasing (h : Line.Settled lines instructions diagnostics late)
    (hlines : source.LinesOn lines rows) (hbound : lineEnds source.chars + 1 < UInt64.size) :
    (instructions.Pairwise fun instruction other =>
        instruction.position.line < other.position.line) ∧
      (diagnostics.Pairwise fun diagnostic other =>
        diagnostic.position.line < other.position.line) ∧
      ∀ instruction ∈ instructions, ∀ diagnostic ∈ diagnostics,
        instruction.position.line ≠ diagnostic.position.line := by
  induction h generalizing rows with
  | nil => simp
  | instruction hposition hsettled ih =>
      obtain ⟨row, rest, rfl, honRow, hbelow, hrest⟩ := hlines.cons_inv
      obtain ⟨hinstructions, hdiagnostics⟩ := hsettled.onAny hrest
      obtain ⟨hfirst, hsecond, hapart⟩ := ih hrest
      have hhere := honRow _ List.mem_cons_self
      rw [← hposition] at hhere
      refine ⟨List.pairwise_cons.mpr ⟨fun other hmem => ?_, hfirst⟩, hsecond,
        List.forall_mem_cons.mpr ⟨fun other hmem => ?_, hapart⟩⟩
      · exact (hinstructions other hmem).line_lt hhere hbelow hbound
      · exact UInt64.ne_of_lt ((hdiagnostics other hmem).line_lt hhere hbelow hbound)
  | complaint hmem hfault hsettled ih =>
      obtain ⟨row, rest, rfl, honRow, hbelow, hrest⟩ := hlines.cons_inv
      obtain ⟨hinstructions, hdiagnostics⟩ := hsettled.onAny hrest
      obtain ⟨hfirst, hsecond, hapart⟩ := ih hrest
      have hhere := honRow _ hmem
      refine ⟨hfirst, List.pairwise_cons.mpr ⟨fun other hother => ?_, hsecond⟩,
        fun other hother => List.forall_mem_cons.mpr ⟨?_, hapart other hother⟩⟩
      · exact (hdiagnostics other hother).line_lt hhere hbelow hbound
      · exact (UInt64.ne_of_lt ((hinstructions other hother).line_lt hhere hbelow hbound)).symm
  | late => simp

end Numbers

/-- **One line, one outcome.** Read all lines of a source, whether or not it breaks off. Each line
that can be read to its end and has significant tokens is `Settled`: it is an instruction, or there
is a diagnostic at one of its own tokens, up to a late origin, which can only be the last line that
is read. What ends the reading otherwise is a lexical failure. The lines are on rows further and
further down, and that failure is on a row below. So if the row numbers fit a word, the line numbers
of instructions increase, as those of diagnostics do, no line has both, and that failure is on a
line behind them all. -/
theorem one_line_one_outcome (source : Source) :
    let reader := (Reader.ofSource source).drain.1
    let fatal := (Reader.ofSource source).drain.2
    let late := fatal.filter Diagnostic.isLate
    Line.Settled reader.lines reader.instructions reader.diagnostics late ∧
      reader.lines <+: source.completeLines ∧
      (late = none → reader.lines = source.completeLines) ∧
      (∃ rows, source.LinesOn reader.lines rows ∧
        ∀ diagnostic ∈ fatal, diagnostic.isLate = false →
          (∃ failure, diagnostic.cause = .lexical failure) ∧
            ∃ row, source.OnRow row diagnostic.position ∧ ∀ other ∈ rows, other < row) ∧
      (lineEnds source.chars + 1 < UInt64.size →
        (reader.instructions.Pairwise fun instruction other =>
          instruction.position.line < other.position.line) ∧
        (reader.diagnostics.Pairwise fun diagnostic other =>
          diagnostic.position.line < other.position.line) ∧
        (∀ instruction ∈ reader.instructions, ∀ diagnostic ∈ reader.diagnostics,
          instruction.position.line ≠ diagnostic.position.line) ∧
        ∀ diagnostic ∈ fatal, diagnostic.isLate = false →
          (∀ instruction ∈ reader.instructions,
            instruction.position.line < diagnostic.position.line) ∧
          ∀ complaint ∈ reader.diagnostics,
            complaint.position.line < diagnostic.position.line) := by
  intro reader fatal late
  obtain ⟨rows, haccounted⟩ := (Reader.accounted_ofSource source).drain
  refine ⟨haccounted.settled, haccounted.isPrefix, fun hnone => ?_,
    ⟨rows, haccounted.linesOn, haccounted.failure⟩, fun hbound => ?_⟩
  · rw [haccounted.complete hnone, Reader.upcoming, if_pos (Reader.done_drain _), List.append_nil]
  · obtain ⟨hfirst, hsecond, hapart⟩ := haccounted.settled.increasing haccounted.linesOn hbound
    obtain ⟨hinstructions, hdiagnostics⟩ := haccounted.settled.onAny haccounted.linesOn
    refine ⟨hfirst, hsecond, hapart, fun diagnostic hmem hlate => ?_⟩
    obtain ⟨-, row, honRow, habove⟩ := haccounted.failure diagnostic hmem hlate
    refine ⟨fun instruction hinstruction => ?_, fun complaint hcomplaint => ?_⟩
    · obtain ⟨above, hrow, hon⟩ := hinstructions instruction hinstruction
      exact hon.line_lt honRow (habove above hrow) hbound
    · obtain ⟨above, hrow, hon⟩ := hdiagnostics complaint hcomplaint
      exact hon.line_lt honRow (habove above hrow) hbound

end MovAsm

import MovAsm.Proofs.Assembly.Agreement
import MovAsm.Proofs.Program.Requests
import MovAsm.Proofs.Token.Lookahead

/-!
# Texts That Cannot Be Read to Their End

A text that breaks off has an end behind which nothing can be read, and a reason for that. The
first call of a lexer that looks past the end answers the reason, and so do all later ones. One
call does not: a sigil that ends the text is at fault because it has no digits, and that hides why
there are none.

A reader of such a text never comes to an end without a diagnostic. It reports the reason, unless it
was stopped before by something that stops the reading of the same text without the reason, too.

## Main results

* `Lexer.line_spec`: a line of a text that breaks off does not end with the text.
* `Reader.drain_spec`: what ends the reading of a text early.
* `Reader.drain_stop`: what stops the reading of such a text.
* `Reader.drain_plain`: what hides the reason is there without it.
* `interruption_reported`: which calls answer the reason, and what readers and assemblers make of
  it.
-/

namespace MovAsm

/-- The place behind the last character of a source. -/
def Source.ending (source : Source) : Position :=
  (Cursor.start.advanceAll source.chars).position

/-- The diagnostics with which the reading of a source can stop before its end.

* `unreadable`: the source breaks off, reported at `Source.ending`.
* `malformed`: there is a fault at a character of it.
* `loneSigil`: it ends in a sigil that has no digits. -/
inductive Source.Stop (source : Source) : Diagnostic → Prop
  | unreadable {reason : String} (hreason : source.failure = some reason) :
      Stop source ⟨source.ending, .lexical (.unreadable reason)⟩
  | malformed {before after : List Char} {c : Char} {error : LexError}
      (hchars : source.chars = before ++ c :: after)
      (hposition : error.position = (Cursor.start.advanceAll before).position)
      (hoffender : error.offender = c.toNat ∨ error.offender = 0 ∧ error.fault = .hexLength) :
      Stop source ⟨error.position, .lexical (.malformed error)⟩
  | loneSigil {before sigil : List Char} (hchars : source.chars = before ++ sigil)
      (hsigil : IsLoneSigil sigil) :
      Stop source ⟨source.ending, .lexical (.malformed ⟨source.ending, .hexLength, 0⟩)⟩
  | lateStart {position : Position} : Stop source ⟨position, .line .startNotFirst⟩

/-- The `cause` of `Diagnostic.ofFailure` is the failure. -/
@[simp] theorem Diagnostic.cause_ofFailure (after : Position) (failure : LexFailure) :
    (Diagnostic.ofFailure after failure).cause = .lexical failure := by
  cases failure <;> rfl

namespace Lexer

variable {lexer next : Lexer} {source : Source} {token : Token} {failure : LexFailure}

/-! ### Lines, by their first token -/

/-- A `line` whose first token comes with a failure answers no tokens and `failed`. -/
theorem line_of_failure (h : lexer.next = (⟨token, some failure⟩, next)) :
    lexer.line = ([], .failed (.ofFailure next.position failure), next) := by
  fun_cases line lexer with
  | case1 answered other after hnext =>
      rw [h] at hnext
      cases hnext
      rfl
  | _ => simp_all

/-- The answer of `line` by the kind of its first token: `endOfFile` and `newline` end it, after any
other token it goes on. -/
theorem line_of_token (h : lexer.next = (⟨token, none⟩, next)) :
    lexer.line =
      if token.kind = .endOfFile then ([token], .endOfFile, next)
      else if token.kind = .newline then ([token], .newline, next)
      else (token :: next.line.1, next.line.2) := by
  fun_cases line lexer with
  | case1 answered other after hnext =>
      rw [h] at hnext
      cases hnext
  | _ => simp_all

/-! ### Lines of a text that breaks off -/

/-- A failure that `next` answers `Within` a source is one of `Source.Stop`. -/
theorem Within.stop_of_failure (h : lexer.Within source)
    (hnext : lexer.next = (⟨token, some failure⟩, next)) :
    source.Stop (.ofFailure next.position failure) := by
  have hfailure : lexer.next.1.failure = some failure := by rw [hnext]
  have hwithin := h.next
  rw [hnext] at hwithin
  cases failure with
  | malformed error =>
      rcases h.malformed_cases hfailure with ⟨before, c, after, hchars, hposition, hoffender⟩ |
        ⟨hsigil, rfl⟩
      · exact .malformed hchars hposition hoffender
      · obtain ⟨before, hchars, -⟩ := h
        exact .loneSigil hchars hsigil
  | unreadable reason =>
      have hreason := failure_of_next hfailure
      have hrest := ((failure_next_iff hreason).mp hfailure).1.rest_next
      rw [hnext] at hrest
      obtain ⟨-, -, -, hsame⟩ := h
      rw [Diagnostic.ofFailure, hwithin.position_of_nil hrest]
      exact .unreadable (hsame.symm.trans hreason)

/-- A `line` stays `Within` its source, fails only with a `Source.Stop`, and answers `endOfFile`
only if the source has no `failure`. -/
theorem line_spec {tokens : List Token} {ending : LineEnd} {last : Lexer}
    (hwithin : lexer.Within source) (h : lexer.line = (tokens, ending, last)) :
    last.Within source ∧ (∀ diagnostic, ending = .failed diagnostic → source.Stop diagnostic) ∧
      (ending = .endOfFile → source.failure = none) := by
  fun_induction Lexer.line lexer generalizing tokens ending last with
  | case1 lexer token failure next hnext =>
      cases h
      refine ⟨?_, ?_, by simp⟩
      · have hlast := hwithin.next
        rw [hnext] at hlast
        exact hlast
      · intro diagnostic heq
        cases heq
        exact hwithin.stop_of_failure hnext
  | case2 lexer token next hnext hkind =>
      cases h
      have hlast := hwithin.next
      rw [hnext] at hlast
      refine ⟨hlast, by simp, fun _ => ?_⟩
      obtain ⟨-, -, -, hsame⟩ := hwithin
      rcases next_cases (show lexer.next.1.failure = none by rw [hnext]) with
        ⟨hrest, -⟩ | ⟨kind, chars, rest, -, hspells, -, hread⟩
      · rw [next_nil hrest] at hnext
        have hnone := congrArg (fun answer => answer.1.failure) hnext
        rw [← hsame]
        simpa using hnone
      · rw [hnext] at hread
        cases hread
        exact absurd hkind hspells.ne_endOfFile
  | case3 lexer token next hnext hkind hnewline =>
      cases h
      have hlast := hwithin.next
      rw [hnext] at hlast
      exact ⟨hlast, by simp, by simp⟩
  | case4 lexer token next hnext hkind hnewline tokens' ending' last' hline ih =>
      cases h
      have hlast := hwithin.next
      rw [hnext] at hlast
      exact ih hlast hline

/-! ### The same text without the reason -/

/-- The lexer without the reason why its text breaks off. -/
def plain (lexer : Lexer) : Lexer :=
  { lexer with failure := none }

/-- A call of `next` that does not answer the reason answers the same on `plain`. -/
theorem next_plain (h : ∀ reason, lexer.next.1.failure ≠ some (.unreadable reason)) :
    lexer.plain.next = (lexer.next.1, lexer.next.2.plain) := by
  cases hrest : lexer.rest with
  | nil =>
      rw [next_nil hrest] at h ⊢
      cases hfailure : lexer.failure with
      | some reason =>
          rw [hfailure] at h
          exact absurd rfl (h reason)
      | none =>
          rw [next_nil (show lexer.plain.rest = [] from hrest)]
          rfl
  | cons c tail =>
      have hplain : lexer.plain.rest = c :: tail := hrest
      have hsame : lexer.plain.next.1.failure = lexer.next.1.failure := by
        cases hfault : (lexeme c tail).fault with
        | some fault =>
            rw [failure_next_of_fault hplain hfault, failure_next_of_fault hrest hfault]
            rfl
        | none =>
            rw [failure_next_of_no_fault hrest hfault] at h ⊢
            rw [failure_next_of_no_fault hplain hfault]
            by_cases hend : tail.drop ((lexeme c tail).chars.length - 1) = [] ∧
                (lexeme c tail).kind ≠ .comma
            · simp only [if_pos hend] at h ⊢
              cases hfailure : lexer.failure with
              | some reason =>
                  rw [hfailure] at h
                  exact absurd rfl (h reason)
              | none => rfl
            · rw [if_neg hend, if_neg hend]
      rw [next_cons hrest] at hsame ⊢
      rw [next_cons hplain] at hsame ⊢
      dsimp only at hsame
      rw [hsame]
      rfl

/-- A `line` that does not fail with the reason is the same on `plain`. Induction along `line`. -/
theorem line_plain {tokens : List Token} {ending : LineEnd} {last : Lexer}
    (h : lexer.line = (tokens, ending, last))
    (hending : ∀ diagnostic reason, ending = .failed diagnostic →
      diagnostic.cause ≠ .lexical (.unreadable reason)) :
    lexer.plain.line = (tokens, ending, last.plain) := by
  -- A token without a failure is the same without the reason.
  have htoken {lexer next : Lexer} {token : Token} (hnext : lexer.next = (⟨token, none⟩, next)) :
      lexer.plain.next = (⟨token, none⟩, next.plain) := by
    rw [next_plain (by rw [hnext]; exact nofun), hnext]
  fun_induction Lexer.line lexer generalizing tokens ending last with
  | case1 lexer token failure next hnext =>
      cases h
      have hplain : lexer.plain.next = (⟨token, some failure⟩, next.plain) := by
        rw [next_plain, hnext]
        rw [hnext]
        intro reason heq
        cases heq
        exact hending _ reason rfl (by simp)
      exact line_of_failure hplain
  | case2 lexer token next hnext hkind =>
      cases h
      rw [line_of_token (htoken hnext), if_pos hkind]
  | case3 lexer token next hnext hkind hnewline =>
      cases h
      rw [line_of_token (htoken hnext), if_neg hkind, if_pos hnewline]
  | case4 lexer token next hnext hkind hnewline tokens' ending' last' hline ih =>
      cases h
      rw [line_of_token (htoken hnext), if_neg hkind, if_neg hnewline, ih hline hending]

end Lexer

namespace Reader

variable {reader next : Reader} {source : Source} {diagnostic : Diagnostic}

/-! ### Reading a text that breaks off -/

/-- If `drain` ends early, its diagnostic is a `Source.Stop`. If it does not, the source has no
`failure`. Induction along `drain`. -/
theorem drain_spec (hdone : reader.done = false) (hwithin : reader.lexer.Within source) :
    (∀ diagnostic, reader.drain.2 = some diagnostic → source.Stop diagnostic) ∧
      (reader.drain.2 = none → source.failure = none) := by
  -- Taking note of a line answers nothing but a late origin.
  have hlate {here next : Reader} {tokens : List Token} {diagnostic : Diagnostic}
      (haccept : (next, some diagnostic) = here.accept tokens) : source.Stop diagnostic := by
    rcases accept_done_cases here tokens with ⟨hnone, -⟩ | ⟨found, hsome, hcause, -⟩
    · rw [← haccept] at hnone
      cases hnone
    · rw [← haccept] at hsome
      cases hsome
      obtain ⟨position, cause⟩ := diagnostic
      cases hcause
      exact .lateStart
  fun_induction Reader.drain reader with
  | case1 reader hended =>
      rw [hdone] at hended
      cases hended
  | case2 reader hended next diagnostic hstep =>
      refine ⟨?_, by simp⟩
      rintro _ ⟨⟩
      rcases step_of_not_done hdone with ⟨tokens, found, last, hline, hfailed⟩ |
        ⟨tokens, last, -, haccept⟩ | ⟨tokens, last, -, haccept⟩
      · rw [hstep] at hfailed
        cases hfailed
        exact (Lexer.line_spec hwithin hline).2.1 _ rfl
      · exact hlate (hstep.symm.trans haccept)
      · exact hlate (hstep.symm.trans haccept)
  | case3 reader hended next hstep ih =>
      rcases step_of_not_done hdone with ⟨tokens, found, last, hline, hfailed⟩ |
        ⟨tokens, last, hline, haccept⟩ | ⟨tokens, last, hline, haccept⟩
      · rw [hstep] at hfailed
        cases hfailed
      · have hlast := done_accept { reader with lexer := last, done := true } tokens rfl
        rw [← haccept, hstep] at hlast
        rw [drain_of_done hlast]
        exact ⟨by simp, fun _ => (Lexer.line_spec hwithin hline).2.2 rfl⟩
      · have hlexer : next.lexer = last := by
          have hsame := lexer_accept { reader with lexer := last } tokens
          rw [← haccept, hstep] at hsame
          exact hsame
        rcases accept_done_cases { reader with lexer := last } tokens with
          ⟨-, hnext⟩ | ⟨found, hsome, -, -⟩
        · rw [← haccept, hstep] at hnext
          refine ih (hnext.trans hdone) ?_
          rw [hlexer]
          exact (Lexer.line_spec hwithin hline).1
        · rw [← haccept, hstep] at hsome
          cases hsome

/-- The `drain` of a source that breaks off ends with a `Source.Stop`. -/
theorem drain_stop (hdone : reader.done = false) (hwithin : reader.lexer.Within source)
    (hfailure : source.failure ≠ none) :
    ∃ diagnostic, reader.drain.2 = some diagnostic ∧ source.Stop diagnostic := by
  obtain ⟨hstop, hplain⟩ := drain_spec hdone hwithin
  obtain ⟨diagnostic, hdrain⟩ := Option.ne_none_iff_exists'.mp (mt hplain hfailure)
  exact ⟨diagnostic, hdrain, hstop diagnostic hdrain⟩

/-- The answer of `accept` does not depend on the lexer of the reader. -/
theorem accept_withLexer (reader : Reader) (lexer : Lexer) (tokens : List Token) :
    { reader with lexer := lexer }.accept tokens =
      ({ (reader.accept tokens).1 with lexer := lexer }, (reader.accept tokens).2) := by
  rw [accept, accept]
  split
  · rfl
  · dsimp only
    split
    · rfl
    · split <;> rfl

/-- The reader without the reason why its text breaks off. -/
def plain (reader : Reader) : Reader :=
  { reader with lexer := reader.lexer.plain }

/-- A `step` that does not report the reason is the same on `plain`. -/
theorem step_plain {fatal : Option Diagnostic} (h : reader.step = (next, fatal))
    (hfatal : ∀ reason, fatal.map Diagnostic.cause ≠ some (.lexical (.unreadable reason))) :
    reader.plain.step = (next.plain, fatal) := by
  cases hdone : reader.done with
  | true =>
      rw [step_of_done hdone] at h
      cases h
      exact step_of_done hdone
  | false =>
      -- The note that is taken of a line is the same in both texts.
      have hnote {here : Reader} {tokens : List Token}
          (haccept : reader.step = here.accept tokens) :
          here.plain.accept tokens = (next.plain, fatal) := by
        rw [h] at haccept
        have hlexer : next.lexer = here.lexer := by
          have hsame := lexer_accept here tokens
          rw [← haccept] at hsame
          exact hsame
        rw [plain, accept_withLexer, ← haccept, plain, hlexer]
      rw [step, if_neg (by simp [plain, hdone])]
      rcases step_of_not_done hdone with ⟨tokens, found, last, hline, hfailed⟩ |
        ⟨tokens, last, hline, haccept⟩ | ⟨tokens, last, hline, haccept⟩
      · rw [h] at hfailed
        cases hfailed
        have hcause : ∀ diagnostic reason, LineEnd.failed found = .failed diagnostic →
            diagnostic.cause ≠ .lexical (.unreadable reason) := by
          intro diagnostic reason heq
          cases heq
          simpa using hfatal reason
        rw [show reader.plain.lexer.line = _ from Lexer.line_plain hline hcause]
        rfl
      · rw [show reader.plain.lexer.line = _ from Lexer.line_plain hline (by simp)]
        exact hnote haccept
      · rw [show reader.plain.lexer.line = _ from Lexer.line_plain hline (by simp)]
        exact hnote haccept

/-- A diagnostic other than the reason with which `drain` ends is also that of `plain`. Induction
along `drain`. -/
theorem drain_plain (h : reader.drain.2 = some diagnostic)
    (hcause : ∀ reason, diagnostic.cause ≠ .lexical (.unreadable reason)) :
    reader.plain.drain.2 = some diagnostic := by
  fun_induction Reader.drain reader with
  | case1 reader hdone => cases h
  | case2 reader hdone next found hstep =>
      cases h
      rw [drain_of_step_eq_some (step_plain hstep (by simpa using hcause))]
  | case3 reader hdone next hstep ih =>
      rw [drain_of_step_eq_none (step_plain hstep (by simp))]
      exact ih h

end Reader

/-- **What becomes of the reason why a source breaks off.** A call of `next` answers the reason
exactly if the lexer `LooksPast` the end and is not in front of a lone sigil; after a call that
looks past the end, sigil or not, every call answers it. There is such a call after as many others
as there are characters. `drain` ends with a `Source.Stop`. If that is not the reason, it also ends
the `drain` of the same text without the reason: a fault at a character, a sigil at the end, or a
late origin. An assembler refuses the source with that diagnostic among its complaints. -/
theorem interruption_reported (source : Source) (reason : String)
    (hfailure : source.failure = some reason) :
    (∀ n, ((Lexer.run n (Lexer.ofSource source)).2.next.1.failure = some (.unreadable reason) ↔
        (Lexer.run n (Lexer.ofSource source)).2.LooksPast ∧
          ¬IsLoneSigil (Lexer.run n (Lexer.ofSource source)).2.rest) ∧
      ((Lexer.run n (Lexer.ofSource source)).2.LooksPast → ∀ m, n < m →
        (Lexer.run m (Lexer.ofSource source)).2.next.1.failure = some (.unreadable reason))) ∧
    (Lexer.run source.chars.length (Lexer.ofSource source)).2.LooksPast ∧
    ∃ diagnostic ∈ source.complaints,
      (Reader.ofSource source).drain.2 = some diagnostic ∧ source.Stop diagnostic ∧
      (diagnostic.cause ≠ .lexical (.unreadable reason) →
        (Reader.ofSource { source with failure := none }).drain.2 = some diagnostic) ∧
      ∀ assembler : Assembler, (assembler.compile source).2.1 = .rejected source.complaints := by
  have hwithin (n : Nat) := (Lexer.within_ofSource source).run n
  have hreason (n : Nat) : (Lexer.run n (Lexer.ofSource source)).2.failure = some reason := by
    obtain ⟨-, -, -, hsame⟩ := hwithin n
    rw [hsame, hfailure]
  refine ⟨fun n => ⟨Lexer.failure_next_iff (hreason n), ?_⟩, ?_, ?_⟩
  · intro hlooks m hlt
    have hrest : (Lexer.run (n + 1) (Lexer.ofSource source)).2.rest = [] := by
      rw [Lexer.run_succ]
      exact hlooks.rest_next
    rw [Lexer.next_nil (Lexer.rest_run_of_le hlt hrest), hreason]
    rfl
  · have hlength := Lexer.rest_run_length (Lexer.ofSource source) source.chars.length
    refine Lexer.looksPast_of_nil (List.eq_nil_of_length_eq_zero ?_)
    have hchars : (Lexer.ofSource source).rest.length = source.chars.length := rfl
    omega
  · obtain ⟨diagnostic, hdrain, hstop⟩ := @Reader.drain_stop (Reader.ofSource source) source rfl
      (Lexer.within_ofSource source) (by simp [hfailure])
    have hmem : diagnostic ∈ source.complaints := by
      rw [Source.complaints, Reader.complaints, hdrain]
      simp
    refine ⟨diagnostic, hmem, hdrain, hstop, fun hcause => ?_, fun assembler => ?_⟩
    · refine Reader.drain_plain hdrain fun other heq => hcause ?_
      cases hstop with
      | unreadable hother =>
          rw [hfailure] at hother
          cases hother
          rfl
      | malformed | loneSigil | lateStart => cases heq
    · exact Placement.compile_of_ne_nil assembler (List.ne_nil_of_mem hmem)

/-- A text that breaks off in a comment: the call that reads the comment answers the reason, and so
does the call after it. -/
theorem interruption_reported_in_comment :
    let source : Source := ⟨"HLT ;x".toList, some "gone"⟩
    source.failure = some "gone" ∧
      (Lexer.run 2 (Lexer.ofSource source)).2.LooksPast ∧
      (Lexer.run 2 (Lexer.ofSource source)).2.next.1 =
        ⟨⟨.comment, ";x", ⟨1, 4⟩⟩, some (.unreadable "gone")⟩ ∧
      (Lexer.run 3 (Lexer.ofSource source)).2.next.1.failure = some (.unreadable "gone") ∧
      ∃ diagnostic ∈ source.complaints, source.Stop diagnostic := by
  intro source
  obtain ⟨hcalls, -, diagnostic, hmem, -, hstop, -⟩ := interruption_reported source "gone" rfl
  have hanswer : (Lexer.run 2 (Lexer.ofSource source)).2.next.1 =
      ⟨⟨.comment, ";x", ⟨1, 4⟩⟩, some (.unreadable "gone")⟩ := by decide +kernel
  obtain ⟨hiff, hlater⟩ := hcalls 2
  have hlooks := (hiff.mp (by rw [hanswer])).1
  exact ⟨rfl, hlooks, hanswer, hlater hlooks 3 (by decide), diagnostic, hmem, hstop⟩

/-- A lone `#` hides why there is nothing behind it: the call looks past the end and answers
`hexLength`, and so does the reader. -/
theorem sigil_hides_interruption :
    let source : Source := ⟨['#'], some "gone"⟩
    (Lexer.ofSource source).LooksPast ∧
      (Lexer.ofSource source).next.1.failure = some (.malformed ⟨⟨1, 1⟩, .hexLength, 0⟩) ∧
      source.complaints = [⟨⟨1, 1⟩, .lexical (.malformed ⟨⟨1, 1⟩, .hexLength, 0⟩)⟩] := by
  intro source
  exact ⟨⟨['0'], by decide +kernel⟩, by decide +kernel, by decide +kernel⟩

end MovAsm

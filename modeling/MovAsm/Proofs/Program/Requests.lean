import MovAsm.Proofs.Program.Acceptance

/-!
# Reading on Request

A reader is asked for one line or for all that are left, any number of times and in any order. The
diagnostics about lines stay in `Reader.diagnostics`, and every later request of all lines complains
about them again. A diagnostic that ends the reading does not stay: it is the answer to the request
that meets it, and not to those after it. So a request of all lines without complaints shows that
the source is good only if no request before had a diagnostic.

## Main results

* `Reader.step_of_not_done`, `Reader.accept_done_cases`: what a step does, by the end of its line.
* `Lexer.isClean_of_line`: a line without a failure, and the text behind it.
* `Reader.isClean_of_drain`: what is read to its end was read without a failure.
* `Reader.drain_serve`: requests without a diagnostic change nothing in what is read.
* `Reader.serve_cases`: at most one request has a diagnostic, and it is that of reading at once.
* `drain_after_requests`: when a request of all lines has no complaints.
-/

namespace MovAsm

/-! ### Lines without a failure -/

namespace Lexer

variable {lexer : Lexer}

/-- A text `IsClean` if its first token has no failure and the text behind it `IsClean`. -/
theorem isClean_of_next (hfailure : lexer.next.1.failure = none)
    (hnext : lexer.next.1.token.kind ≠ .endOfFile → lexer.next.2.IsClean) : lexer.IsClean := by
  intro reading hmem
  by_cases hkind : lexer.next.1.token.kind = .endOfFile
  · rw [all_of_endOfFile hkind, List.mem_singleton] at hmem
    rw [hmem]
    exact hfailure
  · rw [all_of_ne_endOfFile hfailure hkind] at hmem
    rcases List.mem_cons.mp hmem with rfl | hmem
    · exact hfailure
    · exact hnext hkind reading hmem

/-- The `endOfFile` comes only after all characters. -/
theorem rest_of_endOfFile (hfailure : lexer.next.1.failure = none)
    (hkind : lexer.next.1.token.kind = .endOfFile) : lexer.next.2.rest = [] := by
  rcases next_cases hfailure with ⟨hrest, hnext⟩ | ⟨kind, chars, rest, -, hspells, -, hnext⟩
  · rw [hnext]
    exact hrest
  · rw [hnext] at hkind
    exact absurd hkind hspells.ne_endOfFile

/-- A text `IsClean` if `Lexer.line` ends with the text, or if it ends with a `newline` and the text
behind it `IsClean`. -/
theorem isClean_of_line {tokens : List Token} {ending : LineEnd} {last : Lexer}
    (h : lexer.line = (tokens, ending, last)) :
    (ending = .endOfFile → lexer.IsClean ∧ last.rest = []) ∧
      (ending = .newline → last.IsClean → lexer.IsClean) := by
  fun_induction Lexer.line lexer generalizing tokens ending last with
  | case1 lexer token failure next hnext =>
      cases h
      exact ⟨by simp, by simp⟩
  | case2 lexer token next hnext hkind =>
      cases h
      have hfailure : lexer.next.1.failure = none := by rw [hnext]
      have hend : lexer.next.1.token.kind = .endOfFile := by rw [hnext]; exact hkind
      have hrest := rest_of_endOfFile hfailure hend
      rw [hnext] at hrest
      exact ⟨fun _ => ⟨isClean_of_next hfailure fun hne => absurd hend hne, hrest⟩, by simp⟩
  | case3 lexer token next hnext hkind hnewline =>
      cases h
      refine ⟨by simp, fun _ hclean => isClean_of_next (by rw [hnext]) fun _ => ?_⟩
      rw [hnext]
      exact hclean
  | case4 lexer token next hnext hkind hnewline tokens' ending' last' hline ih =>
      cases h
      obtain ⟨hend, hgo⟩ := ih hline
      have hclean (hrest : next.IsClean) : lexer.IsClean :=
        isClean_of_next (by rw [hnext]) fun _ => by rw [hnext]; exact hrest
      exact ⟨fun heq => ⟨hclean (hend heq).1, (hend heq).2⟩,
        fun heq hlast => hclean (hgo heq hlast)⟩

end Lexer

namespace Reader

variable {reader next : Reader} {diagnostic : Diagnostic}

/-! ### Steps, by the ends of lines -/

/-- To `accept` a line ends the reading only with the diagnostic `startNotFirst`. -/
theorem accept_done_cases (reader : Reader) (tokens : List Token) :
    ((reader.accept tokens).2 = none ∧ (reader.accept tokens).1.done = reader.done) ∨
      ∃ diagnostic, (reader.accept tokens).2 = some diagnostic ∧
        diagnostic.cause = .line .startNotFirst ∧ (reader.accept tokens).1.done = true := by
  rw [accept]
  rcases Line.significant tokens with _ | ⟨first, others⟩
  · exact .inl ⟨rfl, rfl⟩
  · dsimp only
    rcases Line.instruction _ _ first others with diagnostic | instruction
    · by_cases hcause : diagnostic.cause = .line .startNotFirst
      · exact .inr ⟨diagnostic, by simp [hcause]⟩
      · exact .inl (by simp [hcause])
    · exact .inl ⟨rfl, rfl⟩

/-- The ways of a `step` of a reader that is not done, by how `Lexer.line` ends. -/
theorem step_of_not_done (hdone : reader.done = false) :
    (∃ tokens diagnostic last, reader.lexer.line = (tokens, .failed diagnostic, last) ∧
      reader.step = ({ reader with lexer := last, done := true }, some diagnostic)) ∨
    (∃ tokens last, reader.lexer.line = (tokens, .endOfFile, last) ∧
      reader.step = { reader with lexer := last, done := true }.accept tokens) ∨
    ∃ tokens last, reader.lexer.line = (tokens, .newline, last) ∧
      reader.step = { reader with lexer := last }.accept tokens := by
  rw [step, if_neg (by simp [hdone])]
  rcases hline : reader.lexer.line with ⟨tokens, ending, last⟩
  cases ending with
  | failed diagnostic => exact .inl ⟨tokens, diagnostic, last, rfl, rfl⟩
  | endOfFile => exact .inr (.inl ⟨tokens, last, rfl, rfl⟩)
  | newline => exact .inr (.inr ⟨tokens, last, rfl, rfl⟩)

/-- A reader that is done does nothing in a `step`. -/
theorem step_of_done (hdone : reader.done = true) : reader.step = (reader, none) := by
  rw [step, if_pos hdone]

/-- A diagnostic that a `step` answers ends the reading. -/
theorem done_of_step_eq_some (h : reader.step = (next, some diagnostic)) : next.done = true := by
  have haccept {reader : Reader} {tokens : List Token}
      (h : reader.accept tokens = (next, some diagnostic)) : next.done = true := by
    rcases accept_done_cases reader tokens with ⟨hnone, -⟩ | ⟨-, -, -, hdone⟩
    · rw [h] at hnone
      cases hnone
    · rw [h] at hdone
      exact hdone
  cases hdone : reader.done with
  | true =>
      rw [step_of_done hdone] at h
      cases h
  | false =>
      rcases step_of_not_done hdone with ⟨tokens, _, last, -, hstep⟩ | ⟨tokens, last, -, hstep⟩ |
        ⟨tokens, last, -, hstep⟩
      · rw [h] at hstep
        rw [(Prod.mk.inj hstep).1]
      · exact haccept (hstep.symm.trans h)
      · exact haccept (hstep.symm.trans h)

/-! ### Reading what is left -/

/-- A reader that is done reads nothing more in `drain`. -/
theorem drain_of_done (hdone : reader.done = true) : reader.drain = (reader, none) := by
  rw [drain, dif_pos hdone]

/-- The answer of `drain` if a `step` ends the reading. -/
theorem drain_of_step_eq_some (h : reader.step = (next, some diagnostic)) :
    reader.drain = (next, some diagnostic) := by
  fun_cases Reader.drain reader with
  | case1 hdone =>
      rw [step_of_done hdone] at h
      cases h
  | case2 hdone last found hstep => exact hstep.symm.trans h
  | case3 hdone last hstep => cases hstep.symm.trans h

/-- The answer of `drain` if a `step` goes on. -/
theorem drain_of_step_eq_none (h : reader.step = (next, none)) : reader.drain = next.drain := by
  fun_cases Reader.drain reader with
  | case1 hdone =>
      cases (step_of_done hdone).symm.trans h
      exact (drain_of_done hdone).symm
  | case2 hdone last found hstep => cases hstep.symm.trans h
  | case3 hdone last hstep =>
      cases hstep.symm.trans h
      rfl

/-- After `drain`, a reader is done. -/
theorem done_drain (reader : Reader) : reader.drain.1.done = true := by
  fun_induction Reader.drain reader with
  | case1 reader hdone => exact hdone
  | case2 reader hdone next diagnostic hstep => exact done_of_step_eq_some hstep
  | case3 reader hdone next hstep ih => exact ih

/-- A text that `drain` reads without a diagnostic `IsClean` and is read to its end. -/
theorem isClean_of_drain (hdone : reader.done = false) (h : reader.drain.2 = none) :
    reader.lexer.IsClean ∧ reader.drain.1.lexer.rest = [] := by
  fun_induction Reader.drain reader with
  | case1 reader hended =>
      rw [hdone] at hended
      cases hended
  | case2 reader hended next diagnostic hstep => cases h
  | case3 reader hended next hstep ih =>
      rcases step_of_not_done hdone with ⟨tokens, diagnostic, last, -, hfailed⟩ |
        ⟨tokens, last, hline, haccept⟩ | ⟨tokens, last, hline, haccept⟩
      · rw [hstep] at hfailed
        cases hfailed
      · obtain ⟨hclean, hrest⟩ := (Lexer.isClean_of_line hline).1 rfl
        have hnext : next = ({ reader with lexer := last, done := true }.accept tokens).1 := by
          rw [← haccept, hstep]
        rw [drain_of_done (by rw [hnext]; exact done_accept _ _ rfl), hnext, lexer_accept]
        exact ⟨hclean, hrest⟩
      · rw [hstep] at haccept
        rcases accept_done_cases { reader with lexer := last } tokens with
          ⟨-, hnext⟩ | ⟨diagnostic, hsome, -, -⟩
        · rw [← haccept] at hnext
          obtain ⟨hclean, hrest⟩ := ih (hnext.trans hdone) h
          have hlexer : next.lexer = last := by
            rw [show next = ({ reader with lexer := last }.accept tokens).1 by rw [← haccept],
              lexer_accept]
          rw [hlexer] at hclean
          exact ⟨(Lexer.isClean_of_line hline).2 rfl hclean, hrest⟩
        · rw [← haccept] at hsome
          cases hsome

/-! ### Requests -/

end Reader

/-- What a reader is asked for: the next line, or all lines that are left. -/
inductive Request where
  | line
  | all
  deriving DecidableEq, Repr

namespace Reader

variable {reader : Reader} {requests : List Request}

/-- Carries out a request by `step` or `drain`. Answers the diagnostic that ends the reading, if
there is one. -/
def answer (reader : Reader) : Request → Reader × Option Diagnostic
  | .line => reader.step
  | .all => reader.drain

/-- Carries out requests in order by `answer`. Answers the diagnostics of all of them. -/
def serve : Reader → List Request → Reader × List Diagnostic
  | reader, [] => (reader, [])
  | reader, request :: requests =>
    let (next, fatal) := reader.answer request
    let (last, fatals) := next.serve requests
    (last, fatal.toList ++ fatals)

/-- A request without a diagnostic changes nothing in what `drain` reads. -/
theorem drain_answer {request : Request} (h : (reader.answer request).2 = none) :
    (reader.answer request).1.drain = reader.drain := by
  cases request with
  | line => exact (drain_of_step_eq_none (Prod.ext rfl h)).symm
  | all =>
      rw [answer] at h ⊢
      rw [drain_of_done (done_drain reader)]
      exact Prod.ext rfl h.symm

/-- The diagnostic of a request ends the reading, and `drain` would have answered it. -/
theorem answer_eq_some {request : Request} {diagnostic : Diagnostic}
    (h : (reader.answer request).2 = some diagnostic) :
    (reader.answer request).1.done = true ∧ reader.drain.2 = some diagnostic := by
  cases request with
  | line =>
      have hstep : reader.step = (reader.step.1, some diagnostic) := Prod.ext rfl h
      exact ⟨done_of_step_eq_some hstep, by rw [drain_of_step_eq_some hstep]⟩
  | all => exact ⟨done_drain reader, h⟩

/-- To `serve` requests by a reader that is done changes nothing and gives no diagnostics. -/
theorem serve_of_done (hdone : reader.done = true) : reader.serve requests = (reader, []) := by
  induction requests with
  | nil => rfl
  | cons request requests ih =>
      have hanswer : reader.answer request = (reader, none) := by
        cases request with
        | line => exact step_of_done hdone
        | all => exact drain_of_done hdone
      simp only [serve, hanswer, ih]
      rfl

/-- Requests without diagnostics change nothing in what `drain` reads. Induction on the
requests. -/
theorem drain_serve (h : (reader.serve requests).2 = []) :
    (reader.serve requests).1.drain = reader.drain := by
  induction requests generalizing reader with
  | nil => rfl
  | cons request requests ih =>
      simp only [serve, List.append_eq_nil_iff] at h ⊢
      obtain ⟨hfirst, hothers⟩ := h
      have hnone : (reader.answer request).2 = none := by simpa using hfirst
      rw [ih hothers, drain_answer hnone]

/-- At most one request has a diagnostic, which `drain` would have answered, too. Induction
on the requests. -/
theorem serve_cases (reader : Reader) (requests : List Request) :
    (reader.serve requests).2 = [] ∨
      ∃ diagnostic, (reader.serve requests).2 = [diagnostic] ∧
        reader.drain.2 = some diagnostic := by
  induction requests generalizing reader with
  | nil => exact .inl rfl
  | cons request requests ih =>
      cases hanswer : (reader.answer request).2 with
      | none =>
          rw [← drain_answer hanswer]
          simp only [serve, hanswer, Option.toList_none, List.nil_append]
          exact ih (reader.answer request).1
      | some diagnostic =>
          obtain ⟨hdone, hdrain⟩ := answer_eq_some hanswer
          refine .inr ⟨diagnostic, ?_, hdrain⟩
          simp only [serve, hanswer, serve_of_done hdone, Option.toList_some, List.append_nil]

end Reader

/-- A source has no complaints exactly if it `IsClean`, is read to its end, and its lines have the
`Forms` of its program. -/
theorem Source.complaints_eq_nil_iff {source : Source} :
    source.complaints = [] ↔ (Lexer.ofSource source).IsClean ∧
      (Reader.ofSource source).drain.1.lexer.rest = [] ∧
      Line.Forms true (Line.split (Lexer.ofSource source).tokens) source.program := by
  constructor
  · intro hnil
    have hnone : (Reader.ofSource source).drain.2 = none := by
      rw [complaints, Reader.complaints, List.append_eq_nil_iff] at hnil
      simpa using hnil.2
    obtain ⟨hclean, hrest⟩ := Reader.isClean_of_drain rfl hnone
    rcases Source.program_cases hclean with ⟨-, hforms⟩ | ⟨hne, -⟩
    · exact ⟨hclean, hrest, hforms⟩
    · exact absurd hnil hne
  · rintro ⟨hclean, -, hforms⟩
    rcases Source.program_cases hclean with ⟨hnil, -⟩ | ⟨-, hnot⟩
    · exact hnil
    · exact absurd hforms (hnot _)

/-- **When all lines are good.** Let a reader `serve` any requests and then `drain` the rest. There
are no complaints then and were no diagnostics before exactly if the source `IsClean` and is read to
its end, and the lines of it have the `Forms` of the instructions that were read. At most one of the
requests has a diagnostic, and then it is one of the source's complaints. -/
theorem drain_after_requests (source : Source) (requests : List Request) :
    let served := (Reader.ofSource source).serve requests
    let last := served.1.drain
    (last.1.complaints last.2 = [] ∧ served.2 = [] ↔
      (Lexer.ofSource source).IsClean ∧ last.1.lexer.rest = [] ∧
        Line.Forms true (Line.split (Lexer.ofSource source).tokens) last.1.instructions) ∧
    (served.2 = [] ∨ ∃ diagnostic, served.2 = [diagnostic] ∧ diagnostic ∈ source.complaints) := by
  intro served last
  rcases Reader.serve_cases (Reader.ofSource source) requests with
    hnone | ⟨diagnostic, hone, hdrain⟩
  · have hlast : last = (Reader.ofSource source).drain := Reader.drain_serve hnone
    rw [hlast]
    refine ⟨?_, .inl hnone⟩
    rw [and_iff_left hnone]
    exact Source.complaints_eq_nil_iff
  · have hmem : diagnostic ∈ source.complaints := by
      rw [Source.complaints, Reader.complaints, hdrain]
      simp
    refine ⟨?_, .inr ⟨diagnostic, hone, hmem⟩⟩
    have hsome : served.2 ≠ [] := by
      rw [show served.2 = [diagnostic] from hone]
      simp
    constructor
    · rintro ⟨-, hnil⟩
      exact absurd hnil hsome
    · rintro ⟨hclean, -, hforms⟩
      rcases Source.program_cases hclean with ⟨hnil, -⟩ | ⟨-, hnot⟩
      · rw [hnil] at hmem
        cases hmem
      · exact absurd hforms (hnot _)

/-- A character that begins no token is reported to the first request of all lines. The `drain`
after that has no complaints, though the source is not one that `IsClean`. -/
theorem second_request_told_of_nothing :
    let source : Source := ⟨['!'], none⟩
    let served := (Reader.ofSource source).serve [.all]
    served.1.drain.1.complaints served.1.drain.2 = [] ∧ served.2 ≠ [] ∧
      ¬(Lexer.ofSource source).IsClean := by
  intro source served
  have hclean : ¬(Lexer.ofSource source).IsClean := by
    rw [Lexer.IsClean]
    decide +kernel
  exact ⟨by decide +kernel, by decide +kernel, hclean⟩

end MovAsm

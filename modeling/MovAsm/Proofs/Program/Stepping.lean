import MovAsm.Proofs.Program.Conservation

/-!
# Line by Line or All at Once

A program can be read line by line, or all lines that are left at once, or some of them in one way
and the rest in the other. Nothing of what is read depends on that. It comes to the same
instructions and the same diagnostics, and the lexer comes to the same place. The diagnostic that
ends the reading is told once, to the request that meets it. Once reading has ended, requests do
nothing.

## Main results

* `Reader.serve_append`: requests in two parts.
* `Reader.serve_append_all`: a request of all lines comes as far after any other requests.
* `Reader.serve_lines`: enough requests of a line read all lines.
* `stepping_then_draining`: to read line by line first, and then the rest, is to read all at once.
-/

namespace MovAsm

namespace Reader

variable {reader : Reader}

/-- To `serve` requests in two parts: the second part goes on where the first has come to. -/
theorem serve_append (reader : Reader) (requests more : List Request) :
    reader.serve (requests ++ more) =
      (((reader.serve requests).1.serve more).1,
        (reader.serve requests).2 ++ ((reader.serve requests).1.serve more).2) := by
  induction requests generalizing reader with
  | nil => rfl
  | cons request requests ih =>
      simp only [List.cons_append, serve, ih, List.append_assoc]

/-- A request that is answered with a diagnostic has come as far as `drain`. -/
theorem drain_eq_answer {request : Request} {diagnostic : Diagnostic}
    (h : (reader.answer request).2 = some diagnostic) : reader.drain = reader.answer request := by
  cases request with
  | line =>
      have hstep : reader.step = (reader.step.1, some diagnostic) := Prod.ext rfl h
      rw [drain_of_step_eq_some hstep]
      exact hstep.symm
  | all => rfl

/-- After any requests, `all` comes as far as `drain`, and the diagnostics of all these requests
together are that of `drain`. -/
theorem serve_append_all (reader : Reader) (requests : List Request) :
    reader.serve (requests ++ [.all]) = (reader.drain.1, reader.drain.2.toList) := by
  induction requests generalizing reader with
  | nil => simp [serve, answer]
  | cons request requests ih =>
      simp only [List.cons_append, serve, ih]
      cases hanswer : (reader.answer request).2 with
      | none =>
          rw [drain_answer hanswer]
          rfl
      | some diagnostic =>
          obtain ⟨hdone, -⟩ := answer_eq_some hanswer
          rw [drain_of_done hdone, drain_eq_answer hanswer, hanswer]
          rfl

/-- As many requests of a line as there are `remaining` lines come as far as `drain`. -/
theorem serve_lines {k : Nat} (h : reader.remaining ≤ k) :
    reader.serve (List.replicate k .line) = (reader.drain.1, reader.drain.2.toList) := by
  obtain ⟨n, hle, hserve⟩ := exists_serve_eq_drain reader
  obtain ⟨more, rfl⟩ := Nat.exists_eq_add_of_le (hle.trans h)
  rw [List.replicate_add, serve_append, hserve, serve_of_done (done_drain reader), List.append_nil]

end Reader

/-- **Line by line or all at once.** Read any number of lines of a source one by one, and then all
that are left by `drain`. The reader comes to be the same as if all lines had been read at once: it
has the same instructions and diagnostics, is done, and its lexer is at the same place. If no single
line was answered with a diagnostic, the complaints are the same, too; in any case, the diagnostics
of both parts are that of reading at once. More requests than there are characters read all lines. A
reader that is done answers every request with nothing and stays as it is. -/
theorem stepping_then_draining (source : Source) (k : Nat) :
    let once := (Reader.ofSource source).drain
    let stepped := (Reader.ofSource source).serve (List.replicate k .line)
    let last := stepped.1.drain
    last.1 = once.1 ∧ last.1.done = true ∧
      (stepped.2 = [] → last.1.complaints last.2 = once.1.complaints once.2) ∧
      stepped.2 ++ last.2.toList = once.2.toList ∧
      (source.chars.length < k → stepped = (once.1, once.2.toList)) ∧
      (stepped.1.done = true → ∀ further, stepped.1.serve further = (stepped.1, [])) ∧
      ∀ further, last.1.serve further = (last.1, []) := by
  intro once stepped last
  have hserve : (last.1, stepped.2 ++ last.2.toList) = (once.1, once.2.toList) := by
    rw [← Reader.serve_append_all (Reader.ofSource source) (List.replicate k .line),
      Reader.serve_append]
    simp [Reader.serve, Reader.answer, last, stepped]
  obtain ⟨hreader, htold⟩ := Prod.mk.inj hserve
  have hended : last.1.done = true := Reader.done_drain stepped.1
  refine ⟨hreader, hended, fun hnone => ?_, htold, fun hmore => ?_,
    fun hdone further => Reader.serve_of_done hdone, fun further => Reader.serve_of_done hended⟩
  · rw [hnone, List.nil_append] at htold
    rw [Reader.complaints, Reader.complaints, hreader, htold]
  · refine Reader.serve_lines ?_
    rw [Reader.remaining_of_not_done rfl]
    exact hmore

end MovAsm

import MovAsm.Proofs.Token.Spelling

/-!
# Looking Past the End

Most tokens are read until the character after them is seen. At the end of a text there is none,
and if the text cannot be read further, that is noticed there. A call of a lexer looks past the end
if its answer depends on what comes after the text; this module shows which calls do, by the piece
of text in front of them.

It also follows a lexer through its source: what is left is always an end of the source, and the
cursor has moved over the rest. So the place of a fault is the place of a character, with one
exception: a sigil that ends the text is at fault behind the last character.

## Main results

* `lexeme_shape`: the first character decides how a piece of text is read.
* `fault_cases`: where a piece of text is at fault.
* `Lexer.looksPast_cons_iff`: which calls look past the end.
* `Lexer.failure_next_iff`: which calls notice that a text cannot be read further.
* `Lexer.Within.run`: a lexer stays within its source.
* `Lexer.rest_run_length`: after as many calls as there are characters, none are left.
-/

namespace MovAsm

/-! ### Pieces of text and what follows them -/

/-- The first character decides how a `lexeme` is read: as a `runLexeme` of a class, as a
`hexLexeme`, or as one character whatever follows. -/
theorem lexeme_shape (c : Char) :
    (∃ kind class_, kind ≠ Kind.comma ∧ (∃ d, class_ d = true) ∧
      ∀ tail, lexeme c tail = runLexeme kind class_ c tail) ∨
    (∃ kind, kind ≠ Kind.comma ∧ (c = '#' ∨ c = '$') ∧
      ∀ tail, lexeme c tail = hexLexeme kind c tail) ∨
    ∃ piece : Lexeme, piece.chars = [c] ∧ c ≠ '#' ∧ c ≠ '$' ∧
      (piece.kind = .comma ∧ piece.fault = none ∨
        piece.fault = some (LexFault.unknownCharacter, 0, (c.toNat : Int))) ∧
      ∀ tail, lexeme c tail = piece := by
  have hname : isNameChar 'A' = true := isNameChar_of_isLetter (by decide)
  by_cases hmark : c ∈ ['.', ',', ';', '#', '$', '@']
  · simp only [List.mem_cons, List.not_mem_nil, or_false] at hmark
    rcases hmark with rfl | rfl | rfl | rfl | rfl | rfl
    · exact .inl ⟨.word, isNameChar, by decide, ⟨'A', hname⟩, fun _ => rfl⟩
    · exact .inr (.inr ⟨{ kind := .comma, chars := [','] }, rfl, by decide, by decide,
        .inl ⟨rfl, rfl⟩, fun _ => rfl⟩)
    · exact .inl ⟨.comment, (!isNewline ·), by decide, ⟨'A', by decide⟩, fun _ => rfl⟩
    · exact .inr (.inl ⟨.hex, by decide, .inl rfl, fun _ => rfl⟩)
    · exact .inr (.inl ⟨.address, by decide, .inr rfl, fun _ => rfl⟩)
    · exact .inl ⟨.location, isNameChar, by decide, ⟨'A', hname⟩, fun _ => rfl⟩
  · have hsigil : c ≠ '#' ∧ c ≠ '$' := by
      constructor <;> rintro rfl <;> simp at hmark
    have hread (tail : List Char) := @lexeme_of_not_mem c tail hmark
    cases hletter : Text.isLetter c with
    | true =>
        refine .inl ⟨.operation, isNameChar, by decide, ⟨'A', hname⟩, fun tail => ?_⟩
        rw [hread, if_pos hletter]
    | false =>
        cases hnewline : isNewline c with
        | true =>
            refine .inl ⟨.newline, isNewline, by decide, ⟨'\n', by decide⟩, fun tail => ?_⟩
            rw [hread, if_neg (by simp [hletter]), if_pos hnewline]
        | false =>
            cases hblank : isBlank c with
            | true =>
                refine .inl ⟨.whitespace, isBlank, by decide, ⟨' ', by decide⟩, fun tail => ?_⟩
                rw [hread, if_neg (by simp [hletter]), if_neg (by simp [hnewline]), if_pos hblank]
            | false =>
                refine .inr (.inr ⟨⟨.operation, [c], some (.unknownCharacter, 0, c.toNat)⟩, rfl,
                  hsigil.1, hsigil.2, .inr rfl, fun tail => ?_⟩)
                rw [hread, if_neg (by simp [hletter]), if_neg (by simp [hnewline]),
                  if_neg (by simp [hblank])]

/-- The character at which `takeHexits` finds a fault stands behind the digits. -/
theorem exists_rest_of_takeHexits {room : Nat} {text : List Char} {fault : LexFault} {c : Char}
    (h : (takeHexits room text).2 = some (fault, c)) :
    ∃ rest, text = (takeHexits room text).1 ++ c :: rest := by
  fun_induction takeHexits room text with
  | case1 room => cases h
  | case2 room d rest hstop => cases h
  | case3 d rest hstop =>
      cases h
      exact ⟨rest, rfl⟩
  | case4 d rest hstop room hd digits stop hrec ih =>
      rw [hrec] at ih
      obtain ⟨after, hafter⟩ := ih h
      exact ⟨after, by rw [hafter]; rfl⟩
  | case5 d rest hstop room hd =>
      cases h
      exact ⟨rest, rfl⟩

/-- The answer of `takeHexits` does not depend on what follows, once there is a character behind the
digits. Induction on the text. -/
theorem takeHexits_append_right {room : Nat} {text : List Char} (more : List Char)
    (h : text.drop (takeHexits room text).1.length ≠ []) :
    takeHexits room (text ++ more) = takeHexits room text := by
  fun_induction takeHexits room text with
  | case1 room => simp at h
  | case2 room d rest hstop =>
      rw [List.cons_append]
      unfold takeHexits
      simp [hstop]
  | case3 d rest hstop =>
      rw [List.cons_append]
      unfold takeHexits
      simp [hstop]
  | case4 d rest hstop room hd digits stop hrec ih =>
      rw [hrec] at ih
      rw [List.cons_append]
      unfold takeHexits
      simp only [hstop, hd, Bool.false_eq_true, if_false, if_true]
      rw [ih (by simpa using h)]
  | case5 d rest hstop room hd =>
      rw [List.cons_append]
      unfold takeHexits
      simp [hstop, hd]

/-- If a `hexLexeme` goes up to the end of the text, all of the text is digits, and there is no
fault behind them. -/
theorem hexLexeme_of_drop_nil {kind : Kind} {sigil : Char} {tail : List Char}
    (h : tail.drop ((hexLexeme kind sigil tail).chars.length - 1) = []) :
    takeHexits 2 tail = (tail, none) := by
  rcases hread : takeHexits 2 tail with ⟨digits, stop⟩
  obtain ⟨hfront, -⟩ := takeHexits_spec 2 tail
  have hchars : (hexLexeme kind sigil tail).chars = sigil :: digits := by
    rw [hexLexeme, hread]
  rw [hread] at hfront
  rw [hchars, List.length_cons, Nat.add_sub_cancel] at h
  have hall : tail = digits := by
    have happend := List.prefix_iff_eq_append.mp hfront
    rw [h, List.append_nil] at happend
    exact happend.symm
  cases stop with
  | none => rw [hall]
  | some stop =>
      obtain ⟨rest, hrest⟩ :=
        exists_rest_of_takeHexits (show _ = some (stop.1, stop.2) by rw [hread])
      rw [hread, ← hall] at hrest
      simpa using congrArg List.length hrest

/-- Where a `lexeme` is at fault: at a character of the text, or behind a sigil that is all of
it. -/
theorem fault_cases {c : Char} {tail : List Char} {fault : LexFault} {offset : Nat}
    {offender : Int} (h : (lexeme c tail).fault = some (fault, offset, offender)) :
    (∃ d after, c :: tail = (lexeme c tail).chars.take offset ++ d :: after ∧
      (offender = d.toNat ∨ offender = 0 ∧ fault = .hexLength)) ∨
    ((c = '#' ∨ c = '$') ∧ tail = [] ∧ (lexeme c tail).chars.take offset = [c] ∧
      fault = .hexLength ∧ offender = 0) := by
  rcases lexeme_shape c with ⟨kind, class_, -, -, hread⟩ | ⟨kind, -, hsigil, hread⟩ |
    ⟨piece, hchars, -, -, hfault, hread⟩
  · rw [hread] at h
    cases h
  · rw [hread] at h ⊢
    rcases htake : takeHexits 2 tail with ⟨digits, stop⟩
    simp only [hexLexeme, htake] at h ⊢
    cases stop with
    | some stop =>
        obtain ⟨fault', d⟩ := stop
        cases h
        obtain ⟨rest, hrest⟩ := exists_rest_of_takeHexits (show _ = some (fault, d) by rw [htake])
        rw [htake] at hrest
        refine .inl ⟨d, rest, ?_, .inl rfl⟩
        rw [List.take_of_length_le (by simp), List.cons_append, ← hrest]
    | none =>
        dsimp only at h
        split at h
        · cases h
          cases tail with
          | nil => exact .inr ⟨hsigil, rfl, rfl, rfl, rfl⟩
          | cons d after => exact .inl ⟨d, after, rfl, .inr ⟨rfl, rfl⟩⟩
        · cases h
  · rw [hread] at h ⊢
    rcases hfault with ⟨-, hnone⟩ | hunknown
    · rw [hnone] at h
      cases h
    · rw [hunknown] at h
      cases h
      exact .inl ⟨c, tail, rfl, .inl rfl⟩

/-! ### Calls that look past the end -/

/-- A text is nothing but the sigil of a byte literal. -/
def IsLoneSigil (text : List Char) : Prop :=
  text = ['#'] ∨ text = ['$']

/-- The failure of a piece of text that begins at `cursor`. -/
def Lexeme.failure? (piece : Lexeme) (cursor : Cursor) : Option LexFailure :=
  piece.fault.map fun (fault, offset, offender) =>
    .malformed ⟨(cursor.advanceAll (piece.chars.take offset)).position, fault, offender⟩

/-- The `value` of a piece of text has as many characters as the piece. -/
theorem length_value (piece : Lexeme) : piece.value.toList.length = piece.chars.length := by
  rw [Lexeme.value]
  split <;> simp

namespace Lexer

variable {lexer : Lexer} {c : Char} {tail : List Char} {reason : String}

/-- The answer of the next call depends on what comes after the text. -/
def LooksPast (lexer : Lexer) : Prop :=
  ∃ more, ({ lexer with rest := lexer.rest ++ more, failure := none } : Lexer).next.1 ≠
    ({ lexer with failure := none } : Lexer).next.1

/-- At the end of a text, `next` answers the end of file, and why the text could not be read
further. -/
theorem next_nil (hrest : lexer.rest = []) :
    lexer.next =
      (⟨⟨.endOfFile, "", lexer.position⟩, lexer.failure.map .unreadable⟩, lexer) := by
  rw [next]
  rw [hrest]

/-- In front of a character, `next` answers the `lexeme` and goes on behind it. This unfolds `next`
once and for all. -/
theorem next_cons (hrest : lexer.rest = c :: tail) :
    lexer.next =
      (⟨⟨(lexeme c tail).kind, (lexeme c tail).value, lexer.position⟩,
        (lexeme c tail).failure? lexer.cursor <|>
          if tail.drop ((lexeme c tail).chars.length - 1) = [] ∧ (lexeme c tail).kind ≠ .comma then
            lexer.failure.map .unreadable else none⟩,
      { lexer with
        rest := tail.drop ((lexeme c tail).chars.length - 1)
        cursor := lexer.cursor.advanceAll (lexeme c tail).chars }) := by
  rw [next]
  rw [hrest]
  dsimp only
  rw [Lexeme.failure?]
  cases hfault : (lexeme c tail).fault with
  | none => simp [List.isEmpty_iff]
  | some fault => rfl

/-- In front of a `lexeme` at fault, `next` answers the fault. -/
theorem failure_next_of_fault (hrest : lexer.rest = c :: tail) {fault : LexFault} {offset : Nat}
    {offender : Int} (hfault : (lexeme c tail).fault = some (fault, offset, offender)) :
    lexer.next.1.failure = some (.malformed
      ⟨(lexer.cursor.advanceAll ((lexeme c tail).chars.take offset)).position, fault,
        offender⟩) := by
  simp [next_cons hrest, Lexeme.failure?, hfault]

/-- In front of any other `lexeme`, `next` fails at most because the text cannot be read further. -/
theorem failure_next_of_no_fault (hrest : lexer.rest = c :: tail)
    (hfault : (lexeme c tail).fault = none) :
    lexer.next.1.failure =
      if tail.drop ((lexeme c tail).chars.length - 1) = [] ∧ (lexeme c tail).kind ≠ .comma then
        lexer.failure.map .unreadable else none := by
  simp [next_cons hrest, Lexeme.failure?, hfault]

/-- If `next` answers a malformed token, the `lexeme` in front has that fault. -/
theorem exists_fault_of_malformed {error : LexError}
    (hfailure : lexer.next.1.failure = some (.malformed error)) :
    ∃ c tail offset, lexer.rest = c :: tail ∧
      (lexeme c tail).fault = some (error.fault, offset, error.offender) ∧
      error.position =
        (lexer.cursor.advanceAll ((lexeme c tail).chars.take offset)).position := by
  have hunreadable : lexer.failure.map LexFailure.unreadable ≠ some (.malformed error) := by
    simp
  cases hrest : lexer.rest with
  | nil =>
      rw [next_nil hrest] at hfailure
      exact absurd hfailure hunreadable
  | cons c tail =>
      cases hfault : (lexeme c tail).fault with
      | none =>
          rw [failure_next_of_no_fault hrest hfault] at hfailure
          split at hfailure
          · exact absurd hfailure hunreadable
          · cases hfailure
      | some found =>
          obtain ⟨fault, offset, offender⟩ := found
          rw [failure_next_of_fault hrest hfault] at hfailure
          cases hfailure
          exact ⟨c, tail, offset, rfl, hfault, rfl⟩

/-- What `next` answers in a text that can be read. -/
theorem next_cons_readable (hrest : lexer.rest = c :: tail) (hfailure : lexer.failure = none) :
    lexer.next.1 =
      ⟨⟨(lexeme c tail).kind, (lexeme c tail).value, lexer.position⟩,
        (lexeme c tail).failure? lexer.cursor⟩ := by
  rw [next_cons hrest, hfailure]
  simp

/-- At the end of a text, a call `LooksPast` it. -/
theorem looksPast_of_nil (hrest : lexer.rest = []) : lexer.LooksPast := by
  refine ⟨[','], fun heq => ?_⟩
  have hcomma : ({ lexer with rest := lexer.rest ++ [','], failure := none } : Lexer).rest =
      ',' :: [] := by
    rw [hrest]
    rfl
  rw [next_cons_readable hcomma rfl, @next_nil { lexer with failure := none } hrest] at heq
  have hkind := congrArg (fun reading => reading.token.kind) heq
  cases hkind

/-- A call `LooksPast` the text if more text changes the length of the `lexeme`, or whether it has a
fault. -/
theorem looksPast_of_lexeme (hrest : lexer.rest = c :: tail) {more : List Char}
    (h : (lexeme c (tail ++ more)).chars.length ≠ (lexeme c tail).chars.length ∨
      (lexeme c (tail ++ more)).fault.isSome ≠ (lexeme c tail).fault.isSome) :
    lexer.LooksPast := by
  refine ⟨more, fun heq => ?_⟩
  have hlonger : ({ lexer with rest := lexer.rest ++ more, failure := none } : Lexer).rest =
      c :: (tail ++ more) := by
    simp [hrest]
  have hplain : ({ lexer with failure := none } : Lexer).rest = c :: tail := hrest
  rw [next_cons_readable hlonger rfl, next_cons_readable hplain rfl] at heq
  rcases h with hlength | hfault
  · refine hlength ?_
    rw [← length_value, ← length_value]
    exact congrArg (fun reading => reading.token.value.toList.length) heq
  · refine hfault ?_
    simpa [Lexeme.failure?] using congrArg (fun reading => reading.failure.isSome) heq

/-- A call does not look past the text if the `lexeme` is the same whatever follows. -/
theorem not_looksPast_of_lexeme (hrest : lexer.rest = c :: tail)
    (h : ∀ more, lexeme c (tail ++ more) = lexeme c tail) : ¬lexer.LooksPast := by
  rintro ⟨more, hne⟩
  have hlonger : ({ lexer with rest := lexer.rest ++ more, failure := none } : Lexer).rest =
      c :: (tail ++ more) := by
    simp [hrest]
  have hplain : ({ lexer with failure := none } : Lexer).rest = c :: tail := hrest
  rw [next_cons_readable hlonger rfl, next_cons_readable hplain rfl, h] at hne
  exact hne rfl

/-- At a `runLexeme`, a call `LooksPast` the text exactly if the run goes up to the end. -/
theorem looksPast_run_iff {kind : Kind} {class_ : Char → Bool} (hrest : lexer.rest = c :: tail)
    (hclass : ∃ d, class_ d = true) (hread : ∀ tail, lexeme c tail = runLexeme kind class_ c tail) :
    lexer.LooksPast ↔ tail.drop ((lexeme c tail).chars.length - 1) = [] := by
  have hchars (text : List Char) : (lexeme c text).chars = c :: text.takeWhile class_ := by
    rw [hread]
    rfl
  have hdrop : tail.drop ((lexeme c tail).chars.length - 1) = [] ↔
      (tail.takeWhile class_).length = tail.length := by
    rw [hchars, List.length_cons, Nat.add_sub_cancel, List.drop_eq_nil_iff]
    have hle := (List.takeWhile_prefix (l := tail) class_).length_le
    omega
  rw [hdrop]
  constructor
  · intro hlooks
    by_contra hshort
    refine not_looksPast_of_lexeme hrest (fun more => ?_) hlooks
    rw [hread, hread, runLexeme, runLexeme, List.takeWhile_append, if_neg hshort]
  · intro hall
    obtain ⟨d, hd⟩ := hclass
    have hlonger : (lexeme c (tail ++ [d])).chars.length ≠ (lexeme c tail).chars.length := by
      rw [hchars, hchars, List.takeWhile_append, if_pos hall]
      simp [hd, hall]
    exact looksPast_of_lexeme hrest (.inl hlonger)

/-- At a `hexLexeme`, a call `LooksPast` the text exactly if the literal goes up to the end, and
then it is at fault only without digits. -/
theorem looksPast_hex_iff {kind : Kind} (hrest : lexer.rest = c :: tail)
    (hsigil : c = '#' ∨ c = '$') (hread : ∀ tail, lexeme c tail = hexLexeme kind c tail) :
    (lexer.LooksPast ↔ tail.drop ((lexeme c tail).chars.length - 1) = []) ∧
      (tail.drop ((lexeme c tail).chars.length - 1) = [] →
        (lexeme c tail).fault = none ∨ IsLoneSigil (c :: tail)) := by
  have hfault (hall : tail.drop ((lexeme c tail).chars.length - 1) = []) :
      (lexeme c tail).fault = if tail.isEmpty then some (.hexLength, 1, 0) else none := by
    rw [hread] at hall ⊢
    simp only [hexLexeme, hexLexeme_of_drop_nil hall]
  refine ⟨⟨fun hlooks => ?_, fun hall => ?_⟩, fun hall => ?_⟩
  · by_contra hshort
    refine not_looksPast_of_lexeme hrest (fun more => ?_) hlooks
    rw [hread] at hshort
    rw [hread, hread, hexLexeme, hexLexeme, takeHexits_append_right more hshort]
  · have hfault := hfault hall
    rw [hread] at hall
    obtain ⟨-, hlength, hdigits, -⟩ := takeHexits_spec 2 tail
    rw [hexLexeme_of_drop_nil hall] at hlength hdigits
    cases tail with
    | nil =>
        -- A digit would mend a sigil alone.
        have hmended : (lexeme c ([] ++ ['0'])).fault.isSome ≠ (lexeme c []).fault.isSome := by
          rcases hsigil with rfl | rfl <;> decide
        exact looksPast_of_lexeme hrest (.inr hmended)
    | cons d tail =>
        -- Something that is no digit and does not end the literal would spoil it.
        have hspoiled : (takeHexits 2 (d :: tail ++ ['!'])).2.isSome = true := by
          have hd := hdigits d (by simp)
          have hmark : isHexStop '!' = false ∧ Text.isHexit '!' = false := by decide
          cases tail with
          | nil => simp [takeHexits, isHexStop_of_isHexit hd, hd, hmark]
          | cons e tail =>
              have he := hdigits e (by simp)
              obtain rfl : tail = [] := by
                simp only [List.length_cons] at hlength
                exact List.eq_nil_of_length_eq_zero (by omega)
              simp [takeHexits, isHexStop_of_isHexit hd, isHexStop_of_isHexit he, hd, he, hmark]
        have hlonger : (lexeme c (d :: tail ++ ['!'])).fault.isSome = true := by
          rw [hread, hexLexeme]
          rcases hstop : takeHexits 2 (d :: tail ++ ['!']) with ⟨digits, stop⟩
          rw [hstop] at hspoiled
          obtain ⟨stop, rfl⟩ := Option.isSome_iff_exists.mp hspoiled
          rfl
        have hsound : (lexeme c (d :: tail)).fault.isSome = false := by
          rw [hfault]
          rfl
        exact looksPast_of_lexeme hrest (.inr (by rw [hlonger, hsound]; decide))
  · rw [hfault hall]
    cases tail with
    | nil => exact .inr (by rcases hsigil with rfl | rfl <;> simp [IsLoneSigil])
    | cons d tail => exact .inl rfl

/-- In front of a character, a call `LooksPast` the text exactly if the `lexeme` goes up to the end,
is no comma, and has no fault but that of a sigil alone. -/
theorem looksPast_cons_iff (hrest : lexer.rest = c :: tail) :
    lexer.LooksPast ↔
      tail.drop ((lexeme c tail).chars.length - 1) = [] ∧ (lexeme c tail).kind ≠ .comma ∧
        ((lexeme c tail).fault = none ∨ IsLoneSigil (c :: tail)) := by
  rcases lexeme_shape c with ⟨kind, class_, hkind, hclass, hread⟩ | ⟨kind, hkind, hsigil, hread⟩ |
    ⟨piece, hchars, hhash, hdollar, hfault, hread⟩
  · rw [looksPast_run_iff hrest hclass hread]
    have hpiece : (lexeme c tail).kind ≠ .comma ∧ (lexeme c tail).fault = none := by
      rw [hread]
      exact ⟨hkind, rfl⟩
    exact ⟨fun hall => ⟨hall, hpiece.1, .inl hpiece.2⟩, And.left⟩
  · obtain ⟨hiff, hfault⟩ := looksPast_hex_iff hrest hsigil hread
    have hpiece : (lexeme c tail).kind ≠ .comma := by
      rw [hread]
      exact hkind
    rw [hiff]
    exact ⟨fun hall => ⟨hall, hpiece, hfault hall⟩, And.left⟩
  · refine iff_of_false (not_looksPast_of_lexeme hrest fun more => by rw [hread, hread]) ?_
    rw [hread]
    rintro ⟨-, hkind, hnone | hlone⟩
    · rcases hfault with ⟨hcomma, -⟩ | hunknown
      · exact hkind hcomma
      · rw [hnone] at hunknown
        cases hunknown
    · rcases hlone with hlone | hlone
      · exact hhash (List.cons.inj hlone).1
      · exact hdollar (List.cons.inj hlone).1

/-- A text that `IsLoneSigil` is at fault. -/
theorem fault_ne_none_of_isLoneSigil (h : IsLoneSigil (c :: tail)) :
    (lexeme c tail).fault ≠ none := by
  rcases h with h | h <;> cases h <;> decide

/-- A call notices that a text cannot be read further exactly if it `LooksPast` the text and is not
in front of a sigil alone. -/
theorem failure_next_iff (hfailure : lexer.failure = some reason) :
    lexer.next.1.failure = some (.unreadable reason) ↔
      lexer.LooksPast ∧ ¬IsLoneSigil lexer.rest := by
  cases hrest : lexer.rest with
  | nil =>
      rw [next_nil hrest, hfailure]
      exact iff_of_true rfl ⟨looksPast_of_nil hrest, by simp [IsLoneSigil]⟩
  | cons c tail =>
      rw [looksPast_cons_iff hrest]
      cases hfault : (lexeme c tail).fault with
      | none =>
          have hnot : ¬IsLoneSigil (c :: tail) := fun hlone =>
            fault_ne_none_of_isLoneSigil hlone hfault
          rw [failure_next_of_no_fault hrest hfault, hfailure]
          simp [hnot]
      | some fault =>
          rw [failure_next_of_fault hrest hfault]
          simp

/-- The reason that `next` answers is that of the lexer itself. -/
theorem failure_of_next (h : lexer.next.1.failure = some (.unreadable reason)) :
    lexer.failure = some reason := by
  have hmap (h : lexer.failure.map LexFailure.unreadable = some (.unreadable reason)) :
      lexer.failure = some reason := by
    obtain ⟨found, hfound, hsame⟩ := Option.map_eq_some_iff.mp h
    cases hsame
    exact hfound
  cases hrest : lexer.rest with
  | nil =>
      rw [next_nil hrest] at h
      exact hmap h
  | cons c tail =>
      cases hfault : (lexeme c tail).fault with
      | none =>
          rw [failure_next_of_no_fault hrest hfault] at h
          split at h
          · exact hmap h
          · cases h
      | some found =>
          rw [failure_next_of_fault hrest hfault] at h
          cases h

/-- A call that `LooksPast` the text leaves nothing to be read. -/
theorem LooksPast.rest_next (h : lexer.LooksPast) : lexer.next.2.rest = [] := by
  cases hrest : lexer.rest with
  | nil =>
      rw [next_nil hrest]
      exact hrest
  | cons c tail =>
      rw [next_cons hrest]
      exact ((looksPast_cons_iff hrest).mp h).1

/-! ### Lexers within a source -/

/-- A lexer is within a source: what is left is an end of the source, and the cursor has moved over
the rest. -/
def Within (source : Source) (lexer : Lexer) : Prop :=
  ∃ before, source.chars = before ++ lexer.rest ∧
    lexer.cursor = Cursor.start.advanceAll before ∧ lexer.failure = source.failure

variable {source : Source}

/-- A lexer at the beginning of a source is `Within` it. -/
theorem within_ofSource (source : Source) : (Lexer.ofSource source).Within source :=
  ⟨[], rfl, rfl, rfl⟩

/-- A call of `next` takes a piece of text off the front and moves the cursor over it. -/
theorem exists_piece_next (lexer : Lexer) :
    ∃ piece, lexer.rest = piece ++ lexer.next.2.rest ∧
      lexer.next.2.cursor = lexer.cursor.advanceAll piece ∧
      lexer.next.2.failure = lexer.failure ∧ (lexer.rest ≠ [] → piece ≠ []) := by
  cases hrest : lexer.rest with
  | nil =>
      rw [next_nil hrest]
      exact ⟨[], hrest.symm, rfl, rfl, fun hne => absurd rfl hne⟩
  | cons c tail =>
      obtain ⟨piece, hchars, -⟩ := exists_chars_lexeme c tail
      rw [next_cons hrest]
      refine ⟨(lexeme c tail).chars, (lexeme_append c tail).symm, rfl, rfl, fun _ => ?_⟩
      rw [hchars]
      exact List.cons_ne_nil c piece

/-- The step lemma of `Within`: a call of `next` keeps it. -/
theorem Within.next (h : lexer.Within source) : lexer.next.2.Within source := by
  obtain ⟨before, hchars, hcursor, hfailure⟩ := h
  obtain ⟨piece, hpiece, hmoved, hsame, -⟩ := exists_piece_next lexer
  refine ⟨before ++ piece, ?_, ?_, hsame.trans hfailure⟩
  · rw [hchars, hpiece, List.append_assoc]
  · rw [hmoved, hcursor]
    exact List.foldl_append.symm

/-- A lexer `Within` a source that has nothing left stands at the end of the source. -/
theorem Within.position_of_nil (h : lexer.Within source) (hrest : lexer.rest = []) :
    lexer.position = (Cursor.start.advanceAll source.chars).position := by
  obtain ⟨before, hchars, hcursor, -⟩ := h
  rw [hrest, List.append_nil] at hchars
  rw [position, hcursor, hchars]

/-- For a lexer `Within` a source, a fault is at a character of the source, or behind a sigil that
ends it. -/
theorem Within.malformed_cases {error : LexError} (h : lexer.Within source)
    (hfailure : lexer.next.1.failure = some (.malformed error)) :
    (∃ before c after, source.chars = before ++ c :: after ∧
      error.position = (Cursor.start.advanceAll before).position ∧
      (error.offender = c.toNat ∨ error.offender = 0 ∧ error.fault = .hexLength)) ∨
    (IsLoneSigil lexer.rest ∧
      error = ⟨(Cursor.start.advanceAll source.chars).position, .hexLength, 0⟩) := by
  obtain ⟨before, hchars, hcursor, -⟩ := h
  have hmoved (piece : List Char) : (lexer.cursor.advanceAll piece) =
      Cursor.start.advanceAll (before ++ piece) := by
    rw [hcursor]
    exact List.foldl_append.symm
  obtain ⟨c, tail, offset, hrest, hfault, hposition⟩ := exists_fault_of_malformed hfailure
  rw [hmoved] at hposition
  rcases fault_cases hfault with ⟨d, after, hsplit, hoffender⟩ |
    ⟨hsigil, rfl, htake, hlength, hnone⟩
  · refine .inl ⟨before ++ (lexeme c tail).chars.take offset, d, after, ?_, hposition, hoffender⟩
    rw [hchars, hrest, hsplit, List.append_assoc]
  · refine .inr ⟨?_, ?_⟩
    · rw [hrest]
      rcases hsigil with rfl | rfl
      · exact .inl rfl
      · exact .inr rfl
    · rw [htake, ← hrest, ← hchars] at hposition
      rw [← hposition, ← hlength, ← hnone]

/-! ### Many calls -/

/-- One call more in `run` is one more `next` at the end. -/
theorem run_succ (n : Nat) (lexer : Lexer) :
    (run (n + 1) lexer).2 = (run n lexer).2.next.2 := by
  induction n generalizing lexer with
  | zero => rfl
  | succ n ih => exact ih lexer.next.2

/-- The run lemma of `Within`: any number of calls keeps it. -/
theorem Within.run (h : lexer.Within source) (n : Nat) : (Lexer.run n lexer).2.Within source := by
  induction n with
  | zero => exact h
  | succ n ih =>
      rw [run_succ]
      exact ih.next

/-- Every call in `run` takes at least a character, as long as there is one. -/
theorem rest_run_length (lexer : Lexer) (n : Nat) :
    (run n lexer).2.rest.length ≤ lexer.rest.length - n := by
  induction n with
  | zero => exact Nat.le_refl _
  | succ n ih =>
      rw [run_succ]
      obtain ⟨piece, hpiece, -, -, hne⟩ := exists_piece_next (run n lexer).2
      have hlength := congrArg List.length hpiece
      rw [List.length_append] at hlength
      by_cases hrest : (run n lexer).2.rest = []
      · rw [hrest, List.length_nil] at hlength
        omega
      · have hpos := List.length_pos_iff.mpr (hne hrest)
        omega

/-- Once nothing is left, nothing is left after more calls. -/
theorem rest_run_of_le {n m : Nat} (hle : n ≤ m) (hrest : (run n lexer).2.rest = []) :
    (run m lexer).2.rest = [] := by
  induction m, hle using Nat.le_induction with
  | base => exact hrest
  | succ m hle ih =>
      rw [run_succ, next_nil ih]
      exact ih

end Lexer

end MovAsm

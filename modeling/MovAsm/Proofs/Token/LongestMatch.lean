import MovAsm.Proofs.Token.Lookahead

/-!
# The Longest Match

The tokens of a text have a grammar: a text begins with a form of some kind, and of all the forms of
that kind it begins with, the token is the longest. This module states the grammar by its forms and
not by the way in which they are read, and the faults by what stands in the text. Every text is
empty, begins with a form or is malformed, and a call of a lexer answers which of these it is.

The first character decides the kind. What comes after it decides the length, and for byte literals,
whether there is a form at all: a literal has one digit or two and ends before a character that ends
literals, or at the end of the text.

## Main definitions

* `Begins` — a text begins with a form;
* `WrongDigits`, `Malformed` — what is wrong with a text that begins with none.

## Main results

* `Spells.isPrefix_of_endsBefore`: a form that is not continued is the longest.
* `fault_lexeme_eq_none_iff`: a piece of text has no fault exactly if the text begins with a form.
* `fault_hexLexeme_iff`, `fault_lexeme_iff`: the fault of a piece of text.
* `next_longest_match`: what a lexer answers, by the grammar.
-/

namespace MovAsm

/-! ### The grammar -/

/-- The characters before which a byte literal may end, spelled out. -/
def byteStops : List Char :=
  [' ', '\t', '\x0c', '\r', '\n', ',', ';', '#', '$', '@', '.']

/-- A byte literal may end before `rest`. -/
def EndsByte (rest : List Char) : Prop :=
  ∀ c ∈ rest.head?, c ∈ byteStops

/-- The `text` begins with a `form` of a kind. Only a byte literal asks for something behind it. -/
def Begins (text : List Char) (kind : Kind) (form : List Char) : Prop :=
  Spells kind form ∧
    ∃ rest, text = form ++ rest ∧ (kind = .hex ∨ kind = .address → EndsByte rest)

/-- What is wrong behind the sigil of a byte literal: in one of the first two places there is
something that is no digit, the literal does not end after two digits, or it ends at once. -/
inductive WrongDigits : List Char → LexFault → Prop
  | invalid {digits rest : List Char} {d : Char} (hlength : digits.length < 2)
      (hdigits : ∀ c ∈ digits, Text.isHexit c = true) (hd : Text.isHexit d = false)
      (hstop : d ∉ byteStops) : WrongDigits (digits ++ d :: rest) .invalidHexit
  | overlong {digits rest : List Char} {d : Char} (hlength : digits.length = 2)
      (hdigits : ∀ c ∈ digits, Text.isHexit c = true) (hstop : d ∉ byteStops) :
      WrongDigits (digits ++ d :: rest) .hexLength
  | missing {tail : List Char} (hends : EndsByte tail) : WrongDigits tail .hexLength

/-- What is wrong with a text that begins with no form: no form begins with its first character, or
this is a sigil and the digits are wrong. -/
inductive Malformed : List Char → LexFault → Prop
  | unknown {c : Char} {tail : List Char} (hnone : ∀ kind chars, ¬Spells kind (c :: chars)) :
      Malformed (c :: tail) .unknownCharacter
  | literal {c : Char} {tail : List Char} {fault : LexFault} (hsigil : c = '#' ∨ c = '$')
      (hwrong : WrongDigits tail fault) : Malformed (c :: tail) fault

/-- The characters for which `isHexStop` holds are the `byteStops`. -/
theorem isHexStop_iff_mem {c : Char} : isHexStop c = true ↔ c ∈ byteStops := by
  simp only [isHexStop, isBlank, isNewline, byteStops, Bool.or_eq_true, decide_eq_true_eq,
    List.contains_iff_mem, List.mem_cons, List.not_mem_nil, or_false]
  tauto

/-- The characters for which `isHexStop` does not hold are not among the `byteStops`. -/
theorem isHexStop_eq_false_iff {c : Char} : isHexStop c = false ↔ c ∉ byteStops := by
  rw [← isHexStop_iff_mem, Bool.not_eq_true]

/-! ### Kinds and lengths of forms -/

section Forms

variable {kind : Kind} {c : Char} {chars tail : List Char}

/-- The kind of a `lexeme` is decided by its first character. -/
theorem kind_lexeme_congr (c : Char) (tail other : List Char) :
    (lexeme c tail).kind = (lexeme c other).kind := by
  rcases lexeme_shape c with ⟨kind, class_, -, -, hread⟩ | ⟨kind, -, -, hread⟩ |
    ⟨piece, -, -, -, -, hread⟩
  · rw [hread, hread]
    rfl
  · rw [hread, hread]
    rfl
  · rw [hread, hread]

/-- A form is of the kind of any `lexeme` with its first character. -/
theorem Spells.kind_lexeme (h : Spells kind (c :: chars)) (tail : List Char) :
    (lexeme c tail).kind = kind := by
  have hread := lexeme_of_spells h (show kind.EndsBefore [] by simp [Kind.EndsBefore])
  rw [kind_lexeme_congr c tail (chars ++ []), hread]

/-- Each character of a form but the first continues it. -/
theorem Spells.isContinuedBy (h : Spells kind (c :: chars)) {d : Char} (hd : d ∈ chars) :
    kind.isContinuedBy d = true := by
  have hbyte {digits : List Char} (hdigits : IsByte digits) (hd : d ∈ digits) :
      (!isHexStop d) = true := by
    rw [isHexStop_of_isHexit (hdigits.2 d hd)]
    rfl
  cases h with
  | word hname => exact hname d hd
  | comma => cases hd
  | comment htext => simpa [Kind.isContinuedBy] using htext d hd
  | hex hdigits => exact hbyte hdigits hd
  | address hdigits => exact hbyte hdigits hd
  | location hname => exact hname d hd
  | operation hc hname => exact hname d hd
  | newline hc hchars => exact hchars d hd
  | whitespace hc hchars => exact hchars d hd

/-- A form that `EndsBefore` the rest is the longest of its kind that the text begins with. -/
theorem Spells.isPrefix_of_endsBefore {form other rest rest' : List Char} (hform : form ≠ [])
    (hends : kind.EndsBefore rest) (hother : Spells kind other)
    (hsame : other ++ rest' = form ++ rest) : other <+: form := by
  rcases List.append_eq_append_iff.mp hsame with ⟨more, hmore, -⟩ | ⟨more, rfl, hrest⟩
  · exact ⟨more, hmore.symm⟩
  · -- Whatever the other form has more would be a continuation.
    cases more with
    | nil => simp
    | cons d more =>
        obtain ⟨c, front, rfl⟩ := List.exists_cons_of_ne_nil hform
        have hcontinued : kind.isContinuedBy d = true := hother.isContinuedBy (by simp)
        have hstops : kind.isContinuedBy d = false := hends d (by simp [hrest])
        rw [hcontinued] at hstops
        cases hstops

/-- A text that begins with a form is not empty, and neither is the form. -/
theorem Begins.exists_cons {text form : List Char} (h : Begins text kind form) :
    ∃ c chars tail, form = c :: chars ∧ text = c :: tail ∧
      Begins (c :: tail) kind (c :: chars) := by
  obtain ⟨c, chars, rfl⟩ := List.exists_cons_of_ne_nil h.1.ne_nil
  obtain ⟨hspells, rest, rfl, hends⟩ := h
  exact ⟨c, chars, chars ++ rest, rfl, rfl, hspells, rest, rfl, hends⟩

/-! ### Pieces of text without a fault -/

/-- In front of a form, the `lexeme` has no fault. -/
theorem Begins.fault_lexeme (h : Begins (c :: tail) kind (c :: chars)) :
    (lexeme c tail).fault = none := by
  obtain ⟨hspells, rest, htext, hends⟩ := h
  obtain rfl : tail = chars ++ rest := (List.cons.inj htext).2
  have hkind := hspells.kind_lexeme (chars ++ rest)
  have hrule := lexeme_rule c (chars ++ rest)
  have hstops (hbyte : kind = .hex ∨ kind = .address) : ∀ d ∈ rest.head?, isHexStop d = true :=
    fun d hd => isHexStop_iff_mem.mpr (hends hbyte d hd)
  generalize lexeme c (chars ++ rest) = read at hkind hrule ⊢
  subst hkind
  cases hrule with
  | word | comma | comment | location | operation | newline | whitespace => rfl
  | hex hc =>
      cases hspells with
      | hex hdigits => rw [hexLexeme_of_isByte hdigits (hstops (.inl rfl))]
  | address hc =>
      cases hspells with
      | address hdigits => rw [hexLexeme_of_isByte hdigits (hstops (.inr rfl))]
  | unknown hmark hletter hnewline hblank =>
      cases hspells with
      | operation hc hname =>
          rw [hletter] at hc
          cases hc

/-- A `lexeme` without a fault is a form that the text begins with. -/
theorem begins_lexeme (h : (lexeme c tail).fault = none) :
    Begins (c :: tail) (lexeme c tail).kind (lexeme c tail).chars := by
  obtain ⟨hspells, hends⟩ := spells_of_lexeme h
  refine ⟨hspells, _, (lexeme_append c tail).symm, ?_⟩
  intro hbyte d hd
  have hstop := hends d hd
  rw [← isHexStop_iff_mem]
  rcases hbyte with hkind | hkind <;> simpa [hkind, Kind.isContinuedBy] using hstop

/-- A `lexeme` has no fault exactly if the text begins with a form. -/
theorem fault_lexeme_eq_none_iff :
    (lexeme c tail).fault = none ↔ ∃ kind form, Begins (c :: tail) kind form := by
  constructor
  · intro h
    exact ⟨_, _, begins_lexeme h⟩
  · rintro ⟨kind, form, h⟩
    obtain ⟨d, chars, rest, rfl, htext, hbegins⟩ := h.exists_cons
    cases htext
    exact hbegins.fault_lexeme

end Forms

/-! ### Pieces of text with a fault -/

/-- What `takeHexits` has read in front of a fault: digits, as many as there is room for or up to
something else, and behind them a character that does not end the literal. Induction on the room. -/
theorem takeHexits_fault {room : Nat} {text : List Char} {fault : LexFault} {d : Char}
    (h : (takeHexits room text).2 = some (fault, d)) :
    ∃ digits rest, text = digits ++ d :: rest ∧ (∀ c ∈ digits, Text.isHexit c = true) ∧
      isHexStop d = false ∧
      (fault = .hexLength ∧ digits.length = room ∨
        fault = .invalidHexit ∧ digits.length < room ∧ Text.isHexit d = false) := by
  fun_induction takeHexits room text with
  | case1 room => cases h
  | case2 room c rest hstop => cases h
  | case3 c rest hstop =>
      cases h
      exact ⟨[], rest, rfl, by simp, by simpa using hstop, .inl ⟨rfl, rfl⟩⟩
  | case4 c rest hstop room hc digits stop hrec ih =>
      rw [hrec] at ih
      obtain ⟨more, after, rfl, hdigits, hd, hfault⟩ := ih h
      refine ⟨c :: more, after, rfl, List.forall_mem_cons.mpr ⟨hc, hdigits⟩, hd, ?_⟩
      simpa using hfault
  | case5 c rest hstop room hc =>
      cases h
      exact ⟨[], rest, rfl, by simp, by simpa using hstop, .inr ⟨rfl, by simp, by simpa using hc⟩⟩

/-- The answer of `takeHexits` at digits with a character behind them that does not belong there. -/
theorem takeHexits_append_of_fault {room : Nat} {digits rest : List Char} {d : Char}
    (hroom : digits.length ≤ room) (hdigits : ∀ c ∈ digits, Text.isHexit c = true)
    (hstop : isHexStop d = false) (hd : digits.length < room → Text.isHexit d = false) :
    takeHexits room (digits ++ d :: rest) =
      (digits, some (if digits.length = room then .hexLength else .invalidHexit, d)) := by
  induction digits generalizing room with
  | nil =>
      cases room with
      | zero => simp [takeHexits, hstop]
      | succ room => simp [takeHexits, hstop, hd (by simp)]
  | cons c digits ih =>
      obtain ⟨room, rfl⟩ : ∃ more, room = more + 1 := ⟨room - 1, by simp at hroom; omega⟩
      rw [List.length_cons] at hroom hd
      have hc : Text.isHexit c = true := hdigits c (by simp)
      have hrec := @ih room (by omega) (fun e he => hdigits e (by simp [he]))
        fun hlt => hd (by omega)
      simp [takeHexits, isHexStop_of_isHexit hc, hc, hrec]

/-- The fault of a `hexLexeme`: that of `takeHexits`, or else the want of digits. -/
theorem fault_hexLexeme (kind : Kind) (sigil : Char) (tail : List Char) :
    (hexLexeme kind sigil tail).fault.map Prod.fst =
      ((takeHexits 2 tail).2.map Prod.fst).or
        (if (takeHexits 2 tail).1 = [] then some .hexLength else none) := by
  rw [hexLexeme]
  rcases takeHexits 2 tail with ⟨digits, stop⟩
  cases stop with
  | some stop => rfl
  | none => cases digits <;> rfl

/-- A `hexLexeme` has exactly the faults that `WrongDigits` tells of. -/
theorem fault_hexLexeme_iff {kind : Kind} {sigil : Char} {tail : List Char} {fault : LexFault} :
    (hexLexeme kind sigil tail).fault.map Prod.fst = some fault ↔ WrongDigits tail fault := by
  rw [fault_hexLexeme]
  constructor
  · intro h
    cases hstop : (takeHexits 2 tail).2 with
    | some entry =>
        obtain ⟨found, d⟩ := entry
        rw [hstop] at h
        cases h
        obtain ⟨digits, rest, rfl, hdigits, hd, hcases⟩ := takeHexits_fault hstop
        rw [isHexStop_eq_false_iff] at hd
        rcases hcases with ⟨rfl, hlength⟩ | ⟨rfl, hlength, hinvalid⟩
        · exact .overlong hlength hdigits hd
        · exact .invalid hlength hdigits hinvalid hd
    | none =>
        rw [hstop, Option.map_none, Option.none_or] at h
        by_cases hempty : (takeHexits 2 tail).1 = []
        · rw [if_pos hempty] at h
          cases h
          obtain ⟨-, -, -, hends⟩ := takeHexits_spec 2 tail
          rw [hempty] at hends
          exact .missing fun d hd => isHexStop_iff_mem.mp (hends hstop d hd)
        · rw [if_neg hempty] at h
          cases h
  · intro h
    cases h with
    | invalid hlength hdigits hd hstop =>
        rw [takeHexits_append_of_fault (by omega) hdigits (isHexStop_eq_false_iff.mpr hstop)
          fun _ => hd, if_neg (by omega)]
        rfl
    | overlong hlength hdigits hstop =>
        rw [takeHexits_append_of_fault (by omega) hdigits (isHexStop_eq_false_iff.mpr hstop)
          fun hlt => by omega, if_pos hlength]
        rfl
    | missing hends =>
        have hread := @takeHexits_append 2 [] tail (by simp) (by simp)
          fun d hd => isHexStop_iff_mem.mpr (hends d hd)
        rw [List.nil_append] at hread
        rw [hread]
        rfl

/-- Unless its `Rule` says that no token begins with a character, there is a form that begins with
it. -/
theorem exists_spells_of_rule {c : Char} {tail : List Char} {piece : Lexeme}
    (h : Rule c tail piece)
    (hknown : piece.fault.map Prod.fst ≠ some .unknownCharacter) :
    ∃ kind chars, Spells kind (c :: chars) := by
  have hbyte : IsByte ['0'] := by
    refine ⟨.inl rfl, fun d hd => ?_⟩
    rw [List.mem_singleton.mp hd]
    rfl
  cases h with
  | word hc => exact ⟨.word, [], by rw [hc]; exact .word (by simp)⟩
  | comma hc => exact ⟨.comma, [], by rw [hc]; exact .comma⟩
  | comment hc => exact ⟨.comment, [], by rw [hc]; exact .comment (by simp)⟩
  | hex hc => exact ⟨.hex, ['0'], by rw [hc]; exact .hex hbyte⟩
  | address hc => exact ⟨.address, ['0'], by rw [hc]; exact .address hbyte⟩
  | location hc => exact ⟨.location, [], by rw [hc]; exact .location (by simp)⟩
  | operation hc => exact ⟨.operation, [], .operation hc (by simp)⟩
  | newline hc => exact ⟨.newline, [], .newline hc (by simp)⟩
  | whitespace hc => exact ⟨.whitespace, [], .whitespace hc (by simp)⟩
  | unknown hmark hletter hnewline hblank => exact absurd rfl hknown

/-- A `lexeme` has exactly the fault by which the text is `Malformed`. -/
theorem fault_lexeme_iff {c : Char} {tail : List Char} {fault : LexFault} :
    (lexeme c tail).fault.map Prod.fst = some fault ↔ Malformed (c :: tail) fault := by
  have hliteral (hsigil : c = '#' ∨ c = '$') :
      (lexeme c tail).fault.map Prod.fst = some fault ↔ WrongDigits tail fault := by
    rcases hsigil with rfl | rfl
    · exact fault_hexLexeme_iff
    · exact fault_hexLexeme_iff
  have hrule := lexeme_rule c tail
  constructor
  · intro h
    by_cases hsigil : c = '#' ∨ c = '$'
    · exact .literal hsigil ((hliteral hsigil).mp h)
    · generalize hread : lexeme c tail = piece at h hrule
      cases hrule with
      | word | comma | comment | location | operation | newline | whitespace => cases h
      | hex hc => exact absurd (.inl hc) hsigil
      | address hc => exact absurd (.inr hc) hsigil
      | unknown hmark hletter hnewline hblank =>
          cases h
          refine .unknown fun kind chars hspells => ?_
          have hkind := hspells.kind_lexeme tail
          rw [hread] at hkind
          subst hkind
          cases hspells with
          | operation hc hname =>
              rw [hletter] at hc
              cases hc
  · intro h
    cases h with
    | unknown hnone =>
        by_contra hother
        obtain ⟨kind, chars, hspells⟩ := exists_spells_of_rule hrule hother
        exact hnone kind chars hspells
    | literal hsigil hwrong => exact (hliteral hsigil).mpr hwrong

/-! ### Lexers -/

/-- The `LexFault` that a failure tells of, if the token is malformed. -/
def LexFailure.fault? : LexFailure → Option LexFault
  | .malformed error => some error.fault
  | .unreadable _ => none

/-- The `LexFault` in `Lexeme.failure?` is the one of the piece of text. -/
theorem Lexeme.bind_failure? (piece : Lexeme) (cursor : Cursor) :
    (piece.failure? cursor).bind LexFailure.fault? = piece.fault.map Prod.fst := by
  rw [Lexeme.failure?]
  cases piece.fault <;> rfl

/-- **The lexer implements the grammar, with the longest match.** Take any text that can be read,
and a lexer in front of it. A call of `next` answers a token without a failure exactly if the text
is empty or begins with a form, and a fault exactly if the text is `Malformed` by it; there is no
third way. At the end of the text the token is the end of file. In front of a form, the token is of
the kind of the form and covers a form of this kind, beyond which no form of the kind reaches, and
the lexer goes on behind it. -/
theorem next_longest_match (text : List Char) (cursor : Cursor) :
    let lexer : Lexer := ⟨text, none, cursor⟩
    (lexer.next.1.failure = none ↔ text = [] ∨ ∃ kind form, Begins text kind form) ∧
    (∀ fault, lexer.next.1.failure.bind LexFailure.fault? = some fault ↔ Malformed text fault) ∧
    (text = [] ∨ (∃ kind form, Begins text kind form) ∨ ∃ fault, Malformed text fault) ∧
    (text = [] → lexer.next = (⟨⟨.endOfFile, "", cursor.position⟩, none⟩, lexer)) ∧
    ∀ kind form, Begins text kind form → ∃ longest, Begins text kind longest ∧
      (∀ other, Begins text kind other → other <+: longest) ∧
      lexer.next = (⟨kind.token longest cursor.position, none⟩,
        ⟨text.drop longest.length, none, cursor.advanceAll longest⟩) := by
  intro lexer
  cases text with
  | nil =>
      have hnext := Lexer.next_of_nil (show lexer.rest = [] from rfl) rfl
      have hfailure : lexer.next.1.failure = none := by rw [hnext]
      refine ⟨⟨fun _ => .inl rfl, fun _ => hfailure⟩, fun fault => ?_, .inl rfl, fun _ => hnext, ?_⟩
      · rw [hfailure]
        exact iff_of_false (by simp) (by rintro ⟨⟩)
      · intro kind form h
        obtain ⟨c, chars, tail, -, habsurd, -⟩ := h.exists_cons
        cases habsurd
  | cons c tail =>
      have hrest : lexer.rest = c :: tail := rfl
      have hanswer := Lexer.next_cons_readable hrest rfl
      have hfault : lexer.next.1.failure.bind LexFailure.fault? =
          (lexeme c tail).fault.map Prod.fst := by
        rw [hanswer]
        exact (lexeme c tail).bind_failure? cursor
      have hnone : lexer.next.1.failure = none ↔ (lexeme c tail).fault = none := by
        rw [hanswer]
        exact Option.map_eq_none_iff
      refine ⟨?_, fun fault => ?_, ?_, by simp, ?_⟩
      · rw [hnone, fault_lexeme_eq_none_iff]
        simp
      · rw [hfault]
        exact fault_lexeme_iff
      · cases hread : (lexeme c tail).fault with
        | none => exact .inr (.inl (fault_lexeme_eq_none_iff.mp hread))
        | some entry => exact .inr (.inr ⟨entry.1, fault_lexeme_iff.mp (by rw [hread]; rfl)⟩)
      · intro kind form h
        have hread : (lexeme c tail).fault = none := fault_lexeme_eq_none_iff.mpr ⟨kind, form, h⟩
        obtain ⟨d, chars, rest, rfl, htext, hbegins⟩ := h.exists_cons
        cases htext
        have hkind := hbegins.1.kind_lexeme tail
        have hlongest := begins_lexeme hread
        obtain ⟨hspells, hends⟩ := spells_of_lexeme hread
        have hwhole := lexeme_append c tail
        have hdrop : (c :: tail).drop (lexeme c tail).chars.length =
            tail.drop ((lexeme c tail).chars.length - 1) := by
          rw [← hwhole, List.drop_left]
        rw [hkind] at hlongest hspells hends
        refine ⟨(lexeme c tail).chars, hlongest, ?_, ?_⟩
        · rintro other ⟨hother, rest, hsame, -⟩
          exact Spells.isPrefix_of_endsBefore hspells.ne_nil hends hother
            (hsame.symm.trans hwhole.symm)
        · rw [hdrop]
          exact Lexer.next_of_spells hwhole.symm rfl hspells hends

-- A stop in the first place comes before whatever is in the second, and a letter that is no digit
-- spoils the first two places only if no stop comes before it.
example :
    (Lexer.ofSource ⟨"#1,G".toList, none⟩).next.1.failure = none ∧
    (Lexer.ofSource ⟨"# G".toList, none⟩).next.1.failure.bind LexFailure.fault? =
      some .hexLength ∧
    (Lexer.ofSource ⟨"#1G".toList, none⟩).next.1.failure.bind LexFailure.fault? =
      some .invalidHexit ∧
    (Lexer.ofSource ⟨"#12G".toList, none⟩).next.1.failure.bind LexFailure.fault? =
      some .hexLength := by
  decide +kernel

end MovAsm

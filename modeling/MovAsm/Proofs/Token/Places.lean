import Mathlib.Data.List.DropRight
import MovAsm.Proofs.Token.LongestMatch

/-!
# Places in a Text

A cursor moves over a text character by character and remembers one of them. Where it comes to can
be counted in the text: the line from the carriage returns and from the line feeds that do not
directly follow one, the column from the characters behind the last end of line. Both counts are
kept in machine words.

A lexer takes pieces off its text in several ways, and some of them leave the character at fault
where it is. Whatever it takes, its cursor has moved over the text before. So all places that a
lexer tells of are the counted ones: its own, those of tokens, and those of faults.

## Main definitions

* `lineEnds`, `loneFeeds` — the ends of line in a text, and the line feeds that end one alone;
* `Position.behind` — the place behind a text, by counting;
* `FaultsBehind` — what stands before the place of a fault.

## Main results

* `Cursor.line_advanceAll`: how many lines a cursor comes down.
* `lineEnds_eq`: the ends of line are the carriage returns and the line feeds without one before.
* `Cursor.position_advanceAll_start`: a cursor comes to the place that is counted.
* `faultsBehind_lexeme`: where a piece of text is at fault.
* `positions_exact`: all places that a lexer tells of.
-/

namespace MovAsm

/-! ### Ends of line -/

/-- The number of line ends in a text. A carriage return and a line feed together are one. -/
def lineEnds : List Char → Nat
  | [] => 0
  | '\r' :: '\n' :: rest => lineEnds rest + 1
  | c :: rest => if isNewline c then lineEnds rest + 1 else lineEnds rest

/-- The line of a cursor after `advanceAll`: as many lines further down as the `lineEnds`. If a
carriage return was passed before, it must not be the first half of a line end. Induction on the
text. -/
theorem Cursor.line_advanceAll {text : List Char} {cursor : Cursor}
    (h : cursor.afterReturn = true → text.head? ≠ some '\n') :
    (cursor.advanceAll text).position.line =
      cursor.position.line + UInt64.ofNat (lineEnds text) := by
  fun_induction lineEnds text generalizing cursor with
  | case1 => simp [advanceAll]
  | case2 rest ih =>
      have hnext :
          ((cursor.advance '\r').advance '\n').position.line = cursor.position.line + 1 := by
        simp [advance]
      have hrest := @ih ((cursor.advance '\r').advance '\n') (by simp [advance])
      rw [hnext] at hrest
      rw [UInt64.ofNat_add, UInt64.add_comm (UInt64.ofNat _), ← UInt64.add_assoc]
      exact hrest
  | case3 c rest hpair hc ih =>
      have hnext : (cursor.advance c).position.line = cursor.position.line + 1 := by
        rcases (by simpa [isNewline] using hc : c = '\n' ∨ c = '\r') with rfl | rfl
        · have hafter : cursor.afterReturn = false := by
            by_contra hne
            exact h (by simpa using hne) rfl
          simp [advance, hafter]
        · simp [advance]
      have hsingle : (cursor.advance c).afterReturn = true → rest.head? ≠ some '\n' := by
        intro hafter hhead
        obtain rfl : c = '\r' := by simpa [advance] using hafter
        obtain ⟨others, rfl⟩ := List.head?_eq_some_iff.mp hhead
        exact hpair others rfl rfl
      have hrest := ih hsingle
      rw [hnext] at hrest
      rw [UInt64.ofNat_add, UInt64.add_comm (UInt64.ofNat _), ← UInt64.add_assoc]
      exact hrest
  | case4 c rest hpair hc ih =>
      obtain ⟨hfeed, hreturn⟩ : c ≠ '\n' ∧ c ≠ '\r' := by simpa [isNewline] using hc
      have hnext : (cursor.advance c).position.line = cursor.position.line := by
        simp [advance, hfeed, hreturn]
      have hrest := @ih (cursor.advance c) (by simp [advance, hreturn])
      rw [hnext] at hrest
      exact hrest

/-- A cursor that is `afterReturn` is at the beginning of a line. -/
theorem Cursor.column_of_afterReturn {cursor : Cursor} (text : List Char)
    (h : cursor.afterReturn = true → cursor.position.column = 0)
    (hafter : (cursor.advanceAll text).afterReturn = true) :
    (cursor.advanceAll text).position.column = 0 := by
  induction text generalizing cursor with
  | nil => exact h hafter
  | cons c text ih =>
      refine ih (fun hreturn => ?_) hafter
      obtain rfl : c = '\r' := by simpa [advance] using hreturn
      simp [advance]

/-- The recursion of `lineEnds`: one more character in front is one more line end, unless it is a
carriage return in front of a line feed. -/
theorem lineEnds_cons (c : Char) (rest : List Char) :
    lineEnds (c :: rest) =
      lineEnds rest + if isNewline c ∧ ¬(c = '\r' ∧ rest.head? = some '\n') then 1 else 0 := by
  by_cases hpair : c = '\r' ∧ rest.head? = some '\n'
  · obtain ⟨rfl, hhead⟩ := hpair
    obtain ⟨more, rfl⟩ := List.head?_eq_some_iff.mp hhead
    simp [lineEnds, isNewline]
  · have hsingle : ∀ more, c = '\r' → rest ≠ '\n' :: more := by
      rintro more rfl rfl
      exact hpair ⟨rfl, rfl⟩
    rw [lineEnds.eq_3 _ _ hsingle]
    by_cases hc : isNewline c = true
    · simp [hc, hpair]
    · simp [hc]

/-- A character that ends a line makes `lineEnds` positive. -/
theorem lineEnds_pos {c : Char} (hc : isNewline c = true) (rest : List Char) :
    0 < lineEnds (c :: rest) := by
  rw [lineEnds_cons]
  by_cases hpair : c = '\r' ∧ rest.head? = some '\n'
  · obtain ⟨more, rfl⟩ := List.head?_eq_some_iff.mp hpair.2
    have hfeed : 0 < lineEnds ('\n' :: more) := by
      rw [lineEnds_cons]
      simp [isNewline]
    omega
  · simp [hc, hpair]

/-- Without a character that ends a line, `lineEnds` is `0`. -/
theorem lineEnds_eq_zero {text : List Char} (h : ∀ c ∈ text, isNewline c = false) :
    lineEnds text = 0 := by
  induction text with
  | nil => rfl
  | cons c rest ih =>
      obtain ⟨hc, hrest⟩ := List.forall_mem_cons.mp h
      rw [lineEnds_cons, ih hrest]
      simp [hc]

/-- The `lineEnds` of `text ++ more`. If a line end of two characters is cut there, both texts have
it. -/
theorem lineEnds_append_add (text more : List Char) :
    (lineEnds (text ++ more) +
      if text.getLast? = some '\r' ∧ more.head? = some '\n' then 1 else 0) =
      lineEnds text + lineEnds more := by
  induction text with
  | nil => simp [lineEnds]
  | cons c rest ih =>
      rw [List.cons_append, lineEnds_cons, lineEnds_cons]
      cases rest with
      | nil =>
          -- The texts meet behind this character, so it may be the first half of a line end.
          by_cases hreturn : c = '\r'
          · by_cases hhead : more.head? = some '\n'
            · simp [lineEnds, isNewline, hreturn, hhead]
              omega
            · simp [lineEnds, isNewline, hreturn, hhead]
              omega
          · simp [lineEnds, hreturn]
            omega
      | cons d rest =>
          have hhead : (d :: rest ++ more).head? = (d :: rest).head? := rfl
          rw [List.getLast?_cons_cons, hhead]
          omega

/-- The `lineEnds` of `text ++ more`, if no line end is cut there. -/
theorem lineEnds_append {text more : List Char}
    (h : text.getLast? = some '\r' → more.head? ≠ some '\n') :
    lineEnds (text ++ more) = lineEnds text + lineEnds more := by
  rw [← lineEnds_append_add, if_neg fun hcut => h hcut.1 hcut.2, Nat.add_zero]

/-- A text that goes on has no fewer `lineEnds`. -/
theorem lineEnds_le_append (text more : List Char) :
    lineEnds text ≤ lineEnds (text ++ more) := by
  have hsum := lineEnds_append_add text more
  by_cases hcut : text.getLast? = some '\r' ∧ more.head? = some '\n'
  · rw [if_pos hcut] at hsum
    obtain ⟨rest, rfl⟩ := List.head?_eq_some_iff.mp hcut.2
    have hpos := @lineEnds_pos '\n' rfl rest
    omega
  · rw [if_neg hcut] at hsum
    omega

/-- The number of line feeds in a text that do not directly follow a carriage return, where
`previous` stands before the text. -/
def loneFeeds (previous : Option Char) (text : List Char) : Nat :=
  (text.zip (previous :: text.map some)).countP fun pair => pair.1 = '\n' && pair.2 ≠ some '\r'

/-- The recursion of `loneFeeds`: one more character in front. -/
theorem loneFeeds_cons (previous : Option Char) (c : Char) (rest : List Char) :
    loneFeeds previous (c :: rest) =
      loneFeeds (some c) rest + if c = '\n' ∧ previous ≠ some '\r' then 1 else 0 := by
  simp [loneFeeds, List.countP_cons]

/-- The `lineEnds` by counting characters, where `previous` stands before the text. A line feed at
the beginning ends a line for the text alone, even if `previous` is a carriage return. -/
theorem lineEnds_eq_add (previous : Option Char) (text : List Char) :
    lineEnds text = text.count '\r' + loneFeeds previous text +
      if previous = some '\r' ∧ text.head? = some '\n' then 1 else 0 := by
  induction text generalizing previous with
  | nil => simp [lineEnds, loneFeeds]
  | cons c rest ih =>
      rw [lineEnds_cons, loneFeeds_cons, ih (some c), List.count_cons]
      by_cases hfeed : c = '\n'
      · subst hfeed
        by_cases hprevious : previous = some '\r' <;> simp [isNewline, hprevious, Nat.add_assoc]
      · by_cases hreturn : c = '\r'
        · subst hreturn
          by_cases hhead : rest.head? = some '\n' <;> simp [isNewline, hhead] <;> omega
        · simp [isNewline, hfeed, hreturn]

/-- The `lineEnds` of a text are its carriage returns and its `loneFeeds`. -/
theorem lineEnds_eq (text : List Char) :
    lineEnds text = text.count '\r' + loneFeeds none text := by
  rw [lineEnds_eq_add none text]
  simp

/-! ### Places by counting -/

/-- The position behind a text, by counting: one line more than there are carriage returns and
`loneFeeds`, and as many characters as stand behind the last of either. -/
def Position.behind (text : List Char) : Position where
  line := UInt64.ofNat (1 + (text.count '\r' + loneFeeds none text))
  column := UInt64.ofNat (text.rtakeWhile (!isNewline ·)).length

/-- The column that a cursor comes to over a text, by counting. -/
theorem Cursor.column_advanceAll_start (text : List Char) :
    (Cursor.start.advanceAll text).position.column =
      UInt64.ofNat (text.rtakeWhile (!isNewline ·)).length := by
  induction text using List.reverseRecOn with
  | nil => rfl
  | append_singleton text c ih =>
      have hlast : Cursor.start.advanceAll (text ++ [c]) =
          (Cursor.start.advanceAll text).advance c := List.foldl_append
      rw [hlast, List.rtakeWhile_concat]
      by_cases hfeed : c = '\n'
      · cases hafter : (Cursor.start.advanceAll text).afterReturn with
        | true =>
            have hzero := column_of_afterReturn text (fun _ => rfl) hafter
            simp [advance, isNewline, hfeed, hafter, hzero]
        | false => simp [advance, isNewline, hfeed, hafter]
      · by_cases hreturn : c = '\r'
        · simp [advance, isNewline, hreturn]
        · simp [advance, isNewline, hfeed, hreturn, ih, UInt64.ofNat_add]

/-- A cursor comes to the position `behind` the text. -/
theorem Cursor.position_advanceAll_start (text : List Char) :
    (Cursor.start.advanceAll text).position = Position.behind text := by
  have hline := @Cursor.line_advanceAll text Cursor.start (by simp [start])
  have hcolumn := Cursor.column_advanceAll_start text
  rw [Position.behind, ← lineEnds_eq, ← hcolumn, UInt64.ofNat_add]
  exact congrArg (Position.mk · _) hline

/-! ### Places of faults -/

/-- A text is at fault behind some of its characters, with the code point of the character at fault,
or `0` if the fault is that there is none. No form begins with the first character; or behind a
sigil, there is something that is no digit in one of the first two places, there is something after
two digits that does not end the literal, or there are no digits. -/
inductive FaultsBehind : List Char → LexFault → List Char → Int → Prop
  | unknown {c : Char} {tail : List Char} (hnone : ∀ kind chars, ¬Spells kind (c :: chars)) :
      FaultsBehind (c :: tail) .unknownCharacter [] c.toNat
  | invalid {sigil d : Char} {digits rest : List Char} (hsigil : sigil = '#' ∨ sigil = '$')
      (hlength : digits.length < 2) (hdigits : ∀ c ∈ digits, Text.isHexit c = true)
      (hd : Text.isHexit d = false) (hstop : d ∉ byteStops) :
      FaultsBehind (sigil :: (digits ++ d :: rest)) .invalidHexit (sigil :: digits) d.toNat
  | overlong {sigil d : Char} {digits rest : List Char} (hsigil : sigil = '#' ∨ sigil = '$')
      (hlength : digits.length = 2) (hdigits : ∀ c ∈ digits, Text.isHexit c = true)
      (hstop : d ∉ byteStops) :
      FaultsBehind (sigil :: (digits ++ d :: rest)) .hexLength (sigil :: digits) d.toNat
  | missing {sigil : Char} {tail : List Char} (hsigil : sigil = '#' ∨ sigil = '$')
      (hends : EndsByte tail) : FaultsBehind (sigil :: tail) .hexLength [sigil] 0

/-- What stands before the position of a fault is the front of the text, and on its first line. -/
theorem FaultsBehind.front_spec {text front : List Char} {fault : LexFault} {offender : Int}
    (h : FaultsBehind text fault front offender) :
    front <+: text ∧ ∀ c ∈ front, isNewline c = false := by
  have hsigils {sigil : Char} (hsigil : sigil = '#' ∨ sigil = '$') : isNewline sigil = false := by
    rcases hsigil with rfl | rfl <;> rfl
  have hhexits {digits : List Char} (hdigits : ∀ c ∈ digits, Text.isHexit c = true) :
      ∀ c ∈ digits, isNewline c = false :=
    fun c hc => isNewline_eq_false_of_not_isHexStop (isHexStop_of_isHexit (hdigits c hc))
  cases h with
  | unknown hnone => exact ⟨List.nil_prefix, by simp⟩
  | invalid hsigil hlength hdigits hd hstop =>
      exact ⟨⟨_, rfl⟩, List.forall_mem_cons.mpr ⟨hsigils hsigil, hhexits hdigits⟩⟩
  | overlong hsigil hlength hdigits hstop =>
      exact ⟨⟨_, rfl⟩, List.forall_mem_cons.mpr ⟨hsigils hsigil, hhexits hdigits⟩⟩
  | missing hsigil hends =>
      exact ⟨⟨_, rfl⟩, List.forall_mem_singleton.mpr (hsigils hsigil)⟩

section Faults

variable {tail : List Char} {fault : LexFault} {offset : Nat} {offender : Int}

/-- Where a `hexLexeme` is at fault. -/
theorem faultsBehind_hexLexeme {kind : Kind} {sigil : Char} (hsigil : sigil = '#' ∨ sigil = '$')
    (h : (hexLexeme kind sigil tail).fault = some (fault, offset, offender)) :
    FaultsBehind (sigil :: tail) fault ((hexLexeme kind sigil tail).chars.take offset)
      offender := by
  have hwrong := fault_hexLexeme_iff.mp (congrArg (Option.map Prod.fst) h)
  rw [hexLexeme] at h ⊢
  cases hwrong with
  | @invalid digits rest d hlength hdigits hd hstop =>
      rw [takeHexits_append_of_fault (by omega) hdigits (isHexStop_eq_false_iff.mpr hstop)
        fun _ => hd, if_neg (by omega)] at h ⊢
      cases h
      rw [List.take_of_length_le (by simp)]
      exact .invalid hsigil hlength hdigits hd hstop
  | @overlong digits rest d hlength hdigits hstop =>
      rw [takeHexits_append_of_fault (by omega) hdigits (isHexStop_eq_false_iff.mpr hstop)
        fun hlt => by omega, if_pos hlength] at h ⊢
      cases h
      rw [List.take_of_length_le (by simp)]
      exact .overlong hsigil hlength hdigits hstop
  | missing hends =>
      have hread := @takeHexits_append 2 [] tail (by simp) (by simp)
        fun d hd => isHexStop_iff_mem.mpr (hends d hd)
      rw [List.nil_append] at hread
      rw [hread] at h ⊢
      cases h
      exact .missing hsigil hends

/-- Where a `lexeme` is at fault, by its `Rule`. -/
theorem faultsBehind_lexeme {c : Char}
    (h : (lexeme c tail).fault = some (fault, offset, offender)) :
    FaultsBehind (c :: tail) fault ((lexeme c tail).chars.take offset) offender := by
  have hmalformed := fault_lexeme_iff.mp (congrArg (Option.map Prod.fst) h)
  have hrule := lexeme_rule c tail
  generalize lexeme c tail = piece at h hrule ⊢
  cases hrule with
  | word | comma | comment | location | operation | newline | whitespace => cases h
  | hex hc => exact faultsBehind_hexLexeme (.inl hc) h
  | address hc => exact faultsBehind_hexLexeme (.inr hc) h
  | unknown hmark hletter hnewline hblank =>
      cases h
      cases hmalformed with
      | unknown hnone => exact .unknown hnone
      | literal hsigil hwrong => cases hwrong

end Faults

/-! ### Places that a lexer tells of -/

/-- If a lexer has moved over `before`, a fault is at the position `behind` that and what stands
before the fault. -/
theorem Lexer.position_of_malformed {lexer : Lexer} {before : List Char} {error : LexError}
    (hcursor : lexer.cursor = Cursor.start.advanceAll before)
    (hfailure : lexer.next.1.failure = some (.malformed error)) :
    ∃ front, FaultsBehind lexer.rest error.fault front error.offender ∧
      error.position = .behind (before ++ front) := by
  obtain ⟨c, tail, offset, hrest, hfault, hposition⟩ := exists_fault_of_malformed hfailure
  refine ⟨(lexeme c tail).chars.take offset, ?_, ?_⟩
  · rw [hrest]
    exact faultsBehind_lexeme hfault
  · rw [hposition, hcursor, ← Cursor.position_advanceAll_start]
    exact congrArg Cursor.position List.foldl_append.symm

/-- The next token begins at the position of the lexer. -/
theorem Lexer.start_next (lexer : Lexer) : lexer.next.1.token.start = lexer.position := by
  cases hrest : lexer.rest with
  | nil => rw [next_nil hrest]
  | cons c tail => rw [next_cons hrest]

/-- **Positions are counted in the text.** After any number of calls, failures or not, a lexer is at
the position `behind` the characters it has taken. There the next token begins, and a fault is at
the counted position of the character at fault, or behind the sigil if a byte literal has no
digits. -/
theorem positions_exact (source : Source) (n : Nat) :
    let lexer := (Lexer.run n (Lexer.ofSource source)).2
    ∃ before, source.chars = before ++ lexer.rest ∧ lexer.position = .behind before ∧
      lexer.next.1.token.start = .behind before ∧
      ∀ error, lexer.next.1.failure = some (.malformed error) →
        ∃ front, FaultsBehind lexer.rest error.fault front error.offender ∧
          error.position = .behind (before ++ front) := by
  intro lexer
  obtain ⟨before, hchars, hcursor, -⟩ := (Lexer.within_ofSource source).run n
  have hposition : lexer.position = .behind before := by
    rw [← Cursor.position_advanceAll_start]
    exact congrArg Cursor.position hcursor
  refine ⟨before, hchars, hposition, ?_, fun error hfailure => ?_⟩
  · rw [Lexer.start_next, hposition]
  · exact Lexer.position_of_malformed hcursor hfailure

end MovAsm

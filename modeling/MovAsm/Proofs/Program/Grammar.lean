import Mathlib.Data.List.Forall2
import MovAsm.Program.Line
import MovAsm.Proofs.Check
import MovAsm.Proofs.Token.Spelling

/-!
# The Grammar of Lines

The lines of a program have six forms, one for each keyword. A form says which tokens a line has
and which instruction it makes of them; only the origin depends on where the line stands, for it
must be the first. This module writes the forms down as a relation and shows that the checks on a
line accept exactly these.

## Main results

* `Register.ofName?_eq_some_iff`, `Keyword.ofName?_eq_some_iff`: the tables of names.
* `Token.IsSpelled.ofText_eq_iff`: an operand is split off as its token writes it.
* `Token.Writes.register?_eq_some_iff`: the register that an operand names.
* `Token.names_iff_mem`, `Token.isKeyword_iff_mem`: the names of registers and keywords, listed.
* `Line.isSource_iff_mem`, `Line.isDestination_iff_mem`: the operands of a move, listed.
* `Line.Form.unique`: a line has at most one form.
* `Line.instruction_eq_ok_iff`: a line makes an instruction exactly if it has a form of it.
* `Line.Form.relocate`: a line keeps its form at another place.
-/

namespace MovAsm

/-! ### Names -/

/-- The answer of `Register.ofName?`: a register is found by its name, and by no other text. -/
theorem Register.ofName?_eq_some_iff {name : String} {register : Register} :
    Register.ofName? name = some register ↔ register ∈ Register.all ∧ register.name = name := by
  constructor
  · intro h
    exact ⟨List.mem_of_find?_eq_some h, by simpa using List.find?_some h⟩
  · rintro ⟨hmem, rfl⟩
    simp only [Register.all, List.mem_cons, List.not_mem_nil, or_false] at hmem
    rcases hmem with rfl | rfl | rfl | rfl | rfl | rfl <;> rfl

/-- The answer of `Keyword.ofName?`: a keyword is found by its name, and by no other text. -/
theorem Keyword.ofName?_eq_some_iff {name : String} {keyword : Keyword} :
    Keyword.ofName? name = some keyword ↔ keyword ∈ Keyword.all ∧ keyword.name = name := by
  constructor
  · intro h
    exact ⟨List.mem_of_find?_eq_some h, by simpa using List.find?_some h⟩
  · rintro ⟨hmem, rfl⟩
    simp only [Keyword.all, List.mem_cons, List.not_mem_nil, or_false] at hmem
    rcases hmem with rfl | rfl | rfl | rfl | rfl | rfl <;> rfl

/-- A register that `isWritable` is one of `Register.all`. -/
theorem Register.mem_all_of_isWritable {register : Register} (h : register.isWritable = true) :
    register ∈ Register.all := by
  cases register with
  | a | b | c | o1 | o2 => decide
  | acc | other code => cases h

/-- The registers that are writable. -/
theorem Register.isWritable_iff_mem {register : Register} :
    register.isWritable = true ↔ register ∈ [a, b, c, o1, o2] := by
  cases register <;> simp [isWritable]

/-! ### Tokens in a line -/

/-- The `Sigil` that tokens of a kind begin with. -/
def Kind.sigil : Kind → Sigil
  | .hex => .hash
  | .address => .dollar
  | .location => .at
  | .word => .dot
  | _ => .bare

/-- A token writes an operand: the sigil of its kind, and the text after that. -/
def Token.Writes (token : Token) (operand : Operand) : Prop :=
  operand.sigil = token.kind.sigil ∧ token.value = operand.text

/-- A token names a register, with `@` in front or without. The names are listed in
`Token.names_iff_mem`. -/
def Token.Names (token : Token) (register : Register) : Prop :=
  (token.kind = .location ∧ token.value = "@" ++ register.name) ∨
    (token.kind = .operation ∧ token.value = register.name)

/-- A token is a keyword. The words are listed in `Token.isKeyword_iff_mem`. -/
def Token.IsKeyword (token : Token) (keyword : Keyword) : Prop :=
  token.kind = .operation ∧ token.value = keyword.name

/-- A token is of a kind that operands have. -/
def Token.IsOperand (token : Token) : Prop :=
  token.kind ∈ [Kind.hex, .address, .location, .operation, .word]

namespace Line

/-- A token can be the source of a move: a byte, an address, or a register. Spelled out in
`Line.isSource_iff_mem`. -/
def IsSource (token : Token) : Prop :=
  token.kind = .hex ∨ token.kind = .address ∨ ∃ register ∈ Register.all, token.Names register

/-- A token can be the destination of a move: an address, or a writable register that is not the
source. Spelled out in `Line.isDestination_iff_mem`. -/
def IsDestination (source token : Token) : Prop :=
  token.kind = .address ∨
    ∃ register, register.isWritable = true ∧ token.Names register ∧ ¬source.Names register

/-- The forms of a line and the instruction that each makes, for the first line of a program or one
after it. -/
inductive Form (isFirst : Bool) : List Token → Instruction → Prop
  | halt {word : Token} (hword : word.IsKeyword .hlt) :
      Form isFirst [word] (.noOperand word.start .hlt)
  | idle {word : Token} (hword : word.IsKeyword .nop) :
      Form isFirst [word] (.noOperand word.start .nop)
  | define {word argument : Token} {operand : Operand} (hword : word.IsKeyword .define)
      (hargument : argument.kind = .word) (hoperand : argument.Writes operand) :
      Form isFirst [word, argument] (.unary word.start .define operand)
  | jump {word argument : Token} {operand : Operand} (hword : word.IsKeyword .jmp)
      (hargument : argument.kind = .address ∨ argument.kind = .word)
      (hoperand : argument.Writes operand) :
      Form isFirst [word, argument] (.unary word.start .jmp operand)
  | start {word argument : Token} {operand : Operand} (hfirst : isFirst = true)
      (hword : word.IsKeyword .start) (hargument : argument.kind = .address)
      (hoperand : argument.Writes operand) :
      Form isFirst [word, argument] (.unary word.start .start operand)
  | move {word source comma destination : Token} {start goal : Operand}
      (hword : word.IsKeyword .mov) (hsource : IsSource source) (hcomma : comma.kind = .comma)
      (hdestination : IsDestination source destination) (hstart : source.Writes start)
      (hgoal : destination.Writes goal) :
      Form isFirst [word, source, comma, destination] (.binary word.start .mov start goal)

end Line

/-! ### The names in the grammar -/

/-- The names of the registers, with `@` in front and without. -/
theorem Token.names_iff_mem {token : Token} {register : Register} (hmem : register ∈ Register.all) :
    token.Names register ↔
      token.kind = .location ∧ (register, token.value) ∈ [(Register.a, "@A"), (.b, "@B"),
        (.c, "@C"), (.o1, "@O1"), (.o2, "@O2"), (.acc, "@ACC")] ∨
      token.kind = .operation ∧ (register, token.value) ∈ [(Register.a, "A"), (.b, "B"), (.c, "C"),
        (.o1, "O1"), (.o2, "O2"), (.acc, "ACC")] := by
  simp only [Register.all, List.mem_cons, List.not_mem_nil, or_false] at hmem
  rcases hmem with rfl | rfl | rfl | rfl | rfl | rfl <;> simp [Token.Names, Register.name]

/-- The six keywords. -/
theorem Token.isKeyword_iff_mem {token : Token} {keyword : Keyword}
    (hmem : keyword ∈ Keyword.all) :
    token.IsKeyword keyword ↔ token.kind = .operation ∧
      (keyword, token.value) ∈ [(Keyword.mov, "MOV"), (.hlt, "HLT"), (.nop, "NOP"),
        (.define, "DEF"), (.start, "START"), (.jmp, "JMP")] := by
  simp only [Keyword.all, List.mem_cons, List.not_mem_nil, or_false] at hmem
  rcases hmem with rfl | rfl | rfl | rfl | rfl | rfl <;> simp [Token.IsKeyword, Keyword.name]

/-- What a move may begin with: `Line.IsSource` without the tables of the assembler. -/
theorem Line.isSource_iff_mem {token : Token} :
    IsSource token ↔ token.kind = .hex ∨ token.kind = .address ∨
      token.kind = .location ∧ token.value ∈ ["@A", "@B", "@C", "@O1", "@O2", "@ACC"] ∨
      token.kind = .operation ∧ token.value ∈ ["A", "B", "C", "O1", "O2", "ACC"] := by
  have hbare : ["A", "B", "C", "O1", "O2", "ACC"] = Register.all.map Register.name := rfl
  have hat : ["@A", "@B", "@C", "@O1", "@O2", "@ACC"] =
    Register.all.map fun register => "@" ++ register.name := rfl
  rw [IsSource, hbare, hat, List.mem_map, List.mem_map]
  constructor
  · rintro (hhex | haddress | ⟨register, hmem, ⟨hkind, hvalue⟩ | ⟨hkind, hvalue⟩⟩)
    · exact .inl hhex
    · exact .inr (.inl haddress)
    · exact .inr (.inr (.inl ⟨hkind, register, hmem, hvalue.symm⟩))
    · exact .inr (.inr (.inr ⟨hkind, register, hmem, hvalue.symm⟩))
  · rintro (hhex | haddress | ⟨hkind, register, hmem, hvalue⟩ | ⟨hkind, register, hmem, hvalue⟩)
    · exact .inl hhex
    · exact .inr (.inl haddress)
    · exact .inr (.inr ⟨register, hmem, .inl ⟨hkind, hvalue.symm⟩⟩)
    · exact .inr (.inr ⟨register, hmem, .inr ⟨hkind, hvalue.symm⟩⟩)

/-- What a move may end with: `Line.IsDestination` without the tables of the assembler. -/
theorem Line.isDestination_iff_mem {source token : Token} :
    IsDestination source token ↔ token.kind = .address ∨ ∃ name ∈ ["A", "B", "C", "O1", "O2"],
      (token.kind = .location ∧ token.value = "@" ++ name ∨
        token.kind = .operation ∧ token.value = name) ∧
      ¬(source.kind = .location ∧ source.value = "@" ++ name ∨
        source.kind = .operation ∧ source.value = name) := by
  have hnames : ["A", "B", "C", "O1", "O2"] =
    [Register.a, .b, .c, .o1, .o2].map Register.name := rfl
  rw [IsDestination, hnames]
  constructor
  · rintro (haddress | ⟨register, hwritable, htoken, hsource⟩)
    · exact .inl haddress
    · exact .inr ⟨register.name,
        List.mem_map_of_mem (Register.isWritable_iff_mem.mp hwritable), htoken, hsource⟩
  · rintro (haddress | ⟨name, hname, htoken, hsource⟩)
    · exact .inl haddress
    · obtain ⟨register, hmem, rfl⟩ := List.mem_map.mp hname
      exact .inr ⟨register, Register.isWritable_iff_mem.mpr hmem, htoken, hsource⟩

/-! ### Operands as tokens write them -/

/-- A token `Writes` one operand only. -/
theorem Token.Writes.unique {token : Token} {operand other : Operand} (h : token.Writes operand)
    (hother : token.Writes other) : operand = other := by
  obtain ⟨sigil, value⟩ := operand
  obtain ⟨sigil', value'⟩ := other
  obtain ⟨rfl, hvalue⟩ := h
  obtain ⟨rfl, hvalue'⟩ := hother
  rw [hvalue, Operand.text, Operand.text, String.append_right_inj] at hvalue'
  exact congrArg _ hvalue'

/-- A token is one of `Keyword.all` at most. -/
theorem Token.IsKeyword.unique {token : Token} {keyword other : Keyword}
    (h : token.IsKeyword keyword) (hother : token.IsKeyword other) (hmem : keyword ∈ Keyword.all)
    (hmem' : other ∈ Keyword.all) : keyword = other := by
  have hname := Keyword.ofName?_eq_some_iff.mpr ⟨hmem, h.2.symm⟩
  have hname' := Keyword.ofName?_eq_some_iff.mpr ⟨hmem', hother.2.symm⟩
  rw [hname] at hname'
  exact Option.some.inj hname'

/-- A line has the `Form` of one instruction only. -/
theorem Line.Form.unique {isFirst : Bool} {line : List Token} {instruction other : Instruction}
    (h : Line.Form isFirst line instruction) (hother : Line.Form isFirst line other) :
    instruction = other := by
  cases h with
  | halt hword =>
      cases hother with
      | halt hword' => rfl
      | idle hword' => cases hword.unique hword' (by decide) (by decide)
  | idle hword =>
      cases hother with
      | halt hword' => cases hword.unique hword' (by decide) (by decide)
      | idle hword' => rfl
  | define hword hargument hoperand =>
      cases hother with
      | define hword' hargument' hoperand' => rw [hoperand.unique hoperand']
      | jump hword' => cases hword.unique hword' (by decide) (by decide)
      | start hfirst hword' => cases hword.unique hword' (by decide) (by decide)
  | jump hword hargument hoperand =>
      cases hother with
      | define hword' => cases hword.unique hword' (by decide) (by decide)
      | jump hword' hargument' hoperand' => rw [hoperand.unique hoperand']
      | start hfirst hword' => cases hword.unique hword' (by decide) (by decide)
  | start hfirst hword hargument hoperand =>
      cases hother with
      | define hword' => cases hword.unique hword' (by decide) (by decide)
      | jump hword' => cases hword.unique hword' (by decide) (by decide)
      | start hfirst' hword' hargument' hoperand' => rw [hoperand.unique hoperand']
  | move hword hsource hcomma hdestination hstart hgoal =>
      cases hother with
      | move hword' hsource' hcomma' hdestination' hstart' hgoal' =>
          rw [hstart.unique hstart', hgoal.unique hgoal']

/-- The `Sigil.text` of a character that is a sigil is that character. -/
theorem Sigil.text_of_ofChar? {c : Char} {sigil : Sigil} (h : Sigil.ofChar? c = some sigil) :
    sigil.text = String.ofList [c] := by
  simp only [Sigil.ofChar?] at h
  split at h <;> cases h <;> rfl

/-- A letter is no sigil. -/
theorem Sigil.ofChar?_of_isLetter {c : Char} (h : Text.isLetter c = true) :
    Sigil.ofChar? c = none := by
  simp only [Sigil.ofChar?]
  split
  · exact absurd rfl (ne_of_isLetter h (by decide) (by decide))
  · exact absurd rfl (ne_of_isLetter h (by decide) (by decide))
  · exact absurd rfl (ne_of_isLetter h (by decide) (by decide))
  · exact absurd rfl (ne_of_isLetter h (by decide) (by decide))
  · rfl

/-- A token that begins with the sigil of its kind `Writes` what follows the sigil. -/
theorem Token.writes_of_sigil {kind : Kind} {c : Char} {rest : List Char} {start : Position}
    (h : Sigil.ofChar? c = some kind.sigil) :
    Token.Writes ⟨kind, String.ofList (c :: rest), start⟩
      (Operand.ofText (String.ofList (c :: rest))) := by
  have hsplit : Operand.ofText (String.ofList (c :: rest)) = ⟨kind.sigil, String.ofList rest⟩ := by
    simp [Operand.ofText, h]
  rw [hsplit]
  refine ⟨rfl, ?_⟩
  rw [Operand.text, Sigil.text_of_ofChar? h, ← String.ofList_append, List.singleton_append]

/-- A bare name `Writes` itself. -/
theorem Token.writes_of_isLetter {c : Char} {rest : List Char} {start : Position}
    (h : Text.isLetter c = true) :
    Token.Writes ⟨.operation, String.ofList (c :: rest), start⟩
      (Operand.ofText (String.ofList (c :: rest))) := by
  have hsplit : Operand.ofText (String.ofList (c :: rest)) =
      ⟨.bare, String.ofList (c :: rest)⟩ := by
    simp [Operand.ofText, Sigil.ofChar?_of_isLetter h]
  rw [hsplit]
  exact ⟨rfl, String.empty_append.symm⟩

/-- A token that `IsSpelled` writes the operand that `Operand.ofText` makes of its value. -/
theorem Token.IsSpelled.writes_ofText {token : Token} (h : token.IsSpelled)
    (hoperand : token.IsOperand) : token.Writes (Operand.ofText token.value) := by
  obtain ⟨kind, value, start⟩ := token
  rcases h with rfl | ⟨chars, hspells, htoken⟩
  · exact absurd hoperand (by simp [Token.IsOperand])
  · obtain rfl : value = Lexeme.value { kind, chars } := congrArg Token.value htoken
    dsimp only at hspells
    cases hspells with
    | word hname => exact Token.writes_of_sigil rfl
    | hex hdigits => exact Token.writes_of_sigil rfl
    | address hdigits => exact Token.writes_of_sigil rfl
    | location hname => exact Token.writes_of_sigil rfl
    | operation hc hname => exact Token.writes_of_isLetter hc
    | comma | comment htext | newline hc hchars | whitespace hc hchars =>
        exact absurd hoperand (by simp [Token.IsOperand])

/-- The operand that `Operand.ofText` makes of a token is the one that it `Writes`. -/
theorem Token.IsSpelled.ofText_eq_iff {token : Token} (h : token.IsSpelled)
    (hoperand : token.IsOperand) {operand : Operand} :
    Operand.ofText token.value = operand ↔ token.Writes operand := by
  constructor
  · rintro rfl
    exact h.writes_ofText hoperand
  · exact (h.writes_ofText hoperand).unique

/-- A byte or an address writes the digits of a byte. -/
theorem Token.Writes.isByte {token : Token} {operand : Operand} (h : token.Writes operand)
    (hspelled : token.IsSpelled) (hkind : token.kind = .hex ∨ token.kind = .address) :
    IsByte operand.value.toList := by
  obtain ⟨sigil, value⟩ := operand
  obtain ⟨hsigil, hvalue⟩ := h
  dsimp only at hsigil
  obtain ⟨hspells, -⟩ := hspelled.spells_value (by rcases hkind with h | h <;> simp [h])
  rw [hvalue, Operand.text, String.toList_append] at hspells
  rcases hkind with hkind | hkind <;> rw [hkind] at hsigil hspells <;> subst hsigil
  · have hspells : Spells .hex ('#' :: value.toList) := by
      simpa [Kind.sigil, Sigil.text] using hspells
    cases hspells with
    | hex hdigits => exact hdigits
  · have hspells : Spells .address ('$' :: value.toList) := by
      simpa [Kind.sigil, Sigil.text] using hspells
    cases hspells with
    | address hdigits => exact hdigits

/-- A byte or an address writes its digits in upper case. -/
theorem Token.Writes.isUpperByte {token : Token} {operand : Operand} (h : token.Writes operand)
    (hspelled : token.IsSpelled) (hkind : token.kind = .hex ∨ token.kind = .address) :
    Text.IsUpperByte operand.value.toList := by
  obtain ⟨hlength, hdigits⟩ := h.isByte hspelled hkind
  refine ⟨hlength, hdigits, fun c hc => ?_⟩
  obtain ⟨-, htoken⟩ := hspelled.spells_value (by rcases hkind with h | h <;> simp [h])
  have hvalue : token.value = String.ofList (token.value.toList.map Char.toUpper) := by
    have hlexeme := congrArg Token.value htoken
    rcases hkind with hkind | hkind <;> rw [hkind] at hlexeme <;> exact hlexeme
  have hupper : token.value.toList.map Char.toUpper = token.value.toList.map id := by
    rw [List.map_id, ← String.toList_ofList (l := token.value.toList.map Char.toUpper), ← hvalue]
  have hmem : c ∈ token.value.toList := by
    rw [h.2, Operand.text, String.toList_append]
    simp [hc]
  exact List.map_inj_left.mp hupper c hmem

/-- The `OperandKind` of an operand depends on the kind of its token only. -/
theorem Token.Writes.kind_eq {token : Token} {operand : Operand} (h : token.Writes operand) :
    operand.kind = token.kind.sigil.kind := by
  rw [Operand.kind, h.1]

/-- An operand has a `register?` exactly if its token `Names` it. -/
theorem Token.Writes.register?_eq_some_iff {token : Token} {operand : Operand}
    (h : token.Writes operand) (hoperand : token.IsOperand) {register : Register} :
    operand.register? = some register ↔ register ∈ Register.all ∧ token.Names register := by
  obtain ⟨sigil, value⟩ := operand
  obtain ⟨hsigil, hvalue⟩ := h
  dsimp only at hsigil
  simp only [Token.IsOperand, List.mem_cons, List.not_mem_nil, or_false] at hoperand
  -- Only names, with a sigil or without, are looked up among the registers.
  rcases hoperand with hkind | hkind | hkind | hkind | hkind <;> rw [hkind] at hsigil <;>
    subst hsigil
  · simp [Operand.register?, Operand.kind, Sigil.kind, Kind.sigil, Token.Names, hkind]
  · simp [Operand.register?, Operand.kind, Sigil.kind, Kind.sigil, Token.Names, hkind]
  · have hnames : token.Names register ↔ register.name = value := by
      simp [Token.Names, hkind, hvalue, Operand.text, Kind.sigil, Sigil.text, eq_comm]
    rw [hnames]
    exact Register.ofName?_eq_some_iff
  · have hnames : token.Names register ↔ register.name = value := by
      simp [Token.Names, hkind, hvalue, Operand.text, Kind.sigil, Sigil.text, eq_comm]
    rw [hnames]
    exact Register.ofName?_eq_some_iff
  · simp [Operand.register?, Operand.kind, Sigil.kind, Kind.sigil, Token.Names, hkind]

/-! ### The checks on a line -/

namespace Line

variable {token source comma destination word argument : Token} {start goal operand : Operand}

/-- The check `expect` accepts the kinds that it is asked for. -/
theorem expect_eq_ok_iff {want : List Kind} {answer : Unit} :
    expect want token = .ok answer ↔ token.kind ∈ want := by
  rw [expect]
  by_cases hmem : token.kind ∈ want
  · simp [hmem]
  · simp [hmem]

/-- The check `keyword` accepts the keywords of the shape that it is asked for. -/
theorem keyword_eq_ok_iff {shape : Shape} {read : Keyword} :
    keyword shape token = .ok read ↔
      read ∈ Keyword.all ∧ token.IsKeyword read ∧ read.shape = shape := by
  rw [keyword]
  rw [Check.bind_eq_ok_iff]
  simp only [expect_eq_ok_iff, List.mem_singleton, Token.IsKeyword]
  cases hname : Keyword.ofName? token.value with
  | none =>
      simp only [Check.throw_eq_error, reduceCtorEq, and_false, exists_false, false_iff]
      rintro ⟨hmem, ⟨-, hvalue⟩, -⟩
      rw [Keyword.ofName?_eq_some_iff.mpr ⟨hmem, hvalue.symm⟩] at hname
      cases hname
  | some found =>
      obtain ⟨hmem, hvalue⟩ := Keyword.ofName?_eq_some_iff.mp hname
      constructor
      · rintro ⟨-, hkind, hread⟩
        dsimp only at hread
        by_cases hshape : found.shape = shape
        · rw [if_pos hshape] at hread
          cases hread
          exact ⟨hmem, ⟨hkind, hvalue.symm⟩, hshape⟩
        · rw [if_neg hshape] at hread
          cases hread
      · rintro ⟨hread, ⟨hkind, hvalue'⟩, hshape⟩
        have hsame : Keyword.ofName? token.value = some read :=
          Keyword.ofName?_eq_some_iff.mpr ⟨hread, hvalue'.symm⟩
        rw [hname] at hsame
        cases hsame
        exact ⟨(), hkind, by simp [hshape]⟩

/-- The check `operand` answers what the token `Writes`; a name must be that of a register. -/
theorem operand_eq_ok_iff (hspelled : token.IsSpelled) (hoperand : token.IsOperand) :
    Line.operand token = .ok operand ↔ token.Writes operand ∧
      (operand.kind = .location → ∃ register ∈ Register.all, token.Names register) := by
  have hwrites := hspelled.writes_ofText hoperand
  have hregister : (Operand.ofText token.value).register?.isNone = false ↔
      ∃ register ∈ Register.all, token.Names register := by
    rw [Option.isNone_eq_false_iff, Option.isSome_iff_exists]
    simp only [hwrites.register?_eq_some_iff hoperand]
  rw [← hspelled.ofText_eq_iff hoperand, ← hregister, Line.operand]
  by_cases hcheck : ((Operand.ofText token.value).kind = .location &&
      (Operand.ofText token.value).register?.isNone) = true
  · rw [if_pos hcheck]
    simp only [Bool.and_eq_true, decide_eq_true_eq] at hcheck
    simp only [Check.throw_eq_error, reduceCtorEq, false_iff]
    rintro ⟨rfl, hfound⟩
    rw [hfound hcheck.1] at hcheck
    cases hcheck.2
  · rw [if_neg hcheck]
    simp only [Bool.and_eq_true, decide_eq_true_eq, not_and, Bool.not_eq_true] at hcheck
    simp only [Check.pure_eq_ok, Except.ok.injEq]
    constructor
    · rintro rfl
      exact ⟨rfl, hcheck⟩
    · exact And.left

/-- The check `checkDestination` accepts an address, or a writable register in which the move does
not begin. -/
theorem checkDestination_eq_ok_iff {answer : Unit} :
    checkDestination source destination start goal = .ok answer ↔ goal.kind = .address ∨
      ∃ register, goal.register? = some register ∧ register.isWritable = true ∧
        start.register? ≠ some register := by
  rw [checkDestination]
  by_cases haddress : goal.kind = .address
  · simp [haddress]
  · rw [if_neg haddress]
    cases goal.register? with
    | none => simp [haddress]
    | some register =>
        cases hwritable : register.isWritable with
        | false => simp [haddress, hwritable]
        | true =>
            by_cases hself : start.register? = some register
            · simp [haddress, hwritable, hself]
            · simp [haddress, hwritable, hself]

/-- The answer of `unary`, by its checks one after the other. -/
theorem unary_eq_ok_iff {afterOthers : Bool} {instruction : Instruction} :
    unary afterOthers word argument = .ok instruction ↔
      ∃ read operand, keyword .unary word = .ok read ∧ argument.kind ∈ operandKinds read ∧
        ¬(read = .start ∧ afterOthers = true) ∧ Line.operand argument = .ok operand ∧
        instruction = .unary word.start read operand := by
  rw [unary]
  simp only [Check.bind_eq_ok_iff, expect_eq_ok_iff]
  constructor
  · rintro ⟨read, hread, -, hkind, hrest⟩
    by_cases hstart : (read = .start && afterOthers) = true
    · rw [if_pos hstart] at hrest
      cases hrest
    · rw [if_neg hstart] at hrest
      simp only [Check.pure_eq_ok, Check.bind_eq_ok_iff, Except.ok.injEq] at hrest
      obtain ⟨operand, hoperand, rfl⟩ := hrest
      exact ⟨read, operand, hread, hkind, by simpa using hstart, hoperand, rfl⟩
  · rintro ⟨read, operand, hread, hkind, hstart, hoperand, rfl⟩
    refine ⟨read, hread, (), hkind, ?_⟩
    rw [if_neg (by simpa using hstart)]
    simp [hoperand]

/-- The answer of `binary`, by its checks one after the other. -/
theorem binary_eq_ok_iff {instruction : Instruction} :
    binary word source comma destination = .ok instruction ↔
      ∃ read start goal, keyword .binary word = .ok read ∧ source.kind ∈ sourceKinds ∧
        comma.kind = .comma ∧ destination.kind ∈ destinationKinds ∧
        Line.operand source = .ok start ∧ Line.operand destination = .ok goal ∧
        checkDestination source destination start goal = .ok () ∧
        instruction = .binary word.start read start goal := by
  rw [binary]
  simp only [Check.bind_eq_ok_iff, expect_eq_ok_iff, Check.pure_eq_ok, Except.ok.injEq,
    List.mem_singleton]
  constructor
  · rintro ⟨read, hread, -, hsource, -, hcomma, -, hdestination, start, hstart, goal, hgoal, _,
      hcheck, rfl⟩
    exact ⟨read, start, goal, hread, hsource, hcomma, hdestination, hstart, hgoal, hcheck, rfl⟩
  · rintro ⟨read, start, goal, hread, hsource, hcomma, hdestination, hstart, hgoal, hcheck, rfl⟩
    exact ⟨read, hread, (), hsource, (), hcomma, (), hdestination, start, hstart, goal, hgoal, (),
      hcheck, rfl⟩

/-! ### Lines of the grammar -/

/-- The `sourceKinds` are kinds of operands. -/
theorem isOperand_of_mem_sourceKinds (h : token.kind ∈ sourceKinds) : token.IsOperand := by
  simp only [sourceKinds, List.mem_cons, List.not_mem_nil, or_false] at h
  rcases h with h | h | h | h <;> simp [Token.IsOperand, h]

/-- A token that `Names` a register is of a kind that operands have. -/
theorem isOperand_of_names {register : Register} (h : token.Names register) : token.IsOperand := by
  rcases h with ⟨hkind, -⟩ | ⟨hkind, -⟩ <;> simp [Token.IsOperand, hkind]

/-- A token that `IsSource` is of a kind that operands have. -/
theorem isOperand_of_isSource (h : IsSource token) : token.IsOperand := by
  rcases h with hkind | hkind | ⟨register, -, hnames⟩
  · simp [Token.IsOperand, hkind]
  · simp [Token.IsOperand, hkind]
  · exact isOperand_of_names hnames

/-- A token that `IsDestination` is of a kind that operands have. -/
theorem isOperand_of_isDestination (h : IsDestination source token) : token.IsOperand := by
  rcases h with hkind | ⟨register, -, hnames, -⟩
  · simp [Token.IsOperand, hkind]
  · exact isOperand_of_names hnames

/-- A token `IsSource` exactly if it passes the checks of `binary` on the source. -/
theorem isSource_iff (hwrites : token.Writes operand) :
    IsSource token ↔ token.kind ∈ sourceKinds ∧
      (operand.kind = .location → ∃ register ∈ Register.all, token.Names register) := by
  rw [hwrites.kind_eq]
  constructor
  · rintro (hkind | hkind | ⟨register, hmem, hnames⟩)
    · simp [hkind, sourceKinds, Kind.sigil, Sigil.kind]
    · simp [hkind, sourceKinds, Kind.sigil, Sigil.kind]
    · refine ⟨?_, fun _ => ⟨register, hmem, hnames⟩⟩
      rcases hnames with ⟨hkind, -⟩ | ⟨hkind, -⟩ <;> simp [hkind, sourceKinds]
  · rintro ⟨hkind, hregister⟩
    simp only [sourceKinds, List.mem_cons, List.not_mem_nil, or_false] at hkind
    rcases hkind with hkind | hkind | hkind | hkind
    · exact .inl hkind
    · exact .inr (.inl hkind)
    · exact .inr (.inr (hregister (by rw [hkind]; rfl)))
    · exact .inr (.inr (hregister (by rw [hkind]; rfl)))

/-- A token `IsDestination` exactly if it passes the checks of `binary` on the destination. -/
theorem isDestination_iff (hsource : source.Writes start) (hoperand : source.IsOperand)
    (hdestination : destination.Writes goal) :
    IsDestination source destination ↔ destination.kind ∈ destinationKinds ∧
      (goal.kind = .location → ∃ register ∈ Register.all, destination.Names register) ∧
      (goal.kind = .address ∨ ∃ register, goal.register? = some register ∧
        register.isWritable = true ∧ start.register? ≠ some register) := by
  constructor
  · rintro (hkind | ⟨register, hwritable, hnames, hother⟩)
    · have hgoal : goal.kind = .address := by
        rw [hdestination.kind_eq, hkind]
        rfl
      refine ⟨by simp [hkind, destinationKinds], fun hlocation => ?_, .inl hgoal⟩
      rw [hgoal] at hlocation
      cases hlocation
    · have hmem := Register.mem_all_of_isWritable hwritable
      have hkind : destination.kind ∈ destinationKinds := isOperand_of_names hnames
      refine ⟨hkind, fun _ => ⟨register, hmem, hnames⟩, .inr ⟨register, ?_, hwritable, ?_⟩⟩
      · exact (hdestination.register?_eq_some_iff hkind).mpr ⟨hmem, hnames⟩
      · rw [Ne, hsource.register?_eq_some_iff hoperand]
        exact fun hself => hother hself.2
  · rintro ⟨hkind, -, haddress | ⟨register, hregister, hwritable, hother⟩⟩
    · rw [hdestination.kind_eq] at haddress
      simp only [destinationKinds, List.mem_cons, List.not_mem_nil, or_false] at hkind
      rcases hkind with hkind | hkind | hkind | hkind | hkind
      · rw [hkind] at haddress
        cases haddress
      · exact .inl hkind
      · rw [hkind] at haddress
        cases haddress
      · rw [hkind] at haddress
        cases haddress
      · rw [hkind] at haddress
        cases haddress
    · obtain ⟨hmem, hnames⟩ := (hdestination.register?_eq_some_iff hkind).mp hregister
      refine .inr ⟨register, hwritable, hnames, fun hself => hother ?_⟩
      exact (hsource.register?_eq_some_iff hoperand).mpr ⟨hmem, hself⟩

/-- The answer of `noOperand` is the instruction of the `Form`. -/
theorem noOperand_eq_ok_iff {isFirst : Bool} {instruction : Instruction} :
    noOperand word = .ok instruction ↔ Form isFirst [word] instruction := by
  rw [noOperand]
  simp only [Check.bind_eq_ok_iff, keyword_eq_ok_iff, Check.pure_eq_ok, Except.ok.injEq]
  constructor
  · rintro ⟨read, ⟨-, hword, hshape⟩, rfl⟩
    cases read with
    | hlt => exact .halt hword
    | nop => exact .idle hword
    | _ => cases hshape
  · intro hform
    cases hform with
    | halt hword => exact ⟨.hlt, ⟨by decide, hword, rfl⟩, rfl⟩
    | idle hword => exact ⟨.nop, ⟨by decide, hword, rfl⟩, rfl⟩

/-- The answer of `unary` is the instruction of the `Form`. -/
theorem unary_eq_ok_iff_form {afterOthers : Bool} {instruction : Instruction}
    (hspelled : argument.IsSpelled) :
    unary afterOthers word argument = .ok instruction ↔
      Form (!afterOthers) [word, argument] instruction := by
  -- No keyword takes a name for its only operand, so that none is looked up.
  have hread : ∀ {operand : Operand}, argument.kind ∈ [Kind.address, .word] →
      (Line.operand argument = .ok operand ↔ argument.Writes operand) := by
    intro operand hkind
    have hsub : [Kind.address, .word] ⊆ [Kind.hex, .address, .location, .operation, .word] := by
      decide
    rw [operand_eq_ok_iff hspelled (hsub hkind)]
    refine ⟨And.left, fun hwrites => ⟨hwrites, fun hlocation => ?_⟩⟩
    rw [hwrites.kind_eq] at hlocation
    simp only [List.mem_cons, List.not_mem_nil, or_false] at hkind
    rcases hkind with hkind | hkind <;> rw [hkind] at hlocation <;> cases hlocation
  rw [unary_eq_ok_iff]
  constructor
  · rintro ⟨read, operand, hkeyword, hkind, hstart, hoperand, rfl⟩
    obtain ⟨-, hword, hshape⟩ := keyword_eq_ok_iff.mp hkeyword
    cases read with
    | define =>
        have hargument : argument.kind = .word := by simpa [operandKinds] using hkind
        exact .define hword hargument ((hread (by simp [hargument])).mp hoperand)
    | start =>
        have hargument : argument.kind = .address := by simpa [operandKinds] using hkind
        exact .start (by simpa using hstart) hword hargument
          ((hread (by simp [hargument])).mp hoperand)
    | jmp =>
        have hargument : argument.kind = .address ∨ argument.kind = .word := by
          simpa [operandKinds] using hkind
        exact .jump hword hargument ((hread hkind).mp hoperand)
    | _ => cases hshape
  · intro hform
    cases hform with
    | @define _ _ operand hword hargument hoperand =>
        exact ⟨.define, operand, keyword_eq_ok_iff.mpr ⟨by decide, hword, rfl⟩,
          by simp [operandKinds, hargument], by simp, (hread (by simp [hargument])).mpr hoperand,
          rfl⟩
    | @jump _ _ operand hword hargument hoperand =>
        have hkind : argument.kind ∈ [Kind.address, .word] := by simpa using hargument
        exact ⟨.jmp, operand, keyword_eq_ok_iff.mpr ⟨by decide, hword, rfl⟩, hkind, by simp,
          (hread hkind).mpr hoperand, rfl⟩
    | @start _ _ operand hfirst hword hargument hoperand =>
        exact ⟨.start, operand, keyword_eq_ok_iff.mpr ⟨by decide, hword, rfl⟩,
          by simp [operandKinds, hargument], by simpa using hfirst,
          (hread (by simp [hargument])).mpr hoperand, rfl⟩

/-- The answer of `binary` is the instruction of the `Form`. -/
theorem binary_eq_ok_iff_form {isFirst : Bool} {instruction : Instruction}
    (hsource : source.IsSpelled) (hdestination : destination.IsSpelled) :
    binary word source comma destination = .ok instruction ↔
      Form isFirst [word, source, comma, destination] instruction := by
  rw [binary_eq_ok_iff]
  constructor
  · rintro ⟨read, start, goal, hkeyword, hkind, hcomma, hkind', hstart, hgoal, hcheck, rfl⟩
    have hoperand := isOperand_of_mem_sourceKinds hkind
    obtain ⟨-, hword, hshape⟩ := keyword_eq_ok_iff.mp hkeyword
    obtain ⟨hwrites, hlocation⟩ := (operand_eq_ok_iff hsource hoperand).mp hstart
    obtain ⟨hwrites', hlocation'⟩ := (operand_eq_ok_iff hdestination hkind').mp hgoal
    cases read with
    | mov =>
        refine .move hword ((isSource_iff hwrites).mpr ⟨hkind, hlocation⟩) hcomma ?_ hwrites
          hwrites'
        exact (isDestination_iff hwrites hoperand hwrites').mpr
          ⟨hkind', hlocation', checkDestination_eq_ok_iff.mp hcheck⟩
    | other code => simp [keyword_eq_ok_iff, Keyword.all] at hkeyword
    | _ => cases hshape
  · intro hform
    cases hform with
    | @move _ _ _ _ start goal hword hissource hcomma hisdestination hwrites hwrites' =>
        obtain ⟨hkind, hlocation⟩ := (isSource_iff hwrites).mp hissource
        have hoperand := isOperand_of_mem_sourceKinds hkind
        obtain ⟨hkind', hlocation', hcheck⟩ :=
          (isDestination_iff hwrites hoperand hwrites').mp hisdestination
        exact ⟨.mov, start, goal, keyword_eq_ok_iff.mpr ⟨by decide, hword, rfl⟩, hkind, hcomma,
          hkind', (operand_eq_ok_iff hsource hoperand).mpr ⟨hwrites, hlocation⟩,
          (operand_eq_ok_iff hdestination hkind').mpr ⟨hwrites', hlocation'⟩,
          checkDestination_eq_ok_iff.mpr hcheck, rfl⟩

/-- **The checks implement the grammar**: `Line.instruction` accepts a line of tokens that are
spelled right exactly if it has a `Form`, and answers the instruction of that. -/
theorem instruction_eq_ok_iff {afterOthers : Bool} {length : Nat} {first : Token}
    {others : List Token} {instruction : Instruction}
    (hspelled : ∀ token ∈ first :: others, token.IsSpelled) :
    Line.instruction afterOthers length first others = .ok instruction ↔
      Form (!afterOthers) (first :: others) instruction := by
  have hlength {tokens : List Token}
      (hnone : ∀ instruction, ¬Form (!afterOthers) tokens instruction) :
      .error (complain first (.expressionLength length)) = Except.ok instruction ↔
        Form (!afterOthers) tokens instruction := by
    simp [hnone]
  rcases others with _ | ⟨source, _ | ⟨comma, _ | ⟨destination, _ | ⟨extra, rest⟩⟩⟩⟩
  · exact noOperand_eq_ok_iff
  · exact unary_eq_ok_iff_form (hspelled _ (by simp))
  · exact hlength fun _ hform => by cases hform
  · exact binary_eq_ok_iff_form (hspelled _ (by simp)) (hspelled _ (by simp))
  · exact hlength fun _ hform => by cases hform

end Line

/-! ### Lines at another place -/

/-- An instruction at another position. -/
def Instruction.relocate (position : Position) : Instruction → Instruction
  | noOperand _ keyword => .noOperand position keyword
  | unary _ keyword operand => .unary position keyword operand
  | binary _ keyword source destination => .binary position keyword source destination
  | foreign _ keyword => .foreign position keyword

/-- The token `other` is `token`, perhaps at another position. -/
def Token.Moved (token other : Token) : Prop :=
  ∃ start, other = { token with start }

/-- A keyword is of a kind that operands have. -/
theorem Token.IsKeyword.isOperand {token : Token} {keyword : Keyword}
    (h : token.IsKeyword keyword) : token.IsOperand := by
  simp [Token.IsOperand, h.1]

/-- A token that `IsOperand` is neither trivial nor an end of line. -/
theorem Token.IsOperand.kind_spec {token : Token} (h : token.IsOperand) :
    token.kind.isTrivial = false ∧ token.kind ≠ .newline := by
  simp only [Token.IsOperand, List.mem_cons, List.not_mem_nil, or_false] at h
  rcases h with h | h | h | h | h <;> rw [h] <;> decide

namespace Line.Form

variable {isFirst : Bool} {line : List Token} {instruction : Instruction}

/-- A line with a `Form` begins with its keyword. -/
theorem exists_cons (h : Form isFirst line instruction) :
    ∃ word others, line = word :: others ∧ word.IsOperand := by
  cases h with
  | halt hword | idle hword | define hword | jump hword | move hword =>
      exact ⟨_, _, rfl, hword.isOperand⟩
  | start hfirst hword => exact ⟨_, _, rfl, hword.isOperand⟩

/-- The tokens of a line with a `Form` are operands and commas. -/
theorem isOperand_of_mem (h : Form isFirst line instruction) {token : Token} (hmem : token ∈ line) :
    token.IsOperand ∨ token.kind = .comma := by
  cases h with
  | halt hword | idle hword =>
      rw [List.mem_singleton] at hmem
      exact .inl (hmem ▸ hword.isOperand)
  | define hword hargument hoperand =>
      simp only [List.mem_cons, List.not_mem_nil, or_false] at hmem
      rcases hmem with rfl | rfl
      · exact .inl hword.isOperand
      · exact .inl (by simp [Token.IsOperand, hargument])
  | jump hword hargument hoperand =>
      simp only [List.mem_cons, List.not_mem_nil, or_false] at hmem
      rcases hmem with rfl | rfl
      · exact .inl hword.isOperand
      · rcases hargument with hargument | hargument <;> simp [Token.IsOperand, hargument]
  | start hfirst hword hargument hoperand =>
      simp only [List.mem_cons, List.not_mem_nil, or_false] at hmem
      rcases hmem with rfl | rfl
      · exact .inl hword.isOperand
      · exact .inl (by simp [Token.IsOperand, hargument])
  | move hword hsource hcomma hdestination hstart hgoal =>
      simp only [List.mem_cons, List.not_mem_nil, or_false] at hmem
      rcases hmem with rfl | rfl | rfl | rfl
      · exact .inl hword.isOperand
      · exact .inl (isOperand_of_isSource hsource)
      · exact .inr hcomma
      · exact .inl (isOperand_of_isDestination hdestination)

/-- The tokens of a line with a `Form` are not trivial, and none of them is an end of line. -/
theorem kind_of_mem (h : Form isFirst line instruction) {token : Token} (hmem : token ∈ line) :
    token.kind.isTrivial = false ∧ token.kind ≠ .newline := by
  rcases h.isOperand_of_mem hmem with hoperand | hcomma
  · exact hoperand.kind_spec
  · rw [hcomma]
    decide

/-- A `Form` does not depend on where the tokens stand; only the position of the instruction
does. -/
theorem relocate {first : Token} {others : List Token} (h : Form isFirst line instruction)
    (hmoved : List.Forall₂ Token.Moved line (first :: others)) :
    Form isFirst (first :: others) (instruction.relocate first.start) := by
  cases h with
  | halt hword =>
      obtain _ | ⟨⟨place, rfl⟩, _ | _⟩ := hmoved
      exact .halt hword
  | idle hword =>
      obtain _ | ⟨⟨place, rfl⟩, _ | _⟩ := hmoved
      exact .idle hword
  | define hword hargument hoperand =>
      obtain _ | ⟨⟨place, rfl⟩, _ | ⟨⟨place', rfl⟩, _ | _⟩⟩ := hmoved
      exact .define hword hargument hoperand
  | jump hword hargument hoperand =>
      obtain _ | ⟨⟨place, rfl⟩, _ | ⟨⟨place', rfl⟩, _ | _⟩⟩ := hmoved
      exact .jump hword hargument hoperand
  | start hfirst hword hargument hoperand =>
      obtain _ | ⟨⟨place, rfl⟩, _ | ⟨⟨place', rfl⟩, _ | _⟩⟩ := hmoved
      exact .start hfirst hword hargument hoperand
  | move hword hsource hcomma hdestination hstart hgoal =>
      obtain _ | ⟨⟨place, rfl⟩, _ | ⟨⟨_, rfl⟩, _ | ⟨⟨_, rfl⟩, _ | ⟨⟨_, rfl⟩, _ | _⟩⟩⟩⟩ := hmoved
      exact .move hword hsource hcomma hdestination hstart hgoal

end Line.Form

end MovAsm

import Mathlib.Data.List.Induction
import MovAsm.Command
import MovAsm.Proofs.Check

/-!
# The Grammar of Command Lines

A command line is a series of choices and two names. A choice gives a value to a flag, and there are
several ways to write it: with one dash or two, and with the value behind `=`, in an argument of its
own, or, for a switch that is on, left out. The command accepts exactly the command lines that are
written like this. Of several choices for one flag, the last one counts, whatever stands between
them.

## Main definitions

* `Choice` — a value for a flag;
* `Choice.Spells` — the ways to write a choice;
* `CommandLine` — the choices and the operands of a command line;
* `Choice.last?` — the last of several choices for a flag.

## Main results

* `Options.set_eq_ok_iff`: a flag takes exactly the values of its choices.
* `Options.parse_eq_ok_iff`: exactly the command lines are accepted.
* `Choice.field_foldl`: the last choice for a flag counts.
* `Command.Job.ofArguments_eq_ok_iff`: exactly the command lines with two names ask for a job.
-/

namespace MovAsm

/-! ### Choices -/

/-- A value for a flag. -/
inductive Choice where
  | capacity (size : Int)
  | config (file : String)
  | outline (on : Bool)
  | verbose (on : Bool)
  | width (digits : Int)
  deriving DecidableEq, Repr

namespace Choice

/-- The flag that a value is for. -/
def flag : Choice → Flag
  | capacity _ => .capacity
  | config _ => .config
  | outline _ => .outline
  | verbose _ => .verbose
  | width _ => .width

/-- The text writes the value of the choice. -/
def IsWritten : Choice → String → Prop
  | capacity size, text => Text.readInteger text = .ok size
  | config file, text => text = file
  | outline on, text => Options.truthValue? text = some on
  | verbose on, text => Options.truthValue? text = some on
  | width digits, text => Text.readInteger text = .ok digits

/-- The options with the value of the choice set. -/
def apply (options : Options) : Choice → Options
  | capacity size => { options with capacity := size }
  | config file => { options with config := file }
  | outline on => { options with outline := on }
  | verbose on => { options with verbose := on }
  | width digits => { options with width := digits }

/-- The ways to write a choice, with one dash or two.

* `joined`: the value stands behind `=`.
* `apart`: the value is an argument of its own.
* `bare`: a switch that is on has no value. -/
inductive Spells : Choice → List String → Prop
  | joined {choice : Choice} {dashes value : String} (hdashes : dashes = "-" ∨ dashes = "--")
      (hvalue : choice.IsWritten value) : Spells choice [dashes ++ choice.flag.name ++ "=" ++ value]
  | apart {choice : Choice} {dashes value : String} (hdashes : dashes = "-" ∨ dashes = "--")
      (hswitch : choice.flag.isSwitch = false) (hvalue : choice.IsWritten value) :
      Spells choice [dashes ++ choice.flag.name, value]
  | bare {choice : Choice} {dashes : String} (hdashes : dashes = "-" ∨ dashes = "--")
      (hswitch : choice.flag.isSwitch = true) (hvalue : choice.IsWritten "true") :
      Spells choice [dashes ++ choice.flag.name]

end Choice

/-- The choices and the operands of a command line. The operands begin at the first argument that
does not begin with a dash or is a lone dash, or behind the argument `--`. -/
inductive CommandLine : List Choice → List String → List String → Prop
  | empty : CommandLine [] [] []
  | operands {first : String} (rest : List String)
      (hfirst : first = "-" ∨ first.toList.head? ≠ some '-') :
      CommandLine [] (first :: rest) (first :: rest)
  | terminated (rest : List String) : CommandLine [] ("--" :: rest) rest
  | choice {choice : Choice} {choices : List Choice} {front arguments rest : List String}
      (hfront : choice.Spells front) (hrest : CommandLine choices arguments rest) :
      CommandLine (choice :: choices) (front ++ arguments) rest

/-! ### Arguments by their form -/

namespace Argument

/-- The answer of `ofText` to dashes and the name of a flag. -/
theorem ofText_name {dashes : String} (hdashes : dashes = "-" ∨ dashes = "--") (flag : Flag) :
    ofText (dashes ++ flag.name) = .flag flag.name none := by
  rcases hdashes with rfl | rfl <;> cases flag <;> rfl

/-- The answer of `ofText` to dashes and the name of a flag with a value behind `=`. -/
theorem ofText_joined {dashes : String} (hdashes : dashes = "-" ∨ dashes = "--") (flag : Flag)
    (value : String) :
    ofText (dashes ++ flag.name ++ "=" ++ value) = .flag flag.name (some value) := by
  rcases hdashes with rfl | rfl <;> cases flag <;> simp [ofText, ofBody, Flag.name]

/-- The name of a flag and, if it has one, its value behind `=`. -/
def written (name : String) (value : Option String) : String :=
  name ++ (value.map ("=" ++ ·)).getD ""

/-- A flag is `written` without a value as its name. -/
theorem written_none (name : String) : written name none = name :=
  String.append_empty

/-- If `ofBody` answers a flag, the body is that flag as it is `written`. -/
theorem ofBody_eq_flag {body : List Char} {name : String} {value : Option String}
    (h : ofBody body = .flag name value) : body = (written name value).toList := by
  revert h
  fun_cases ofBody body with
  | case1 | case2 | case3 => rintro ⟨⟩
  | case4 first rest hdash hequals label hnil =>
      intro h
      injection h with hname hvalue
      have hsplit := @List.takeWhile_append_dropWhile _ (· != '=') rest
      rw [hnil, List.append_nil] at hsplit
      simp [written, ← hname, ← hvalue, label, hsplit]
  | case5 first rest hdash hequals label mark text hcons =>
      intro h
      injection h with hname hvalue
      have hsplit := @List.takeWhile_append_dropWhile _ (· != '=') rest
      have hhead := List.head?_dropWhile_not (· != '=') rest
      rw [hcons] at hhead hsplit
      obtain rfl : mark = '=' := by simpa using hhead
      simp [written, ← hname, ← hvalue, label, hsplit]

/-- If `ofText` answers a flag, the text is one dash or two and that flag as it is `written`. -/
theorem ofText_eq_flag {text name : String} {value : Option String}
    (h : ofText text = .flag name value) :
    ∃ dashes, (dashes = "-" ∨ dashes = "--") ∧ text = dashes ++ written name value := by
  revert h
  fun_cases ofText text with
  | case1 | case4 => rintro ⟨⟩
  | case2 body hne htext =>
      intro h
      refine ⟨"--", .inr rfl, ?_⟩
      rw [← String.toList_inj, htext, ofBody_eq_flag h, String.toList_append]
      rfl
  | case3 c body hpair hne htext =>
      intro h
      refine ⟨"-", .inl rfl, ?_⟩
      rw [← String.toList_inj, htext, ofBody_eq_flag h, String.toList_append]
      rfl

/-- What `ofBody` answers is a flag or malformed. -/
theorem ofBody_ne (body : List Char) : ofBody body ≠ .plain ∧ ofBody body ≠ .terminator := by
  unfold ofBody
  split
  · simp
  · simp
  · simp
  · dsimp only
    split <;> simp

/-- The answer of `ofText` to an operand. -/
theorem ofText_of_operand {text : String} (h : text = "-" ∨ text.toList.head? ≠ some '-') :
    ofText text = .plain := by
  rcases h with rfl | hhead
  · rfl
  · fun_cases ofText text with
    | case1 htext => simp [htext] at hhead
    | case2 body hne htext => simp [htext] at hhead
    | case3 c body hpair hne htext => simp [htext] at hhead
    | case4 => rfl

/-- Only operands are `plain` to `ofText`. -/
theorem operand_of_ofText {text : String} (h : ofText text = .plain) :
    text = "-" ∨ text.toList.head? ≠ some '-' := by
  revert h
  fun_cases ofText text with
  | case1 => rintro ⟨⟩
  | case2 | case3 => exact fun h => absurd h (ofBody_ne _).1
  | case4 hterminator hlong hflag =>
      intro _
      rcases htext : text.toList with _ | ⟨first, _ | ⟨c, body⟩⟩
      · simp
      · by_cases hdash : first = '-'
        · left
          rw [← String.toList_inj, htext, hdash]
          rfl
        · simp [hdash]
      · right
        rintro ⟨⟩
        exact hflag c body htext

/-- Only `--` is the `terminator`. -/
theorem eq_of_ofText_terminator {text : String} (h : ofText text = .terminator) : text = "--" := by
  revert h
  fun_cases ofText text with
  | case1 htext =>
      intro _
      rw [← String.toList_inj, htext]
      rfl
  | case2 | case3 => exact fun h => absurd h (ofBody_ne _).2
  | case4 => rintro ⟨⟩

end Argument

/-! ### Flags and their values -/

/-- The flag that `ofName?` finds has that name. -/
theorem Flag.name_of_ofName? {name : String} {flag : Flag} (h : Flag.ofName? name = some flag) :
    name = flag.name := by
  unfold Flag.ofName? at h
  split at h <;> cases h <;> rfl

/-- The name of a flag is found by `ofName?`. -/
theorem Flag.ofName?_name (flag : Flag) : Flag.ofName? flag.name = some flag := by
  cases flag <;> rfl

namespace Options

/-- The answer of `switchValue` is a truth value. -/
theorem switchValue_eq_ok_iff {flag : Flag} {value : String} {on : Bool} :
    switchValue flag value = .ok on ↔ truthValue? value = some on := by
  rw [switchValue]
  cases truthValue? value <;> simp

/-- The answer of `numberValue` is an integer. -/
theorem numberValue_eq_ok_iff {flag : Flag} {value : String} {n : Int} :
    numberValue flag value = .ok n ↔ Text.readInteger value = .ok n := by
  rw [numberValue]
  cases Text.readInteger value <;> simp

/-- The flag is `set` to exactly the values of its choices. -/
theorem set_eq_ok_iff {options last : Options} {flag : Flag} {value : String} :
    options.set flag value = .ok last ↔
      ∃ choice : Choice, choice.flag = flag ∧ choice.IsWritten value ∧
        last = choice.apply options := by
  constructor
  · intro h
    cases flag with
    | capacity =>
        obtain ⟨n, hvalue, rfl⟩ := Check.map_eq_ok_iff.mp h
        exact ⟨.capacity n, rfl, numberValue_eq_ok_iff.mp hvalue, rfl⟩
    | config =>
        cases h
        exact ⟨.config value, rfl, rfl, rfl⟩
    | outline =>
        obtain ⟨on, hvalue, rfl⟩ := Check.map_eq_ok_iff.mp h
        exact ⟨.outline on, rfl, switchValue_eq_ok_iff.mp hvalue, rfl⟩
    | verbose =>
        obtain ⟨on, hvalue, rfl⟩ := Check.map_eq_ok_iff.mp h
        exact ⟨.verbose on, rfl, switchValue_eq_ok_iff.mp hvalue, rfl⟩
    | width =>
        obtain ⟨n, hvalue, rfl⟩ := Check.map_eq_ok_iff.mp h
        exact ⟨.width n, rfl, numberValue_eq_ok_iff.mp hvalue, rfl⟩
  · rintro ⟨choice, rfl, hvalue, rfl⟩
    cases choice with
    | capacity n | width n =>
        exact Check.map_eq_ok_iff.mpr ⟨n, numberValue_eq_ok_iff.mpr hvalue, rfl⟩
    | config file =>
        obtain rfl : value = file := hvalue
        rfl
    | outline on | verbose on =>
        exact Check.map_eq_ok_iff.mpr ⟨on, switchValue_eq_ok_iff.mpr hvalue, rfl⟩

/-- To `set` the value of a choice is to `apply` the choice. -/
theorem set_of_isWritten {choice : Choice} {value : String} (h : choice.IsWritten value)
    (options : Options) : options.set choice.flag value = .ok (choice.apply options) :=
  set_eq_ok_iff.mpr ⟨choice, rfl, h, rfl⟩

/-- A choice at the front is read by `parse` however it is written. -/
theorem parse_of_spells {choice : Choice} {front : List String} (h : choice.Spells front)
    (options : Options) (arguments : List String) :
    options.parse (front ++ arguments) = (choice.apply options).parse arguments := by
  cases h with
  | joined hdashes hvalue =>
      rw [List.singleton_append, parse, Argument.ofText_joined hdashes]
      simp only [Flag.ofName?_name, set_of_isWritten hvalue, Check.ok_bind]
  | apart hdashes hswitch hvalue =>
      rw [List.cons_append, List.singleton_append, parse, Argument.ofText_name hdashes]
      simp only [Flag.ofName?_name, hswitch, set_of_isWritten hvalue, Check.ok_bind]
  | bare hdashes hswitch hvalue =>
      rw [List.singleton_append, parse, Argument.ofText_name hdashes]
      simp only [Flag.ofName?_name, hswitch, set_of_isWritten hvalue, Check.ok_bind]

/-- The answer of `parse` to a `CommandLine`: its choices, applied in order. Induction on
`CommandLine`. -/
theorem parse_of_commandLine {choices : List Choice} {arguments rest : List String}
    (h : CommandLine choices arguments rest) (options : Options) :
    options.parse arguments = .ok (choices.foldl Choice.apply options, rest) := by
  induction h generalizing options with
  | empty => rfl
  | operands rest hfirst => rw [parse, Argument.ofText_of_operand hfirst, List.foldl_nil]
  | terminated rest => rfl
  | choice hfront _ ih => rw [parse_of_spells hfront, ih, List.foldl_cons]

/-- Whatever `parse` accepts is a `CommandLine`. Induction along `parse`. -/
theorem commandLine_of_parse {options last : Options} {arguments rest : List String}
    (h : options.parse arguments = .ok (last, rest)) :
    ∃ choices, CommandLine choices arguments rest := by
  fun_induction parse options arguments generalizing last rest with
  | case1 options =>
      cases h
      exact ⟨[], .empty⟩
  | case2 options argument tail hplain =>
      cases h
      exact ⟨[], .operands tail (Argument.operand_of_ofText hplain)⟩
  | case3 options argument tail hend =>
      cases h
      obtain rfl := Argument.eq_of_ofText_terminator hend
      exact ⟨[], .terminated tail⟩
  | case4 options argument tail => cases h
  | case5 options argument tail name value => cases h
  | case6 options argument name flag hname value tail hflag ih =>
      obtain ⟨next, hset, hrest⟩ := Check.bind_eq_ok_iff.mp h
      obtain ⟨choice, rfl, hvalue, -⟩ := set_eq_ok_iff.mp hset
      obtain ⟨choices, hchoices⟩ := ih next hrest
      obtain rfl := Flag.name_of_ofName? hname
      obtain ⟨dashes, hdashes, rfl⟩ := Argument.ofText_eq_flag hflag
      have hspells := Choice.Spells.joined hdashes hvalue
      rw [String.append_assoc, String.append_assoc] at hspells
      exact ⟨choice :: choices, .choice hspells hchoices⟩
  | case7 options argument name flag hname tail hswitch hflag ih =>
      obtain ⟨next, hset, hrest⟩ := Check.bind_eq_ok_iff.mp h
      obtain ⟨choice, rfl, hvalue, -⟩ := set_eq_ok_iff.mp hset
      obtain ⟨choices, hchoices⟩ := ih next hrest
      obtain rfl := Flag.name_of_ofName? hname
      obtain ⟨dashes, hdashes, rfl⟩ := Argument.ofText_eq_flag hflag
      rw [Argument.written_none]
      exact ⟨choice :: choices, .choice (.bare hdashes hswitch hvalue) hchoices⟩
  | case8 options argument name flag hname value tail hswitch hflag ih =>
      obtain ⟨next, hset, hrest⟩ := Check.bind_eq_ok_iff.mp h
      obtain ⟨choice, rfl, hvalue, -⟩ := set_eq_ok_iff.mp hset
      obtain ⟨choices, hchoices⟩ := ih next hrest
      obtain rfl := Flag.name_of_ofName? hname
      obtain ⟨dashes, hdashes, rfl⟩ := Argument.ofText_eq_flag hflag
      rw [Argument.written_none]
      exact ⟨choice :: choices, .choice (.apart hdashes hswitch hvalue) hchoices⟩
  | case9 options argument name flag hname hswitch hflag => cases h

/-- **The grammar of command lines.** What `parse` accepts is exactly a `CommandLine`, and its
answer is the choices, applied in order. -/
theorem parse_eq_ok_iff {options last : Options} {arguments rest : List String} :
    options.parse arguments = .ok (last, rest) ↔
      ∃ choices, CommandLine choices arguments rest ∧
        last = choices.foldl Choice.apply options := by
  constructor
  · intro h
    obtain ⟨choices, hline⟩ := commandLine_of_parse h
    rw [parse_of_commandLine hline] at h
    cases h
    exact ⟨choices, hline, rfl⟩
  · rintro ⟨choices, hline, rfl⟩
    exact parse_of_commandLine hline options

end Options

/-- The arguments of which `ofArguments` makes a job are exactly a `CommandLine` with two
operands. -/
theorem Command.Job.ofArguments_eq_ok_iff {arguments : List String} {job : Command.Job} :
    Command.Job.ofArguments arguments = .ok job ↔
      ∃ choices, CommandLine choices arguments [job.input, job.output] ∧
        job.options = choices.foldl Choice.apply {} := by
  rw [← Options.parse_eq_ok_iff]
  fun_cases Command.Job.ofArguments arguments with
  | case1 fault hfault => simp [hfault]
  | case2 options input output hparse =>
      rw [hparse]
      constructor
      · rintro ⟨⟩
        rfl
      · intro h
        cases h
        rfl
  | case3 parsed hpair hparse =>
      rw [hparse]
      simp only [reduceCtorEq, false_iff]
      rintro ⟨⟩
      exact hpair _ _ _ rfl

/-! ### The last choice -/

namespace Choice

/-- The size of the image in a choice for `capacity`. -/
def capacity? : Choice → Option Int
  | capacity size => some size
  | _ => none

/-- The build file in a choice for `config`. -/
def config? : Choice → Option String
  | config file => some file
  | _ => none

/-- The truth value in a choice for `verbose`. -/
def verbose? : Choice → Option Bool
  | verbose on => some on
  | _ => none

/-- The number of digits in a choice for `width`. -/
def width? : Choice → Option Int
  | width digits => some digits
  | _ => none

variable {β : Type}

/-- The value in the last choice that has one by `value?`. -/
def last? (value? : Choice → Option β) (choices : List Choice) : Option β :=
  (choices.filterMap value?).getLast?

/-- If every choice with a `value?` replaces a field of the options and no other choice touches it,
the last one counts. -/
theorem field_foldl {field : Options → β} {value? : Choice → Option β}
    (h : ∀ options choice, field (apply options choice) = (value? choice).getD (field options))
    (choices : List Choice) (options : Options) :
    field (choices.foldl apply options) = (last? value? choices).getD (field options) := by
  induction choices using List.reverseRecOn with
  | nil => rfl
  | append_singleton choices choice ih =>
      rw [List.foldl_append, List.foldl_cons, List.foldl_nil, h, ih, last?, last?,
        List.filterMap_append]
      cases hvalue : value? choice with
      | none => simp [hvalue]
      | some value => simp [hvalue]

end Choice

end MovAsm

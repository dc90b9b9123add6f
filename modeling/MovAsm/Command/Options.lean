import MovAsm.Settings
import MovAsm.Text.Integer
import MovAsm.Text.Quoted

/-!
# Options

The options of a command line come before its operands. A flag begins with one dash or two; its
value follows after `=` or as the next argument. Switches need no value and take one only after
`=`. Options end at the first argument that is no flag, or at `--`, which is dropped. Of a flag
that is given twice, the last value counts.

## Main definitions

* `Options` — what the flags say;
* `Argument.ofText` — what an argument is, by its form alone;
* `Options.parse` — reads the flags in front of a list of arguments;
* `Options.override` — what becomes of settings under some options.
-/

namespace MovAsm

/-! ### Flags -/

/-- The flags of the command: `-capacity`, `-config`, `-p`, `-v` and `-width`. -/
inductive Flag where
  | capacity
  | config
  | outline
  | verbose
  | width
  deriving DecidableEq, Repr

namespace Flag

/-- The name of a flag, without dashes. -/
def name : Flag → String
  | capacity => "capacity"
  | config => "config"
  | outline => "p"
  | verbose => "v"
  | width => "width"

/-- The flag with a name, as `Flag.name` gives it. -/
def ofName? : String → Option Flag
  | "capacity" => some capacity
  | "config" => some config
  | "p" => some outline
  | "v" => some verbose
  | "width" => some width
  | _ => none

/-- Whether a flag needs no value. Without one, it is set to `true`. -/
def isSwitch : Flag → Bool
  | outline | verbose => true
  | capacity | config | width => false

end Flag

/-- Why `Options.parse` fails: help was asked for, an argument has no flag name after its dashes,
there is no flag of that name, a flag lacks its value, or its value is no truth value (`badSwitch`)
or no integer (`badNumber`). -/
inductive FlagFault where
  | help
  | malformed (argument : String)
  | undefined (name : String)
  | missingValue (flag : Flag)
  | badSwitch (flag : Flag) (value : String)
  | badNumber (flag : Flag) (value : String) (fault : Text.IntegerFault)
  deriving DecidableEq, Repr

/-- The text of a `FlagFault`. There is none for `help`. -/
def FlagFault.message? : FlagFault → Option String
  | help => none
  | malformed argument => some ("bad flag syntax: " ++ argument)
  | undefined name => some ("flag provided but not defined: -" ++ name)
  | missingValue flag => some ("flag needs an argument: -" ++ flag.name)
  | badSwitch flag value =>
    some ("invalid boolean value " ++ Text.quoted value ++ " for -" ++ flag.name ++
      ": parse error")
  | badNumber flag value fault =>
    some ("invalid value " ++ Text.quoted value ++ " for flag -" ++ flag.name ++ ": " ++
      fault.message)

/-! ### Arguments -/

/-- What a single argument is by its form: `plain` if it is no flag, the `terminator` `--`, a
`malformed` flag, or a flag with a name and perhaps a value after `=`. -/
inductive Argument where
  | plain
  | terminator
  | malformed
  | flag (name : String) (value : Option String)
  deriving DecidableEq, Repr

namespace Argument

/-- A flag, given what comes after its dashes. A name does not begin with `-` or `=`, and goes up to
the first `=` after its first character. -/
def ofBody : List Char → Argument
  | [] | '-' :: _ | '=' :: _ => malformed
  | first :: rest =>
    let name := String.ofList (first :: rest.takeWhile (· != '='))
    match rest.dropWhile (· != '=') with
    | [] => flag name none
    | _ :: value => flag name (some (String.ofList value))

/-- What an argument is. A flag has one dash or two; a lone `-` is `plain`. -/
def ofText (text : String) : Argument :=
  match text.toList with
  | ['-', '-'] => terminator
  | '-' :: '-' :: body => ofBody body
  | '-' :: c :: body => ofBody (c :: body)
  | _ => plain

end Argument

/-! ### Options -/

/-- What the flags of a command line say. A `capacity` or `width` of `0`, an empty `config` and a
`verbose` of `false` are the same as no flag. -/
structure Options where
  capacity : Int := 0
  config : String := ""
  outline : Bool := false
  verbose : Bool := false
  width : Int := 0
  deriving DecidableEq, Repr

namespace Options

/-- The truth value that a text writes, in one of the spellings that a switch accepts. -/
def truthValue? (text : String) : Option Bool :=
  if text ∈ ["1", "t", "T", "TRUE", "true", "True"] then some true
  else if text ∈ ["0", "f", "F", "FALSE", "false", "False"] then some false
  else none

/-- The value of a switch, by `truthValue?`. -/
def switchValue (flag : Flag) (value : String) : Except FlagFault Bool :=
  match truthValue? value with
  | some b => .ok b
  | none => .error (.badSwitch flag value)

/-- The value of a flag that takes an integer, by `Text.readInteger`. -/
def numberValue (flag : Flag) (value : String) : Except FlagFault Int :=
  match Text.readInteger value with
  | .ok n => .ok n
  | .error fault => .error (.badNumber flag value fault)

/-- Gives a value to a flag. A later call for the same flag replaces the value. -/
def set (options : Options) (flag : Flag) (value : String) : Except FlagFault Options :=
  match flag with
  | .capacity => (numberValue flag value).map fun n => { options with capacity := n }
  | .config => .ok { options with config := value }
  | .outline => (switchValue flag value).map fun b => { options with outline := b }
  | .verbose => (switchValue flag value).map fun b => { options with verbose := b }
  | .width => (numberValue flag value).map fun n => { options with width := n }

/-- Reads the flags in front of a list of arguments. Answers the options and the arguments after the
flags, or the first `FlagFault`. -/
def parse (options : Options) : List String → Except FlagFault (Options × List String)
  | [] => .ok (options, [])
  | argument :: rest =>
    match Argument.ofText argument with
    | .plain => .ok (options, argument :: rest)
    | .terminator => .ok (options, rest)
    | .malformed => .error (.malformed argument)
    | .flag name value =>
      match Flag.ofName? name with
      | none => .error (if name = "help" ∨ name = "h" then .help else .undefined name)
      | some flag =>
        match value, flag.isSwitch, rest with
        | some value, _, rest => do (← options.set flag value).parse rest
        | none, true, rest => do (← options.set flag "true").parse rest
        | none, false, value :: rest => do (← options.set flag value).parse rest
        | none, false, [] => .error (.missingValue flag)

/-- The `settings` with the options in place of what they say. Only a number other than `0` replaces
a setting, and `verbose` can be turned on but not off. -/
def override (options : Options) (settings : Settings) : Settings :=
  { capacity := if options.capacity = 0 then settings.capacity else options.capacity
    width := if options.width = 0 then settings.width else options.width
    verbose := options.verbose || settings.verbose }

end Options

end MovAsm

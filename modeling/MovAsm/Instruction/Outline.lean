import MovAsm.Instruction

/-!
# Outlines of Instructions

A list of instructions, laid out with all that is in them, one thing a line, in colour. It shows
what was understood of a program before anything is done with it.
-/

namespace MovAsm.Instruction.Outline

/-! ### Colours -/

/-- The `text` after some terminal codes, which are revoked after it. -/
def paint (codes : String) (text : String) : String :=
  codes ++ text ++ "\x1b[0m"

/-- The `name` of a type, in green, after the package that it belongs to. -/
def typeName (package name : String) : String :=
  package ++ "." ++ paint "\x1b[32m" name

/-- The `name` of a field, in yellow, and `padding` up to where its value begins. -/
def label (name : String) (padding : Nat) : String :=
  paint "\x1b[33m" name ++ ":" ++ String.ofList (List.replicate padding ' ')

/-- A number, in bold blue. -/
def number (n : Int) : String :=
  paint "\x1b[34m\x1b[1m" (toString n)

/-- A text, in red, between bold quotes. -/
def string (text : String) : String :=
  let quote := paint "\x1b[31m\x1b[1m" "\""
  quote ++ (if text.isEmpty then "" else paint "\x1b[31m" text) ++ quote

/-! ### Layout -/

/-- The `lines`, indented, in braces after `head`. -/
def braces (head : String) (lines : List String) : List String :=
  (head ++ "\x7b") :: lines.map ("  " ++ ·) ++ ["\x7d"]

/-- Puts a comma after the last of some lines. -/
def comma : List String → List String
  | [] => []
  | [line] => [line ++ ","]
  | line :: rest => line :: comma rest

/-- A field whose `value` takes several lines, the first of which begins with the `label`. -/
def field (name : String) (padding : Nat) (value : String → List String) : List String :=
  comma (value (label name padding))

/-- A field whose value is the number `n`. -/
def numberField (name : String) (padding : Nat) (n : Int) : List String :=
  [label name padding ++ number n ++ ","]

/-- The lines of a `Position`, the first of which begins with `start`. -/
def position (position : Position) (start : String) : List String :=
  braces (start ++ typeName "lexer" "Position")
    (numberField "Line" 3 position.line.toNat ++ numberField "Column" 1 position.column.toNat)

/-- The lines of an `Operand`, the first of which begins with `start`. -/
def operand (operand : Operand) (start : String) : List String :=
  braces (start ++ typeName "parser" "Operand")
    (numberField "Indicator" 1 operand.sigil.code ++
      [label "Value" 5 ++ string operand.value ++ ","])

/-- The fields that all instructions have: their position and their keyword. -/
def common (place : Position) (keyword : Keyword) : List String :=
  field "At" 1 (position place) ++ numberField "Keyword" 1 keyword.code

/-- The lines of an `Instruction`. A `foreign` one shows its keyword only. -/
def instruction : Instruction → List String
  | .noOperand place keyword | .foreign place keyword =>
    braces (typeName "parser" "NoOperand") (common place keyword)
  | .unary place keyword only =>
    braces (typeName "parser" "Unary")
      (common place keyword ++ field "Operand" 1 (operand only))
  | .binary place keyword source destination =>
    braces (typeName "parser" "Binary")
      (common place keyword ++ field "Source" 2 (operand source) ++
        field "Destination" 1 (operand destination))

/-- The lines of a list of instructions, as `Printer.standard` shows them. -/
def lines (instructions : List Instruction) : List String :=
  let head := "[]" ++ typeName "parser" "Instruction"
  if instructions.isEmpty then [head ++ "(" ++ paint "\x1b[36m\x1b[1m" "nil" ++ ")"]
  else braces head (instructions.flatMap fun i => comma (instruction i))

end MovAsm.Instruction.Outline

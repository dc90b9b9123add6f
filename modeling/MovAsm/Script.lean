import MovAsm.Script.Eval
import MovAsm.Script.Evaluator
import MovAsm.Script.Grammar
import MovAsm.Text.Utf8

/-!
# Build Scripts

A build script is a small program that computes settings. It is read as a whole, its names are
checked as a whole, and only then it runs; so there are three ways in which it can fail. A fourth
is that there is no way to run it: a function that stands in a loop may jump out of the loop, as
far as the names and places are concerned, but the loop is not its own.

The language here is the part of it that build files are known to use: of the functions and methods
of the full language it has those of `builtins`, and a script cannot print. Nothing about the
assembler depends on `Script.evaluator` but that it is an `Evaluator`.
-/

namespace MovAsm.Script

/-- Runs a script with some `predeclared` names. Answers the names that it gave values to, with
their values. -/
def run (predeclared : List (String × Value)) (text : List Char) :
    Except Failure (List (String × Value)) := do
  let known := predeclared ++ known
  let (statements, numbered) ←
    match parse text with
    | .ok parsed => pure parsed
    | .error reason => throw (.malformed reason)
  match checkScript (known.map (·.1)) statements with
  | .ok () => pure ()
  | .error reason => throw (.unresolved reason)
  if blockJumpsAstray false statements then throw .unrunnable
  match runStatements known numbered statements with
  | .ok globals => pure globals
  | .error reason => throw (.failed reason)

/-- A `Value` as a `Global`. -/
def Value.global : Value → Global
  | .int n => .int n
  | .bool b => .bool b
  | _ => .other

/-- The `Evaluator` of this language: `run` on the characters of the bytes. -/
def evaluator : Evaluator := fun predeclared _ bytes =>
  let predeclared := predeclared.map fun (name, n) => (name, Value.int n)
  let result := run predeclared (Text.Utf8.decode bytes)
  { printed := []
    result := result.map fun globals => globals.map fun (name, value) => (name, value.global) }

end MovAsm.Script

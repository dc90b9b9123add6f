import MovAsm.Script.Token
import MovAsm.Script.Tree

/-!
# The Grammar of Build Scripts

Reads the tokens of a script as statements. Operators bind, from loosest to tightest: the choice
`a if c else b`, `or`, `and`, `not`, comparisons, `|`, `^`, `&`, shifts, sums, products, and the
operators in front of an operand. Comparisons do not chain.

Every function has fuel. Between two tokens that are read there are at most a few dozen calls, so
fuel in proportion to the number of tokens never runs out.

## Main definitions

* `Script.parse` — the statements of a script.
-/

namespace MovAsm.Script

/-- The tokens that are left, and the number of functions and comprehensions so far. -/
structure ParseState where
  tokens : List Token
  numbered : Nat := 0

/-- Reads tokens from the `ParseState`, or tells why they make no script. -/
abbrev Parse := StateT ParseState (Except String)

namespace Parse

/-- The next token; `endOfFile` if none is left. -/
def peek : Parse Token := do
  pure ((← get).tokens.headD .endOfFile)

/-- Goes on to the token after the next. -/
def skip : Parse Unit :=
  modify fun state => { state with tokens := state.tokens.drop 1 }

/-- Puts a token in front of those that are left. -/
def push (token : Token) : Parse Unit :=
  modify fun state => { state with tokens := token :: state.tokens }

/-- Whether the next token is `token`. -/
def at? (token : Token) : Parse Bool := do
  pure ((← peek) == token)

/-- Goes on if the next token is `token`, and tells whether. -/
def accept (token : Token) : Parse Bool := do
  if ← at? token then
    skip
    pure true
  else pure false

/-- Requires the next token to be `token`. -/
def expect (token : Token) : Parse Unit := do
  if !(← accept token) then throw "unexpected token"

/-- Requires a name. -/
def identifier : Parse String := do
  match ← peek with
  | .name text =>
    skip
    pure text
  | _ => throw "not an identifier"

/-- A number for a function or comprehension, from `numbered`. -/
def freshNumber : Parse Nat :=
  modifyGet fun state => (state.numbered, { state with numbered := state.numbered + 1 })

end Parse

open Parse

/-- Whether a token ends a list of expressions after a comma. -/
def endsExpressions : Token → Bool
  | .endOfFile | .newline => true
  | .symbol text => ["=", "\x7d", "]", ")", ";"].contains text
  | _ => false

/-- What an operator between operands makes of them: with `strict` both are evaluated, with `both`
the right one if the left one is true, and with `either` the right one if the left one is false. -/
inductive Joint where
  | strict (op : BinaryOp)
  | both
  | either

/-- The expression that a `Joint` makes of two operands. -/
def Joint.apply : Joint → Expr → Expr → Expr
  | .strict op, left, right => .binary op left right
  | .both, left, right => .both left right
  | .either, left, right => .either left right

/-- The level of `not`. -/
def notLevel : Nat := 2

/-- The level of comparisons, which do not chain. -/
def comparisonLevel : Nat := 3

/-- The level of what is no operator: tighter than all in `joint?`. -/
def operandLevel : Nat := 10

/-- The level of a token between operands, and its `Joint`. The two words `not in` count as one
symbol. -/
def joint? : Token → Option (Nat × Joint)
  | .keyword "or" => some (0, .either)
  | .keyword "and" => some (1, .both)
  | .symbol "==" => some (3, .strict .equal)
  | .symbol "!=" => some (3, .strict .notEqual)
  | .symbol "<" => some (3, .strict .less)
  | .symbol ">" => some (3, .strict .greater)
  | .symbol "<=" => some (3, .strict .lessEqual)
  | .symbol ">=" => some (3, .strict .greaterEqual)
  | .keyword "in" => some (3, .strict .contained)
  | .symbol "not in" => some (3, .strict .notContained)
  | .symbol "|" => some (4, .strict .bitOr)
  | .symbol "^" => some (5, .strict .bitXor)
  | .symbol "&" => some (6, .strict .bitAnd)
  | .symbol "<<" => some (7, .strict .shiftLeft)
  | .symbol ">>" => some (7, .strict .shiftRight)
  | .symbol "-" => some (8, .strict .subtract)
  | .symbol "+" => some (8, .strict .add)
  | .symbol "*" => some (9, .strict .multiply)
  | .symbol "%" => some (9, .strict .modulo)
  | .symbol "/" => some (9, .strict .divide)
  | .symbol "//" => some (9, .strict .floorDivide)
  | _ => none

/-- The operator of a token in front of an operand. -/
def unaryOp? : Token → Option UnaryOp
  | .symbol "-" => some .minus
  | .symbol "+" => some .plus
  | .symbol "~" => some .invert
  | _ => none

/-- The expression that a token for a number, a text or bytes is. -/
def literal? : Token → Option Expr
  | .int value => some (.int value)
  | .float value => some (.float value)
  | .string bytes => some (.string bytes)
  | .bytes bytes => some (.bytes bytes)
  | _ => none

/-- Joins the two words `not in` at the front into one symbol. -/
def joinNotIn : Parse Unit := do
  if ← accept (.keyword "not") then
    if ← accept (.keyword "in") then push (.symbol "not in")
    else throw "not must be followed by in"

mutual

/-- An expression without a comma at its top. -/
def parseTest : Nat → Parse Expr
  | 0 => throw "script too deep"
  | fuel + 1 => do
    if ← accept (.keyword "lambda") then parseLambda fuel true
    else
      let yes ← parseLevel fuel 0
      if ← accept (.keyword "if") then
        let condition ← parseLevel fuel 0
        if !(← accept (.keyword "else")) then throw "conditional expression without else clause"
        let no ← parseTest fuel
        pure (.choice condition yes no)
      else pure yes

/-- An expression without a comma or an `if` at its top. -/
def parseTestNoChoice : Nat → Parse Expr
  | 0 => throw "script too deep"
  | fuel + 1 => do
    if ← accept (.keyword "lambda") then parseLambda fuel false else parseLevel fuel 0

/-- A function without a name, after the keyword `lambda`. -/
def parseLambda : Nat → Bool → Parse Expr
  | 0, _ => throw "script too deep"
  | fuel + 1, allowChoice => do
    let number ← freshNumber
    let (parameters, defaults) ← parseParameters fuel [] []
    expect (.symbol ":")
    let body ← if allowChoice then parseTest fuel else parseTestNoChoice fuel
    pure (.lambda number parameters defaults body)

/-- The parameters of a function and their defaults, up to the bracket or colon that ends them. -/
def parseParameters : Nat → List Parameter → List Expr → Parse (List Parameter × List Expr)
  | 0, _, _ => throw "script too deep"
  | fuel + 1, parameters, defaults => do
    let ended (token : Token) := token == .symbol ")" || token == .symbol ":" || token == .endOfFile
    if ended (← peek) then pure (parameters, defaults)
    else
      if !parameters.isEmpty then expect (.symbol ",")
      if ← at? (.symbol ")") then pure (parameters, defaults)
      else if ← accept (.symbol "*") then
        let name ←
          match ← peek with
          | .name _ => identifier
          | _ => pure ""
        parseParameters fuel (parameters ++ [⟨.sequence, name⟩]) defaults
      else if ← accept (.symbol "**") then
        let name ← identifier
        parseParameters fuel (parameters ++ [⟨.entries, name⟩]) defaults
      else
        let name ← identifier
        if ← accept (.symbol "=") then
          let value ← parseTest fuel
          parseParameters fuel (parameters ++ [⟨.optional, name⟩]) (defaults ++ [value])
        else parseParameters fuel (parameters ++ [⟨.required, name⟩]) defaults

/-- An expression of operators of a level or tighter, as `joint?` gives it. -/
def parseLevel : Nat → Nat → Parse Expr
  | 0, _ => throw "script too deep"
  | fuel + 1, level => do
    if operandLevel ≤ level then parseOperand fuel
    else if level = notLevel && (← at? (.keyword "not")) then
      skip
      let operand ← parseLevel fuel level
      pure (.unary .negate operand)
    else
      let left ← parseLevel fuel (level + 1)
      parseJoints fuel level true left

/-- The operators of a level or tighter after their first operand. -/
def parseJoints : Nat → Nat → Bool → Expr → Parse Expr
  | 0, _, _, _ => throw "script too deep"
  | fuel + 1, level, first, left => do
    joinNotIn
    match joint? (← peek) with
    | none => pure left
    | some (found, joint) =>
      if found < level then pure left
      else if !first && found = comparisonLevel then throw "comparisons do not associate"
      else
        skip
        let right ← parseLevel fuel (found + 1)
        parseJoints fuel level false (joint.apply left right)

/-- An operand with its `parseSuffixes`. -/
def parseOperand : Nat → Parse Expr
  | 0 => throw "script too deep"
  | fuel + 1 => do
    let operand ← parsePrimary fuel
    parseSuffixes fuel operand

/-- What follows an operand directly: fields, indices and calls. -/
def parseSuffixes : Nat → Expr → Parse Expr
  | 0, _ => throw "script too deep"
  | fuel + 1, operand => do
    if ← accept (.symbol ".") then
      let name ← identifier
      parseSuffixes fuel (.field operand name)
    else if ← accept (.symbol "[") then
      let suffixed ← parseIndex fuel operand
      parseSuffixes fuel suffixed
    else if ← accept (.symbol "(") then
      let (forms, arguments) ← parseArguments fuel [] []
      expect (.symbol ")")
      parseSuffixes fuel (.call operand forms arguments)
    else pure operand

/-- An index or a slice, after `[`. -/
def parseIndex : Nat → Expr → Parse Expr
  | 0, _ => throw "script too deep"
  | fuel + 1, operand => do
    let low ← if ← at? (.symbol ":") then pure .omitted else parseExpressions fuel false
    let noColon := !(← at? (.symbol ":"))
    if noColon then
      expect (.symbol "]")
      pure (.index operand low)
    else
      skip
      let high ←
        if (← at? (.symbol ":")) || (← at? (.symbol "]")) then pure .omitted else parseTest fuel
      let step ←
        if ← accept (.symbol ":") then
          if ← at? (.symbol "]") then pure .omitted else parseTest fuel
        else pure .omitted
      expect (.symbol "]")
      pure (.slice operand low high step)

/-- The arguments of a call, up to `)`. -/
def parseArguments :
    Nat → List ArgumentForm → List Expr → Parse (List ArgumentForm × List Expr)
  | 0, _, _ => throw "script too deep"
  | fuel + 1, forms, arguments => do
    if (← at? (.symbol ")")) || (← at? .endOfFile) then pure (forms, arguments)
    else
      if !forms.isEmpty then expect (.symbol ",")
      if ← at? (.symbol ")") then pure (forms, arguments)
      else if ← accept (.symbol "*") then
        let value ← parseTest fuel
        parseArguments fuel (forms ++ [.sequence]) (arguments ++ [value])
      else if ← accept (.symbol "**") then
        let value ← parseTest fuel
        parseArguments fuel (forms ++ [.entries]) (arguments ++ [value])
      else
        let value ← parseTest fuel
        if ← accept (.symbol "=") then
          match value with
          | .name name =>
            let value ← parseTest fuel
            parseArguments fuel (forms ++ [.named name]) (arguments ++ [value])
          | _ => throw "keyword argument must have form name=expr"
        else parseArguments fuel (forms ++ [.positional]) (arguments ++ [value])

/-- A name, a literal, a bracket, or an operator and its operand. -/
def parsePrimary : Nat → Parse Expr
  | 0 => throw "script too deep"
  | fuel + 1 => do
    let token ← peek
    match literal? token, unaryOp? token with
    | some value, _ =>
      skip
      pure value
    | none, some op =>
      skip
      let operand ← parseOperand fuel
      pure (.unary op operand)
    | none, none =>
      match token with
      | .name text =>
        skip
        pure (.name text)
      | .symbol "[" =>
        skip
        parseList fuel
      | .symbol "\x7b" =>
        skip
        parseDict fuel
      | .symbol "(" =>
        skip
        if ← accept (.symbol ")") then pure (.tuple [])
        else
          let inner ← parseExpressions fuel true
          expect (.symbol ")")
          pure (.paren inner)
      | _ => throw "expected an expression"

/-- A list or a comprehension, after `[`. -/
def parseList : Nat → Parse Expr
  | 0 => throw "script too deep"
  | fuel + 1 => do
    if ← accept (.symbol "]") then pure (.list [])
    else
      let first ← parseTest fuel
      if ← at? (.keyword "for") then
        let clauses ← parseClauses fuel (.symbol "]") []
        let number ← freshNumber
        pure (.comprehension number false [first] clauses)
      else
        let items ← parseMore fuel true [first]
        expect (.symbol "]")
        pure (.list items)

/-- A dictionary or a comprehension, after its opening brace. -/
def parseDict : Nat → Parse Expr
  | 0 => throw "script too deep"
  | fuel + 1 => do
    if ← accept (.symbol "\x7d") then pure (.dict [])
    else
      let key ← parseTest fuel
      expect (.symbol ":")
      let value ← parseTest fuel
      if ← at? (.keyword "for") then
        let clauses ← parseClauses fuel (.symbol "\x7d") []
        let number ← freshNumber
        pure (.comprehension number true [key, value] clauses)
      else
        let entries ← parseEntries fuel [key, value]
        expect (.symbol "\x7d")
        pure (.dict entries)

/-- The entries of a dictionary after the first. -/
def parseEntries : Nat → List Expr → Parse (List Expr)
  | 0, _ => throw "script too deep"
  | fuel + 1, entries => do
    if ← accept (.symbol ",") then
      if ← at? (.symbol "\x7d") then pure entries
      else
        let key ← parseTest fuel
        expect (.symbol ":")
        let value ← parseTest fuel
        parseEntries fuel (entries ++ [key, value])
    else pure entries

/-- The clauses of a comprehension, up to and including its closing bracket. -/
def parseClauses : Nat → Token → List Clause → Parse (List Clause)
  | 0, _, _ => throw "script too deep"
  | fuel + 1, closing, clauses => do
    if ← accept closing then pure clauses
    else if ← accept (.keyword "for") then
      let target ← parseTargets fuel
      expect (.keyword "in")
      let iterable ← parseLevel fuel 0
      parseClauses fuel closing (clauses ++ [.rounds target iterable])
    else if ← accept (.keyword "if") then
      let condition ← parseTestNoChoice fuel
      parseClauses fuel closing (clauses ++ [.filter condition])
    else throw "expected for, if or a closing bracket"

/-- The target of a loop, before `in`. -/
def parseTargets : Nat → Parse Expr
  | 0 => throw "script too deep"
  | fuel + 1 => do
    let first ← parseOperand fuel
    if ← at? (.symbol ",") then
      let items ← parseMoreTargets fuel [first]
      pure (.tuple items)
    else pure first

/-- The targets of a loop after the first. -/
def parseMoreTargets : Nat → List Expr → Parse (List Expr)
  | 0, _ => throw "script too deep"
  | fuel + 1, targets => do
    if ← accept (.symbol ",") then
      if endsExpressions (← peek) then pure targets
      else
        let target ← parseOperand fuel
        parseMoreTargets fuel (targets ++ [target])
    else pure targets

/-- An expression, or several with commas, which make a tuple. -/
def parseExpressions : Nat → Bool → Parse Expr
  | 0, _ => throw "script too deep"
  | fuel + 1, allowTrailing => do
    let first ← parseTest fuel
    if ← at? (.symbol ",") then
      let items ← parseMore fuel allowTrailing [first]
      pure (.tuple items)
    else pure first

/-- The expressions after the first. A comma at the end is allowed in brackets only. -/
def parseMore : Nat → Bool → List Expr → Parse (List Expr)
  | 0, _, _ => throw "script too deep"
  | fuel + 1, allowTrailing, items => do
    if ← accept (.symbol ",") then
      if endsExpressions (← peek) then
        if allowTrailing then pure items else throw "unparenthesized tuple with trailing comma"
      else
        let item ← parseTest fuel
        parseMore fuel allowTrailing (items ++ [item])
    else pure items

end

/-- The operator of an assignment that combines, such as `+=`. -/
def augmentOp? : Token → Option BinaryOp
  | .symbol "+=" => some .add
  | .symbol "-=" => some .subtract
  | .symbol "*=" => some .multiply
  | .symbol "/=" => some .divide
  | .symbol "//=" => some .floorDivide
  | .symbol "%=" => some .modulo
  | .symbol "&=" => some .bitAnd
  | .symbol "|=" => some .bitOr
  | .symbol "^=" => some .bitXor
  | .symbol "<<=" => some .shiftLeft
  | .symbol ">>=" => some .shiftRight
  | _ => none

/-- The text of a string token. -/
def parseString : Parse String := do
  match ← peek with
  | .string bytes =>
    skip
    pure ((String.fromUTF8? (ByteArray.mk bytes.toArray)).getD "")
  | _ => throw "expected a string literal"

/-- The names that a script takes from another by `load`, up to `)`. -/
def parseLoadNames : Nat → List (String × String) → Parse (List (String × String))
  | 0, _ => throw "script too deep"
  | fuel + 1, names => do
    if (← at? (.symbol ")")) || (← at? .endOfFile) then pure names
    else
      expect (.symbol ",")
      if ← at? (.symbol ")") then pure names
      else
        match ← peek with
        | .name here =>
          skip
          expect (.symbol "=")
          let there ← parseString
          parseLoadNames fuel (names ++ [(here, there)])
        | _ =>
          let name ← parseString
          parseLoadNames fuel (names ++ [(name, name)])

/-- A statement that fits on a line. -/
def parseSmall (fuel : Nat) : Parse Stmt := do
  let token ← peek
  match token with
  | .keyword "return" =>
    skip
    match ← peek with
    | .endOfFile | .newline | .symbol ";" => pure (.return .omitted)
    | _ => pure (.return (← parseExpressions fuel false))
  | .keyword "break" =>
    skip
    pure .break
  | .keyword "continue" =>
    skip
    pure .continue
  | .keyword "pass" =>
    skip
    pure .pass
  | .keyword "load" =>
    skip
    expect (.symbol "(")
    let _ ← parseString
    let names ← parseLoadNames fuel []
    expect (.symbol ")")
    if names.isEmpty then throw "load statement must import at least 1 symbol"
    pure (.load names)
  | _ =>
    let target ← parseExpressions fuel false
    let token ← peek
    match augmentOp? token with
    | some op =>
      skip
      pure (.augment op target (← parseExpressions fuel false))
    | none =>
      if ← accept (.symbol "=") then pure (.assign target (← parseExpressions fuel false))
      else pure (.expr target)

/-- The statements of a line, each by `parseSmall`, with the end of the line. -/
def parseSimple : Nat → List Stmt → Parse (List Stmt)
  | 0, _ => throw "script too deep"
  | fuel + 1, statements => do
    let statement ← parseSmall fuel
    let statements := statements ++ [statement]
    let more ← accept (.symbol ";")
    let token ← peek
    let ended := token == .newline || token == .endOfFile
    if more && !ended then parseSimple fuel statements
    else
      if token != .endOfFile then expect .newline
      pure statements

mutual

/-- A statement, or several on one line. -/
def parseStmt : Nat → Parse (List Stmt)
  | 0 => throw "script too deep"
  | fuel + 1 => do
    match ← peek with
    | .keyword "def" =>
      skip
      let number ← freshNumber
      let name ← identifier
      expect (.symbol "(")
      let (parameters, defaults) ← parseParameters fuel [] []
      expect (.symbol ")")
      expect (.symbol ":")
      let body ← parseSuite fuel
      pure [.define number name parameters defaults body]
    | .keyword "if" =>
      skip
      pure [← parseBranch fuel]
    | .keyword "for" =>
      skip
      let target ← parseTargets fuel
      expect (.keyword "in")
      let iterable ← parseExpressions fuel false
      expect (.symbol ":")
      let body ← parseSuite fuel
      pure [.rounds target iterable body]
    | .keyword "while" =>
      skip
      let condition ← parseTest fuel
      expect (.symbol ":")
      let body ← parseSuite fuel
      pure [.while condition body]
    | _ => parseSimple fuel []

/-- A condition and the blocks that depend on it, after `if` or `elif`. -/
def parseBranch : Nat → Parse Stmt
  | 0 => throw "script too deep"
  | fuel + 1 => do
    let condition ← parseTest fuel
    expect (.symbol ":")
    let yes ← parseSuite fuel
    if ← accept (.keyword "elif") then
      let no ← parseBranch fuel
      pure (.branch condition yes [no])
    else if ← accept (.keyword "else") then
      expect (.symbol ":")
      let no ← parseSuite fuel
      pure (.branch condition yes no)
    else pure (.branch condition yes [])

/-- A block: the rest of the line, or indented lines. -/
def parseSuite : Nat → Parse (List Stmt)
  | 0 => throw "script too deep"
  | fuel + 1 => do
    if ← accept .newline then
      expect .indent
      let body ← parseBlock fuel []
      expect .outdent
      pure body
    else parseSimple fuel []

/-- The statements of a block, up to its end. -/
def parseBlock : Nat → List Stmt → Parse (List Stmt)
  | 0, _ => throw "script too deep"
  | fuel + 1, statements => do
    if (← at? .outdent) || (← at? .endOfFile) then pure statements
    else
      let more ← parseStmt fuel
      parseBlock fuel (statements ++ more)

end

/-- The statements of a script, up to its end. -/
def parseScript : Nat → List Stmt → Parse (List Stmt)
  | 0, _ => throw "script too deep"
  | fuel + 1, statements => do
    if ← at? .endOfFile then pure statements
    else if ← accept .newline then parseScript fuel statements
    else
      let more ← parseStmt fuel
      parseScript fuel (statements ++ more)

/-- The statements of a script by `parseScript`, and the number of functions and comprehensions in
it. -/
def parse (text : List Char) : Except String (List Stmt × Nat) := do
  let tokens ← tokens text
  let fuel := 64 * (tokens.length + 1)
  let (statements, state) ← (parseScript fuel []).run { tokens }
  pure (statements, state.numbered)

end MovAsm.Script

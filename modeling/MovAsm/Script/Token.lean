import MovAsm.Script.Number
import MovAsm.Text.Letter
import MovAsm.Text.Numeral

/-!
# Tokens of Build Scripts

A build script is text of names, literals and symbols. Lines matter: a line that is indented more
than the one before begins a block, and one that is indented less ends it. Within brackets lines
do not matter.

## Main definitions

* `Script.Token` — a piece of a script;
* `Script.tokens` — all pieces of a script, or why it has none.
-/

namespace MovAsm.Script

/-- A piece of a script: a name, a keyword, a number, a text or a string of bytes, an operator or
bracket (`symbol`), the end of a line, the beginning or end of a block, or the end of the script. -/
inductive Token where
  | name (text : String)
  | keyword (text : String)
  | int (value : Int)
  | float (value : Float)
  | string (bytes : List UInt8)
  | bytes (bytes : List UInt8)
  | symbol (text : String)
  | newline
  | indent
  | outdent
  | endOfFile
  deriving BEq, Repr, Inhabited

/-! ### Words and symbols -/

/-- Words with a meaning of their own, and from `as` on words that are reserved and may not be used
at all. -/
def keywords : List String :=
  ["and", "break", "continue", "def", "elif", "else", "for", "if", "in", "lambda", "load", "not",
    "or", "pass", "return", "while",
    "as", "async", "await", "class", "del", "except", "finally", "from", "global", "import", "is",
    "nonlocal", "raise", "try", "with", "yield"]

/-- The operators, brackets and separators, longer ones before their beginnings. -/
def symbols : List String :=
  ["<<=", ">>=", "//=",
    "==", "!=", "<=", ">=", "+=", "-=", "*=", "/=", "%=", "&=", "|=", "^=", "<<", ">>", "//", "**",
    "=", "<", ">", "+", "-", "*", "/", "%", "&", "|", "^", "~", ",", ":", ";", ".",
    "(", ")", "[", "]", "\x7b", "\x7d"]

/-- Whether a character begins a name. -/
def isNameStart (c : Char) : Bool :=
  c = '_' || Text.isLetter c

/-- Whether a character continues a name. -/
def isNameChar (c : Char) : Bool :=
  c.isDigit || isNameStart c

/-! ### Numbers -/

/-- The number that digits write in a `base`. -/
def digitsValue (base : Nat) (digits : List Char) : Nat :=
  digits.foldl (fun value c => value * base + Text.hexitValue c) 0

/-- The least number that a signed machine word cannot hold. -/
def wordLimit : Nat := 0x8000000000000000

/-- The `Float` nearest to `mantissa * 10 ^ exponent`, unless that is too large. -/
def decimalFloat? (mantissa : Nat) (exponent : Int) : Option Float :=
  let digits := (Nat.toDigits 10 mantissa).length
  if mantissa = 0 || exponent + digits < -400 then some 0.0
  else if exponent + digits > 400 then none
  else
    let (n, d) := scaleDown 10 mantissa 1 (-exponent)
    floatOfRatio? n d

/-- The power of ten at the front of a text that begins with `e`, with the rest of the text. -/
def exponent (chars : List Char) : Except String (Int × List Char) :=
  let (negative, chars) :=
    match chars.drop 1 with
    | '-' :: rest => (true, rest)
    | '+' :: rest => (false, rest)
    | rest => (false, rest)
  let digits := chars.takeWhile Char.isDigit
  if digits.isEmpty then throw "invalid float literal"
  else
    let size : Int := digitsValue 10 digits
    pure (if negative then -size else size, chars.drop digits.length)

/-- The fraction and the power of ten after the `whole` digits of a number. -/
def floatTail (whole : List Char) (chars : List Char) : Except String (Token × List Char) := do
  let (fraction, chars) :=
    match chars with
    | '.' :: rest => (rest.takeWhile Char.isDigit, rest.dropWhile Char.isDigit)
    | _ => ([], chars)
  let (power, chars) ←
    match chars with
    | 'e' :: _ | 'E' :: _ => exponent chars
    | _ => pure (0, chars)
  match decimalFloat? (digitsValue 10 (whole ++ fraction)) (power - fraction.length) with
  | some value => pure (.float value, chars)
  | none => throw "invalid float literal"

/-- A number after its `base` was announced. Only hexadecimal ones may exceed a machine word. -/
def basedNumber (base : Nat) (isDigit : Char → Bool) (chars : List Char) :
    Except String (Token × List Char) :=
  let digits := chars.takeWhile isDigit
  let value := digitsValue base digits
  if digits.isEmpty || (base != 16 && wordLimit ≤ value) then throw "invalid int literal"
  else pure (.int value, chars.drop digits.length)

/-- The number at the front of a text that begins with a digit, or with a point and a digit. A whole
number other than zero does not begin with `0`. -/
def number (chars : List Char) : Except String (Token × List Char) :=
  match chars with
  | '0' :: 'x' :: rest | '0' :: 'X' :: rest => basedNumber 16 Text.isHexit rest
  | '0' :: 'o' :: rest | '0' :: 'O' :: rest =>
    basedNumber 8 (fun c => '0' ≤ c && c ≤ '7') rest
  | '0' :: 'b' :: rest | '0' :: 'B' :: rest => basedNumber 2 (fun c => c = '0' || c = '1') rest
  | _ =>
    let whole := chars.takeWhile Char.isDigit
    let rest := chars.dropWhile Char.isDigit
    match rest with
    | '.' :: _ | 'e' :: _ | 'E' :: _ => floatTail whole rest
    | _ =>
      if 1 < whole.length && whole.head? = some '0' && whole.any (· != '0') then
        throw "obsolete form of octal literal"
      else pure (.int (digitsValue 10 whole), rest)

/-! ### Strings -/

/-- The bytes of a character. -/
def utf8 (c : Char) : List UInt8 :=
  (String.ofList [c]).toUTF8.toList

/-- What `count` hexadecimal digits stand for in a string: two are a byte, more are a character. -/
def hexEscape (isBytes : Bool) (count : Nat) (chars : List Char) :
    Except String (List UInt8) :=
  let digits := chars.take count
  let value := digitsValue 16 digits
  if digits.length < count || !digits.all Text.isHexit then throw "truncated escape sequence"
  else if count = 2 then
    if isBytes || value < 0x80 then pure [value.toUInt8] else throw "non-ASCII hex escape"
  else if value.isValidChar then pure (utf8 (Char.ofNat value))
  else throw "invalid Unicode code point"

/-- The byte that octal digits stand for in a string. -/
def octalEscape (isBytes : Bool) (digits : List Char) : Except String (List UInt8) :=
  let value := digitsValue 8 digits
  if value < 0x80 || (isBytes && value < 0x100) then pure [value.toUInt8]
  else throw "invalid octal escape"

/-- Whether a character is an octal digit. -/
def isOctal (c : Char) : Bool :=
  '0' ≤ c && c ≤ '7'

/-- The character that a letter after a backslash stands for. -/
def letterEscape? : Char → Option (List UInt8)
  | '\n' => some []
  | 'a' => some [0x07]
  | 'b' => some [0x08]
  | 'f' => some [0x0C]
  | 'n' => some [0x0A]
  | 'r' => some [0x0D]
  | 't' => some [0x09]
  | 'v' => some [0x0B]
  | '\\' => some [0x5C]
  | '"' => some [0x22]
  | '\'' => some [0x27]
  | _ => none

/-- What the text after a backslash stands for, with the number of characters that say so. -/
def escapeSequence (isBytes : Bool) (chars : List Char) : Except String (List UInt8 × Nat) :=
  match chars with
  | [] => throw "unexpected end of file in string"
  | 'x' :: rest => do pure (← hexEscape isBytes 2 rest, 3)
  | 'u' :: rest => do pure (← hexEscape isBytes 4 rest, 5)
  | 'U' :: rest => do pure (← hexEscape isBytes 8 rest, 9)
  | c :: _ =>
    if isOctal c then do
      let digits := (chars.take 3).takeWhile isOctal
      pure (← octalEscape isBytes digits, digits.length)
    else
      match letterEscape? c with
      | some bytes => pure (bytes, 1)
      | none => throw "invalid escape sequence"

/-- How a string is written: the `quote` at either end, whether there are three of them, so that the
string may span lines, whether a backslash stands for itself (`raw`), and whether it is a string of
bytes. -/
structure StringForm where
  quote : Char
  triple : Bool
  raw : Bool
  isBytes : Bool

/-- The bytes of a string up to its closing quote, with the text after it. -/
def stringBody (form : StringForm) (chars : List Char) :
    Except String (List UInt8 × List Char) :=
  match chars with
  | [] => throw "unexpected end of file in string"
  | '\\' :: rest =>
    if form.raw then
      match rest with
      | [] => throw "unexpected end of file in string"
      | c :: rest => do
        let (bytes, after) ← stringBody form rest
        pure (utf8 '\\' ++ utf8 c ++ bytes, after)
    else do
      let (head, count) ← escapeSequence form.isBytes rest
      let (bytes, after) ← stringBody form (rest.drop count)
      pure (head ++ bytes, after)
  | c :: rest =>
    if form.triple && c = form.quote && rest.take 2 = [form.quote, form.quote] then
      pure ([], rest.drop 2)
    else if !form.triple && c = form.quote then pure ([], rest)
    else if !form.triple && c = '\n' then throw "unexpected newline in string"
    else do
      let (bytes, after) ← stringBody form rest
      pure (utf8 c ++ bytes, after)
termination_by chars.length
decreasing_by
  all_goals
    simp only [List.length_cons, List.length_drop]
    omega

/-- The string whose opening quote is at the front of a text, by `stringBody`. -/
def string (raw isBytes : Bool) (chars : List Char) : Except String (Token × List Char) := do
  let quote := chars.head?.getD '"'
  let triple := chars.take 3 = [quote, quote, quote]
  let (bytes, after) ←
    stringBody { quote, triple, raw, isBytes } (chars.drop (if triple then 3 else 1))
  pure (if isBytes then .bytes bytes else .string bytes, after)

/-! ### Single tokens -/

/-- Whether a character is a quote. -/
def isQuote (c : Char) : Bool :=
  c = '"' || c = '\''

/-- The first of the `symbols` at the front of a text. -/
def symbol? (chars : List Char) : Option String :=
  symbols.find? fun text => text.toList.isPrefixOf chars

/-- The name or keyword at the front of a text that begins with one. -/
def word (chars : List Char) : Token × List Char :=
  let text := String.ofList (chars.takeWhile isNameChar)
  (if keywords.contains text then .keyword text else .name text, chars.dropWhile isNameChar)

/-- The token at the front of a text that does not begin with white space. -/
def token (chars : List Char) : Except String (Token × List Char) :=
  match chars with
  | 'r' :: 'b' :: q :: rest =>
    if isQuote q then string true true (q :: rest) else pure (word chars)
  | 'r' :: q :: rest => if isQuote q then string true false (q :: rest) else pure (word chars)
  | 'b' :: q :: rest => if isQuote q then string false true (q :: rest) else pure (word chars)
  | '.' :: d :: _ => if d.isDigit then number chars else pure (.symbol ".", chars.drop 1)
  | c :: _ =>
    if isQuote c then string false false chars
    else if isNameStart c then pure (word chars)
    else if c.isDigit then number chars
    else
      match symbol? chars with
      | some text => pure (.symbol text, chars.drop text.length)
      | none => throw "unexpected input character"
  | [] => pure (.endOfFile, [])

/-! ### Lines and blocks -/

/-- Where `scan` stands: whether nothing of the current line was read, the number of brackets that
are open, and the indentations of the blocks that are open, innermost first. -/
structure ScanState where
  lineStart : Bool := true
  depth : Nat := 0
  indents : List Nat := []

/-- The indentation of a line, with the text after it. A tab goes to the next multiple of eight of
the characters before it. -/
def indentation (column count : Nat) : List Char → Nat × List Char
  | ' ' :: rest => indentation (column + 1) (count + 1) rest
  | '\t' :: rest => indentation (column + (8 - count % 8)) (count + 1) rest
  | rest => (column, rest)

/-- Opens or closes blocks for a line with the indentation `column`. -/
def changeBlocks (column : Nat) (indents : List Nat) : Except String (List Token × List Nat) :=
  let current := indents.headD 0
  if current < column then pure ([.indent], column :: indents)
  else
    let kept := indents.dropWhile (column < ·)
    if kept.headD 0 = column then
      pure (List.replicate (indents.length - kept.length) .outdent, kept)
    else throw "unindent does not match any outer indentation level"

/-- The number of open brackets after a token. -/
def bracketDepth (depth : Nat) : Token → Except String Nat
  | .symbol "(" | .symbol "[" | .symbol "\x7b" => pure (depth + 1)
  | .symbol ")" | .symbol "]" | .symbol "\x7d" =>
    if depth = 0 then throw "unexpected closing bracket" else pure (depth - 1)
  | _ => pure depth

/-- The tokens at the end of a script: an `outdent` for each open block. -/
def closing (state : ScanState) : List Token :=
  let blocks := List.replicate state.indents.length .outdent
  if state.lineStart || state.indents.isEmpty then blocks ++ [.endOfFile]
  else .newline :: blocks ++ [.endOfFile]

/-- The tokens of a text. Each round reads at least a character or leaves the beginning of a
line, so there is fuel enough at twice the length of the text. -/
def scan : Nat → ScanState → List Char → Except String (List Token)
  | 0, _, _ => throw "text too long"
  | fuel + 1, state, chars =>
    let (column, chars) := indentation 0 0 chars
    match chars with
    | [] | '\x00' :: _ => pure (closing state)
    | '#' :: _ =>
      let rest := chars.dropWhile (fun c => c != '\n' && c != '\x00')
      match rest with
      | '\n' :: _ =>
        if state.lineStart then scan fuel state (rest.drop 1) else scan fuel state rest
      | _ => pure (closing state)
    | '\n' :: rest =>
      if state.lineStart || 0 < state.depth then scan fuel { state with lineStart := true } rest
      else do
        let tokens ← scan fuel { state with lineStart := true } rest
        pure (.newline :: tokens)
    | '\\' :: rest =>
      match rest with
      | '\n' :: rest => do
        let (blocks, indents) ←
          if state.lineStart && state.depth = 0 then changeBlocks column state.indents
          else pure ([], state.indents)
        let tokens ← scan fuel { state with lineStart := false, indents } rest
        pure (blocks ++ tokens)
      | _ => throw "stray backslash in program"
    | _ => do
      let (blocks, indents) ←
        if state.lineStart && state.depth = 0 then changeBlocks column state.indents
        else pure ([], state.indents)
      let (first, rest) ← token chars
      let depth ← bracketDepth state.depth first
      let tokens ← scan fuel { lineStart := false, depth, indents } rest
      pure (blocks ++ first :: tokens)

/-- Every end of line as a line feed. -/
def unifyNewlines : List Char → List Char
  | '\r' :: '\n' :: rest => '\n' :: unifyNewlines rest
  | '\r' :: rest => '\n' :: unifyNewlines rest
  | c :: rest => c :: unifyNewlines rest
  | [] => []

/-- The tokens of a script, by `scan`. -/
def tokens (text : List Char) : Except String (List Token) :=
  let chars := unifyNewlines text
  scan (2 * chars.length + 2) {} chars

end MovAsm.Script

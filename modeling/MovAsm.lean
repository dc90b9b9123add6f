import MovAsm.Assembly
import MovAsm.Assembly.Encoding
import MovAsm.Assembly.Fault
import MovAsm.BuildFile
import MovAsm.Command
import MovAsm.Command.Options
import MovAsm.Command.Report
import MovAsm.Emitter
import MovAsm.Image
import MovAsm.Image.Dump
import MovAsm.Instruction
import MovAsm.Instruction.Keyword
import MovAsm.Instruction.Operand
import MovAsm.Instruction.Outline
import MovAsm.Machine.Operation
import MovAsm.Machine.Register
import MovAsm.Main
import MovAsm.Position
import MovAsm.Program.Diagnostic
import MovAsm.Program.Line
import MovAsm.Program.Reader
import MovAsm.Proofs.Assembly.Agreement
import MovAsm.Proofs.Assembly.Decoding
import MovAsm.Proofs.Assembly.Independence
import MovAsm.Proofs.Assembly.Labels
import MovAsm.Proofs.Assembly.Listing
import MovAsm.Proofs.Assembly.Placement
import MovAsm.Proofs.Assembly.Relocation
import MovAsm.Proofs.Check
import MovAsm.Proofs.Command.Arguments
import MovAsm.Proofs.Command.Atomicity
import MovAsm.Proofs.Command.Overriding
import MovAsm.Proofs.Emitter
import MovAsm.Proofs.Image.Reading
import MovAsm.Proofs.Image.Size
import MovAsm.Proofs.Image.Writing
import MovAsm.Proofs.Program.Acceptance
import MovAsm.Proofs.Program.Accounting
import MovAsm.Proofs.Program.Concatenation
import MovAsm.Proofs.Program.Conservation
import MovAsm.Proofs.Program.Correspondence
import MovAsm.Proofs.Program.Grammar
import MovAsm.Proofs.Program.Interleaving
import MovAsm.Proofs.Program.Interruption
import MovAsm.Proofs.Program.LastLine
import MovAsm.Proofs.Program.Layout
import MovAsm.Proofs.Program.LineEndings
import MovAsm.Proofs.Program.Normalisation
import MovAsm.Proofs.Program.Printing
import MovAsm.Proofs.Program.Requests
import MovAsm.Proofs.Program.Rows
import MovAsm.Proofs.Program.Stepping
import MovAsm.Proofs.Storage.Faithful
import MovAsm.Proofs.Storage.FileTree
import MovAsm.Proofs.Storage.Names
import MovAsm.Proofs.Text.Numeral
import MovAsm.Proofs.Text.Utf8
import MovAsm.Proofs.Token.Locality
import MovAsm.Proofs.Token.LongestMatch
import MovAsm.Proofs.Token.Lookahead
import MovAsm.Proofs.Token.Places
import MovAsm.Proofs.Token.Spelling
import MovAsm.Script
import MovAsm.Script.Comparison
import MovAsm.Script.Decimal
import MovAsm.Script.Element
import MovAsm.Script.Eval
import MovAsm.Script.Evaluator
import MovAsm.Script.Function
import MovAsm.Script.Grammar
import MovAsm.Script.Number
import MovAsm.Script.Operator
import MovAsm.Script.Range
import MovAsm.Script.Rendering
import MovAsm.Script.Scope
import MovAsm.Script.Token
import MovAsm.Script.Tree
import MovAsm.Script.Value
import MovAsm.Settings
import MovAsm.Storage
import MovAsm.Storage.FileTree
import MovAsm.Storage.Path
import MovAsm.Text.CharRange
import MovAsm.Text.DecimalDigit
import MovAsm.Text.Integer
import MovAsm.Text.Letter
import MovAsm.Text.Numeral
import MovAsm.Text.Printable
import MovAsm.Text.Quoted
import MovAsm.Text.Template
import MovAsm.Text.Utf8
import MovAsm.Token
import MovAsm.Token.Lexer

import LuaLowering.CommandLine.Directory
import LuaLowering.CommandLine.LogFilter
import LuaLowering.CommandLine.Options
import LuaLowering.CommandLine.Run
import LuaLowering.CommandLine.Table
import LuaLowering.Compile
import LuaLowering.Decimal.Binary64
import LuaLowering.Decimal.Format
import LuaLowering.Decimal.Read
import LuaLowering.Decimal.Shortest
import LuaLowering.Diagnostic
import LuaLowering.Json
import LuaLowering.Lexeme.LongBracket
import LuaLowering.Lexeme.Numeral
import LuaLowering.Lexeme.QuotedString
import LuaLowering.Lexeme.Trivia
import LuaLowering.Lexeme.Word
import LuaLowering.Location
import LuaLowering.Log
import LuaLowering.Lower.Basic
import LuaLowering.Lower.Chunk
import LuaLowering.Lower.Error
import LuaLowering.Lower.Exp
import LuaLowering.Lower.Numeral
import LuaLowering.Lower.Scope
import LuaLowering.Main
import LuaLowering.Module.Basic
import LuaLowering.Module.Build
import LuaLowering.Module.Operation
import LuaLowering.Module.Packs
import LuaLowering.Module.Text
import LuaLowering.Module.ToJson
import LuaLowering.Module.Value
import LuaLowering.Module.Verify
import LuaLowering.Peg.Attempts
import LuaLowering.Peg.Grammar
import LuaLowering.Peg.Scanner
import LuaLowering.Regex.Basic
import LuaLowering.Regex.Bracket
import LuaLowering.Regex.CharSet
import LuaLowering.Regex.Escape
import LuaLowering.Regex.Fault
import LuaLowering.Regex.Group
import LuaLowering.Regex.OfPattern
import LuaLowering.Regex.Parse
import LuaLowering.Regex.Pattern
import LuaLowering.Regex.Reader
import LuaLowering.Regex.Repetition
import LuaLowering.Regex.Size
import LuaLowering.Syntax.Basic
import LuaLowering.Syntax.FlatExp
import LuaLowering.Syntax.Grammar
import LuaLowering.Syntax.OfTree
import LuaLowering.Syntax.Operator
import LuaLowering.Syntax.Parse
import LuaLowering.Syntax.Rule
import LuaLowering.Text.Alphabetic
import LuaLowering.Text.Bytes
import LuaLowering.Text.Category
import LuaLowering.Text.Category.Letter
import LuaLowering.Text.Category.Mark
import LuaLowering.Text.Category.Number
import LuaLowering.Text.Category.Other
import LuaLowering.Text.Category.Punctuation
import LuaLowering.Text.Category.Symbol
import LuaLowering.Text.Digits
import LuaLowering.Text.Extending
import LuaLowering.Text.Quoted
import LuaLowering.Text.Unprintable
import LuaLowering.Text.WhiteSpace
import LuaLowering.Proofs.Arena
import LuaLowering.Proofs.Verification
import LuaLowering.Proofs.LoweringRun
import LuaLowering.Proofs.FirstProblem
import LuaLowering.Proofs.Assignment
import LuaLowering.Proofs.Scanning
import LuaLowering.Proofs.NumeralText
import LuaLowering.Proofs.Outcome
import LuaLowering.Proofs.Handles
import LuaLowering.Proofs.Sessions
import LuaLowering.Proofs.WellFormed
import LuaLowering.Proofs.Interruptions
import LuaLowering.Proofs.Cells
import LuaLowering.Proofs.Restriction
import LuaLowering.Proofs.Templates
import LuaLowering.Proofs.Phrases
import LuaLowering.Proofs.Linearity
import LuaLowering.Proofs.Nesting
import LuaLowering.Proofs.Erasure
import LuaLowering.Proofs.Grouping
import LuaLowering.Proofs.Printing
import LuaLowering.Proofs.Spacing
import LuaLowering.Proofs.Matching
import LuaLowering.Proofs.Shapes
import LuaLowering.Proofs.Operands
import LuaLowering.Proofs.PrefixExpressions
import LuaLowering.Proofs.Statements
import LuaLowering.Proofs.RoundTrip
import LuaLowering.Proofs.AppendOnly
import LuaLowering.Proofs.LabelInvariance
import LuaLowering.Proofs.NodeRanges
import LuaLowering.Proofs.PackValues
import LuaLowering.Proofs.PrintedForm
import LuaLowering.Proofs.BlankInsertion
import LuaLowering.Proofs.PackRecursion
import LuaLowering.Proofs.Precedence
import LuaLowering.Proofs.BindingPowers
import LuaLowering.Proofs.Escapes
import LuaLowering.Proofs.NodeInsertion
import LuaLowering.Proofs.WordEnds
import LuaLowering.Proofs.IntegerConstants
import LuaLowering.Proofs.LiteralScripts
import LuaLowering.Proofs.NumeralLiterals
import LuaLowering.Proofs.StringLiterals
import LuaLowering.Proofs.LongComments
import LuaLowering.Proofs.Positions
import LuaLowering.Proofs.RemovedKinds
import LuaLowering.Proofs.AssignedWords
import LuaLowering.Proofs.MisplacedPacks
import LuaLowering.Proofs.FinishedEscapes

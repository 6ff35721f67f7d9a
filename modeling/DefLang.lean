import DefLang.Text.Offset
import DefLang.Text.Visible
import DefLang.Text.Quoted
import DefLang.Numeral
import DefLang.Token
import DefLang.Snippet
import DefLang.Diagnostic
import DefLang.Token.Lexer
import DefLang.Token.Layout
import DefLang.Expr
import DefLang.Definition.Grammar
import DefLang.Definition.Parser
import DefLang.Script
import DefLang.Outline
import DefLang.Compile
import DefLang.Command.Input
import DefLang.Command.Directory
import DefLang.Command
import DefLang.Main
import DefLang.Proofs.FallibleSteps
import DefLang.Proofs.GrammarAcceptance
import DefLang.Proofs.TokenLayout
import DefLang.Proofs.SourceLayout
import DefLang.Proofs.PrintableTrees
import DefLang.Proofs.NumeralReading
import DefLang.Proofs.SourcePrinting
import DefLang.Proofs.ProgramText
import DefLang.Proofs.UnambiguousScript
import DefLang.Proofs.SnippetPlaces
import DefLang.Proofs.TokenwiseReading
import DefLang.Proofs.LeftmostFault
import DefLang.Proofs.Relocation
import DefLang.Proofs.SourceLines
import DefLang.Proofs.ByteSlices
import DefLang.Proofs.ScannerTurns
import DefLang.Proofs.CaretPlacement
import DefLang.Proofs.CommandOutcome
import DefLang.Proofs.FirstViolation
import DefLang.Proofs.ParenthesisBalance
import DefLang.Proofs.ExpectedTokens
import DefLang.Proofs.BlamedIdentifier
import DefLang.Proofs.UnlexablePlaces
import DefLang.Proofs.LinePositions
import DefLang.Proofs.LiteralValues
import DefLang.Proofs.TokenListing
import DefLang.Proofs.OutlineReading
import DefLang.Proofs.OutlineLines
import DefLang.Proofs.ArgumentLanguage
import DefLang.Proofs.CursorSteps
import DefLang.Proofs.ExpressionContract

import TinyScript.Text.Ranges
import TinyScript.Text.Blank
import TinyScript.Text.Digits
import TinyScript.Text.Bytes
import TinyScript.Text.Unprintable
import TinyScript.Text.Quoted
import TinyScript.Text.ZeroWidth
import TinyScript.Text.Wide
import TinyScript.Text.Columns
import TinyScript.Token.Basic
import TinyScript.Token.Error
import TinyScript.Token.Lexeme
import TinyScript.Token.Scanner
import TinyScript.Token.State
import TinyScript.Syntax.Basic
import TinyScript.Syntax.Printer
import TinyScript.Syntax.Error
import TinyScript.Syntax.Step
import TinyScript.Syntax.Expression
import TinyScript.Syntax.Statement
import TinyScript.Syntax.Program
import TinyScript.Value.Basic
import TinyScript.Run.Error
import TinyScript.Value.Heap
import TinyScript.Run.Machine
import TinyScript.Run.Operator
import TinyScript.Run.Native
import TinyScript.Run.Eval
import TinyScript.Source.Fault
import TinyScript.Source.Utf8
import TinyScript.Source.File
import TinyScript.Source.Directory
import TinyScript.Report.Failure
import TinyScript.Report.Snippet
import TinyScript.Report.Style
import TinyScript.Report.Pretty
import TinyScript.Session
import TinyScript.Shell.Command
import TinyScript.Shell.Script
import TinyScript.Shell.Loop
import TinyScript.Shell.Invocation
import TinyScript.Main
import TinyScript.Proofs.CleanStep
import TinyScript.Proofs.ExpressionRules
import TinyScript.Proofs.Phrase
import TinyScript.Proofs.PhraseSound
import TinyScript.Proofs.PhraseComplete
import TinyScript.Proofs.PhraseUnique
import TinyScript.Proofs.StatementRules
import TinyScript.Proofs.Sentence
import TinyScript.Proofs.SentenceSound
import TinyScript.Proofs.SentenceComplete
import TinyScript.Proofs.SentenceUnique
import TinyScript.Proofs.Acceptance
import TinyScript.Proofs.Scans
import TinyScript.Proofs.Yields
import TinyScript.Proofs.LexemeText
import TinyScript.Proofs.Printed
import TinyScript.Proofs.Canonical
import TinyScript.Proofs.PrintedText
import TinyScript.Proofs.PhraseOfTree
import TinyScript.Proofs.SentenceOfTree
import TinyScript.Proofs.Scanned
import TinyScript.Proofs.RoundTrip
import TinyScript.Proofs.CanonicalResult
import TinyScript.Proofs.Reparse
import TinyScript.Proofs.Trace
import TinyScript.Proofs.Restored
import TinyScript.Proofs.CallDepth
import TinyScript.Proofs.LikeMachine
import TinyScript.Proofs.Cursor
import TinyScript.Proofs.Tiling
import TinyScript.Proofs.LikeRun
import TinyScript.Proofs.Positions
import TinyScript.Proofs.Encapsulation
import TinyScript.Proofs.Seam
import TinyScript.Proofs.LikeExpression
import TinyScript.Proofs.LikeStatement
import TinyScript.Proofs.Joined
import TinyScript.Proofs.Pieces
import TinyScript.Proofs.Conduct
import TinyScript.Proofs.Regime
import TinyScript.Proofs.NoLeaks
import TinyScript.Proofs.Grounded
import TinyScript.Proofs.Lookahead
import TinyScript.Proofs.Feeding
import TinyScript.Proofs.FileText
import TinyScript.Proofs.Concatenation
import TinyScript.Proofs.Course
import TinyScript.Proofs.ExpressionShape
import TinyScript.Proofs.FlatStatement
import TinyScript.Proofs.StatementShape
import TinyScript.Proofs.Stores
import TinyScript.Proofs.ProperCode
import TinyScript.Proofs.ProperRun
import TinyScript.Proofs.ParsedPrograms
import TinyScript.Proofs.Provenance
import TinyScript.Proofs.MoreFuel
import TinyScript.Proofs.Termination
import TinyScript.Proofs.Decoding
import TinyScript.Proofs.Rejected
import TinyScript.Proofs.Parsing
import TinyScript.Proofs.OnDemand
import TinyScript.Proofs.Progress
import TinyScript.Proofs.RulesOnDemand
import TinyScript.Proofs.Padding
import TinyScript.Proofs.PaddedStep
import TinyScript.Proofs.PaddedRun
import TinyScript.Proofs.ForLoop
import TinyScript.Proofs.LoopMeaning
import TinyScript.Proofs.LongestMatch
import TinyScript.Proofs.NearestBinding
import TinyScript.Proofs.EndOfTokens
import TinyScript.Proofs.PrintStatement
import TinyScript.Proofs.ExactArithmetic
import TinyScript.Proofs.LeavingReturn
import TinyScript.Proofs.CallBinding
import TinyScript.Proofs.ReadStream
import TinyScript.Proofs.Undecodable
import TinyScript.Proofs.Register
import TinyScript.Proofs.Identity
import TinyScript.Proofs.Expectations
import TinyScript.Proofs.PlainReports
import TinyScript.Proofs.HexBytes
import TinyScript.Proofs.NumberLiterals

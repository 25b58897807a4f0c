import Scriptlet.Builtin
import Scriptlet.CommandLine.Options
import Scriptlet.CommandLine.Report
import Scriptlet.Decimal.Basic
import Scriptlet.Decimal.Binary64
import Scriptlet.Decimal.FloatStyle
import Scriptlet.Decimal.Power
import Scriptlet.Decimal.Shortest
import Scriptlet.Double
import Scriptlet.Evaluation
import Scriptlet.Interpreter
import Scriptlet.Machine
import Scriptlet.Main
import Scriptlet.Operation
import Scriptlet.ParseError
import Scriptlet.Parser.Basic
import Scriptlet.Parser.Phrase
import Scriptlet.Parser.Precedence
import Scriptlet.Parser.Program
import Scriptlet.Position
import Scriptlet.Proofs.Allocated
import Scriptlet.Proofs.Assembly
import Scriptlet.Proofs.Assignment
import Scriptlet.Proofs.Bindings
import Scriptlet.Proofs.Budget
import Scriptlet.Proofs.ByteOrder
import Scriptlet.Proofs.CallDepth
import Scriptlet.Proofs.CallLimit
import Scriptlet.Proofs.Capture
import Scriptlet.Proofs.Code.Faults
import Scriptlet.Proofs.Code.LoopControl
import Scriptlet.Proofs.Code.Parts
import Scriptlet.Proofs.Code.Staying
import Scriptlet.Proofs.Code.WellFormed
import Scriptlet.Proofs.CompoundAssignment
import Scriptlet.Proofs.Contents
import Scriptlet.Proofs.CounterLoop
import Scriptlet.Proofs.Course
import Scriptlet.Proofs.Declared
import Scriptlet.Proofs.DefinitionOrder
import Scriptlet.Proofs.Diagnostics.Located
import Scriptlet.Proofs.Diagnostics.Pointing
import Scriptlet.Proofs.Diagnostics.Reading
import Scriptlet.Proofs.Diagnostics.Scanning
import Scriptlet.Proofs.Division
import Scriptlet.Proofs.Effect
import Scriptlet.Proofs.Equality.Coherence
import Scriptlet.Proofs.Equality.NumberFormat
import Scriptlet.Proofs.Equality.NumberOrder
import Scriptlet.Proofs.Equality.Promotion
import Scriptlet.Proofs.Equality.Sameness
import Scriptlet.Proofs.Equality.Transitivity
import Scriptlet.Proofs.ExactArithmetic
import Scriptlet.Proofs.Exchange
import Scriptlet.Proofs.Grammar.Acceptance
import Scriptlet.Proofs.Grammar.Basic
import Scriptlet.Proofs.Grammar.Brackets
import Scriptlet.Proofs.Grammar.Completeness
import Scriptlet.Proofs.Grammar.Headers
import Scriptlet.Proofs.Grammar.Levels
import Scriptlet.Proofs.Grammar.Opening
import Scriptlet.Proofs.Grammar.Places
import Scriptlet.Proofs.Grammar.Readers
import Scriptlet.Proofs.Grammar.Soundness
import Scriptlet.Proofs.Grammar.Tables
import Scriptlet.Proofs.Grammar.Terms
import Scriptlet.Proofs.Grammar.Updates
import Scriptlet.Proofs.Guards
import Scriptlet.Proofs.Hosts
import Scriptlet.Proofs.Increments
import Scriptlet.Proofs.Independence
import Scriptlet.Proofs.Interruption
import Scriptlet.Proofs.Kept
import Scriptlet.Proofs.Layout.Bare
import Scriptlet.Proofs.Layout.Ignored
import Scriptlet.Proofs.Layout.Reading
import Scriptlet.Proofs.Layout.Running
import Scriptlet.Proofs.Layout.Values
import Scriptlet.Proofs.Lexing.Decoding
import Scriptlet.Proofs.Lexing.LineMarks
import Scriptlet.Proofs.Lexing.Munching
import Scriptlet.Proofs.Lexing.Patterns
import Scriptlet.Proofs.Lexing.Pieces
import Scriptlet.Proofs.Lexing.Positions
import Scriptlet.Proofs.Lexing.Spelling
import Scriptlet.Proofs.Lexing.Tokenization
import Scriptlet.Proofs.Lookahead.Decided
import Scriptlet.Proofs.Lookahead.Phrases
import Scriptlet.Proofs.Lookahead.Progress
import Scriptlet.Proofs.Lookahead.Settling
import Scriptlet.Proofs.LoopFree
import Scriptlet.Proofs.Nearest
import Scriptlet.Proofs.Output
import Scriptlet.Proofs.OutputLimit
import Scriptlet.Proofs.Pairing
import Scriptlet.Proofs.Passage
import Scriptlet.Proofs.Persistence
import Scriptlet.Proofs.Printing.Basic
import Scriptlet.Proofs.Printing.Derived
import Scriptlet.Proofs.Printing.ReadBack
import Scriptlet.Proofs.ProcedureTable
import Scriptlet.Proofs.Reachability
import Scriptlet.Proofs.Realm
import Scriptlet.Proofs.Recipe
import Scriptlet.Proofs.Relabeling
import Scriptlet.Proofs.Relocation
import Scriptlet.Proofs.Restraint
import Scriptlet.Proofs.Reuse
import Scriptlet.Proofs.ScopeChains
import Scriptlet.Proofs.Sequences
import Scriptlet.Proofs.Steps
import Scriptlet.Proofs.Termination
import Scriptlet.Proofs.Timeline
import Scriptlet.Proofs.Truncation.CutPhrases
import Scriptlet.Proofs.Truncation.Incomplete
import Scriptlet.Proofs.Truncation.Phrases
import Scriptlet.Proofs.Truncation.Reports
import Scriptlet.RuntimeError
import Scriptlet.Sink
import Scriptlet.Store
import Scriptlet.Text.GraphemeExtend
import Scriptlet.Text.Order
import Scriptlet.Text.Quoted
import Scriptlet.Text.Unprintable
import Scriptlet.Token.Basic
import Scriptlet.Token.Description
import Scriptlet.Token.Lexer
import Scriptlet.Token.StringBody
import Scriptlet.Tree.Basic
import Scriptlet.Tree.Outline
import Scriptlet.Tree.Sugar
import Scriptlet.Value.Basic
import Scriptlet.Value.Comparison
import Scriptlet.Value.Display

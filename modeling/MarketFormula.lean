import MarketFormula.CalendarDate
import MarketFormula.CalendarDate.Basic
import MarketFormula.CalendarDate.Loose
import MarketFormula.CalendarDate.Standard
import MarketFormula.CalendarDate.TimeOfDay
import MarketFormula.CalendarDate.YearLast
import MarketFormula.Command.CheckRules
import MarketFormula.Command.Options
import MarketFormula.Command.Outcome
import MarketFormula.Command.RunFormula
import MarketFormula.Csv.Cell
import MarketFormula.Csv.PlainFiles
import MarketFormula.Csv.Row
import MarketFormula.Csv.Table
import MarketFormula.DataError
import MarketFormula.Datum
import MarketFormula.Decimal.Dyadic
import MarketFormula.Decimal.Layout
import MarketFormula.Decimal.Reading
import MarketFormula.Decimal.Shortest
import MarketFormula.Evaluation.Eval
import MarketFormula.Evaluation.Fault
import MarketFormula.Evaluation.Progress
import MarketFormula.Evaluation.Trigger
import MarketFormula.Evaluation.Value
import MarketFormula.Evaluation.Vocabulary
import MarketFormula.FileTree
import MarketFormula.Formula.Cursor
import MarketFormula.Formula.Error
import MarketFormula.Formula.Expr
import MarketFormula.Formula.Lexer
import MarketFormula.Formula.Parse
import MarketFormula.Formula.Parser
import MarketFormula.Formula.Token
import MarketFormula.Indicator.Average
import MarketFormula.Indicator.Basic
import MarketFormula.Indicator.Rolling
import MarketFormula.Json.Reading
import MarketFormula.Json.Writing
import MarketFormula.Log
import MarketFormula.Main
import MarketFormula.Market.Bar
import MarketFormula.Market.Library
import MarketFormula.Market.Record
import MarketFormula.Market.Series
import MarketFormula.Market.Table
import MarketFormula.Rules.Pool
import MarketFormula.Rules.Provider
import MarketFormula.Rules.Rule
import MarketFormula.Rules.Store
import MarketFormula.Rules.Sweep
import MarketFormula.Settings
import MarketFormula.Text.Blank
import MarketFormula.Text.Cased
import MarketFormula.Text.CodePoint
import MarketFormula.Text.DecimalDigit
import MarketFormula.Text.LetterCase
import MarketFormula.Text.Printable
import MarketFormula.Text.Quoted
import MarketFormula.Text.Span
import MarketFormula.Proofs.Indicator.Stability
import MarketFormula.Proofs.Decimal.Range
import MarketFormula.Proofs.Evaluation.Agreement
import MarketFormula.Proofs.Evaluation.Signal
import MarketFormula.Proofs.Evaluation.AtBar
import MarketFormula.Proofs.Formula.Grammar
import MarketFormula.Proofs.Formula.Unambiguity
import MarketFormula.Proofs.Formula.Soundness
import MarketFormula.Proofs.Formula.Completeness
import MarketFormula.Proofs.Formula.Acceptance
import MarketFormula.Proofs.Rules.Pool
import MarketFormula.Proofs.Evaluation.Kind
import MarketFormula.Proofs.Evaluation.Decision
import MarketFormula.Proofs.Rules.Schedules
import MarketFormula.Proofs.Rules.Isolation
import MarketFormula.Proofs.Formula.Numeral
import MarketFormula.Proofs.Evaluation.Faults
import MarketFormula.Proofs.Formula.Lexeme
import MarketFormula.Proofs.Formula.Scanning
import MarketFormula.Proofs.Formula.Spelling
import MarketFormula.Proofs.Formula.Halting
import MarketFormula.Proofs.Formula.Lockstep
import MarketFormula.Proofs.Formula.Viability
import MarketFormula.Proofs.Decimal.Number
import MarketFormula.Proofs.Formula.Respelling
import MarketFormula.Proofs.Evaluation.Lookback
import MarketFormula.Proofs.Rules.Lookback
import MarketFormula.Proofs.Rules.Atomicity
import MarketFormula.Proofs.Formula.Naming
import MarketFormula.Proofs.Formula.Places
import MarketFormula.Proofs.Formula.Wording
import MarketFormula.Proofs.Evaluation.Location
import MarketFormula.Proofs.Decimal.Rounding
import MarketFormula.Proofs.Evaluation.LongWindow
import MarketFormula.Proofs.CalendarDate.Order
import MarketFormula.Proofs.Market.Order
import MarketFormula.Proofs.Command.RunFormula
import MarketFormula.Proofs.Indicator.ExactMean
import MarketFormula.Proofs.Decimal.Canonical
import MarketFormula.Proofs.Decimal.Exact
import MarketFormula.Proofs.Indicator.WindowMean
import MarketFormula.Proofs.Evaluation.MeanBounds
import MarketFormula.Proofs.Evaluation.Delay
import MarketFormula.Proofs.Decimal.Order
import MarketFormula.Proofs.Indicator.Extreme
import MarketFormula.Proofs.Evaluation.Windowed
import MarketFormula.Proofs.Evaluation.Extremes
import MarketFormula.Proofs.Evaluation.Crossing
import MarketFormula.Proofs.Decimal.Finite
import MarketFormula.Proofs.Indicator.Smoothing
import MarketFormula.Proofs.Evaluation.Smoothing
import MarketFormula.Proofs.Indicator.Running
import MarketFormula.Proofs.Evaluation.Clipping
import MarketFormula.Proofs.Evaluation.Conditions
import MarketFormula.Proofs.Market.Library
import MarketFormula.Proofs.Market.Record
import MarketFormula.Proofs.Market.Sorting
import MarketFormula.Proofs.Market.Layout
import MarketFormula.Proofs.Market.Storage
import MarketFormula.Proofs.Rules.Store
import MarketFormula.Proofs.Formula.DepthCheck
import MarketFormula.Proofs.Formula.ReadingOrder
import MarketFormula.Proofs.Formula.Shift
import MarketFormula.Proofs.Formula.ParseState

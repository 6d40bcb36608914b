import TableFormula.Evaluation.CallDepth
import TableFormula.Evaluation.Context
import TableFormula.Evaluation.Divisions
import TableFormula.Evaluation.Exact
import TableFormula.Evaluation.Outcome
import TableFormula.Formula.Json
import TableFormula.Grammar.DepthCounter
import TableFormula.Grammar.Flat
import TableFormula.Grammar.Leaves
import TableFormula.Lexer.Cursor
import TableFormula.Owner.InFull
import TableFormula.Parser
import TableFormula.Phrase.Writing
import TableFormula.TokenStream
import TableFormula.Proofs.ReaderInduction
import TableFormula.Proofs.ReaderSimulation
import TableFormula.Proofs.TextStream
import TableFormula.Proofs.WrittenText
import TableFormula.Proofs.LexerStream
import TableFormula.Proofs.LexerAnswers
import TableFormula.Proofs.Reading
import TableFormula.Proofs.WellGroupedReading
import TableFormula.Proofs.ReaderOutcome
import TableFormula.Proofs.WholeFormula
import TableFormula.Proofs.ReadingMonads
import TableFormula.Proofs.DepthCounting
import TableFormula.Proofs.ReadingContract
import TableFormula.Proofs.FlatPhrases
import TableFormula.Proofs.WrittenFormulas
import TableFormula.Proofs.UnclosedParentheses
import TableFormula.Proofs.ClosedTexts
import TableFormula.Proofs.DepthLimit
import TableFormula.Proofs.LeadingPhrase
import TableFormula.Proofs.ExactLimit
import TableFormula.Proofs.Layouts
import TableFormula.Proofs.TwoPhases
import TableFormula.Proofs.OperandOrder
import TableFormula.Proofs.Lexing
import TableFormula.Proofs.BareNames
import TableFormula.Proofs.ExactEvaluation
import TableFormula.Proofs.WrappingArithmetic
import TableFormula.Proofs.FaultyDivisions
import TableFormula.Proofs.FailedReading
import TableFormula.Proofs.FailureOutcome
import TableFormula.Proofs.Completions
import TableFormula.Proofs.TruthfulFaults
import TableFormula.Proofs.EarliestFaults
import TableFormula.Proofs.ConstantFormulas
import TableFormula.Proofs.PossibleOutcomes
import TableFormula.Proofs.UnselectedBranches
import TableFormula.Proofs.BytePositions
import TableFormula.Proofs.FaultPlaces
import TableFormula.Proofs.TextCuts
import TableFormula.Proofs.TrailingInput
import TableFormula.Proofs.StoredFormulas
import TableFormula.Grammar.Steps
import TableFormula.Proofs.SaturatingPowers
import TableFormula.Proofs.ShownFormulas
import TableFormula.Proofs.TokenConsumption
import TableFormula.Formula.Constants
import TableFormula.Phrase.Numbers
import TableFormula.Proofs.IntegerLiterals

import TerminalMarkup.Text
import TerminalMarkup.Text.Numeral
import TerminalMarkup.Piece
import TerminalMarkup.Color
import TerminalMarkup.Fault
import TerminalMarkup.Color.Palette
import TerminalMarkup.Token
import TerminalMarkup.Token.Shape
import TerminalMarkup.Token.Keyword
import TerminalMarkup.Log
import TerminalMarkup.Sink
import TerminalMarkup.Sink.Recording
import TerminalMarkup.Escape.Output
import TerminalMarkup.Escape.Sequence
import TerminalMarkup.Interpreter
import TerminalMarkup.Interpreter.Rendering
import TerminalMarkup.Interpreter.Stripping
import TerminalMarkup.Proofs.Decomposition
import TerminalMarkup.Proofs.Readings
import TerminalMarkup.Proofs.FaultPolicies
import TerminalMarkup.Proofs.Shapes
import TerminalMarkup.Proofs.KeywordGrammar
import TerminalMarkup.Proofs.SinkMaps
import TerminalMarkup.Proofs.Emissions
import TerminalMarkup.Proofs.Renderings
import TerminalMarkup.Proofs.UniqueDecoding
import TerminalMarkup.Proofs.ShownText
import TerminalMarkup.Proofs.Tokens
import TerminalMarkup.Proofs.Validity
import TerminalMarkup.Proofs.Codings
import TerminalMarkup.Proofs.Seams
import TerminalMarkup.Proofs.Spellings
import TerminalMarkup.Proofs.Fixpoints
import TerminalMarkup.Proofs.TwoStages
import TerminalMarkup.Proofs.Expressible
import TerminalMarkup.Proofs.LetterCase
import TerminalMarkup.Proofs.Answers
import TerminalMarkup.Proofs.InterpretationLog
import TerminalMarkup.Proofs.SequenceForms
import TerminalMarkup.Proofs.Growth
import TerminalMarkup.Proofs.SingleCalls
import TerminalMarkup.Proofs.NestedLogs
import TerminalMarkup.Proofs.Matching

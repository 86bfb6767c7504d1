import LoxLexer.Main
import LoxLexer.Rejoin
import LoxLexer.Proofs.MaximalMunch
import LoxLexer.Proofs.OrShortcut
import LoxLexer.Proofs.Automaton
import LoxLexer.Proofs.Tiling
import LoxLexer.Proofs.Lines
import LoxLexer.Proofs.Neighbours
import LoxLexer.Proofs.Rescan
import LoxLexer.Proofs.Fusion
import LoxLexer.Proofs.Seams
import LoxLexer.Proofs.Lookahead
import LoxLexer.Proofs.GoodPrefix
import LoxLexer.Proofs.WellFormed
import LoxLexer.Proofs.Decoding
import LoxLexer.Proofs.Session
import LoxLexer.Proofs.LineByLine
import LoxLexer.Proofs.Settings
import LoxLexer.Proofs.Logging
import LoxLexer.Proofs.Magnitudes
import LoxLexer.Proofs.Nearest
import LoxLexer.Proofs.Numerals
import LoxLexer.Proofs.Notation
import LoxLexer.Proofs.ShortestDigits
import LoxLexer.Proofs.ReadBack
import LoxLexer.Proofs.Records
import LoxLexer.Proofs.Acceptance
import LoxLexer.Proofs.Exits
import LoxLexer.Proofs.LineEnds
import LoxLexer.Cursor
import LoxLexer.Proofs.Boundaries
import LoxLexer.Proofs.Calls
import LoxLexer.Proofs.CursorSafety

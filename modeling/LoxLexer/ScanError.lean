import LoxLexer.Text

/-!
What stops a scan, and the line that reports it.
-/

namespace LoxLexer

/-- A lexical error. -/
inductive ScanError where
  | unexpectedCharacter (line : Nat) (character : Char)
  | unterminatedString (line : Nat)
deriving DecidableEq

namespace ScanError

/-- The line of an unexpected character, and the last line of a text that leaves a string open. -/
def line : ScanError → Nat
  | .unexpectedCharacter line _ => line
  | .unterminatedString line => line

def message : ScanError → Text
  | .unexpectedCharacter .. => "Unexpected character.".toList
  | .unterminatedString _ => "Unterminated string.".toList

/-- The diagnostic: `[line N] Error: message`. -/
def report (error : ScanError) : Text :=
  "[line ".toList ++ Text.ofNat error.line ++ "] Error: ".toList ++ error.message

end ScanError
end LoxLexer

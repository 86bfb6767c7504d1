import LoxLexer.Lexeme
import LoxLexer.ScanError
import LoxLexer.Token

/-!
Scanning a text: lexemes are cut off its front until nothing is left or no lexeme can be cut. A scan
keeps the tokens found also when it fails, and the position where it stopped: the end of the text, or
the beginning of the lexeme that failed.
-/

namespace LoxLexer

/-- A place in a source: the bytes before it, and the line it is on, counted from 1. -/
structure Position where
  offset : Nat
  line : Nat
deriving DecidableEq

namespace Position

/-- The beginning of a source. -/
def start : Position := ⟨0, 1⟩

/-- The place after some text that begins here. -/
def after (position : Position) (text : Text) : Position :=
  ⟨position.offset + text.byteSize, position.line + text.lineBreaks⟩

end Position

/-- How far a scan came. -/
structure Scan where
  tokens : List SourceToken
  stop : Position
  error : Option ScanError
deriving DecidableEq

namespace Scan

/-- The token that a lexeme of some kind makes. It is on the line where the lexeme ends. -/
def tokenAt (position : Position) (kind : Kind) (lexeme : Text) : SourceToken where
  kind := kind
  lexeme := lexeme
  literal := Literal.ofLexeme? kind lexeme
  line := (position.after lexeme).line
  start := position.offset

/-- The token of a cut, unless the lexeme stands between tokens. -/
def tokenOf? (position : Position) (cut : Cut) : Option SourceToken :=
  cut.kind.map fun kind => tokenAt position kind cut.lexeme

/-- The error of a text that has no first lexeme. A string left open is noticed at the end. -/
def errorAt (position : Position) (text : Text) : Fault → ScanError
  | .foreign c => .unexpectedCharacter position.line c
  | .unterminated => .unterminatedString (position.after text).line

/-- Scan the text that begins at a position; `found` are the tokens before it, the latest first. -/
def run (config : Config) (found : List SourceToken) (position : Position) : Text → Scan
  | [] => ⟨found.reverse, position, none⟩
  | c :: cs =>
    match _cutting : Cut.first config c cs with
    | .error fault => ⟨found.reverse, position, some (errorAt position (c :: cs) fault)⟩
    | .ok cut =>
      run config ((tokenOf? position cut).toList ++ found) (position.after cut.lexeme) cut.rest
termination_by text => text.length
decreasing_by exact Nat.lt_succ_of_le (Cut.first_rest_le _cutting)

@[simp] theorem run_nil (config : Config) (found : List SourceToken) (position : Position) :
    run config found position [] = ⟨found.reverse, position, none⟩ := by
  rw [run]

theorem run_of_error {config : Config} {c : Char} {cs : Text} {fault : Fault}
    (failed : Cut.first config c cs = .error fault) (found : List SourceToken) (position : Position) :
    run config found position (c :: cs) =
      ⟨found.reverse, position, some (errorAt position (c :: cs) fault)⟩ := by
  rw [run]
  split <;> simp_all

theorem run_of_ok {config : Config} {c : Char} {cs : Text} {cut : Cut}
    (cutting : Cut.first config c cs = .ok cut) (found : List SourceToken) (position : Position) :
    run config found position (c :: cs) =
      run config ((tokenOf? position cut).toList ++ found) (position.after cut.lexeme) cut.rest := by
  rw [run]
  split <;> simp_all

/-- Tokens found before only stand in front. -/
theorem run_found (config : Config) (found : List SourceToken) (position : Position) (text : Text) :
    run config found position text =
      { run config [] position text with
        tokens := found.reverse ++ (run config [] position text).tokens } :=
  match text with
  | [] => by simp
  | c :: cs => by
    cases cutting : Cut.first config c cs with
    | error fault => simp [run_of_error cutting]
    | ok cut =>
      have shorter := Cut.first_rest_le cutting
      rw [run_of_ok cutting, run_of_ok cutting, run_found config _ _ cut.rest,
        run_found config ((tokenOf? position cut).toList ++ []) _ cut.rest]
      simp
termination_by text.length

/-- Scan a whole text. -/
def ofText (config : Config) (text : Text) : Scan := run config [] .start text

/-- The tokens of a scan that came to the end, or the error that stopped it. -/
def result (scan : Scan) : Except ScanError (List SourceToken) :=
  match scan.error with
  | none => .ok scan.tokens
  | some error => .error error

end Scan
end LoxLexer

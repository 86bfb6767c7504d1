import LoxLexer.Kind

/-!
The part that a character plays at the front of a lexeme. Only ASCII characters begin one.
-/

namespace LoxLexer

/-- What a lexeme may be, judged by its first character. -/
inductive CharClass where
  /-- A token by itself. -/
  | punctuation (kind : Kind)
  /-- One kind alone and another with `=` behind it. -/
  | operator (alone paired : Kind)
  /-- Division, or the first half of what opens a comment. -/
  | slash
  | blank
  | newline
  | quote
  | digit
  | letter
  /-- No lexeme begins here. -/
  | foreign
deriving DecidableEq

namespace CharClass

/-- The characters that begin a word: ASCII letters and the underscore. -/
def isLetter (c : Char) : Bool := c.isAlpha || c = '_'

/-- The characters that a word goes on with. -/
def isWordChar (c : Char) : Bool := isLetter c || c.isDigit

/-- The class of a character. -/
def of (c : Char) : CharClass :=
  match c with
  | '(' => .punctuation .leftParen
  | ')' => .punctuation .rightParen
  | '\x7b' => .punctuation .leftBrace
  | '\x7d' => .punctuation .rightBrace
  | ',' => .punctuation .comma
  | '.' => .punctuation .dot
  | '-' => .punctuation .minus
  | '+' => .punctuation .plus
  | ';' => .punctuation .semicolon
  | '*' => .punctuation .star
  | '!' => .operator .bang .bangEqual
  | '=' => .operator .equal .equalEqual
  | '<' => .operator .less .lessEqual
  | '>' => .operator .greater .greaterEqual
  | '/' => .slash
  | ' ' => .blank
  | '\r' => .blank
  | '\t' => .blank
  | '\n' => .newline
  | '"' => .quote
  | c => if c.isDigit then .digit else if isLetter c then .letter else .foreign

end CharClass
end LoxLexer

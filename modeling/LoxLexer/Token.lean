import LoxLexer.Kind
import LoxLexer.Shortest

/-!
Tokens, the literals that strings and numbers carry, and how both are printed and compared.
-/

namespace LoxLexer

/-- The value of a literal token. -/
inductive Literal where
  | string (value : Text)
  | number (value : Binary64)
deriving DecidableEq

namespace Literal

/-- The printed value; a string is printed raw, without quotes. -/
def text : Literal → Text
  | .string value => value
  | .number value => value.text

/-- Strings are equal by characters, numbers as numbers. -/
def equal : Literal → Literal → Bool
  | .string left, .string right => left = right
  | .number left, .number right => left.equal right
  | _, _ => false

/-- An absent literal equals only an absent one. -/
def equal? : Option Literal → Option Literal → Bool
  | none, none => true
  | some left, some right => left.equal right
  | _, _ => false

/-- The literal that a lexeme of some kind stands for: the text between the quotes of a string, the
    value of a numeral, and nothing for every other kind. -/
def ofLexeme? (kind : Kind) (lexeme : Text) : Option Literal :=
  match kind with
  | .string => some (.string (lexeme.drop 1).dropLast)
  | .number => some (.number (.ofNumeral lexeme))
  | _ => none

end Literal

/-- A token on a line. Nothing ties the lexeme and the literal of a free-standing token to its kind. -/
structure Token where
  kind : Kind
  lexeme : Text
  literal : Option Literal
  line : Nat
deriving DecidableEq

namespace Token

/-- The printed token: kind, lexeme and literal, with `null` for an absent literal. -/
def text (token : Token) : Text :=
  token.kind.text ++ ' ' :: token.lexeme ++
    ' ' :: ((token.literal.map Literal.text).getD "null".toList)

/-- The printed token after its line. -/
def record (token : Token) : Text := Text.ofNat token.line ++ ' ' :: token.text

/-- Equality of kind, lexeme, literal and line. -/
def equal (left right : Token) : Bool :=
  left.kind = right.kind && left.lexeme = right.lexeme &&
    Literal.equal? left.literal right.literal && left.line = right.line

end Token

/-- A token together with the offset of its lexeme in the source. -/
structure SourceToken extends Token where
  start : Nat
deriving DecidableEq

end LoxLexer

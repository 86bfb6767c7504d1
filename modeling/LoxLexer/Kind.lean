import LoxLexer.Text

/-!
The kinds of token, their names and their numeric codes. A kind's code is its place in `Kind.all`,
so each kind has one code and the codes 0 to 37 are exactly the ones in use.
-/

namespace LoxLexer

/-- The reserved words. -/
inductive Keyword where
  | and | «class» | «else» | false | «for» | «fun» | «if» | nil
  | or | print | «return» | super | «this» | true | var | «while»
deriving DecidableEq

namespace Keyword

/-- All reserved words, in the order of their codes. -/
def all : List Keyword :=
  [.and, .«class», .«else», .false, .«for», .«fun», .«if», .nil,
    .or, .print, .«return», .super, .«this», .true, .var, .«while»]

/-- The spelling in a source. -/
def spelling : Keyword → String
  | .and => "and"
  | .«class» => "class"
  | .«else» => "else"
  | .false => "false"
  | .«for» => "for"
  | .«fun» => "fun"
  | .«if» => "if"
  | .nil => "nil"
  | .or => "or"
  | .print => "print"
  | .«return» => "return"
  | .super => "super"
  | .«this» => "this"
  | .true => "true"
  | .var => "var"
  | .«while» => "while"

/-- The characters of the spelling. -/
def word (keyword : Keyword) : Text := keyword.spelling.toList

/-- The reserved word that a whole word is, if it is one. Case matters. -/
def ofWord? (text : Text) : Option Keyword := all.find? (·.word = text)

theorem mem_all (keyword : Keyword) : keyword ∈ all := by cases keyword <;> decide

end Keyword

/-- What a token is. -/
inductive Kind where
  | leftParen | rightParen | leftBrace | rightBrace
  | comma | dot | minus | plus | semicolon | slash | star
  | bang | bangEqual | equal | equalEqual
  | greater | greaterEqual | less | lessEqual
  | identifier | string | number
  | keyword (word : Keyword)
deriving DecidableEq

namespace Kind

/-- All kinds, in the order of their codes. -/
def all : List Kind :=
  [.leftParen, .rightParen, .leftBrace, .rightBrace, .comma, .dot, .minus, .plus, .semicolon,
    .slash, .star, .bang, .bangEqual, .equal, .equalEqual, .greater, .greaterEqual, .less,
    .lessEqual, .identifier, .string, .number] ++ Keyword.all.map .keyword

/-- The number that stands for this kind where kinds are stored compactly. -/
def code (kind : Kind) : Nat := all.idxOf kind

/-- The kind that a number stands for, if any does. -/
def ofCode? (code : Nat) : Option Kind := all[code]?

/-- The name that is printed for a kind. -/
def name : Kind → String
  | .leftParen => "LEFT_PAREN"
  | .rightParen => "RIGHT_PAREN"
  | .leftBrace => "LEFT_BRACE"
  | .rightBrace => "RIGHT_BRACE"
  | .comma => "COMMA"
  | .dot => "DOT"
  | .minus => "MINUS"
  | .plus => "PLUS"
  | .semicolon => "SEMICOLON"
  | .slash => "SLASH"
  | .star => "STAR"
  | .bang => "BANG"
  | .bangEqual => "BANG_EQUAL"
  | .equal => "EQUAL"
  | .equalEqual => "EQUAL_EQUAL"
  | .greater => "GREATER"
  | .greaterEqual => "GREATER_EQUAL"
  | .less => "LESS"
  | .lessEqual => "LESS_EQUAL"
  | .identifier => "IDENTIFIER"
  | .string => "STRING"
  | .number => "NUMBER"
  | .keyword .and => "AND"
  | .keyword .«class» => "CLASS"
  | .keyword .«else» => "ELSE"
  | .keyword .false => "FALSE"
  | .keyword .«for» => "FOR"
  | .keyword .«fun» => "FUN"
  | .keyword .«if» => "IF"
  | .keyword .nil => "NIL"
  | .keyword .or => "OR"
  | .keyword .print => "PRINT"
  | .keyword .«return» => "RETURN"
  | .keyword .super => "SUPER"
  | .keyword .«this» => "THIS"
  | .keyword .true => "TRUE"
  | .keyword .var => "VAR"
  | .keyword .«while» => "WHILE"

/-- The characters of the name. -/
def text (kind : Kind) : Text := kind.name.toList

/-- The kind of a whole word: its reserved word, and `identifier` for every other word. -/
def ofWord (word : Text) : Kind := ((Keyword.ofWord? word).map .keyword).getD .identifier

theorem mem_all (kind : Kind) : kind ∈ all := by
  cases kind with
  | keyword word => cases word <;> decide
  | _ => decide

/-- Reading a kind's code gives the kind back, so no two kinds share a code. -/
@[simp] theorem ofCode?_code (kind : Kind) : ofCode? kind.code = some kind := by
  cases kind with
  | keyword word => cases word <;> rfl
  | _ => rfl

end Kind
end LoxLexer

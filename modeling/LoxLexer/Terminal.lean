import LoxLexer.Text

/-!
What remains of a text when the control sequences of a terminal are taken out. A sequence begins with
an escape character and swallows what belongs to it; other control characters vanish by themselves.
Tabs, line breaks and form feeds are kept, also in the middle of a sequence that would act on them at
once, and what follows them is then shown until the next control character.
-/

namespace LoxLexer.Terminal

/-- How far a control sequence has come. -/
inductive Sequence where
  /-- No sequence is open. -/
  | ground
  | escape
  | escapeIntermediate
  /-- A control sequence proper, which a letter ends. -/
  | control
  | deviceEntry
  | deviceParameter
  | deviceIntermediate
  /-- A string that only a string terminator or a new sequence ends. -/
  | string
  /-- A command to the operating system, which a bell ends as well. -/
  | command
deriving DecidableEq

namespace Sequence

/-- Whether control characters act at once, without leaving the sequence. -/
def acts : Sequence → Bool
  | .ground => true
  | .escape => true
  | .escapeIntermediate => true
  | .control => true
  | _ => false

/-- The sequence after a printable ASCII character that belongs to it. -/
def afterPrintable (sequence : Sequence) (c : Char) : Sequence :=
  match sequence with
  | .ground => .ground
  | .escape =>
    if c < '0' then .escapeIntermediate
    else
      match c with
      | '[' => .control
      | ']' => .command
      | 'P' => .deviceEntry
      | 'X' => .string
      | '^' => .string
      | '_' => .string
      | _ => .ground
  | .escapeIntermediate => if c < '0' then .escapeIntermediate else .ground
  | .control => if c < '@' then .control else .ground
  | .deviceEntry =>
    if c < '0' then .deviceIntermediate else if c < '@' then .deviceParameter else .string
  | .deviceParameter =>
    if c < '0' then .deviceIntermediate else if c < '<' then .deviceParameter else .string
  | .deviceIntermediate => if c < '0' then .deviceIntermediate else .string
  | .string => .string
  | .command => .command

/-- The sequence after a character that is not shown. The byte `9C` ends a string also where it is
    part of a character. -/
def after (sequence : Sequence) (c : Char) : Sequence :=
  if c = '\x1b' then .escape
  else if c = '\x18' ∨ c = '\x1a' then .ground
  else if sequence = .command ∧ c = '\x07' then .ground
  else if ' ' ≤ c ∧ c ≤ '~' then sequence.afterPrintable c
  else if sequence = .string ∧ (String.utf8EncodeChar c).contains 0x9C then .ground
  else sequence

end Sequence

/-- The control characters that are kept. -/
def isKept (c : Char) : Bool := c = '\t' || c = '\n' || c = '\x0c' || c = '\r'

/-- The characters with a shape of their own. -/
def isGraphic (c : Char) : Bool := (' ' ≤ c && c ≤ '~') || '\x80' ≤ c

/-- What is shown from some point of a text on. `interrupted` says that a kept control character has
    set the open sequence aside. -/
def shownFrom (sequence : Sequence) (interrupted : Bool) : Text → Text
  | [] => []
  | c :: text =>
    if isKept c && sequence.acts then c :: shownFrom sequence true text
    else if isGraphic c && (interrupted || sequence = .ground) then
      c :: shownFrom (if '\x80' ≤ c then .ground else sequence) interrupted text
    else shownFrom (sequence.after c) false text

/-- What is shown of a text. -/
def shown (text : Text) : Text := shownFrom .ground false text

end LoxLexer.Terminal

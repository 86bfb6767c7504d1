import LoxLexer.Program
import LoxLexer.Terminal

/-!
The reader of the command's arguments: at most one script, a flag for the shortcut, and a request for
help.
-/

namespace LoxLexer

/-- Why arguments are refused. -/
inductive UsageError where
  | repeatedShortcut
  | unexpectedValue (option value : Text)
  | unexpectedArgument (argument : Text)
  | emptyScript
deriving DecidableEq

namespace UsageError

/-- The sentence that says what is wrong. Arguments appear in it as a terminal shows them. -/
def sentence : UsageError → Text
  | .repeatedShortcut =>
    "error: the argument '--or-shortcut' cannot be used multiple times".toList
  | .unexpectedValue option value =>
    "error: unexpected value '".toList ++ Terminal.shown value ++ "' for '".toList ++ option ++
      "' found; no more were expected".toList
  | .unexpectedArgument argument =>
    "error: unexpected argument '".toList ++ Terminal.shown argument ++ "' found".toList
  | .emptyScript => "error: a value is required for '[SCRIPT]' but none was supplied".toList

/-- The message: no more than the first line of the sentence, which an argument may break. -/
def message (error : UsageError) : Text := error.sentence.firstLine

/-- What is said where arguments are refused. -/
def refuse {α : Type} (error : UsageError) : Except Notice α := .error ⟨true, error.message⟩

end UsageError

/-- The answer to a request for help. -/
def helpText : Text := "Scan Lox source and print its tokens

Usage: lox [OPTIONS] [SCRIPT]

Arguments:
  [SCRIPT]  Script to scan. Starts an interactive prompt when omitted

Options:
      --or-shortcut  Emit OR for any lowercase `o` directly followed by `r`
  -h, --help         Print help
".toList

/-- The form of one argument before `--`. -/
inductive Argument where
  | endOfOptions
  /-- Two dashes, a name, and a value if there is an equals sign. -/
  | long (name : Text) (value : Option Text)
  /-- One dash and at least one letter; only the first matters. -/
  | short (letter : Char)
  | positional
deriving DecidableEq

/-- The form of an argument; a single dash is positional. -/
def Argument.of : Text → Argument
  | ['-', '-'] => .endOfOptions
  | '-' :: '-' :: body =>
    .long (body.takeWhile (· ≠ '=')) ((body.dropWhile (· ≠ '=')).tail?)
  | '-' :: letter :: _ => .short letter
  | _ => .positional

namespace Progress

/-- An empty script is noticed when the next flag or the end of the arguments is reached. -/
def settle {α : Type} (progress : Progress) (result : Except Notice α) : Except Notice α :=
  if progress.script = some [] then UsageError.refuse .emptyScript else result

/-- Take a positional argument. -/
def withScript (progress : Progress) (argument : Text) : Except Notice Progress :=
  match progress.script with
  | none => .ok { progress with script := some argument }
  | some _ => UsageError.refuse (.unexpectedArgument argument)

/-- Take an argument that may be an option. -/
def withAny (progress : Progress) (argument : Text) : Except Notice Progress :=
  match Argument.of argument with
  | .endOfOptions => .ok { progress with ended := true }
  | .long name value =>
    let option := '-' :: '-' :: name
    if option = "--or-shortcut".toList ∨ option = "--help".toList then
      match value with
      | some value => UsageError.refuse (.unexpectedValue option value)
      | none =>
        if option = "--help".toList then progress.settle (.error ⟨false, helpText⟩)
        else if progress.orShortcut then progress.settle (UsageError.refuse .repeatedShortcut)
        else progress.settle (.ok { progress with orShortcut := true })
    else UsageError.refuse (.unexpectedArgument option)
  | .short letter =>
    if letter = 'h' then progress.settle (.error ⟨false, helpText⟩)
    else UsageError.refuse (.unexpectedArgument ['-', letter])
  | .positional => progress.withScript argument

end Progress

def argumentParser : ArgumentParser where
  step progress argument := if progress.ended then progress.withScript argument else progress.withAny argument
  finish progress := progress.settle (.ok progress.toRequest)

/-- What the arguments come to. -/
def argumentReader : ArgumentReader := argumentParser.reader

end LoxLexer

import LoxLexer.Pattern
import LoxLexer.Program

/-!
The reader of the command's setting of the log. A setting is a list of directives with commas between
them. A directive sets a level, for all entries or for those with some target or field, and of those that
concern an entry the most specific decides.
-/

namespace LoxLexer

/-- A rule on the entries whose target begins with the given one and which have the given field. -/
structure Directive where
  target : Text := []
  field : Option Text := none
  /-- It concerns only what happens within spans that fit. No span is ever opened, so it concerns
      no entry. -/
  spans : Bool := false
  /-- The most talkative level that it shows; `0` shows nothing. -/
  verbosity : Nat
deriving DecidableEq

namespace Directive

/-- Whether a directive has a say on an entry. -/
def concerns (directive : Directive) (entry : Entry) : Bool :=
  !directive.spans && directive.target.isPrefixOf entry.target &&
    directive.field.all entry.hasField

/-- A longer target is more specific, then a field is more specific than none; of two fields the
    later in alphabetical order counts. -/
def outranks (left right : Directive) : Bool :=
  right.target.byteSize < left.target.byteSize ||
    (left.target.byteSize = right.target.byteSize &&
      match left.field, right.field with
      | some left, some right => right < left
      | some _, none => true
      | none, _ => false)

/-- Words for levels, the quietest first. -/
def levelWords : List String := ["off", "error", "warn", "info", "debug", "trace"]

/-- The verbosity that a word sets, in letters of either case, or a number up to `5`, which may have
    a plus sign. -/
def verbosity? (word : Text) : Option Nat :=
  let digits := if word.head? = some '+' then word.drop 1 else word
  if ¬ digits.isEmpty ∧ digits.all Char.isDigit then
    let number := Nat.ofDigitChars 10 digits 0
    if number ≤ 5 then some number else none
  else levelWords.findIdx? (fun level => level.toList = word.map Char.toLower)

/-- Whether a value is a number with a plus sign; any other number is a pattern as well. -/
def isSigned (value : Text) : Bool :=
  match value with
  | '+' :: number =>
    let whole := number.takeWhile Char.isDigit
    let rest := number.dropWhile Char.isDigit
    let fraction := if rest.head? = some '.' then (rest.drop 1).takeWhile Char.isDigit else []
    let rest := if rest.head? = some '.' then (rest.drop 1).dropWhile Char.isDigit else rest
    let exponent := match rest with
      | [] => true
      | e :: '+' :: digits => e.toLower = 'e' && !digits.isEmpty && digits.all Char.isDigit
      | e :: '-' :: digits => e.toLower = 'e' && !digits.isEmpty && digits.all Char.isDigit
      | e :: digits => e.toLower = 'e' && !digits.isEmpty && digits.all Char.isDigit
    let word := number.map Char.toLower
    word = "inf".toList || word = "infinity".toList || word = "nan".toList ||
      (!(whole ++ fraction).isEmpty && exponent)
  | _ => false

/-- The field of a directive. One whose value has to fit concerns spans only. -/
def withField? (directive : Directive) (field : Text) : Option Directive :=
  let name := field.takeWhile (· ≠ '=')
  match field.dropWhile (· ≠ '=') with
  | [] => if field.isEmpty then none else some { directive with field := some name }
  | _ :: rest =>
    let value := rest.takeWhile (· ≠ '=')
    if isSigned value || Pattern.isWellFormed value then
      some { directive with field := some name, spans := true }
    else none

/-- The end of a directive: nothing, or an equals sign and a level, which may be left out. -/
def withLevel? (directive : Directive) (setting : Text) (offset : Nat) : Text → Option Directive
  | [] => some directive
  | '=' :: _ =>
    match setting.dropBytes (offset + 1) with
    | [] => some directive
    | word => (verbosity? word).map fun verbosity => { directive with verbosity }
  | _ => none

/-- What follows an opening bracket: the name of a span, a field in braces or both. -/
def withSpan? (directive : Directive) (setting : Text) (offset : Nat) (text : Text) :
    Option Directive :=
  let name : Text := text.takeWhile (fun c => c ≠ ']' ∧ c ≠ '\x7b')
  let ending := offset + name.byteSize
  match text.dropWhile (fun c => c ≠ ']' ∧ c ≠ '\x7b') with
  | ']' :: rest => { directive with spans := true }.withLevel? setting (ending + 1) rest
  | '\x7b' :: text =>
    let field : Text := text.takeWhile (· ≠ '\x7d')
    let closing := ending + 1 + field.byteSize
    match text.dropWhile (· ≠ '\x7d') with
    | _ :: ']' :: rest => do
      let named := { directive with spans := setting.between offset ending ≠ [] }
      let directive ← named.withField? (setting.between (ending + 1) closing)
      directive.withLevel? setting (closing + 2) rest
    | _ => none
  | _ => none

/-- Read a directive. Its parts are found in the setting without the blanks around it, and then taken
    at the same offsets from the setting as it stands. A word that is no level is a target, and a
    directive without a level shows everything. -/
def parse? (setting : Text) : Option Directive :=
  match setting.trim with
  | [] => none
  | '[' :: text => { verbosity := Level.trace.verbosity : Directive }.withSpan? setting 1 text
  | c :: text =>
    if c ∈ ['-', ':', '_'] ∨ Alphanumeric.contains c then
      let name : Text := (c :: text).takeWhile (fun c => c ≠ '=' ∧ c ≠ '[')
      let directive : Directive :=
        { target := setting.takeBytes name.byteSize, verbosity := Level.trace.verbosity }
      match (c :: text).dropWhile (fun c => c ≠ '=' ∧ c ≠ '[') with
      | [] =>
        match verbosity? setting with
        | some verbosity => some { verbosity }
        | none => some { directive with target := setting }
      | '[' :: text => directive.withSpan? setting (name.byteSize + 1) text
      | ending => directive.withLevel? setting name.byteSize ending
    else none

end Directive

/-- Which entries are shown. -/
structure Filter where
  directives : List Directive
deriving DecidableEq

namespace Filter

/-- The directive that decides on an entry: the most specific that concerns it, and of equals the
    last. -/
def deciding (filter : Filter) (entry : Entry) : Option Directive :=
  (filter.directives.filter (·.concerns entry)).foldl
    (fun best directive =>
      match best with
      | some best => if best.outranks directive then some best else some directive
      | none => some directive)
    none

/-- Whether an entry is shown. One that no directive concerns is not. -/
def admits (filter : Filter) (entry : Entry) : Bool :=
  (filter.deciding entry).any fun directive => entry.level.verbosity ≤ directive.verbosity

/-- The filter of a setting, if every directive makes sense. -/
def parse? (setting : Text) : Option Filter :=
  (((setting.splitOn ',').filter (· ≠ [])).mapM Directive.parse?).map Filter.mk

/-- The filter of those directives that make sense. -/
def parse (setting : Text) : Filter :=
  ⟨((setting.splitOn ',').filter (· ≠ [])).filterMap Directive.parse?⟩

end Filter

/-- What the command's settings mean. -/
def filterReader : FilterReader where
  strict setting := (Filter.parse? setting).map Filter.admits
  lenient setting := (Filter.parse setting).admits

end LoxLexer

import LoxLexer.Trace
import LoxLexer.Utf8

/-!
Scanning by a cursor over the bytes of a source. A step looks at single bytes and moves the cursor by at
most one of them, so within strings and comments it also comes to stand between the bytes of one
character; text is read off as the slice between two offsets. What an offset or a slice could do wrong
is a trap, apart from the errors that a source can have.
-/

namespace LoxLexer

/-- What stops a scan although nothing is wrong with its source. -/
inductive Trap where
  /-- No byte stands at the offset. -/
  | index (offset : Nat)
  /-- There is no text between the offsets: they are crossed, or one of them is behind the end or within
      a character. -/
  | slice (first last : Nat)
  /-- The text is no numeral. -/
  | numeral (text : Text)
deriving DecidableEq

namespace Utf8

/-- Whether an offset is the end, or the first byte of a character stands there. -/
def isBoundary (source : Bytes) (offset : Nat) : Bool :=
  offset = source.length || source[offset]?.any fun b => b.IsUTF8FirstByte

/-- The text between two offsets. -/
def slice (source : Bytes) (first last : Nat) : Except Trap Text :=
  if first ≤ last ∧ isBoundary source first ∧ isBoundary source last then
    .ok (decode ((source.drop first).take (last - first)))
  else .error (.slice first last)

end Utf8

namespace Decimal

/-- Digits, and if a point follows them, digits behind it too. -/
def isNumeral (text : Text) : Bool :=
  !(text.takeWhile Char.isDigit).isEmpty &&
    match text.dropWhile Char.isDigit with
    | [] => true
    | '.' :: places => !places.isEmpty && places.all Char.isDigit
    | _ => false

end Decimal

/-- The number that a numeral stands for; no other text is decoded. -/
def Binary64.decode (text : Text) : Except Trap Binary64 :=
  if Decimal.isNumeral text then .ok (.ofNumeral text) else .error (.numeral text)

/-- What a scan has brought so far: its tokens, and what it has made known, the latest first. -/
structure Output where
  tokens : List SourceToken
  events : List Event
deriving DecidableEq

/-- Add a token, and make it known. -/
def Output.push (output : Output) (token : SourceToken) : Output :=
  ⟨token :: output.tokens, .found token.toToken :: output.events⟩

/-- How far a scan has come: where the lexeme begins that is being read, the next byte that is not taken,
    the line, and what it has brought. -/
structure Cursor where
  start : Nat
  current : Nat
  line : Nat
  output : Output
deriving DecidableEq

/-- What comes next in the call that reads one lexeme. -/
inductive Task where
  /-- Take the first byte. -/
  | first
  /-- Go on as the first byte says. -/
  | choose (b : UInt8)
  /-- Pass over a comment. -/
  | comment
  /-- Look for the closing quote. -/
  | string
  /-- Read off what stands between the quotes, both taken. -/
  | quoted
  /-- Take the digits of a number. -/
  | whole
  /-- Take the digits behind its point. -/
  | places
  /-- Decode the number that was taken. -/
  | numeral
  /-- Take the characters of a word. -/
  | word
  /-- Make a token of what was taken. -/
  | token (kind : Kind)
  /-- Report the character that begins no lexeme. -/
  | refuse
deriving DecidableEq

/-- Where a step leads: on to the next one, or out of the call, with the cursor that the next call begins
    with or with an error. -/
inductive Step where
  | on (task : Task) (cursor : Cursor)
  | out (outcome : Except ScanError Cursor)

namespace Cursor
open Utf8

/-- The beginning of a source, which makes known that its scan starts. -/
def origin (source : Bytes) : Cursor := ⟨0, 0, 1, ⟨[], [.started source.length]⟩⟩

/-- One byte on. -/
def advance (cursor : Cursor) : Cursor := { cursor with current := cursor.current + 1 }

/-- Onto the next line. -/
def newline (cursor : Cursor) : Cursor := { cursor with line := cursor.line + 1 }

/-- A byte as the character with its number. No lexeme depends on a character from `80` on. -/
def character (b : UInt8) : Char := .ofNat b.toNat

/-- Whether a byte of some kind stands at an offset; behind the end stands none. -/
def sees (source : Bytes) (offset : Nat) (kind : Char → Bool) : Bool :=
  source[offset]?.any fun b => kind (character b)

/-- Add a token of what was taken. -/
def push (source : Bytes) (kind : Kind) (literal : Option Literal) (cursor : Cursor) : Except Trap Step := do
  let lexeme ← slice source cursor.start cursor.current
  let token : SourceToken := ⟨⟨kind, lexeme, literal, cursor.line⟩, cursor.start⟩
  return .out (.ok { cursor with output := cursor.output.push token })

/-- How a lexeme goes on that begins with some byte, which is taken. -/
def choose (config : Config) (source : Bytes) (b : UInt8) (cursor : Cursor) : Step :=
  match CharClass.of (character b) with
  | .punctuation kind => .on (.token kind) cursor
  | .operator alone paired =>
    if sees source cursor.current (· = '=') then .on (.token paired) cursor.advance
    else .on (.token alone) cursor
  | .slash =>
    if sees source cursor.current (· = '/') then .on .comment cursor.advance
    else .on (.token .slash) cursor
  | .blank => .out (.ok cursor)
  | .newline => .out (.ok cursor.newline)
  | .quote => .on .string cursor
  | .digit => .on .whole cursor
  | .letter =>
    if config.orShortcut ∧ character b = 'o' ∧ sees source cursor.current (· = 'r') then
      .on (.token (.keyword .or)) cursor
    else .on .word cursor
  | .foreign => .on .refuse cursor

/-- One step of a call. -/
def step (config : Config) (source : Bytes) : Task → Cursor → Except Trap Step
  | .first, cursor =>
    match source[cursor.current]? with
    | some b => .ok (.on (.choose b) cursor.advance)
    | none => .error (.index cursor.current)
  | .choose b, cursor => .ok (choose config source b cursor)
  | .comment, cursor =>
    if sees source cursor.current (· ≠ '\n') then .ok (.on .comment cursor.advance)
    else .ok (.out (.ok cursor))
  | .string, cursor =>
    match source[cursor.current]? with
    | none => .ok (.out (.error (.unterminatedString cursor.line)))
    | some b =>
      if character b = '"' then .ok (.on .quoted cursor.advance)
      else if character b = '\n' then .ok (.on .string cursor.newline.advance)
      else .ok (.on .string cursor.advance)
  | .quoted, cursor => do
    let value ← slice source (cursor.start + 1) (cursor.current - 1)
    push source .string (some (.string value)) cursor
  | .whole, cursor =>
    if sees source cursor.current Char.isDigit then .ok (.on .whole cursor.advance)
    else if sees source cursor.current (· = '.') ∧ sees source (cursor.current + 1) Char.isDigit then
      .ok (.on .places cursor.advance)
    else .ok (.on .numeral cursor)
  | .places, cursor =>
    if sees source cursor.current Char.isDigit then .ok (.on .places cursor.advance)
    else .ok (.on .numeral cursor)
  | .numeral, cursor => do
    let lexeme ← slice source cursor.start cursor.current
    let value ← Binary64.decode lexeme
    push source .number (some (.number value)) cursor
  | .word, cursor =>
    if sees source cursor.current CharClass.isWordChar then .ok (.on .word cursor.advance)
    else do
      let lexeme ← slice source cursor.start cursor.current
      return .on (.token (.ofWord lexeme)) cursor
  | .token kind, cursor => push source kind none cursor
  | .refuse, cursor => do
    let tail ← slice source cursor.start source.length
    return .out (.error (.unexpectedCharacter cursor.line (tail.head?.getD replacement)))

/-- What a call comes through that begins where a cursor stands. -/
inductive Visits (config : Config) (source : Bytes) (head : Cursor) : Task → Cursor → Prop
  | first : Visits config source head .first { head with start := head.current }
  | later {task cursor next moved} : Visits config source head task cursor →
      step config source task cursor = .ok (.on next moved) → Visits config source head next moved

/-- How a call ends. -/
def Ends (config : Config) (source : Bytes) (head : Cursor) (outcome : Except ScanError Cursor) : Prop :=
  ∃ task cursor, Visits config source head task cursor ∧ step config source task cursor = .ok (.out outcome)

/-- Where a scan stands between its calls, with the number of calls before. It goes on while bytes are
    left. -/
inductive Reaches (config : Config) (source : Bytes) : Nat → Cursor → Prop
  | origin : Reaches config source 0 (.origin source)
  | call {calls head next} : Reaches config source calls head → head.current < source.length →
      Ends config source head (.ok next) → Reaches config source (calls + 1) next

/-- How a scan ends after some calls: with no bytes left, or with the error of the last call. The cursor is the one
    that the last call left, or began with. The end is made known as well, behind all else; the events are in order. -/
inductive Finishes (config : Config) (source : Bytes) : Nat → Cursor → Option ScanError → List Event → Prop
  | done {calls last} : Reaches config source calls last → source.length ≤ last.current →
      Finishes config source calls last none
        (.finished last.output.tokens.length last.line :: last.output.events).reverse
  | failed {calls last error} : Reaches config source calls last → last.current < source.length →
      Ends config source last (.error error) →
      Finishes config source (calls + 1) last (some error)
        (.aborted error last.output.tokens.length :: last.output.events).reverse

end Cursor
end LoxLexer

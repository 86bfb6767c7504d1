import LoxLexer.Alphanumeric
import LoxLexer.Text

/-!
Whether a text is a regular expression: alternatives, groups with names or flags, repetition by `*`,
`+` and `?`, bracketed classes with ranges, nested classes and set operations, escapes, and a limit
on nesting. Counted repetition is left out, so an opening brace stands only inside a class or
escaped. So is whatever takes tables of characters: as long as characters are those of Unicode there
are no classes named by a letter, no word boundaries, and no folding of letters.
-/

namespace LoxLexer.Pattern

/-- What the flags of groups change. -/
structure Flags where
  /-- Letters of either case stand for one another. -/
  fold : Bool := false
  /-- Characters are those of Unicode, and not those of ASCII. -/
  unicode : Bool := true
  /-- Blanks and comments between symbols do not count. -/
  spaced : Bool := false

namespace Flags

/-- The letters of all flags, and the dash that switches off what follows it. -/
def letters : List Char := ['i', 'm', 's', 'U', 'u', 'R', 'x', '-']

/-- The flags after some letters, of which none occurs twice. -/
def set (flags : Flags) (letters : List Char) : Flags :=
  let switched (letter : Char) (before : Bool) : Bool :=
    if letter ∈ letters.takeWhile (· ≠ '-') then true else before && letter ∉ letters
  ⟨switched 'i' flags.fold, switched 'u' flags.unicode, switched 'x' flags.spaced⟩

end Flags

/-- A part of a pattern that stands for itself or for a place. -/
inductive Symbol where
  /-- A character by its number. Two hexadecimal digits can also write a byte. -/
  | character (value : Nat) (byte : Bool)
  /-- A class that a letter names, or its complement. -/
  | named (complement : Bool)
  | any
  /-- The beginning or the end of a line or of the text. -/
  | anchor
  /-- A boundary of words, or a place that is none. -/
  | boundary

namespace Symbol

/-- Whether a symbol has a meaning in a sequence. -/
def fits (flags : Flags) : Symbol → Bool
  | .character value byte => if flags.unicode then !flags.fold else !byte || value < 0x80
  | .named complement => !flags.unicode && !complement
  | .any => flags.unicode
  | .anchor => true
  | .boundary => !flags.unicode

/-- Whether a symbol has a meaning in a class. -/
def fitsClass (flags : Flags) : Symbol → Bool
  | .character value _ => if flags.unicode then !flags.fold else value < 0x80
  | .named complement => !flags.unicode && !complement
  | _ => false

/-- What a character means behind a backslash, as far as it is one symbol by itself. Of ASCII,
    everything but letters and digits stands for itself, angle brackets apart. -/
def ofEscape? (c : Char) : Option Symbol :=
  match c with
  | 'a' => some (.character 0x07 false)
  | 't' => some (.character 0x09 false)
  | 'n' => some (.character 0x0A false)
  | 'v' => some (.character 0x0B false)
  | 'f' => some (.character 0x0C false)
  | 'r' => some (.character 0x0D false)
  | 'A' => some .anchor
  | 'z' => some .anchor
  | 'b' => some .boundary
  | 'B' => some .boundary
  | '<' => some .boundary
  | '>' => some .boundary
  | c =>
    if c ∈ ['d', 's', 'w'] then some (.named false)
    else if c ∈ ['D', 'S', 'W'] then some (.named true)
    else if '\x80' ≤ c ∨ c.isAlphanum then none
    else some (.character c.toNat false)

/-- Whether two symbols bound a range. -/
def bound : Symbol → Symbol → Bool
  | .character first _, .character last _ => first ≤ last
  | _, _ => false

end Symbol

/-- The height of several parts side by side: one part stands for itself. -/
def joined : List Nat → Nat
  | [] => 0
  | [height] => height
  | heights => heights.foldl max 0 + 1

/-- How high a pattern may grow by nesting. -/
def heightLimit : Nat := 250

/-- A group that is being read, or the pattern itself: the heights of its finished alternatives and of
    the parts of the present one, the latest first. Flags are a part without a height, which cannot
    be repeated. -/
structure Group where
  flags : Flags := {}
  alternatives : List Nat := []
  parts : List (Option Nat) := []

namespace Group

/-- One more part. -/
def add (group : Group) (height : Nat) : Group := { group with parts := some height :: group.parts }

/-- The height of the present alternative. -/
def present (group : Group) : Nat := joined (group.parts.map (·.getD 0))

/-- The height of all alternatives together. -/
def height (group : Group) : Nat := joined (group.present :: group.alternatives)

end Group

/-- A class that is being read: the height of what stands before the last set operation, and those of
    the parts after it. -/
structure Class where
  operand : Option Nat := none
  parts : List Nat := []

namespace Class

/-- One more part. -/
def add (set : Class) (height : Nat) : Class := { set with parts := height :: set.parts }

def height (set : Class) : Nat :=
  match set.operand with
  | none => joined set.parts
  | some operand => max operand (joined set.parts) + 1

end Class

/-- The names of classes between colons. -/
def classNames : List String :=
  ["alnum", "alpha", "ascii", "blank", "cntrl", "digit", "graph", "lower", "print", "punct",
    "space", "upper", "word", "xdigit"]

/-- Whether a text goes on, behind a bracket, with the name of a class between colons and a closing
    bracket: whether the name is negated, and how long all this is. -/
def colonClass? (text : Text) : Option (Bool × Nat) :=
  if text.head? = some ':' then
    let negated := (text.drop 1).head? = some '^'
    let name := (text.drop (if negated then 2 else 1)).takeWhile (· ≠ ':')
    let length := (if negated then 2 else 1) + name.length
    if classNames.any (·.toList = name) ∧ (text.drop length).take 2 = [':', ']'] then
      some (negated, length + 2)
    else none
  else none

/-- What a class ends with so far. At its beginning dashes are plain, and so is a closing bracket that
    nothing precedes. -/
inductive Content where
  /-- The opening bracket, after which the class can be negated. -/
  | opened
  | nothing
  | dashes
  /-- A symbol that can begin a range. -/
  | item (symbol : Symbol)
  /-- Such a symbol and a dash, with nothing after the dash so far or with blanks. -/
  | dash (symbol : Symbol) (blanks : Bool)
  /-- Anything that a range cannot begin with. -/
  | other

/-- Where reading stands. -/
inductive Place where
  | sequence
  /-- Just behind the parenthesis that opens a group. -/
  | opened
  /-- In a class, inside others, the innermost first. -/
  | inClass (outer : List Class) (set : Class) (content : Content)
  /-- Behind a backslash. -/
  | escape (back : Place)
  /-- Before some more hexadecimal digits. -/
  | hex (back : Place) (left value : Nat) (byte : Bool)
  /-- In the name of a group. -/
  | name (letters : Text)
  /-- In the flags of a group. -/
  | flags (letters : List Char)
  | comment (back : Place)
  /-- Before characters that were looked at already. -/
  | skip (count : Nat) (back : Place)

namespace Place

/-- Whether blanks and comments can stand here. -/
def isSpaced : Place → Bool
  | .sequence => true
  | .opened => true
  | .inClass .. => true
  | .hex .. => true
  | _ => false

/-- The place behind a blank. -/
def apart : Place → Place
  | .inClass outer set (.dash symbol _) => .inClass outer set (.dash symbol true)
  | place => place

end Place

/-- A pattern that is being read. -/
structure Reader where
  group : Group := {}
  /-- The groups around the present one, the innermost first. -/
  outer : List Group := []
  /-- The names of groups so far. -/
  names : List Text := []
  place : Place := .sequence

namespace Reader

/-- Go on at another place. -/
def goto (reader : Reader) (place : Place) : Option Reader := some { reader with place }

/-- Take a symbol in a class or in a sequence. -/
def put (reader : Reader) (symbol : Symbol) : Place → Option Reader
  | .inClass outer set (.dash first _) =>
    if symbol.fitsClass reader.group.flags ∧ first.bound symbol then
      reader.goto (.inClass outer set .other)
    else none
  | .inClass outer set _ =>
    if symbol.fitsClass reader.group.flags then
      reader.goto (.inClass outer (set.add 0) (.item symbol))
    else none
  | _ =>
    if symbol.fits reader.group.flags then
      some { reader with group := reader.group.add 0, place := .sequence }
    else none

/-- Repeat the last part; a question mark behind the sign belongs to it. -/
def repeated (reader : Reader) (ahead : Text) : Option Reader :=
  match reader.group.parts with
  | some height :: parts =>
    some { reader with
      group := { reader.group with parts := some (height + 1) :: parts }
      place := if ahead.head? = some '?' then .skip 1 .sequence else .sequence }
  | _ => none

/-- Read a character in a sequence. -/
def inSequence (reader : Reader) (c : Char) (ahead : Text) : Option Reader :=
  let group := reader.group
  match c with
  | '(' =>
    some { reader with
      group := { flags := group.flags }, outer := group :: reader.outer, place := .opened }
  | ')' =>
    match reader.outer with
    | [] => none
    | around :: outer =>
      some { reader with group := around.add (group.height + 1), outer, place := .sequence }
  | '|' =>
    some { reader with
      group := { group with alternatives := group.present :: group.alternatives, parts := [] }
      place := .sequence }
  | '[' => reader.goto (.inClass [] {} .opened)
  | '*' => reader.repeated ahead
  | '+' => reader.repeated ahead
  | '?' => reader.repeated ahead
  | '\x7b' => none
  | '\\' => reader.goto (.escape .sequence)
  | '.' => reader.put .any .sequence
  | '^' => reader.put .anchor .sequence
  | '$' => reader.put .anchor .sequence
  | c => reader.put (.character c.toNat false) .sequence

/-- Read a character behind an opening parenthesis. -/
def inOpened (reader : Reader) (c : Char) (ahead : Text) : Option Reader :=
  if c = '?' then
    if ahead.take 2 = ['P', '<'] then reader.goto (.skip 2 (.name []))
    else if ahead.head? = some '<' then reader.goto (.skip 1 (.name []))
    else reader.goto (.flags [])
  else reader.inSequence c ahead

/-- Read a character in the name of a group. No two groups share a name. -/
def inName (reader : Reader) (letters : Text) (c : Char) : Option Reader :=
  if c = '>' then
    if letters.isEmpty ∨ reader.names.contains letters then none
    else some { reader with names := letters :: reader.names, place := .sequence }
  else if c = '_' ∨ Alphanumeric.isLetter c ∨
      (¬ letters.isEmpty ∧ (c ∈ ['.', '[', ']'] ∨ Alphanumeric.contains c)) then
    reader.goto (.name (letters ++ [c]))
  else none

/-- Read a character in the flags of a group. Behind a colon they hold in the group, and without one
    from here to the end of the group around it. -/
def inFlags (reader : Reader) (letters : List Char) (c : Char) : Option Reader :=
  if c = ')' ∨ c = ':' then
    if letters.getLast? = some '-' then none
    else
      let flags := reader.group.flags.set letters
      if c = ':' then
        some { reader with group := { reader.group with flags }, place := .sequence }
      else
        match reader.outer with
        | around :: outer =>
          if letters.isEmpty then none
          else
            some { reader with
              group := { around with flags, parts := none :: around.parts }, outer
              place := .sequence }
        | [] => none
  else if c ∈ Flags.letters ∧ c ∉ letters then reader.goto (.flags (letters ++ [c]))
  else none

/-- Read a character behind a backslash. -/
def inEscape (reader : Reader) (back : Place) (c : Char) : Option Reader :=
  match c with
  | 'x' => reader.goto (.hex back 2 0 true)
  | 'u' => reader.goto (.hex back 4 0 false)
  | 'U' => reader.goto (.hex back 8 0 false)
  | c => (Symbol.ofEscape? c).bind fun symbol => reader.put symbol back

/-- The value of a hexadecimal digit. -/
def hexDigit? (c : Char) : Option Nat :=
  if c.isDigit then some (c.toNat - '0'.toNat)
  else if 'a' ≤ c ∧ c ≤ 'f' then some (c.toNat - 'a'.toNat + 10)
  else if 'A' ≤ c ∧ c ≤ 'F' then some (c.toNat - 'A'.toNat + 10)
  else none

/-- Read a hexadecimal digit. Surrogates and numbers beyond the last character are none. -/
def inHex (reader : Reader) (back : Place) (left value : Nat) (byte : Bool) (c : Char) :
    Option Reader :=
  (hexDigit? c).bind fun digit =>
    let value := 16 * value + digit
    if 1 < left then reader.goto (.hex back (left - 1) value byte)
    else if value.isValidChar then reader.put (.character value byte) back
    else none

/-- End the innermost class. -/
def closeClass (reader : Reader) (outer : List Class) (set : Class) : Option Reader :=
  match outer with
  | [] => some { reader with group := reader.group.add (set.height + 1), place := .sequence }
  | around :: outer => reader.goto (.inClass outer (around.add (set.height + 1)) .other)

/-- Take a plain symbol with which no range begins. -/
def putPlain (reader : Reader) (outer : List Class) (set : Class) (c : Char) (content : Content) :
    Option Reader :=
  if (Symbol.character c.toNat false).fitsClass reader.group.flags then
    reader.goto (.inClass outer (set.add 0) content)
  else none

/-- Read a character in a class where neither its beginning nor a range gives it another meaning. Twice
    the same sign is a set operation. A negated class has a meaning only among all characters. -/
def inSet (reader : Reader) (outer : List Class) (set : Class) (content : Content) (c : Char)
    (ahead : Text) : Option Reader :=
  let unicode := reader.group.flags.unicode
  if c = ']' then reader.closeClass outer set
  else if c = '[' then
    match colonClass? ahead with
    | some (negated, length) =>
      if if unicode then !reader.group.flags.fold else !negated then
        reader.goto (.skip length (.inClass outer (set.add 0) .other))
      else none
    | none => reader.goto (.inClass (set :: outer) {} .opened)
  else if c ∈ ['&', '-', '~'] ∧ ahead.head? = some c then
    reader.goto (.skip 1 (.inClass outer { operand := some set.height } .other))
  else if c = '\\' then reader.goto (.escape (.inClass outer set content))
  else reader.put (.character c.toNat false) (.inClass outer set content)

/-- Read a character in a class. -/
def inClass (reader : Reader) (outer : List Class) (set : Class) (content : Content) (c : Char)
    (ahead : Text) : Option Reader :=
  match content, c with
  | .opened, '^' =>
    if reader.group.flags.unicode then reader.goto (.inClass outer set .nothing) else none
  | .opened, ']' => reader.putPlain outer set c .other
  | .nothing, ']' => reader.putPlain outer set c .other
  | .opened, '-' => reader.putPlain outer set c .dashes
  | .nothing, '-' => reader.putPlain outer set c .dashes
  | .dashes, '-' => reader.putPlain outer set c .dashes
  | .item symbol, '-' => reader.goto (.inClass outer set (.dash symbol false))
  | .dash _ _, ']' => reader.closeClass outer (set.add 0)
  | .dash _ false, '-' => reader.goto (.inClass outer { operand := some set.height } .other)
  | .dash _ true, '-' =>
    reader.goto (.inClass outer (set.add 0) (.dash (.character c.toNat false) false))
  | .dash _ _, '\\' => reader.goto (.escape (.inClass outer set content))
  | .dash _ _, c => reader.put (.character c.toNat false) (.inClass outer set content)
  | _, c => reader.inSet outer set content c ahead

/-- Read a character, with a view of those after it. -/
def step (reader : Reader) (c : Char) (ahead : Text) : Option Reader :=
  let spaced := reader.group.flags.spaced && reader.place.isSpaced
  if spaced && Text.isBlank c then reader.goto reader.place.apart
  else if spaced && c = '#' then reader.goto (.comment reader.place.apart)
  else
    match reader.place with
    | .sequence => reader.inSequence c ahead
    | .opened => reader.inOpened c ahead
    | .inClass outer set content => reader.inClass outer set content c ahead
    | .escape back => reader.inEscape back c
    | .hex back left value byte => reader.inHex back left value byte c
    | .name letters => reader.inName letters c
    | .flags letters => reader.inFlags letters c
    | .comment back => reader.goto (if c = '\n' then back else .comment back)
    | .skip count back => reader.goto (if 1 < count then .skip (count - 1) back else back)

/-- Whether the pattern is complete here. -/
def isComplete (reader : Reader) : Bool :=
  let closed := reader.outer.isEmpty && reader.group.height ≤ heightLimit
  match reader.place with
  | .sequence => closed
  | .comment .sequence => closed
  | _ => false

/-- Whether a text completes the pattern. -/
def completes (reader : Reader) : Text → Bool
  | [] => reader.isComplete
  | c :: text =>
    match reader.step c text with
    | some reader => completes reader text
    | none => false

end Reader

/-- Whether a text is a pattern. -/
def isWellFormed (text : Text) : Bool := ({} : Reader).completes text

end LoxLexer.Pattern

/-!
Texts as lists of characters, their length in bytes, their lines and blanks, the part between two
byte offsets, and the decimal text of a count.
-/

namespace LoxLexer

/-- Source text, lexemes and everything printed: a finite sequence of Unicode characters. -/
abbrev Text := List Char

namespace Text

/-- The length of the UTF-8 encoding; offsets into a source are counted in these bytes. -/
def byteSize (text : Text) : Nat := text.foldr (fun c size => c.utf8Size + size) 0

/-- Only line feeds break lines; a carriage return never does. -/
def lineBreaks (text : Text) : Nat := text.count '\n'

/-- A count in decimal, without padding. -/
def ofNat (n : Nat) : Text := Nat.toDigits 10 n

/-- The text up to its first line break, without a carriage return just before it. -/
def firstLine (text : Text) : Text :=
  let line := text.takeWhile (· ≠ '\n')
  if line.getLast? = some '\r' then line.dropLast else line

/-- The characters that Unicode calls white space. -/
def isBlank (c : Char) : Bool :=
  ('\t' ≤ c && c ≤ '\r') || c = ' ' || c = '\x85' || c = '\xA0' || c = '\u1680' ||
    ('\u2000' ≤ c && c ≤ '\u200A') || c = '\u2028' || c = '\u2029' || c = '\u202F' ||
    c = '\u205F' || c = '\u3000'

/-- The text without the blanks at either end. -/
def trim (text : Text) : Text :=
  ((text.dropWhile isBlank).reverse.dropWhile isBlank).reverse

/-- The text from a byte offset on. -/
def dropBytes : Nat → Text → Text
  | 0, text => text
  | _, [] => []
  | offset, c :: text => dropBytes (offset - c.utf8Size) text

/-- The text before a byte offset. -/
def takeBytes : Nat → Text → Text
  | 0, _ => []
  | _, [] => []
  | offset, c :: text => c :: takeBytes (offset - c.utf8Size) text

/-- The text from one byte offset up to another. -/
def between (first last : Nat) (text : Text) : Text := (text.dropBytes first).takeBytes (last - first)

@[simp] theorem byteSize_nil : byteSize [] = 0 := rfl

@[simp] theorem byteSize_cons (c : Char) (text : Text) :
    byteSize (c :: text) = c.utf8Size + byteSize text := rfl

@[simp] theorem byteSize_append (left right : Text) :
    byteSize (left ++ right) = byteSize left + byteSize right := by
  induction left with
  | nil => simp
  | cons c left ih => simp [ih, Nat.add_assoc]

@[simp] theorem lineBreaks_nil : lineBreaks [] = 0 := rfl

@[simp] theorem lineBreaks_append (left right : Text) :
    lineBreaks (left ++ right) = lineBreaks left + lineBreaks right := by simp [lineBreaks]

end Text
end LoxLexer

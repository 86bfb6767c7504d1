import LoxLexer.Text

/-!
UTF-8 in both directions. Decoding accepts any bytes: each well-formed sequence becomes its
character, and each maximal part that begins a sequence but cannot be finished, or that begins none,
becomes one replacement character. The first byte of a sequence says how many follow and in which
range the next one lies, which excludes overlong forms, surrogates and values above `10FFFF`.
-/

namespace LoxLexer

/-- Raw content of a file or of standard input. -/
abbrev Bytes := List UInt8

namespace Utf8

/-- The bytes of a text. -/
def encode (text : Text) : Bytes := text.flatMap String.utf8EncodeChar

@[simp] theorem encode_append (left right : Text) : encode (left ++ right) = encode left ++ encode right := by
  simp [encode]

@[simp] theorem length_encode (text : Text) : (encode text).length = text.byteSize := by
  induction text with
  | nil => rfl
  | cons c text ih =>
    have front : encode (c :: text) = String.utf8EncodeChar c ++ encode text := List.flatMap_cons
    rw [front, List.length_append, String.length_utf8EncodeChar, ih, Text.byteSize_cons]

/-- The bytes from the lower to the upper bound, both included. -/
structure ByteRange where
  lower : UInt8
  upper : UInt8

def ByteRange.contains (range : ByteRange) (b : UInt8) : Bool := range.lower ≤ b && b ≤ range.upper

/-- Every byte that only continues a sequence. -/
def continuation : ByteRange := ⟨0x80, 0xBF⟩

/-- A sequence that is begun and not finished: the bits read so far, the range of the next byte and
    those of the bytes after it. -/
structure Unfinished where
  bits : Nat
  next : ByteRange
  later : List ByteRange

/-- What a byte can do where no sequence is unfinished. -/
inductive Opening where
  | whole
  | sequence (opened : Unfinished)
  /-- No sequence begins with this byte. -/
  | never

/-- The opening that a byte makes. -/
def opening (b : UInt8) : Opening :=
  if b < 0x80 then .whole
  else if b < 0xC2 then .never
  else if b < 0xE0 then .sequence ⟨b.toNat - 0xC0, continuation, []⟩
  else if b = 0xE0 then .sequence ⟨0, ⟨0xA0, 0xBF⟩, [continuation]⟩
  else if b = 0xED then .sequence ⟨0xD, ⟨0x80, 0x9F⟩, [continuation]⟩
  else if b < 0xF0 then .sequence ⟨b.toNat - 0xE0, continuation, [continuation]⟩
  else if b = 0xF0 then .sequence ⟨0, ⟨0x90, 0xBF⟩, [continuation, continuation]⟩
  else if b < 0xF4 then .sequence ⟨b.toNat - 0xF0, continuation, [continuation, continuation]⟩
  else if b = 0xF4 then .sequence ⟨4, ⟨0x80, 0x8F⟩, [continuation, continuation]⟩
  else .never

/-- How far decoding came: what was read, the latest first, with `none` for an ill-formed part, and
    the sequence that is unfinished, if one is. -/
structure Decoder where
  read : List (Option Char)
  unfinished : Option Unfinished

namespace Decoder

def start : Decoder := ⟨[], none⟩

/-- Read a byte where no sequence is unfinished. -/
def begin (read : List (Option Char)) (b : UInt8) : Decoder :=
  match opening b with
  | .whole => ⟨some (Char.ofNat b.toNat) :: read, none⟩
  | .sequence opened => ⟨read, some opened⟩
  | .never => ⟨none :: read, none⟩

/-- Read a byte. One that cannot go on with the unfinished sequence ends it as ill-formed and is read
    afresh. -/
def step (decoder : Decoder) (b : UInt8) : Decoder :=
  match decoder.unfinished with
  | none => begin decoder.read b
  | some ⟨bits, next, later⟩ =>
    if next.contains b then
      let bits := bits * 64 + b.toNat % 64
      match later with
      | [] => ⟨some (Char.ofNat bits) :: decoder.read, none⟩
      | next :: later => ⟨decoder.read, some ⟨bits, next, later⟩⟩
    else begin (none :: decoder.read) b

/-- Everything read, in order; a sequence still unfinished is ill-formed. -/
def finish (decoder : Decoder) : List (Option Char) :=
  (match decoder.unfinished with
    | none => decoder.read
    | some _ => none :: decoder.read).reverse

end Decoder

/-- The characters of some bytes, with `none` for each maximal ill-formed part. -/
def characters (bytes : Bytes) : List (Option Char) := (bytes.foldl Decoder.step .start).finish

/-- What an ill-formed part becomes. -/
def replacement : Char := '\uFFFD'

/-- The text of some bytes. -/
def decode (bytes : Bytes) : Text := (characters bytes).map (·.getD replacement)

/-- Whether decoding replaces anything. A replacement character that the bytes spell out is none. -/
def replaces (bytes : Bytes) : Bool := (characters bytes).any (·.isNone)

end Utf8
end LoxLexer

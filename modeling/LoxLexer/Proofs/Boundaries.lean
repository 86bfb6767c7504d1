import LoxLexer.Cursor
import LoxLexer.Proofs.Decoding
import LoxLexer.Proofs.Lookahead
import LoxLexer.Proofs.Tiling

/-!
The bytes of a text and where its characters begin among them. An offset is a boundary if it stands
between two characters (`isBoundary_iff`), and there slices can be cut (`slice_encode`).
A test that is the same for all characters above ASCII is the same for a character and for each of its
bytes (`byte_alike`), so looking at the byte behind a text is looking at the next character
(`sees_encode`).
-/

namespace LoxLexer.Boundaries
open LoxLexer.Utf8 LoxLexer.Cursor LoxLexer.WellFormed LoxLexer.Alphabet

/-- The offset stands between two characters of the text, or at one of its ends. -/
def Boundary (text : Text) (offset : Nat) : Prop := ∃ before after, text = before ++ after ∧ before.byteSize = offset

/-- What tells no two characters apart that take more than one byte. -/
def Uniform {α : Type} (f : Char → α) : Prop := ∀ c d, 1 < c.utf8Size → 1 < d.utf8Size → f c = f d

variable {α : Type} {f : Char → α} {p : Char → Bool} {b : UInt8} {c : Char} {text : Text}

/-! ### Slices -/

/-- Behind some text stand the bytes of the rest. -/
theorem getElem?_encode (before rest : Text) (count : Nat) :
    (encode (before ++ rest))[before.byteSize + count]? = (encode rest)[count]? := by
  rw [encode_append, ← length_encode, List.getElem?_append_right (Nat.le_add_right ..), Nat.add_sub_cancel_left]

private theorem isBoundary_append (before rest : Text) (count : Nat) :
    isBoundary (encode (before ++ rest)) (before.byteSize + count) = isBoundary (encode rest) count := by
  rw [isBoundary, getElem?_encode, isBoundary, length_encode, length_encode, Text.byteSize_append]
  simp only [Nat.add_left_cancel_iff]

/-- Of the bytes of a character the first one alone is a boundary. -/
theorem isBoundary_within {offset : Nat} (within : offset < c.utf8Size) (text : Text) :
    isBoundary (encode (c :: text)) offset = true ↔ offset = 0 := by
  have inside : offset < (String.utf8EncodeChar c).length := by rwa [String.length_utf8EncodeChar]
  have byte : (encode (c :: text))[offset]? = some (String.utf8EncodeChar c)[offset] := by
    rw [Lookahead.encode_cons, List.getElem?_append_left inside, List.getElem?_eq_getElem inside]
  have notEnd : offset ≠ c.utf8Size + text.byteSize := by omega
  simp [isBoundary, byte, notEnd, UInt8.isUTF8FirstByte_getElem_utf8EncodeChar]

private theorem isBoundary_front (text : Text) : isBoundary (encode text) 0 = true := by
  cases text with
  | nil => rfl
  | cons c text => exact (isBoundary_within c.utf8Size_pos text).mpr rfl

theorem isBoundary_iff {offset : Nat} : isBoundary (encode text) offset = true ↔ Boundary text offset := by
  constructor
  · intro boundary
    induction text generalizing offset with
    | nil =>
      have atEnd : offset = 0 := by simpa [isBoundary, encode] using boundary
      exact ⟨[], [], rfl, atEnd.symm⟩
    | cons c text ih =>
      rcases Nat.lt_or_ge offset c.utf8Size with within | behind
      · obtain rfl := (isBoundary_within within text).mp boundary
        exact ⟨[], c :: text, rfl, rfl⟩
      · obtain ⟨count, rfl⟩ := Nat.exists_eq_add_of_le behind
        have later : isBoundary (encode text) count = true := by
          rw [← boundary]
          exact (isBoundary_append [c] text count).symm
        obtain ⟨before, after, rfl, rfl⟩ := ih later
        exact ⟨c :: before, after, rfl, rfl⟩
  · rintro ⟨before, after, rfl, rfl⟩
    rw [← isBoundary_front after]
    exact isBoundary_append before after 0

theorem slice_encode (before part after : Text) :
    slice (encode (before ++ (part ++ after))) before.byteSize (before.byteSize + part.byteSize) = .ok part := by
  have first : isBoundary (encode (before ++ (part ++ after))) before.byteSize = true :=
    isBoundary_iff.mpr ⟨before, part ++ after, rfl, rfl⟩
  have last : isBoundary (encode (before ++ (part ++ after))) (before.byteSize + part.byteSize) = true :=
    isBoundary_iff.mpr ⟨before ++ part, after, (List.append_assoc ..).symm, Text.byteSize_append ..⟩
  have bytes := Tiling.slice_bytes before part after
  rw [List.append_assoc] at bytes
  rw [slice, if_pos ⟨Nat.le_add_right .., first, last⟩, Nat.add_sub_cancel_left, bytes, Decoding.decode_encode]

theorem slice_tail (before rest : Text) :
    slice (encode (before ++ rest)) before.byteSize (encode (before ++ rest)).length = .ok rest := by
  have sliced := slice_encode before rest []
  rwa [List.append_nil, ← Text.byteSize_append, ← length_encode (before ++ rest)] at sliced

/-! ### Single bytes -/

private theorem uniform_of_ascii (ascii : ∀ c, p c = true → c.utf8Size = 1) : Uniform p := by
  have above : ∀ c, 1 < c.utf8Size → p c = false := by
    intro c wide
    by_contra yes
    have one := ascii c (by simpa using yes)
    omega
  intro c d wide alsoWide
  rw [above c wide, above d alsoWide]

theorem uniform_digit : Uniform Char.isDigit :=
  uniform_of_ascii fun c yes => Lookahead.digit_ascii ((isDigit_iff c).mp yes)

theorem uniform_wordChar : Uniform CharClass.isWordChar :=
  uniform_of_ascii fun c yes => Lookahead.wordChar_ascii ((isWordChar_iff c).mp yes)

theorem uniform_eq {d : Char} (ascii : d.utf8Size = 1) : Uniform fun c => decide (c = d) := by
  refine uniform_of_ascii fun c yes => ?_
  rw [of_decide_eq_true yes]
  exact ascii

theorem uniform_ne {d : Char} (ascii : d.utf8Size = 1) : Uniform fun c => decide (c ≠ d) := by
  intro c e wide alsoWide
  simpa only [decide_not] using congrArg not (uniform_eq ascii c e wide alsoWide)

/-- Only ASCII characters are in a class other than the foreign one. -/
theorem class_ascii (known : CharClass.of c ≠ .foreign) : c.utf8Size = 1 := by
  have listed := (listed_of c).resolve_left known
  cases named : CharClass.of c with
  | punctuation kind =>
    rw [named] at listed
    have ascii : ∀ entry ∈ punctuation, entry.1.utf8Size = 1 := by simp [punctuation, Char.utf8Size]
    exact ascii _ listed
  | operator alone paired =>
    rw [named] at listed
    have ascii : ∀ entry ∈ operators, entry.1.utf8Size = 1 := by simp [operators, Char.utf8Size]
    exact ascii _ listed
  | slash | newline | quote =>
    rw [named] at listed
    obtain rfl := listed
    rfl
  | blank =>
    rw [named] at listed
    have ascii : ∀ d ∈ blanks, d.utf8Size = 1 := by simp [blanks, Char.utf8Size]
    exact ascii c listed
  | digit =>
    rw [named] at listed
    exact Lookahead.digit_ascii listed
  | letter =>
    rw [named] at listed
    exact Lookahead.wordChar_ascii (.inl listed)
  | foreign => exact absurd named known

theorem uniform_class : Uniform CharClass.of := by
  have above : ∀ c, 1 < c.utf8Size → CharClass.of c = .foreign := by
    intro c wide
    by_contra known
    have one := class_ascii known
    omega
  intro c d wide alsoWide
  rw [above c wide, above d alsoWide]

private theorem character_ascii (ascii : c.utf8Size = 1) : ∃ b, String.utf8EncodeChar c = [b] ∧ character b = c := by
  have small : c.val.toNat ≤ 0x7F := UInt32.le_iff_toNat_le.mp (Char.utf8Size_eq_one_iff.mp ascii)
  refine ⟨.ofNat c.val.toNat, encode_one small, ?_⟩
  rw [character, UInt8.toNat_ofNat', Nat.mod_eq_of_lt (by omega)]
  exact ofNat_val c

/-- A character and each of its bytes look alike to what tells no characters above ASCII apart. -/
theorem byte_alike (uniform : Uniform f) (member : b ∈ String.utf8EncodeChar c) : f (character b) = f c := by
  rcases Nat.lt_or_ge 1 c.utf8Size with wide | narrow
  · refine uniform _ _ ?_ wide
    by_contra small
    have one : (character b).utf8Size = 1 := by
      have := (character b).utf8Size_pos
      omega
    -- an ASCII byte is a whole character
    have ascii : b < 0x80 := by
      have least := Char.utf8Size_eq_one_iff.mp one
      have value : (character b).val.toNat = b.toNat := val_ofNat (.inl (Nat.lt_trans b.toNat_lt (by decide)))
      rw [UInt32.le_iff_toNat_le, value] at least
      exact UInt8.lt_iff_toNat_lt.mpr (Nat.lt_succ_of_le least)
    have short := congrArg List.length (encode_of_mem ascii member)
    rw [String.length_utf8EncodeChar, List.length_singleton] at short
    omega
  · have one : c.utf8Size = 1 := by
      have := c.utf8Size_pos
      omega
    obtain ⟨d, spelled, same⟩ := character_ascii one
    rw [spelled, List.mem_singleton] at member
    rw [member, same]

theorem character_byte (ascii : c.utf8Size = 1) (member : b ∈ String.utf8EncodeChar c) : character b = c :=
  of_decide_eq_true ((byte_alike (uniform_eq ascii) member).trans (decide_eq_true rfl))

theorem bytes_alike (uniform : Uniform p) (all : ∀ c ∈ text, p c = true) : ∀ b ∈ encode text, p (character b) = true := by
  intro b member
  obtain ⟨c, inText, inChar⟩ := List.mem_flatMap.mp member
  rw [byte_alike uniform inChar]
  exact all c inText

/-- Where a character begins stands its first byte. -/
theorem first_byte (before : Text) (c : Char) (rest : Text) :
    ∃ b, (encode (before ++ c :: rest))[before.byteSize]? = some b ∧ b ∈ String.utf8EncodeChar c := by
  obtain ⟨b, bytes, spelled⟩ := List.exists_cons_of_ne_nil (@String.utf8EncodeChar_ne_nil c)
  have byte := getElem?_encode before (c :: rest) 0
  rw [Lookahead.encode_cons, spelled] at byte
  exact ⟨b, byte, by simp [spelled]⟩

theorem sees_encode (uniform : Uniform p) (before rest : Text) :
    sees (encode (before ++ rest)) before.byteSize p = rest.head?.any p := by
  rw [sees]
  cases rest with
  | nil =>
    rw [List.append_nil, ← length_encode, List.getElem?_eq_none (Nat.le_refl _)]
    rfl
  | cons c rest =>
    obtain ⟨b, first, member⟩ := first_byte before c rest
    rw [first]
    exact byte_alike uniform member

/-! ### Numerals -/

theorem isNumeral_iff : Decimal.isNumeral text = true ↔ Numeral text := by
  constructor
  · intro checked
    have whole := List.takeWhile_append_dropWhile (p := Char.isDigit) (l := text)
    have digits := takeWhile_all isDigit_iff text
    rw [Decimal.isNumeral, Bool.and_eq_true] at checked
    obtain ⟨nonempty, ending⟩ := checked
    have begun : text.takeWhile Char.isDigit ≠ [] := by simpa using nonempty
    split at ending
    · next nothing =>
      rw [nothing, List.append_nil] at whole
      exact whole ▸ .whole begun digits
    · next places behind =>
      have decimals : places ≠ [] ∧ places.all Char.isDigit = true := by simpa using ending
      rw [behind] at whole
      exact whole ▸ .fraction begun digits decimals.1 (all_run isDigit_iff decimals.2)
    · cases ending
  · intro numeral
    cases numeral with
    | whole nonempty digits =>
      have taken := takeWhile_run isDigit_iff digits (stops_nil Digit)
      have dropped := dropWhile_run isDigit_iff digits (stops_nil Digit)
      rw [List.append_nil] at taken dropped
      simp [Decimal.isNumeral, taken, dropped, nonempty]
    | @fraction digits places nonempty all others decimals =>
      have point : Stops Digit ('.' :: places) := stops_cons.mpr (by decide)
      have allPlaces : ∀ d ∈ places, d.isDigit = true := fun d member => (isDigit_iff d).mpr (decimals d member)
      simpa [Decimal.isNumeral, takeWhile_run isDigit_iff all point, dropWhile_run isDigit_iff all point, nonempty, others]
        using allPlaces

end LoxLexer.Boundaries

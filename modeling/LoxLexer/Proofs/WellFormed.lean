import Mathlib.Tactic.ByContra
import Mathlib.Tactic.SplitIfs
import LoxLexer.Utf8

/-!
The parts of a byte sequence: the well-formed sequences, which are the encodings of the characters, and
between them the maximal ill-formed parts (`Parts`). Bytes have exactly one such division
(`parts_unique`), and the decoder finds it (`parts_characters`): while a sequence is unfinished, the
bytes that can still finish it are exactly those that complete an encoding (`finishes_iff`).
-/

namespace LoxLexer.WellFormed
open LoxLexer.Utf8

/-- Bytes that begin a well-formed sequence, or are one. -/
def Begins (part : Bytes) : Prop := ∃ c, part <+: String.utf8EncodeChar c

/-- An ill-formed part with the bytes behind it. No well-formed sequence stands here; the part is as much as
    begins one, or a single byte where none begins. -/
structure IllFormed (part rest : Bytes) : Prop where
  unreadable : ∀ c, ¬ String.utf8EncodeChar c <+: part ++ rest
  shape : part.length = 1 ∨ part ≠ [] ∧ Begins part
  maximal : ∀ longer, longer <+: part ++ rest → Begins longer → longer.length ≤ part.length

/-- Bytes part by part: the character of each well-formed sequence, and `none` for each ill-formed part. -/
inductive Parts : Bytes → List (Option Char) → Prop
  | nil : Parts [] []
  | sequence {rest parts} (c) : Parts rest parts → Parts (String.utf8EncodeChar c ++ rest) (some c :: parts)
  | illFormed {part rest parts} : IllFormed part rest → Parts rest parts → Parts (part ++ rest) (none :: parts)

/-- The bytes that finish a sequence, and the character that it then spells. -/
inductive Finishes : Unfinished → Bytes → Char → Prop
  | last {bits next b} : next.contains b = true →
      Finishes ⟨bits, next, []⟩ [b] (.ofNat (bits * 64 + b.toNat % 64))
  | more {bits next range later b bytes c} : next.contains b = true →
      Finishes ⟨bits * 64 + b.toNat % 64, range, later⟩ bytes c →
      Finishes ⟨bits, next, range :: later⟩ (b :: bytes) c

/-- The bytes read of a sequence that is unfinished. -/
inductive After : Bytes → Unfinished → Prop
  | opens {b opened} : opening b = .sequence opened → After [b] opened
  | goesOn {part bits next range later b} : After part ⟨bits, next, range :: later⟩ → next.contains b = true →
      After (part ++ [b]) ⟨bits * 64 + b.toNat % 64, range, later⟩

variable {b : UInt8} {bytes part rest : Bytes} {opened : Unfinished} {c : Char} {parts : List (Option Char)}

/-! ### The encoding of a character -/

theorem val_ofNat {n : Nat} (valid : n.isValidChar) : (Char.ofNat n).val.toNat = n :=
  congrArg Char.toNat (dif_pos valid : Char.ofNat n = Char.ofNatAux n valid)

theorem ofNat_val (c : Char) : Char.ofNat c.val.toNat = c := Char.ofNat_toNat c

private theorem contains_iff {range : ByteRange} : range.contains b = true ↔
    range.lower.toNat ≤ b.toNat ∧ b.toNat ≤ range.upper.toNat := by
  simp [ByteRange.contains, UInt8.le_iff_toNat_le]

private theorem continuation_iff : continuation.contains b = true ↔ 0x80 ≤ b.toNat ∧ b.toNat ≤ 0xBF := contains_iff

theorem encode_one (small : c.val.toNat ≤ 0x7F) : String.utf8EncodeChar c = [UInt8.ofNat c.val.toNat] := by
  simp only [String.utf8EncodeChar, small, ↓reduceIte]

private theorem encode_two (low : 0x7F < c.val.toNat) (high : c.val.toNat ≤ 0x7FF) : String.utf8EncodeChar c =
    [UInt8.ofNat (c.val.toNat / 64 + 0xC0), UInt8.ofNat (c.val.toNat % 64 + 0x80)] := by
  have above : ¬ c.val.toNat ≤ 0x7F := by omega
  have lead : c.val.toNat / 64 % 32 = c.val.toNat / 64 := by omega
  simp only [String.utf8EncodeChar, above, high, ↓reduceIte, lead]

private theorem encode_three (low : 0x7FF < c.val.toNat) (high : c.val.toNat ≤ 0xFFFF) : String.utf8EncodeChar c =
    [UInt8.ofNat (c.val.toNat / 4096 + 0xE0), UInt8.ofNat (c.val.toNat / 64 % 64 + 0x80),
      UInt8.ofNat (c.val.toNat % 64 + 0x80)] := by
  have above : ¬ c.val.toNat ≤ 0x7F := by omega
  have beyond : ¬ c.val.toNat ≤ 0x7FF := by omega
  have lead : c.val.toNat / 4096 % 16 = c.val.toNat / 4096 := by omega
  simp only [String.utf8EncodeChar, above, beyond, high, ↓reduceIte, lead]

private theorem encode_four (low : 0xFFFF < c.val.toNat) : String.utf8EncodeChar c =
    [UInt8.ofNat (c.val.toNat / 262144 + 0xF0), UInt8.ofNat (c.val.toNat / 4096 % 64 + 0x80),
      UInt8.ofNat (c.val.toNat / 64 % 64 + 0x80), UInt8.ofNat (c.val.toNat % 64 + 0x80)] := by
  have valid : c.val.toNat.isValidChar := c.valid
  have above : ¬ c.val.toNat ≤ 0x7F := by omega
  have beyond : ¬ c.val.toNat ≤ 0x7FF := by omega
  have highest : ¬ c.val.toNat ≤ 0xFFFF := by omega
  have lead : c.val.toNat / 262144 % 8 = c.val.toNat / 262144 := by
    unfold Nat.isValidChar at valid
    omega
  simp only [String.utf8EncodeChar, above, beyond, highest, ↓reduceIte, lead]

theorem encode_ascii (ascii : b < 0x80) : String.utf8EncodeChar (.ofNat b.toNat) = [b] := by
  have small : b.toNat < 0x80 := UInt8.lt_iff_toNat_lt.mp ascii
  have valid : b.toNat.isValidChar := .inl (by omega)
  have value := val_ofNat valid
  rw [encode_one (by omega), value, UInt8.ofNat_toNat]

/-- An ASCII byte belongs to no other character's bytes. -/
theorem encode_of_mem (ascii : b < 0x80) (member : b ∈ String.utf8EncodeChar c) : String.utf8EncodeChar c = [b] := by
  have valid : c.val.toNat.isValidChar := c.valid
  unfold Nat.isValidChar at valid
  have small : b.toNat < 0x80 := UInt8.lt_iff_toNat_lt.mp ascii
  by_cases one : c.val.toNat ≤ 0x7F
  · rw [encode_one one, List.mem_singleton] at member
    rw [encode_one one, member]
  by_cases two : c.val.toNat ≤ 0x7FF
  · rw [encode_two (by omega) two] at member
    simp only [List.mem_cons, List.not_mem_nil, or_false, ← UInt8.toNat_inj, UInt8.toNat_ofNat'] at member
    omega
  by_cases three : c.val.toNat ≤ 0xFFFF
  · rw [encode_three (by omega) three] at member
    simp only [List.mem_cons, List.not_mem_nil, or_false, ← UInt8.toNat_inj, UInt8.toNat_ofNat'] at member
    omega
  · rw [encode_four (Nat.lt_of_not_le three)] at member
    simp only [List.mem_cons, List.not_mem_nil, or_false, ← UInt8.toNat_inj, UInt8.toNat_ofNat'] at member
    omega

/-- No character's bytes are the beginning of another's. -/
theorem char_unique {d : Char} {front back : Bytes}
    (same : String.utf8EncodeChar c ++ front = String.utf8EncodeChar d ++ back) : c = d := by
  have first := @ByteArray.utf8DecodeChar?_utf8EncodeChar_append front.toByteArray c
  have second := @ByteArray.utf8DecodeChar?_utf8EncodeChar_append back.toByteArray d
  rw [← List.toByteArray_append] at first second
  rw [same] at first
  exact Option.some.inj (first.symm.trans second)

theorem encode_prefix {d : Char} (front : String.utf8EncodeChar c <+: String.utf8EncodeChar d) : c = d := by
  obtain ⟨more, spelled⟩ := front
  rw [← List.append_nil (String.utf8EncodeChar d)] at spelled
  exact char_unique spelled

/-! ### What a first byte opens -/

private theorem opening_one (small : b.toNat ≤ 0x7F) : opening b = .whole := by
  have ascii : b < 0x80 := UInt8.lt_iff_toNat_lt.mpr (Nat.lt_succ_of_le small)
  exact if_pos ascii

theorem opening_whole (whole : opening b = .whole) : b < 0x80 := by
  by_contra above
  unfold opening at whole
  rw [if_neg above] at whole
  split_ifs at whole

private theorem opening_two (low : 0xC2 ≤ b.toNat) (high : b.toNat ≤ 0xDF) :
    opening b = .sequence ⟨b.toNat - 0xC0, continuation, []⟩ := by
  unfold opening
  simp only [UInt8.lt_iff_toNat_lt, UInt8.reduceToNat]
  rw [if_neg (by omega), if_neg (by omega), if_pos (by omega)]

/-- The second byte keeps out the overlong forms and the surrogates. -/
theorem opening_three (low : 0xE0 ≤ b.toNat) (high : b.toNat ≤ 0xEF) :
    ∃ next, opening b = .sequence ⟨b.toNat - 0xE0, next, [continuation]⟩ ∧ ∀ second, next.contains second = true ↔
      continuation.contains second = true ∧ let bits := (b.toNat - 0xE0) * 64 + second.toNat % 64
        0x20 ≤ bits ∧ (bits < 0x360 ∨ 0x37F < bits) := by
  unfold opening
  simp only [UInt8.lt_iff_toNat_lt, ← UInt8.toNat_inj, UInt8.reduceToNat]
  rw [if_neg (by omega), if_neg (by omega), if_neg (by omega)]
  split_ifs with isLeast isSurrogate isBelow
  · refine ⟨_, by rw [isLeast], fun second => ?_⟩
    simp only [contains_iff, continuation, UInt8.reduceToNat]
    omega
  · refine ⟨_, by rw [isSurrogate], fun second => ?_⟩
    simp only [contains_iff, continuation, UInt8.reduceToNat]
    omega
  · refine ⟨_, rfl, fun second => ?_⟩
    simp only [contains_iff, continuation, UInt8.reduceToNat]
    omega
  all_goals omega

/-- The second byte keeps out the overlong forms and what is above the last character. -/
theorem opening_four (low : 0xF0 ≤ b.toNat) (high : b.toNat ≤ 0xF4) :
    ∃ next, opening b = .sequence ⟨b.toNat - 0xF0, next, [continuation, continuation]⟩ ∧
      ∀ second, next.contains second = true ↔
        continuation.contains second = true ∧ let bits := (b.toNat - 0xF0) * 64 + second.toNat % 64
          0x10 ≤ bits ∧ bits < 0x110 := by
  unfold opening
  simp only [UInt8.lt_iff_toNat_lt, ← UInt8.toNat_inj, UInt8.reduceToNat]
  rw [if_neg (by omega), if_neg (by omega), if_neg (by omega), if_neg (by omega), if_neg (by omega),
    if_neg (by omega)]
  split_ifs with isLeast isBelow isLast
  · refine ⟨_, by rw [isLeast], fun second => ?_⟩
    simp only [contains_iff, continuation, UInt8.reduceToNat]
    omega
  · refine ⟨_, rfl, fun second => ?_⟩
    simp only [contains_iff, continuation, UInt8.reduceToNat]
    omega
  · refine ⟨_, by rw [isLast], fun second => ?_⟩
    simp only [contains_iff, continuation, UInt8.reduceToNat]
    omega
  · omega

private theorem opening_lead (opens : opening b = .sequence opened) :
    (0xC2 ≤ b.toNat ∧ b.toNat ≤ 0xDF) ∨ (0xE0 ≤ b.toNat ∧ b.toNat ≤ 0xEF) ∨ (0xF0 ≤ b.toNat ∧ b.toNat ≤ 0xF4) := by
  unfold opening at opens
  simp only [UInt8.lt_iff_toNat_lt, ← UInt8.toNat_inj, UInt8.reduceToNat] at opens
  split_ifs at opens <;> omega

/-! ### Sequences that are unfinished -/

private theorem finishes_last {bits : Nat} {next : ByteRange} : Finishes ⟨bits, next, []⟩ bytes c ↔
    ∃ b, bytes = [b] ∧ next.contains b = true ∧ c = .ofNat (bits * 64 + b.toNat % 64) := by
  constructor
  · rintro ⟨inside⟩
    exact ⟨_, rfl, inside, rfl⟩
  · rintro ⟨b, rfl, inside, rfl⟩
    exact .last inside

private theorem finishes_more {bits : Nat} {next range : ByteRange} {later : List ByteRange} :
    Finishes ⟨bits, next, range :: later⟩ bytes c ↔
      ∃ b more, bytes = b :: more ∧ next.contains b = true ∧
        Finishes ⟨bits * 64 + b.toNat % 64, range, later⟩ more c := by
  constructor
  · rintro (_ | ⟨inside, finishes⟩)
    exact ⟨_, _, rfl, inside, finishes⟩
  · rintro ⟨b, more, rfl, inside, finishes⟩
    exact .more inside finishes

private theorem encode_of_finishes (opens : opening b = .sequence opened) (finishes : Finishes opened bytes c) :
    String.utf8EncodeChar c = b :: bytes := by
  rcases opening_lead opens with ⟨low, high⟩ | ⟨low, high⟩ | ⟨low, high⟩
  · obtain rfl := Opening.sequence.inj (opens.symm.trans (opening_two low high))
    simp only [finishes_last, continuation_iff] at finishes
    obtain ⟨second, rfl, inside, rfl⟩ := finishes
    have valid : ((b.toNat - 0xC0) * 64 + second.toNat % 64).isValidChar := by
      unfold Nat.isValidChar
      omega
    have value := val_ofNat valid
    rw [encode_two (by omega) (by omega), value]
    simp only [List.cons.injEq, ← UInt8.toNat_inj, UInt8.toNat_ofNat', and_true]
    omega
  · obtain ⟨next, table, inside⟩ := opening_three low high
    obtain rfl := Opening.sequence.inj (opens.symm.trans table)
    simp only [finishes_more, finishes_last, inside, continuation_iff] at finishes
    obtain ⟨second, _, rfl, ⟨isSecond, least, scalar⟩, third, rfl, isThird, rfl⟩ := finishes
    have valid : (((b.toNat - 0xE0) * 64 + second.toNat % 64) * 64 + third.toNat % 64).isValidChar := by
      unfold Nat.isValidChar
      omega
    have value := val_ofNat valid
    rw [encode_three (by omega) (by omega), value]
    simp only [List.cons.injEq, ← UInt8.toNat_inj, UInt8.toNat_ofNat', and_true]
    omega
  · obtain ⟨next, table, inside⟩ := opening_four low high
    obtain rfl := Opening.sequence.inj (opens.symm.trans table)
    simp only [finishes_more, finishes_last, inside, continuation_iff] at finishes
    obtain ⟨second, _, rfl, ⟨isSecond, least, most⟩, third, _, rfl, isThird, fourth, rfl, isFourth, rfl⟩ := finishes
    have valid : ((((b.toNat - 0xF0) * 64 + second.toNat % 64) * 64 + third.toNat % 64) * 64 +
        fourth.toNat % 64).isValidChar := by
      unfold Nat.isValidChar
      omega
    have value := val_ofNat valid
    rw [encode_four (by omega), value]
    simp only [List.cons.injEq, ← UInt8.toNat_inj, UInt8.toNat_ofNat', and_true]
    omega

private theorem finishes_of_encode (spelled : String.utf8EncodeChar c = b :: bytes) :
    opening b = .whole ∧ bytes = [] ∧ c = .ofNat b.toNat ∨
      ∃ opened, opening b = .sequence opened ∧ Finishes opened bytes c := by
  have valid : c.val.toNat.isValidChar := c.valid
  unfold Nat.isValidChar at valid
  by_cases one : c.val.toNat ≤ 0x7F
  · obtain ⟨lead, rfl⟩ := List.cons.inj ((encode_one one).symm.trans spelled)
    have value : b.toNat = c.val.toNat := by
      rw [← lead, UInt8.toNat_ofNat']
      omega
    exact .inl ⟨opening_one (by omega), rfl, by rw [value, ofNat_val]⟩
  by_cases two : c.val.toNat ≤ 0x7FF
  · obtain ⟨lead, rfl⟩ := List.cons.inj ((encode_two (by omega) two).symm.trans spelled)
    have value : b.toNat = c.val.toNat / 64 + 0xC0 := by
      rw [← lead, UInt8.toNat_ofNat']
      omega
    refine .inr ⟨_, opening_two (by omega) (by omega), finishes_last.mpr ⟨_, rfl, ?_, ?_⟩⟩
    · rw [continuation_iff, UInt8.toNat_ofNat']
      omega
    · refine (ofNat_val c).symm.trans (congrArg Char.ofNat ?_)
      rw [UInt8.toNat_ofNat', value]
      omega
  by_cases three : c.val.toNat ≤ 0xFFFF
  · obtain ⟨lead, rfl⟩ := List.cons.inj ((encode_three (by omega) three).symm.trans spelled)
    have value : b.toNat = c.val.toNat / 4096 + 0xE0 := by
      rw [← lead, UInt8.toNat_ofNat']
      omega
    obtain ⟨next, table, inside⟩ := opening_three (b := b) (by omega) (by omega)
    refine .inr ⟨_, table, finishes_more.mpr ⟨_, _, rfl, ?_, finishes_last.mpr ⟨_, rfl, ?_, ?_⟩⟩⟩
    · rw [inside, continuation_iff, UInt8.toNat_ofNat']
      dsimp only
      omega
    · rw [continuation_iff, UInt8.toNat_ofNat']
      omega
    · refine (ofNat_val c).symm.trans (congrArg Char.ofNat ?_)
      rw [UInt8.toNat_ofNat', UInt8.toNat_ofNat', value]
      omega
  · obtain ⟨lead, rfl⟩ := List.cons.inj ((encode_four (by omega)).symm.trans spelled)
    have value : b.toNat = c.val.toNat / 262144 + 0xF0 := by
      rw [← lead, UInt8.toNat_ofNat']
      omega
    obtain ⟨next, table, inside⟩ := opening_four (b := b) (by omega) (by omega)
    refine .inr ⟨_, table, finishes_more.mpr ⟨_, _, rfl, ?_, finishes_more.mpr ⟨_, _, rfl, ?_,
      finishes_last.mpr ⟨_, rfl, ?_, ?_⟩⟩⟩⟩
    · rw [inside, continuation_iff, UInt8.toNat_ofNat']
      dsimp only
      omega
    · rw [continuation_iff, UInt8.toNat_ofNat']
      omega
    · rw [continuation_iff, UInt8.toNat_ofNat']
      omega
    · refine (ofNat_val c).symm.trans (congrArg Char.ofNat ?_)
      rw [UInt8.toNat_ofNat', UInt8.toNat_ofNat', UInt8.toNat_ofNat', value]
      omega

private theorem opening_never (never : opening b = .never) : ¬ Begins [b] := by
  rintro ⟨c, more, spelled⟩
  rcases finishes_of_encode spelled.symm with ⟨whole, -⟩ | ⟨opened, opens, -⟩
  · cases never.symm.trans whole
  · cases never.symm.trans opens

/-- What can still follow an unfinished sequence is what completes an encoding. -/
theorem finishes_iff (after : After part opened) : Finishes opened bytes c ↔ String.utf8EncodeChar c = part ++ bytes := by
  induction after generalizing bytes with
  | @opens b opened opens =>
    constructor
    · exact encode_of_finishes opens
    · intro spelled
      rcases finishes_of_encode spelled with ⟨whole, -⟩ | ⟨other, again, finishes⟩
      · cases opens.symm.trans whole
      · obtain rfl := Opening.sequence.inj (opens.symm.trans again)
        exact finishes
  | @goesOn part bits next range later b after inside ih =>
    rw [List.append_assoc, ← ih, List.singleton_append]
    constructor
    · exact .more inside
    · intro finishes
      obtain ⟨_, _, same, -, later⟩ := finishes_more.mp finishes
      obtain ⟨rfl, rfl⟩ := List.cons.inj same
      exact later

/-- No range of bytes that an unfinished sequence waits for is empty. -/
theorem after_filled (after : After part opened) :
    ∀ range ∈ opened.next :: opened.later, range.contains range.lower = true := by
  induction after with
  | @opens b opened opens =>
    unfold opening at opens
    split_ifs at opens <;> obtain rfl := Opening.sequence.inj opens <;> simp only [List.forall_mem_cons] <;> decide
  | goesOn after inside ih => exact fun range member => ih range (List.mem_cons_of_mem _ member)

private theorem finishes_lowest {bits : Nat} {next : ByteRange} {later : List ByteRange}
    (filled : ∀ range ∈ next :: later, range.contains range.lower = true) :
    ∃ c, Finishes ⟨bits, next, later⟩ (next.lower :: later.map (·.lower)) c := by
  induction later generalizing bits next with
  | nil => exact ⟨_, .last (filled next (by simp))⟩
  | cons range later ih =>
    obtain ⟨inside, others⟩ := List.forall_mem_cons.mp filled
    obtain ⟨c, finishes⟩ := ih others
    exact ⟨c, .more inside finishes⟩

/-- A sequence that is unfinished can be finished by further bytes. -/
theorem after_begins (after : After part opened) :
    part ≠ [] ∧ ∃ c more, more ≠ [] ∧ String.utf8EncodeChar c = part ++ more := by
  refine ⟨?_, ?_⟩
  · cases after <;> simp
  · obtain ⟨c, finishes⟩ := finishes_lowest (after_filled after)
    exact ⟨c, _, by simp, (finishes_iff after).mp finishes⟩

/-! ### Parts -/

/-- A part ends where the next byte cannot go on with it. -/
theorem illFormed_of_stop (shape : part.length = 1 ∨ part ≠ [] ∧ Begins part)
    (proper : ∀ c, ¬ String.utf8EncodeChar c <+: part) (stops : ∀ b, rest.head? = some b → ¬ Begins (part ++ [b])) :
    IllFormed part rest := by
  have within : ∀ longer, longer <+: part ++ rest → Begins longer → longer <+: part := by
    intro longer front begins
    cases rest with
    | nil => simpa using front
    | cons b rest =>
      rw [← List.singleton_append, ← List.append_assoc] at front
      rcases List.prefix_or_prefix_of_prefix front (List.prefix_append _ rest) with short | long
      · rcases List.prefix_concat_iff.mp short with rfl | short
        · exact absurd begins (stops b rfl)
        · exact short
      · obtain ⟨c, more⟩ := begins
        exact absurd ⟨c, long.trans more⟩ (stops b rfl)
  constructor
  · intro c front
    exact proper c (within _ front ⟨c, List.prefix_rfl⟩)
  · exact shape
  · intro longer front begins
    exact (within longer front begins).length_le

private theorem finishes_next (finishes : Finishes opened (b :: bytes) c) : opened.next.contains b = true := by
  cases finishes with
  | last inside => exact inside
  | more inside _ => exact inside

/-- An unfinished sequence is ill-formed at the end of the bytes and before a byte outside the range. -/
theorem illFormed_after (after : After part opened)
    (stops : ∀ b, rest.head? = some b → opened.next.contains b = false) : IllFormed part rest := by
  obtain ⟨nonempty, c, more, unread, spelled⟩ := after_begins after
  have within : part <+: String.utf8EncodeChar c := ⟨more, spelled.symm⟩
  refine illFormed_of_stop (.inr ⟨nonempty, c, within⟩) ?_ ?_
  · intro d front
    obtain rfl := encode_prefix (front.trans within)
    have shorter := front.length_le
    have nonempty := List.length_pos_iff.mpr unread
    rw [spelled, List.length_append] at shorter
    omega
  · rintro b head ⟨d, others, longer⟩
    rw [List.append_assoc] at longer
    have inside := finishes_next ((finishes_iff after).mpr longer.symm)
    rw [stops b head] at inside
    cases inside

theorem illFormed_never (never : opening b = .never) (rest : Bytes) : IllFormed [b] rest := by
  refine illFormed_of_stop (.inl rfl) ?_ ?_
  · intro c front
    rcases List.prefix_concat_iff.mp (show _ <+: [] ++ [b] from front) with whole | empty
    · exact opening_never never ⟨c, whole ▸ List.prefix_rfl⟩
    · exact String.utf8EncodeChar_ne_nil (List.prefix_nil.mp empty)
  · rintro d - ⟨c, within⟩
    exact opening_never never ⟨c, (List.prefix_append [b] [d]).trans within⟩

/-- A part stays ill-formed when other bytes follow an end that it went up to, unless they go on with it. -/
theorem illFormed_append {more : Bytes} (ill : IllFormed part rest)
    (stops : rest = [] → ∀ b, more.head? = some b → ¬ Begins (part ++ [b])) : IllFormed part (rest ++ more) := by
  refine illFormed_of_stop ill.shape ?_ ?_
  · intro c front
    exact ill.unreadable c (front.trans (List.prefix_append part rest))
  · intro b head begins
    cases rest with
    | nil => exact stops rfl b head begins
    | cons d rest =>
      obtain rfl := Option.some.inj head
      have longer : part ++ [d] <+: part ++ d :: rest := by simp
      have short := ill.maximal _ longer begins
      rw [List.length_append, List.length_singleton] at short
      omega

theorem illFormed_nonempty (ill : IllFormed part rest) : 0 < part.length := by
  rcases ill.shape with single | ⟨nonempty, -⟩
  · omega
  · exact List.length_pos_iff.mpr nonempty

/-- No ASCII byte is replaced. -/
theorem illFormed_above (ill : IllFormed part rest) (ascii : b < 0x80) : b ∉ part := by
  intro member
  have alone : part = [b] := by
    rcases ill.shape with single | ⟨nonempty, c, within⟩
    · obtain ⟨d, rfl⟩ := List.length_eq_one_iff.mp single
      rw [List.mem_singleton.mp member]
    · rw [encode_of_mem ascii (within.subset member)] at within
      exact (List.prefix_concat_iff.mp (show part <+: [] ++ [b] from within)).resolve_right
        fun empty => nonempty (List.prefix_nil.mp empty)
  refine ill.unreadable (.ofNat b.toNat) ?_
  rw [encode_ascii ascii, alone]
  exact List.prefix_append [b] rest

/-- Of two ill-formed parts at the same place neither is longer. -/
theorem illFormed_length {other after : Bytes} (one : IllFormed part rest) (two : IllFormed other after)
    (same : part ++ rest = other ++ after) : part.length ≤ other.length := by
  rcases one.shape with single | ⟨-, begins⟩
  · have := illFormed_nonempty two
    omega
  · exact two.maximal part ⟨rest, same⟩ begins

theorem parts_unique {others : List (Option Char)} (one : Parts bytes parts) (two : Parts bytes others) :
    others = parts := by
  induction one generalizing others with
  | nil =>
    generalize empty : ([] : Bytes) = bytes at two
    cases two with
    | nil => rfl
    | sequence c => exact absurd (List.append_eq_nil_iff.mp empty.symm).1 String.utf8EncodeChar_ne_nil
    | illFormed ill =>
      have nonempty := illFormed_nonempty ill
      simp [(List.append_eq_nil_iff.mp empty.symm).1] at nonempty
  | @sequence rest parts c _ ih =>
    generalize same : String.utf8EncodeChar c ++ rest = bytes at two
    cases two with
    | nil => exact absurd (List.append_eq_nil_iff.mp same).1 String.utf8EncodeChar_ne_nil
    | @sequence after others d later =>
      obtain rfl := char_unique same
      obtain rfl := List.append_cancel_left same
      rw [ih later]
    | illFormed ill => exact absurd ⟨rest, same⟩ (ill.unreadable c)
  | @illFormed part rest parts ill _ ih =>
    generalize same : part ++ rest = bytes at two
    cases two with
    | nil =>
      have nonempty := illFormed_nonempty ill
      simp [(List.append_eq_nil_iff.mp same).1] at nonempty
    | sequence d => exact absurd ⟨_, same.symm⟩ (ill.unreadable d)
    | @illFormed other after others two later =>
      have lengths : part.length = other.length :=
        Nat.le_antisymm (illFormed_length ill two same) (illFormed_length two ill same.symm)
      obtain ⟨-, rfl⟩ := List.append_inj same lengths
      rw [ih later]

end LoxLexer.WellFormed

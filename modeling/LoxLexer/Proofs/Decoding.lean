import LoxLexer.Proofs.Lines
import LoxLexer.Proofs.Runs
import LoxLexer.Proofs.WellFormed

/-!
Decoding reads bytes part by part: the decoder finds their division into well-formed sequences and
maximal ill-formed parts (`parts_characters`). So text that was encoded comes back (`decode_encode`), an
ASCII byte ends whatever stands before it and is read as itself (`decode_ascii`), and every quote and
every line feed of the bytes is one of the text (`count_decode`).
-/

namespace LoxLexer.Decoding
open LoxLexer.Utf8 LoxLexer.WellFormed LoxLexer.Effects LoxLexer.Runs

variable {b : UInt8} {bytes rest : Bytes} {c : Char} {parts : List (Option Char)}

/-! ### The decoder -/

/-- A decoder that has read something else before. -/
private def onto (decoder : Decoder) (earlier : List (Option Char)) : Decoder :=
  ⟨decoder.read ++ earlier, decoder.unfinished⟩

private theorem begin_onto (read earlier : List (Option Char)) (b : UInt8) :
    Decoder.begin (read ++ earlier) b = onto (Decoder.begin read b) earlier := by
  unfold Decoder.begin
  cases opening b <;> rfl

private theorem step_onto (decoder : Decoder) (earlier : List (Option Char)) (b : UInt8) :
    (onto decoder earlier).step b = onto (decoder.step b) earlier := by
  obtain ⟨read, _ | ⟨bits, next, later⟩⟩ := decoder
  · exact begin_onto read earlier b
  · by_cases inside : next.contains b = true
    · cases later <;> simp [onto, Decoder.step, inside]
    · simp only [onto, Decoder.step, inside, Bool.false_eq_true, ↓reduceIte]
      exact begin_onto (none :: read) earlier b

private theorem fold_onto (bytes : Bytes) (decoder : Decoder) (earlier : List (Option Char)) :
    bytes.foldl Decoder.step (onto decoder earlier) = onto (bytes.foldl Decoder.step decoder) earlier := by
  induction bytes generalizing decoder with
  | nil => rfl
  | cons b bytes ih => rw [List.foldl_cons, List.foldl_cons, step_onto, ih]

private theorem finish_onto (decoder : Decoder) (earlier : List (Option Char)) :
    (onto decoder earlier).finish = earlier.reverse ++ decoder.finish := by
  obtain ⟨read, _ | opened⟩ := decoder <;> simp [onto, Decoder.finish]

/-- What a decoder that stands within a sequence still reads. -/
def reading (opened : Unfinished) (bytes : Bytes) : List (Option Char) :=
  (bytes.foldl Decoder.step ⟨[], some opened⟩).finish

private theorem characters_onto (bytes : Bytes) (earlier : List (Option Char)) :
    (bytes.foldl Decoder.step ⟨earlier, none⟩).finish = earlier.reverse ++ characters bytes := by
  rw [show (⟨earlier, none⟩ : Decoder) = onto .start earlier from rfl, fold_onto, finish_onto]
  rfl

private theorem characters_cons (b : UInt8) (bytes : Bytes) : characters (b :: bytes) =
    match opening b with
    | .whole => some (.ofNat b.toNat) :: characters bytes
    | .sequence opened => reading opened bytes
    | .never => none :: characters bytes := by
  have first : Decoder.start.step b = Decoder.begin [] b := rfl
  rw [characters, List.foldl_cons, first, Decoder.begin]
  cases opening b with
  | whole => exact characters_onto bytes [_]
  | sequence => rfl
  | never => exact characters_onto bytes [none]

private theorem reading_cons (opened : Unfinished) (b : UInt8) (bytes : Bytes) : reading opened (b :: bytes) =
    if opened.next.contains b then
      match opened.later with
      | [] => some (.ofNat (opened.bits * 64 + b.toNat % 64)) :: characters bytes
      | range :: later => reading ⟨opened.bits * 64 + b.toNat % 64, range, later⟩ bytes
    else none :: characters (b :: bytes) := by
  obtain ⟨bits, next, later⟩ := opened
  rw [reading, List.foldl_cons, Decoder.step]
  dsimp only
  split
  · cases later with
    | nil => exact characters_onto bytes [_]
    | cons => rfl
  · exact characters_onto (b :: bytes) [none]

private theorem parts_after (bytes : Bytes) : Parts bytes (characters bytes) ∧
    ∀ part opened, After part opened → Parts (part ++ bytes) (reading opened bytes) := by
  induction bytes with
  | nil =>
    refine ⟨.nil, fun part opened after => ?_⟩
    exact .illFormed (illFormed_after after (by simp)) .nil
  | cons b bytes ih =>
    obtain ⟨whole, within⟩ := ih
    have front : Parts (b :: bytes) (characters (b :: bytes)) := by
      rw [characters_cons]
      cases opens : opening b with
      | whole =>
        have read := Parts.sequence (.ofNat b.toNat) whole
        rw [encode_ascii (opening_whole opens)] at read
        exact read
      | sequence opened => exact within [b] opened (.opens opens)
      | never => exact .illFormed (illFormed_never opens bytes) whole
    refine ⟨front, fun part opened after => ?_⟩
    rw [reading_cons]
    split
    · next inside =>
      obtain ⟨bits, next, later⟩ := opened
      cases later with
      | nil =>
        have spelled := (finishes_iff after).mp (.last inside)
        rw [← List.singleton_append, ← List.append_assoc, ← spelled]
        exact .sequence _ whole
      | cons range later =>
        rw [← List.singleton_append, ← List.append_assoc]
        exact within _ _ (.goesOn after inside)
    · next outside =>
      refine .illFormed (illFormed_after after ?_) front
      rintro _ ⟨⟩
      exact Bool.eq_false_iff.mpr outside

/-- The decoder divides bytes into their parts. -/
theorem parts_characters (bytes : Bytes) : Parts bytes (characters bytes) := (parts_after bytes).1

private theorem characters_of_parts (division : Parts bytes parts) : characters bytes = parts :=
  parts_unique division (parts_characters bytes)

/-! ### Well-formed bytes -/

private theorem parts_encode (text : Text) : Parts (encode text) (text.map some) := by
  induction text with
  | nil => exact .nil
  | cons c text ih => exact .sequence c ih

theorem decode_encode (text : Text) : decode (encode text) = text := by
  rw [decode, characters_of_parts (parts_encode text), List.map_map]
  exact List.map_id text

private theorem replaces_encode (text : Text) : replaces (encode text) = false := by
  simp [replaces, characters_of_parts (parts_encode text)]

private theorem encode_of_parts (division : Parts bytes parts) (whole : none ∉ parts) :
    encode (parts.map (·.getD replacement)) = bytes := by
  induction division with
  | nil => rfl
  | @sequence rest parts c _ ih =>
    have later : none ∉ parts := fun member => whole (List.mem_cons_of_mem _ member)
    rw [List.map_cons, ← ih later]
    exact List.flatMap_cons ..
  | illFormed => simp at whole

private theorem encode_decode (whole : replaces bytes = false) : encode (decode bytes) = bytes := by
  refine encode_of_parts (parts_characters bytes) fun member => ?_
  have replaced : replaces bytes = true := List.any_eq_true.mpr ⟨none, member, rfl⟩
  cases whole.symm.trans replaced

/-- Decoding replaces something exactly in bytes that are the encoding of no text. -/
theorem replaces_iff : replaces bytes = true ↔ ¬ ∃ text, bytes = encode text := by
  constructor
  · rintro replaced ⟨text, rfl⟩
    cases replaced.symm.trans (replaces_encode text)
  · intro foreign
    by_contra whole
    exact foreign ⟨decode bytes, (encode_decode (Bool.eq_false_iff.mpr whole)).symm⟩

/-! ### ASCII bytes -/

/-- An ASCII byte ends whatever stands before it and is read as itself. -/
theorem parts_ascii {others : List (Option Char)} (ascii : b < 0x80) (front : Parts bytes parts)
    (back : Parts rest others) : Parts (bytes ++ b :: rest) (parts ++ some (.ofNat b.toNat) :: others) := by
  have read := Parts.sequence (.ofNat b.toNat) back
  rw [encode_ascii ascii] at read
  induction front with
  | nil => exact read
  | sequence c _ ih =>
    rw [List.append_assoc]
    exact .sequence c ih
  | @illFormed part after parts ill _ ih =>
    rw [List.append_assoc]
    refine .illFormed (illFormed_append ill ?_) ih
    rintro - _ ⟨⟩ ⟨c, within⟩
    have alone := encode_of_mem ascii (within.subset (by simp))
    have nonempty := illFormed_nonempty ill
    have short := within.length_le
    rw [alone, List.length_append, List.length_singleton] at short
    omega

theorem decode_ascii (front back : Bytes) (ascii : b < 0x80) :
    decode (front ++ b :: back) = decode front ++ .ofNat b.toNat :: decode back := by
  have read := parts_ascii ascii (parts_characters front) (parts_characters back)
  simp [decode, characters_of_parts read]

private theorem count_encode (ascii : b < 0x80) :
    (String.utf8EncodeChar c).count b = if c = .ofNat b.toNat then 1 else 0 := by
  split
  · next same => rw [same, encode_ascii ascii, List.count_singleton_self]
  · next differs =>
    refine List.count_eq_zero.mpr fun member => differs ?_
    have spelled := (encode_of_mem ascii member).trans (encode_ascii ascii).symm
    exact encode_prefix (spelled ▸ List.prefix_rfl)

private theorem replacement_above (ascii : b < 0x80) : replacement ≠ .ofNat b.toNat := by
  intro same
  have small : b.toNat < 0x80 := UInt8.lt_iff_toNat_lt.mp ascii
  have value : replacement.val.toNat = b.toNat := same ▸ val_ofNat (.inl (by omega))
  have large : replacement.val.toNat = 0xFFFD := rfl
  omega

private theorem count_of_parts (ascii : b < 0x80) (division : Parts bytes parts) :
    (parts.map (·.getD replacement)).count (.ofNat b.toNat) = bytes.count b := by
  induction division with
  | nil => rfl
  | @sequence rest parts c _ ih =>
    rw [List.map_cons, List.count_cons, ih, List.count_append, count_encode ascii, Option.getD_some]
    simp only [beq_iff_eq]
    omega
  | @illFormed part rest parts ill _ ih =>
    rw [List.map_cons, List.count_cons, ih, List.count_append, List.count_eq_zero.mpr (illFormed_above ill ascii)]
    simp [replacement_above ascii]

/-- Every ASCII byte is read, and no ASCII character is read where there is no such byte. -/
theorem count_decode (ascii : b < 0x80) (bytes : Bytes) : (decode bytes).count (.ofNat b.toNat) = bytes.count b :=
  count_of_parts ascii (parts_characters bytes)

/-- Decoding keeps the number of line breaks. -/
theorem lineBreaks_decode (bytes : Bytes) : (decode bytes).lineBreaks = bytes.count 0x0A :=
  count_decode (b := 0x0A) (by decide) bytes

/-! ### Sources -/

/-- Whether an entry of the log tells of replaced bytes. -/
def announces (entry : Entry) : Bool := entry.message = "replaced invalid UTF-8 in source".toList

/-- What a message tells of replaced bytes. -/
def notice? : Message → Option Entry
  | .log entry _ => if announces entry then some entry else none
  | .diagnostic _ => none

private theorem notices_opening (text : Text) : announces (Scan.opening text).entry = false := by
  have other : (Scan.opening text).entry.message ≠ "replaced invalid UTF-8 in source".toList :=
    (by decide +kernel : "scanning source".toList ≠ "replaced invalid UTF-8 in source".toList)
  simp only [announces, other, decide_false]

private theorem closing_message (scan : Scan) : scan.closing.message.head? = some 's' := by
  unfold Scan.closing
  cases scan.error <;> rfl

private theorem notices_closing (scan : Scan) : announces scan.closing.entry = false := by
  have other : scan.closing.entry.message ≠ "replaced invalid UTF-8 in source".toList := by
    intro same
    have begins := closing_message scan
    rw [show scan.closing.message = _ from same] at begins
    cases begins
  simp only [announces, other, decide_false]

/-- Of the entries about a source only the first can tell of replaced bytes. -/
theorem announced_entries (bytes : Bytes) (scan : Scan) : (entries bytes scan).filter announces =
    if replaces bytes then [Program.replaced bytes.length] else [] := by
  have replaced : announces (Program.replaced bytes.length) = true := decide_eq_true rfl
  unfold entries
  split <;> simp [replaced, notices_opening, notices_closing]

/-- An entry tells of replaced bytes where it is heard. -/
theorem notices_heard {passes : Entry → Bool} (line : Nat → Entry → Text) (told : List Entry) (messages : List Message) :
    ((told.map Remark.entry).foldl (hear line passes) messages).filterMap notice? =
      messages.filterMap notice? ++ (told.filter announces).filter passes := by
  induction told generalizing messages with
  | nil => simp
  | cons entry told ih =>
    rw [List.map_cons, List.foldl_cons, ih]
    cases shown : passes entry <;> cases telling : announces entry <;> simp [hear, notice?, shown, telling]

/-- Saying what comes of a source tells of replaced bytes if there are any. -/
theorem notices_said {passes : Entry → Bool} (line : Nat → Entry → Text) (bytes : Bytes) (scan : Scan)
    (messages : List Message) : ((said bytes scan).foldl (hear line passes) messages).filterMap notice? =
      messages.filterMap notice? ++ (if replaces bytes then [Program.replaced bytes.length] else []).filter passes := by
  rw [← announced_entries bytes scan]
  cases ended : scan.result with
  | ok found =>
    rw [said_ok ended]
    exact notices_heard line _ messages
  | error error =>
    rw [said_error ended, List.foldl_append, List.foldl_cons, List.foldl_nil, hear, List.filterMap_append, notices_heard]
    simp [notice?]

/-- What is announced where a source of any bytes is answered. -/
theorem notices_answer (config : Config) (bytes : Bytes) (world : World) (streams : Streams) :
    ((Program.answer (m := Run) config bytes).run world streams).2.stderr.filterMap notice? =
      streams.stderr.filterMap notice? ++
        (if replaces bytes then [Program.replaced bytes.length] else []).filter streams.passes := by
  obtain ⟨result, output, acts⟩ := acts_answer_any world streams.unread bytes config
  have behind : (Program.answer (m := Run) config bytes).run world streams = _ :=
    acts world.setting world.line streams rfl
  rw [behind]
  exact notices_said world.line bytes (scanned config bytes) streams.stderr

/-- What decoding keeps of bytes and what it replaces. -/
structure Lossy (bytes : Bytes) : Prop where
  /-- The bytes are divided in one way into well-formed sequences and maximal ill-formed parts. Each sequence is
      copied, and one replacement character stands for each of the others. -/
  divided : ∃ parts, Parts bytes parts ∧ (∀ others, Parts bytes others → others = parts) ∧
    decode bytes = parts.map (·.getD '\uFFFD')
  /-- Wherever the encoding of a text is answered, the log tells of no replaced bytes. -/
  silent : (∃ text, bytes = encode text) → ∀ (config : Config) (world : World) (streams : Streams),
    ((Program.answer (m := Run) config bytes).run world streams).2.stderr.filterMap notice? =
      streams.stderr.filterMap notice?
  /-- Other bytes are told of once, if this is to be shown of the log. -/
  announced : (¬ ∃ text, bytes = encode text) → ∀ (config : Config) (world : World) (streams : Streams),
    ((Program.answer (m := Run) config bytes).run world streams).2.stderr.filterMap notice? =
      streams.stderr.filterMap notice? ++ [Program.replaced bytes.length].filter streams.passes
  /-- The decoded text has the same bytes exactly if nothing is replaced. -/
  kept : (∃ text, bytes = encode text) ↔ encode (decode bytes) = bytes
  /-- An ASCII byte ends what stands before it: text on either side of one is decoded by itself. -/
  cut : ∀ (front back : Bytes) (b : UInt8), b < 0x80 →
    decode (front ++ [b] ++ back) = decode front ++ [.ofNat b.toNat] ++ decode back
  /-- There are as many ASCII characters of each kind as there are such bytes. -/
  counted : ∀ b : UInt8, b < 0x80 → (decode bytes).count (.ofNat b.toNat) = bytes.count b
  /-- A scan that comes to the end has counted the line feeds of the bytes. -/
  finished : ∀ config, let scan := Scan.ofText config (decode bytes)
    scan.error = none → scan.stop.line = 1 + bytes.count 0x0A
  /-- So has one that leaves a string open. -/
  opened : ∀ config line, (Scan.ofText config (decode bytes)).error = some (.unterminatedString line) →
    line = 1 + bytes.count 0x0A
  /-- Decoded text is decoded to itself. -/
  again : decode (encode (decode bytes)) = decode bytes

/-- All bytes can be read, and what is ill-formed among them swallows nothing that is not. -/
theorem decode_lossy (bytes : Bytes) : Lossy bytes where
  divided := ⟨characters bytes, parts_characters bytes, fun _ => parts_unique (parts_characters bytes), rfl⟩
  silent := by
    rintro ⟨text, rfl⟩ config world streams
    rw [notices_answer, replaces_encode]
    exact List.append_nil _
  announced := by
    intro foreign config world streams
    rw [notices_answer, if_pos (replaces_iff.mpr foreign)]
  kept := by
    refine ⟨?_, fun same => ⟨decode bytes, same.symm⟩⟩
    rintro ⟨text, rfl⟩
    rw [decode_encode]
  cut := by
    intro front back b ascii
    rw [List.append_assoc, List.append_assoc]
    exact decode_ascii front back ascii
  counted := fun _ ascii => count_decode ascii bytes
  finished := by
    intro config _ succeeds
    rw [Lines.end_line succeeds, lineBreaks_decode]
  opened := by
    intro config line fails
    rw [Lines.unterminated_line fails, lineBreaks_decode]
  again := decode_encode (decode bytes)

/-- A sequence cut short by the quote that closes a string, and an overlong form in an open string. -/
theorem decode_lossy_in_strings :
    let closed : Bytes := [0x22, 0xE2, 0x82, 0x22, 0x0A]
    let opened : Bytes := [0x22, 0xC0, 0xAF, 0x0A, 0xED, 0xA0, 0x80]
    let world : World := {}
    let notices (bytes : Bytes) := ((Program.answer (m := Run) {} bytes).run world
      { unread := [], passes := fun _ => true }).2.stderr.filterMap notice?
    (decode closed = ['"', '\uFFFD', '"', '\n'] ∧ ¬ ∃ text, closed = encode text) ∧
      notices closed = [Program.replaced 5] ∧
      (∃ text, [0xEF, 0xBF, 0xBD] = encode text) ∧
      notices [0xEF, 0xBF, 0xBD] = [] ∧
      decode ([0x22, 0xE2, 0x82] ++ [0x22] ++ [0x0A]) = decode [0x22, 0xE2, 0x82] ++ ['"'] ++ decode [0x0A] ∧
      (decode closed).count '"' = closed.count 0x22 ∧
      ((Scan.ofText {} (decode closed)).error = none ∧
        (Scan.ofText {} (decode closed)).stop.line = 1 + closed.count 0x0A) ∧
      (Scan.ofText {} (decode opened)).error = some (.unterminatedString 2) ∧ 2 = 1 + opened.count 0x0A := by
  intro closed opened world notices
  have lossy := decode_lossy closed
  have foreign : ¬ ∃ text, closed = encode text := by
    rw [lossy.kept]
    decide +kernel
  have plain : ∃ text, [0xEF, 0xBF, 0xBD] = encode text := ⟨['\uFFFD'], by decide +kernel⟩
  have ends : (Scan.ofText {} (decode closed)).error = none := by decide +kernel
  have isOpen : (Scan.ofText {} (decode opened)).error = some (.unterminatedString 2) := by decide +kernel
  exact ⟨⟨by decide +kernel, foreign⟩, lossy.announced foreign {} world _, plain,
    (decode_lossy [0xEF, 0xBF, 0xBD]).silent plain {} world _,
    lossy.cut [0x22, 0xE2, 0x82] [0x0A] 0x22 (by decide), lossy.counted 0x22 (by decide),
    ⟨ends, lossy.finished {} ends⟩, isOpen, (decode_lossy opened).opened {} 2 isOpen⟩

end LoxLexer.Decoding

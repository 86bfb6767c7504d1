import LoxLexer.Proofs.LineByLine
import LoxLexer.Proofs.Notation

/-!
Reading a dump of tokens back. A dump escapes nothing, and a string may spell whole records in it, but a record
ends at one place all the same: its line and its kind end at a blank, and so does its lexeme unless that is a
string, which ends at its second quote; the literal is known from the lexeme (`record_unique`). So a dump has
been made from one list of tokens only (`printed_unique`).
-/

namespace LoxLexer.Records
open LoxLexer.Alphabet LoxLexer.Pieces LoxLexer.Lines LoxLexer.Session LoxLexer.Runs

/-- A token as scans make it: some text begins with its lexeme, and the literal is the one of the lexeme. -/
structure Scanned (token : Token) : Prop where
  piece : ∃ config rest, Piece config (some token.kind) token.lexeme rest
  literal : token.literal = Literal.ofLexeme? token.kind token.lexeme

variable {config setting : Config} {kind other : Kind} {front back rest more : Text} {c : Char}

private theorem scanned_of_run {text : Text} {token : SourceToken} (member : token ∈ (Scan.ofText config text).tokens) :
    Scanned token.toToken := by
  obtain ⟨place, kind, rest, piece, same⟩ := run_token member
  have named : token.kind = kind := by rw [same]; rfl
  have literal : token.literal = Literal.ofLexeme? kind token.lexeme := by rw [same]; rfl
  exact ⟨⟨config, rest, named ▸ piece⟩, named ▸ literal⟩

/-! ### Parts of a record -/

/-- The first of some character cuts a text in one way. -/
theorem cut_unique (outside : c ∉ front) (others : c ∉ back) (same : front ++ c :: rest = back ++ c :: more) :
    front = back ∧ rest = more := by
  have differs : ∀ {text : Text}, c ∉ text → ∀ x ∈ text, x ≠ c := by
    rintro text absent x member rfl
    exact absent member
  have stops : ∀ text : Text, Stops (· ≠ c) (c :: text) := fun text => stops_cons.mpr (by simp)
  obtain ⟨rfl, behind⟩ := run_unique (differs outside) (differs others) (stops rest) (stops more) same
  exact ⟨rfl, (List.cons.inj behind).2⟩

private theorem ofNat_solid (n : Nat) : ' ' ∉ Text.ofNat n := fun member => absurd (Notation.ofNat_digits n ' ' member) (by decide)

private theorem ofNat_injective {n m : Nat} (same : Text.ofNat n = Text.ofNat m) : n = m := by
  rw [← Notation.count_ofNat n, same, Notation.count_ofNat]

private theorem name_solid (kind : Kind) : ' ' ∉ kind.text := by
  cases kind with
  | keyword word => cases word <;> simp [Kind.text, Kind.name]
  | _ => simp [Kind.text, Kind.name]

/-- The kind that has a name is found by it. -/
theorem find_name (kind : Kind) : Kind.all.find? (·.text = kind.text) = some kind := by
  cases kind with
  | keyword word => cases word <;> rfl
  | _ => rfl

private theorem name_injective (same : kind.text = other.text) : kind = other := by
  have found := find_name kind
  rw [same, find_name] at found
  exact (Option.some.inj found).symm

/-- Where a blank stands behind it, a lexeme of a known kind ends at one place. -/
theorem lexeme_unique (one : ∃ config rest, Piece config (some kind) front rest)
    (two : ∃ config rest, Piece config (some kind) back rest) (same : front ++ ' ' :: rest = back ++ ' ' :: more) :
    front = back ∧ rest = more := by
  obtain ⟨config, after, piece⟩ := one
  obtain ⟨setting, behind, again⟩ := two
  by_cases isString : kind = .string
  · obtain ⟨body, inside, rfl⟩ := string_quoted piece isString
    obtain ⟨words, within, rfl⟩ := string_quoted again isString
    have quoted : body ++ '"' :: ' ' :: rest = words ++ '"' :: ' ' :: more := by simpa using same
    obtain ⟨rfl, ending⟩ := cut_unique inside within quoted
    exact ⟨rfl, (List.cons.inj ending).2⟩
  · apply cut_unique _ _ same
    · exact piece_solid piece isString (.inl rfl)
    · exact piece_solid again isString (.inl rfl)

/-! ### Whole records -/

/-- What a record shows of the literal. -/
def shown (token : Token) : Text := (token.literal.map Literal.text).getD "null".toList

private theorem record_parts (token : Token) (rest : Text) : token.record ++ rest =
    Text.ofNat token.line ++ ' ' :: (token.kind.text ++ ' ' :: (token.lexeme ++ ' ' :: (shown token ++ rest))) := by
  simp [Token.record, Token.text, shown]

/-- A record is read off the front of a text in one way. -/
theorem record_unique {one two : Token} (scanned : Scanned one) (again : Scanned two)
    (same : one.record ++ '\n' :: rest = two.record ++ '\n' :: more) : one = two ∧ rest = more := by
  obtain ⟨kind, lexeme, literal, line⟩ := one
  obtain ⟨other, word, value, number⟩ := two
  rw [record_parts, record_parts] at same
  obtain ⟨lines, same⟩ := cut_unique (ofNat_solid _) (ofNat_solid _) same
  obtain rfl : line = number := ofNat_injective lines
  obtain ⟨kinds, same⟩ := cut_unique (name_solid _) (name_solid _) same
  obtain rfl : kind = other := name_injective kinds
  obtain ⟨lexemes, same⟩ := lexeme_unique scanned.piece again.piece same
  obtain rfl : lexeme = word := lexemes
  obtain rfl : literal = value := scanned.literal.trans again.literal.symm
  have ending : '\n' :: rest = '\n' :: more := List.append_cancel_left same
  exact ⟨rfl, (List.cons.inj ending).2⟩

private theorem printed_cons (token : Token) (later : List Token) :
    printed (token :: later) = token.record ++ '\n' :: printed later := by
  simp [printed]

/-- The records of a dump are read off one after the other. -/
theorem printed_unique {tokens others : List Token} (scanned : ∀ token ∈ tokens, Scanned token)
    (again : ∀ token ∈ others, Scanned token) (same : printed tokens = printed others) : tokens = others := by
  induction tokens generalizing others with
  | nil =>
    cases others with
    | nil => rfl
    | cons other later => simp [printed] at same
  | cons token tokens ih =>
    cases others with
    | nil => simp [printed] at same
    | cons other later =>
      obtain ⟨first, tokensScanned⟩ := List.forall_mem_cons.mp scanned
      obtain ⟨otherFirst, laterScanned⟩ := List.forall_mem_cons.mp again
      rw [printed_cons, printed_cons] at same
      obtain ⟨rfl, behind⟩ := record_unique first otherFirst same
      rw [ih tokensScanned laterScanned behind]

/-- Arguments that ask for a script of some text where standard output can be written. -/
def Scripted (config : Config) (text : Text) (reader : ArgumentReader) (arguments : List Text) (world : World) : Prop :=
  world.blocked = none ∧ ∃ path source, reader arguments = .ok ⟨config.orShortcut, some path⟩ ∧
    world.files path = some source ∧ Utf8.decode source = text

section
variable {text twin : Text} {tokens others : List SourceToken} {reader : ArgumentReader} {arguments : List Text}
  {world : World}

private theorem stdout_script (scripted : Scripted config text reader arguments world)
    (scans : (Scan.ofText config text).result = .ok tokens) (filters : FilterReader) :
    (Program.run reader filters arguments world).stdout = printed (tokens.map (·.toToken)) := by
  obtain ⟨writable, path, source, asked, held, rfl⟩ := scripted
  rw [run_here (comes_ok asked held scans (.inl writable))]

private theorem scanned_of_result (scans : (Scan.ofText config text).result = .ok tokens) :
    ∀ token ∈ tokens.map (·.toToken), Scanned token := by
  intro token member
  obtain ⟨found, isFound, rfl⟩ := List.mem_map.mp member
  rw [← (result_eq_ok_iff.mp scans).2] at isFound
  exact scanned_of_run isFound

/-- The dump that a script prints is the records of its tokens, and two scripts that print the same dump have the
    same tokens, by whatever settings they were scanned: as many, and each of the same kind, lexeme, literal and
    line. No string in them can stand for records that are not there. -/
theorem dump_decodable (scans : (Scan.ofText config text).result = .ok tokens)
    (twinScans : (Scan.ofText setting twin).result = .ok others) :
    (∀ reader filters arguments world, Scripted config text reader arguments world →
      (Program.run reader filters arguments world).stdout =
        tokens.flatMap fun token => Text.ofNat token.line ++ [' '] ++ token.text ++ ['\n']) ∧
    (printed (tokens.map (·.toToken)) = printed (others.map (·.toToken)) →
      tokens.map (·.toToken) = others.map (·.toToken)) ∧
    ∀ reader filters arguments world twinArguments twinWorld, Scripted config text reader arguments world →
      Scripted setting twin reader twinArguments twinWorld →
      (Program.run reader filters arguments world).stdout = (Program.run reader filters twinArguments twinWorld).stdout →
      tokens.map (·.toToken) = others.map (·.toToken) := by
  have unique := printed_unique (scanned_of_result scans) (scanned_of_result twinScans)
  refine ⟨?_, unique, ?_⟩
  · intro reader filters arguments world scripted
    rw [stdout_script scripted scans]
    simp [printed, Token.record, List.flatMap_map]
  · intro reader filters arguments world twinArguments twinWorld scripted twinScripted same
    rw [stdout_script scripted scans, stdout_script twinScripted twinScans] at same
    exact unique same

end

/-- Two sources of the same tokens; the string in them spells the record of a number. -/
theorem dump_decodable_raw_string :
    let text := "\"a\n2 NUMBER 3 3.0\" x".toList
    let twin := "\"a\n2 NUMBER 3 3.0\"x // or".toList
    let string : Token := ⟨.string, "\"a\n2 NUMBER 3 3.0\"".toList, some (.string "a\n2 NUMBER 3 3.0".toList), 2⟩
    let word : Token := ⟨.identifier, ['x'], none, 2⟩
    let tokens : List SourceToken := [⟨string, 0⟩, ⟨word, 19⟩]
    let others : List SourceToken := [⟨string, 0⟩, ⟨word, 18⟩]
    let world (text : Text) : World := { files := fun _ => some (Utf8.encode text) }
    let stdout arguments text := (Program.run argumentReader filterReader arguments (world text)).stdout
    (Scan.ofText {} text).result = .ok tokens ∧ (Scan.ofText ⟨true⟩ twin).result = .ok others ∧
      tokens.flatMap (fun token => Text.ofNat token.line ++ [' '] ++ token.text ++ ['\n']) =
        "2 STRING \"a\n2 NUMBER 3 3.0\" a\n2 NUMBER 3 3.0\n2 IDENTIFIER x null\n".toList ∧
      stdout ["s".toList] text = stdout ["--or-shortcut".toList, "t".toList] twin ∧
      tokens.map (·.toToken) = others.map (·.toToken) := by
  intro text twin string word tokens others world stdout
  have scans : (Scan.ofText {} text).result = .ok tokens :=
    result_eq_ok_iff.mpr ⟨by decide +kernel, by decide +kernel⟩
  have twinScans : (Scan.ofText ⟨true⟩ twin).result = .ok others :=
    result_eq_ok_iff.mpr ⟨by decide +kernel, by decide +kernel⟩
  have scripted : Scripted {} text argumentReader ["s".toList] (world text) :=
    ⟨rfl, "s".toList, _, by decide +kernel, rfl, Decoding.decode_encode text⟩
  have twinScripted : Scripted ⟨true⟩ twin argumentReader ["--or-shortcut".toList, "t".toList] (world twin) :=
    ⟨rfl, "t".toList, _, by decide +kernel, rfl, Decoding.decode_encode twin⟩
  have same : stdout ["s".toList] text = stdout ["--or-shortcut".toList, "t".toList] twin :=
    (stdout_script scripted scans filterReader).trans (stdout_script twinScripted twinScans filterReader).symm
  obtain ⟨-, -, files⟩ := dump_decodable scans twinScans
  exact ⟨scans, twinScans, by decide +kernel, same, files _ _ _ _ _ _ scripted twinScripted same⟩

end LoxLexer.Records

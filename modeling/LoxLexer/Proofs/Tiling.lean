import LoxLexer.Proofs.Pieces
import LoxLexer.Utf8

/-!
Scanning loses nothing. The text of a scan that succeeds is a gap, the first lexeme, a gap, the second
lexeme and so on up to a last gap, and each token starts where its lexeme stands (`Tiles`,
`run_tiles`). So the lexemes are slices of the source, in order and apart.
-/

namespace LoxLexer.Tiling
open LoxLexer.Alphabet LoxLexer.Pieces

/-- The characters that stand between lexemes outside of comments. -/
def Blank (c : Char) : Prop := c ∈ [' ', '\r', '\t', '\n']

instance : DecidablePred Blank := fun _ => inferInstanceAs (Decidable (_ ∈ _))

/-- Blanks, and comments that reach up to a line break. Only in the last gap a comment may reach the end
    of the source instead. -/
inductive Gap (last : Bool) : Text → Prop
  | nil : Gap last []
  | blank {c gap} : Blank c → Gap last gap → Gap last (c :: gap)
  | comment {body gap} : (∀ c ∈ body, c ≠ '\n') → gap.head? = some '\n' ∨ last = true ∧ gap = [] →
      Gap last gap → Gap last ('/' :: '/' :: (body ++ gap))

/-- The text at an offset consists of the lexemes of the tokens with gaps before, between and behind
    them. No lexeme begins with a blank, so that a blank is always part of a gap. -/
inductive Tiles : Nat → Text → List SourceToken → Prop
  | last {offset gap} : Gap true gap → Tiles offset gap []
  | token {offset gap token rest later} : Gap false gap → (∃ c cs, token.lexeme = c :: cs ∧ ¬ Blank c) →
      token.start = offset + gap.byteSize → Tiles (token.start + token.lexeme.byteSize) rest later →
      Tiles offset (gap ++ (token.lexeme ++ rest)) (token :: later)

/-- Lexemes with the text before each. -/
def woven (gaps : List Text) (tokens : List SourceToken) : Text :=
  (List.zipWith (fun gap token => gap ++ token.lexeme) gaps tokens).flatten

variable {config : Config} {offset : Nat} {text rest : Text} {found : List SourceToken}

/-! ### Gaps grow at the front -/

private theorem tiles_blank {c : Char} (blank : Blank c) (tiles : Tiles (offset + c.utf8Size) rest found) :
    Tiles offset (c :: rest) found := by
  cases tiles with
  | last gap => exact .last (.blank blank gap)
  | @token _ gap token rest later isGap begins starts tiles =>
    rw [← List.cons_append]
    refine .token (.blank blank isGap) begins ?_ tiles
    rw [starts, Text.byteSize_cons]
    omega

/-- Behind a comment stands a line break, and a line break is in a gap. -/
theorem tiles_comment {body : Text} (inside : ∀ c ∈ body, c ≠ '\n') (stops : Stops (· ≠ '\n') rest)
    (tiles : Tiles (offset + Text.byteSize ('/' :: '/' :: body)) rest found) :
    Tiles offset ('/' :: '/' :: (body ++ rest)) found := by
  cases tiles with
  | last gap =>
    refine .last (.comment inside ?_ gap)
    cases rest with
    | nil => exact .inr ⟨rfl, rfl⟩
    | cons c rest => exact .inl (by simpa using stops_cons.mp stops)
  | @token _ gap token rest later isGap begins starts tiles =>
    have up : gap.head? = some '\n' := by
      cases gap with
      | cons c gap => simpa using stops_cons.mp stops
      | nil =>
        -- then the lexeme would begin with the line break
        obtain ⟨c, cs, spelled, notBlank⟩ := begins
        rw [List.nil_append, spelled] at stops
        obtain rfl : c = '\n' := by simpa using stops_cons.mp stops
        exact absurd (by decide) notBlank
    have front : '/' :: '/' :: (body ++ (gap ++ (token.lexeme ++ rest))) =
        '/' :: '/' :: (body ++ gap) ++ (token.lexeme ++ rest) := by simp
    rw [front]
    refine .token (.comment inside (.inl up) isGap) begins ?_ tiles
    simp only [starts, Text.byteSize_cons, Text.byteSize_append]
    omega

/-! ### Every scan tiles its text -/

/-- A blank is no token, so no lexeme of a token begins with one. -/
theorem piece_begins {kind : Kind} {lexeme : Text} (piece : Piece config (some kind) lexeme rest) :
    ∃ c cs, lexeme = c :: cs ∧ ¬ Blank c := by
  obtain ⟨c, cs, front, found⟩ := first_of_piece piece
  obtain ⟨more, spelled⟩ := List.head?_eq_some_iff.mp (Cut.first_head found)
  refine ⟨c, more, spelled, fun blank => ?_⟩
  simp only [Blank, List.mem_cons, List.not_mem_nil, or_false] at blank
  rcases blank with rfl | rfl | rfl | rfl <;> cases found

theorem run_tiles (text : Text) : ∀ position, (Scan.run config [] position text).error = none →
    Tiles position.offset text (Scan.run config [] position text).tokens := by
  induction text using text_induction config with
  | nil =>
    intro position _
    rw [Scan.run_nil]
    exact .last .nil
  | stuck stuck =>
    intro position succeeds
    rw [run_stuck stuck] at succeeds
    cases succeeds
  | @piece kind lexeme rest piece later =>
    intro position succeeds
    rw [run_piece piece] at succeeds ⊢
    have tiles := later (position.after lexeme) succeeds
    cases kind with
    | some kind => exact @Tiles.token _ [] (Scan.tokenAt position kind lexeme) rest _ .nil (piece_begins piece) rfl tiles
    | none =>
      cases piece with
      | comment inside stops => exact tiles_comment inside stops tiles
      | @blank c _ known =>
        have listed : c ∈ blanks := (of_eq_iff (by simp)).mp known
        have blank : Blank c := by simpa [Blank, blanks, or_assoc] using Or.inl listed
        exact tiles_blank blank tiles
      | newline => exact tiles_blank (by decide) tiles

/-! ### What tiling says about the lexemes -/

private theorem tiles_start (tiles : Tiles offset text found) : ∀ token ∈ found, offset ≤ token.start := by
  induction tiles with
  | last gap => simp
  | token gap begins starts tiles ih =>
    refine List.forall_mem_cons.mpr ⟨by omega, fun token member => ?_⟩
    have behind := ih token member
    omega

private theorem tiles_ordered (tiles : Tiles offset text found) :
    found.Pairwise fun token next => token.start + token.lexeme.byteSize ≤ next.start := by
  induction tiles with
  | last gap => exact .nil
  | token gap begins starts tiles ih => exact .cons (tiles_start tiles) ih

/-- Each lexeme stands in the text where its token starts. -/
theorem tiles_slice (tiles : Tiles offset text found) : ∀ token ∈ found,
    ∃ before after, text = before ++ token.lexeme ++ after ∧ token.start = offset + before.byteSize := by
  induction tiles with
  | last gap => simp
  | @token offset gap token rest later isGap begins starts tiles ih =>
    refine List.forall_mem_cons.mpr ⟨⟨gap, rest, by simp, starts⟩, fun next member => ?_⟩
    obtain ⟨before, after, spelled, start⟩ := ih next member
    refine ⟨gap ++ token.lexeme ++ before, after, by simp [spelled], ?_⟩
    simp only [start, starts, Text.byteSize_append]
    omega

theorem slice_bytes (before lexeme after : Text) :
    ((Utf8.encode (before ++ lexeme ++ after)).drop before.byteSize).take lexeme.byteSize = Utf8.encode lexeme := by
  rw [Utf8.encode_append, Utf8.encode_append, List.append_assoc, ← Utf8.length_encode before,
    ← Utf8.length_encode lexeme, List.drop_left, List.take_left]

private theorem tiles_woven (tiles : Tiles offset text found) : ∃ gaps last, gaps.length = found.length ∧
    (∀ gap ∈ gaps, Gap false gap) ∧ Gap true last ∧ text = woven gaps found ++ last := by
  induction tiles with
  | @last offset gap isGap => exact ⟨[], gap, rfl, by simp, isGap, rfl⟩
  | @token offset gap token rest later isGap begins starts tiles ih =>
    obtain ⟨gaps, last, count, areGaps, isLast, rfl⟩ := ih
    refine ⟨gap :: gaps, last, by simp [count], List.forall_mem_cons.mpr ⟨isGap, areGaps⟩, isLast, ?_⟩
    simp [woven]

/-- The tokens of a scan that succeeds tile the source: lexemes are never empty, lie in order and apart,
    are the source's bytes from their start on, and make up the source together with the gaps. -/
theorem scan_lossless (config : Config) (text : Text) (found : List SourceToken)
    (scanned : (Scan.ofText config text).result = .ok found) :
    Tiles 0 text found ∧ (∀ token ∈ found, token.lexeme ≠ []) ∧
      found.Pairwise (fun token next => token.start + token.lexeme.byteSize ≤ next.start) ∧
      (∀ token ∈ found,
        ((Utf8.encode text).drop token.start).take token.lexeme.byteSize = Utf8.encode token.lexeme) ∧
      ∃ gaps last, gaps.length = found.length ∧ (∀ gap ∈ gaps, Gap false gap) ∧ Gap true last ∧
        text = woven gaps found ++ last := by
  obtain ⟨succeeds, rfl⟩ := result_eq_ok_iff.mp scanned
  have tiles : Tiles 0 text (Scan.ofText config text).tokens := run_tiles text .start succeeds
  refine ⟨tiles, ?_, tiles_ordered tiles, ?_, tiles_woven tiles⟩
  · intro token member
    obtain ⟨place, kind, rest, piece, -⟩ := run_token member
    exact piece_nonempty piece
  · intro token member
    obtain ⟨before, after, spelled, start⟩ := tiles_slice tiles token member
    rw [Nat.zero_add] at start
    rw [start]
    conv => lhs; rw [spelled]
    exact slice_bytes before token.lexeme after

theorem scan_lossless_or_string :
    let first : SourceToken := ⟨⟨.keyword .or, ['o'], none, 1⟩, 0⟩
    let second : SourceToken := ⟨⟨.identifier, ['r'], none, 1⟩, 1⟩
    let third : SourceToken := ⟨⟨.string, "\"é\"".toList, some (.string ['é']), 2⟩, 6⟩
    let text := "or//x\n\"é\" //y".toList
    (Scan.ofText ⟨true⟩ text).result = .ok [first, second, third] ∧ Tiles 0 text [first, second, third] ∧
      third.lexeme ≠ [] ∧ second.start + second.lexeme.byteSize ≤ third.start ∧
      ((Utf8.encode text).drop 6).take 4 = Utf8.encode third.lexeme ∧
      ∃ gaps last, gaps.length = 3 ∧ (∀ gap ∈ gaps, Gap false gap) ∧ Gap true last ∧
        text = woven gaps [first, second, third] ++ last := by
  intro first second third text
  have scanned : (Scan.ofText ⟨true⟩ text).result = .ok [first, second, third] :=
    result_eq_ok_iff.mpr ⟨by decide +kernel, by decide +kernel⟩
  obtain ⟨tiles, nonempty, ordered, slices, gaps⟩ := scan_lossless ⟨true⟩ text _ scanned
  have behind := (List.pairwise_cons.mp (List.pairwise_cons.mp ordered).2).1
  exact ⟨scanned, tiles, nonempty third (by simp), behind third (by simp), slices third (by simp), gaps⟩

end LoxLexer.Tiling

import LoxLexer.Proofs.Pieces

/-!
The shortcut rewrites the tokens of a plain scan and changes nothing else: each word that begins with
`or` becomes two tokens (`split`), and where a plain scan stops, and why, is the same (`run_split`).
-/

namespace LoxLexer.OrShortcut
open LoxLexer.Alphabet LoxLexer.Pieces

/-- What becomes of a token: a word that begins with `or` is the token of its `o` and the token of the
    word behind it, which is reserved only in `oreturn`. -/
def split (token : SourceToken) : List SourceToken :=
  if isWord token.kind = true ∧ ['o', 'r'] <+: token.lexeme then
    [⟨⟨.keyword .or, ['o'], none, token.line⟩, token.start⟩,
      ⟨⟨if token.lexeme = "oreturn".toList then .keyword .«return» else .identifier, token.lexeme.drop 1, none,
        token.line⟩, token.start + 1⟩]
  else [token]

/-- A token that each `OR` is the `o` before: a word at the next byte, beginning with `r`. -/
def Follows (token next : SourceToken) : Prop :=
  isWord next.kind = true ∧ next.lexeme.head? = some 'r' ∧ next.start = token.start + 1

variable {kind : Option Kind} {lexeme rest : Text}

/-! ### Words -/

private theorem ofWord_r (word : Text) :
    Kind.ofWord ('r' :: word) =
      if 'o' :: 'r' :: word = "oreturn".toList then .keyword .«return» else .identifier := by
  have only : ∀ keyword : Keyword, keyword.word.head? = some 'r' → keyword = .«return» := by
    intro keyword
    cases keyword <;> decide
  split
  · next same =>
    have behind : 'r' :: word = Keyword.word .«return» := (List.cons.inj same).2
    exact ofWord_eq_keyword_iff.mpr behind
  · next differs =>
    rw [ofWord_eq_identifier_iff]
    rintro keyword same
    obtain rfl := only keyword (by rw [← same]; rfl)
    exact differs (congrArg ('o' :: ·) same)

private theorem word_lineBreaks {word : Text} (inside : ∀ c ∈ word, WordChar c) : word.lineBreaks = 0 := by
  refine List.count_eq_zero.mpr fun member => ?_
  exact absurd (inside '\n' member) (by decide)

/-! ### Pieces -/

/-- With the shortcut on, no lexeme begins with its two letters. -/
theorem piece_not_or {config : Config} (on : config.orShortcut = true) (piece : Piece config kind lexeme rest) :
    ¬ ['o', 'r'] <+: lexeme := by
  intro front
  cases piece with
  | punctuation | alone | slash | blank | newline | or => simpa using front.length_le
  | paired | comment | string => simp [List.cons_prefix_cons] at front
  | whole _ inside => exact absurd (inside 'o' (front.subset (by simp))) (by decide)
  | fraction nonempty inside =>
    obtain ⟨d, digits, rfl⟩ := List.exists_cons_of_ne_nil nonempty
    obtain ⟨rfl, -⟩ := List.cons_prefix_cons.mp front
    exact absurd (inside 'o' (by simp)) (by decide)
  | word letter inside stops plain =>
    obtain ⟨rfl, ⟨more, rfl⟩⟩ := List.cons_prefix_cons.mp front
    exact plain on rfl 'r' rfl rfl

/-- A plain piece is a piece with the shortcut too, or a word that the shortcut cuts in two. -/
theorem piece_split (piece : Piece ⟨false⟩ kind lexeme rest) :
    Piece ⟨true⟩ kind lexeme rest ∨ ∃ word, lexeme = 'o' :: 'r' :: word ∧ kind = some (.ofWord lexeme) ∧
      (∀ c ∈ lexeme, WordChar c) ∧ Piece ⟨true⟩ (some (.keyword .or)) ['o'] ('r' :: word ++ rest) ∧
      Piece ⟨true⟩ (some (.ofWord ('r' :: word))) ('r' :: word) rest := by
  cases piece with
  | punctuation _ known => exact .inl (.punctuation rest known)
  | alone known stops => exact .inl (.alone known stops)
  | paired _ known => exact .inl (.paired rest known)
  | slash stops => exact .inl (.slash stops)
  | comment inside stops => exact .inl (.comment inside stops)
  | blank _ known => exact .inl (.blank rest known)
  | newline => exact .inl (.newline rest)
  | string _ inside => exact .inl (.string rest inside)
  | whole nonempty inside stops noPlaces => exact .inl (.whole nonempty inside stops noPlaces)
  | fraction nonempty inside somePlaces decimals stops =>
    exact .inl (.fraction nonempty inside somePlaces decimals stops)
  | or on => cases on
  | @word c cs _ letter inside stops =>
    by_cases begins : ['o', 'r'] <+: c :: cs
    · obtain ⟨rfl, ⟨word, rfl⟩⟩ := List.cons_prefix_cons.mp begins
      have later : ∀ x ∈ word, WordChar x := fun x member => inside x (by simp [member])
      refine .inr ⟨word, rfl, rfl, ?_, .or rfl rfl, .word (by decide) later stops ?_⟩
      · exact List.forall_mem_cons.mpr ⟨.inl letter, inside⟩
      · intro _ isO
        cases isO
    · refine .inl (.word letter inside stops ?_)
      rintro - rfl d head rfl
      obtain ⟨word, rfl⟩ := List.head?_eq_some_iff.mp head
      exact begins ⟨word, rfl⟩

/-! ### Tokens -/

private theorem split_of_not {token : SourceToken} (plain : ¬ ['o', 'r'] <+: token.lexeme) : split token = [token] := by
  unfold split
  rw [if_neg fun both => plain both.2]

/-- The tokens of a word that the shortcut cuts are those that its own token is split into. -/
theorem split_word (position : Position) {word : Text} (inside : ∀ c ∈ 'o' :: 'r' :: word, WordChar c) :
    split (Scan.tokenAt position (.ofWord ('o' :: 'r' :: word)) ('o' :: 'r' :: word)) =
      tokens position (some (.keyword .or)) ['o'] ++
        tokens (position.after ['o']) (some (.ofWord ('r' :: word))) ('r' :: word) := by
  have begins : ['o', 'r'] <+: 'o' :: 'r' :: word := ⟨word, rfl⟩
  have noBreak : Text.lineBreaks ('o' :: 'r' :: word) = 0 := word_lineBreaks inside
  have noBreakBehind : Text.lineBreaks ('r' :: word) = 0 :=
    word_lineBreaks fun c member => inside c (List.mem_cons_of_mem _ member)
  have cut : split (Scan.tokenAt position (.ofWord ('o' :: 'r' :: word)) ('o' :: 'r' :: word)) =
      [⟨⟨.keyword .or, ['o'], none, (position.after ('o' :: 'r' :: word)).line⟩, position.offset⟩,
        ⟨⟨.ofWord ('r' :: word), 'r' :: word, none, (position.after ('o' :: 'r' :: word)).line⟩,
          position.offset + 1⟩] := by
    rw [ofWord_r]
    exact if_pos ⟨isWord_ofWord _, begins⟩
  have first : tokens position (some (.keyword .or)) ['o'] =
      [⟨⟨.keyword .or, ['o'], none, position.line⟩, position.offset⟩] := rfl
  have second : tokens (position.after ['o']) (some (.ofWord ('r' :: word))) ('r' :: word) =
      [⟨⟨.ofWord ('r' :: word), 'r' :: word, none, position.line⟩, position.offset + 1⟩] := by
    have letter : position.after ['o'] = ⟨position.offset + 1, position.line⟩ := rfl
    rw [letter]
    simp [tokens, Scan.tokenAt, Position.after, noBreakBehind, word_literal]
  rw [cut, first, second, Position.after, noBreak]
  rfl

/-- The shortcut changes the tokens of a scan and nothing else about it. -/
theorem run_split (text : Text) : ∀ position, Scan.run ⟨true⟩ [] position text =
    { Scan.run ⟨false⟩ [] position text with
      tokens := (Scan.run ⟨false⟩ [] position text).tokens.flatMap split } := by
  induction text using text_induction ⟨false⟩ with
  | nil =>
    intro position
    simp
  | stuck stuck =>
    intro position
    simp [run_stuck stuck]
  | @piece kind lexeme rest piece later =>
    intro position
    -- either both scans take the same step, or the shortcut takes two for the plain scan's one
    rcases piece_split piece with same | ⟨word, rfl, rfl, inside, first, second⟩
    · have kept : (tokens position kind lexeme).flatMap split = tokens position kind lexeme := by
        cases kind with
        | none => rfl
        | some kind =>
          have whole : split (Scan.tokenAt position kind lexeme) = [Scan.tokenAt position kind lexeme] :=
            split_of_not (piece_not_or rfl same)
          simp [tokens, whole]
      rw [run_piece same, run_piece piece, later, List.flatMap_append, kept]
    · have cut : (tokens position (some (.ofWord ('o' :: 'r' :: word))) ('o' :: 'r' :: word)).flatMap split =
          tokens position (some (.keyword .or)) ['o'] ++
            tokens (position.after ['o']) (some (.ofWord ('r' :: word))) ('r' :: word) := by
        rw [← split_word position inside]
        simp [tokens]
      rw [run_piece piece, List.flatMap_append, cut]
      change Scan.run ⟨true⟩ [] position (['o'] ++ ('r' :: word ++ rest)) = _
      rw [run_piece first, run_piece second, after_after, later]
      simp

private theorem ofText_split (text : Text) : Scan.ofText ⟨true⟩ text =
    { Scan.ofText ⟨false⟩ text with tokens := (Scan.ofText ⟨false⟩ text).tokens.flatMap split } :=
  run_split text .start

/-! ### What stands behind an `OR` -/

/-- Every `OR` of a list is an `o`, and the token after it follows it at the next byte. -/
def Followed : List SourceToken → Prop
  | [] => True
  | token :: later =>
    (token.kind = .keyword .or → token.lexeme = ['o'] ∧ ∃ next, later.head? = some next ∧ Follows token next) ∧
      Followed later

private theorem split_followed {found : List SourceToken}
    (plain : ∀ token ∈ found, token.kind = .keyword .or → token.lexeme = ['o', 'r']) :
    Followed (found.flatMap split) := by
  induction found with
  | nil => trivial
  | cons token found ih =>
    obtain ⟨here, later⟩ := List.forall_mem_cons.mp plain
    rw [List.flatMap_cons]
    by_cases cut : isWord token.kind = true ∧ ['o', 'r'] <+: token.lexeme
    · obtain ⟨word, spelled⟩ := cut.2
      rw [show split token = _ from if_pos cut, ← spelled]
      refine ⟨fun _ => ⟨rfl, _, rfl, ?_, rfl, rfl⟩, fun isOr => ?_, ih later⟩
      · dsimp only
        split <;> rfl
      · dsimp only at isOr
        split at isOr <;> cases isOr
    · rw [show split token = _ from if_neg cut]
      refine ⟨fun isOr => ?_, ih later⟩
      have isAWord : isWord token.kind = true := by rw [isOr]; rfl
      exact absurd ⟨isAWord, here isOr ▸ List.prefix_refl _⟩ cut

private theorem followed_cut {before after : List SourceToken} {token : SourceToken}
    (followed : Followed (before ++ token :: after))
    (isOr : token.kind = .keyword .or) :
    token.lexeme = ['o'] ∧ ∃ next later, after = next :: later ∧ Follows token next := by
  induction before with
  | nil =>
    obtain ⟨word, next, head, follows⟩ := followed.1 isOr
    obtain ⟨later, rfl⟩ := List.head?_eq_some_iff.mp head
    exact ⟨word, next, later, rfl, follows⟩
  | cons _ before ih => exact ih followed.2

/-- The tokens of a plain scan that are `OR` are whole words. -/
theorem plain_or {text : Text} {token : SourceToken} (member : token ∈ (Scan.ofText ⟨false⟩ text).tokens)
    (isOr : token.kind = .keyword .or) : token.lexeme = ['o', 'r'] := by
  obtain ⟨place, kind, rest, piece, same⟩ := run_token member
  obtain rfl : kind = .keyword .or := by rw [← isOr, same]; rfl
  rcases keyword_lexeme piece with spelled | ⟨on, -, -⟩
  · exact spelled
  · cases on

theorem ofText_followed (text : Text) : Followed (Scan.ofText ⟨true⟩ text).tokens := by
  rw [ofText_split]
  exact split_followed fun token member => plain_or member

/-- With the shortcut on, a text is scanned as without it, and then each word that begins with `or` is
    split: errors are the same, no lexeme begins with `or` any more, and each `OR` is an `o` with a word
    right behind it that begins with `r`. -/
theorem shortcut_splits (text : Text) :
    (Scan.ofText ⟨true⟩ text).result = (Scan.ofText ⟨false⟩ text).result.map (·.flatMap split) ∧
      ∀ found, (Scan.ofText ⟨true⟩ text).result = .ok found →
        (∀ token ∈ found, ¬ ['o', 'r'] <+: token.lexeme) ∧
          ∀ before token after, found = before ++ token :: after → token.kind = .keyword .or →
            token.lexeme = ['o'] ∧ ∃ next later, after = next :: later ∧ Follows token next := by
  constructor
  · rw [ofText_split]
    unfold Scan.result
    dsimp only
    cases (Scan.ofText ⟨false⟩ text).error <;> rfl
  · intro found scanned
    obtain ⟨-, all⟩ := result_eq_ok_iff.mp scanned
    constructor
    · intro token member
      rw [← all] at member
      obtain ⟨place, kind, rest, piece, -⟩ := run_token member
      exact piece_not_or rfl piece
    · rintro before token after rfl isOr
      exact followed_cut (all ▸ ofText_followed text) isOr

theorem shortcut_splits_oreturn :
    let first : SourceToken := ⟨⟨.keyword .or, ['o'], none, 1⟩, 0⟩
    let second : SourceToken := ⟨⟨.keyword .«return», "return".toList, none, 1⟩, 1⟩
    (Scan.ofText ⟨true⟩ "oreturn".toList).result = .ok [first, second] ∧ first.kind = .keyword .or ∧
      ¬ ['o', 'r'] <+: second.lexeme ∧ first.lexeme = ['o'] ∧
      ∃ next later, [second] = next :: later ∧ Follows first next := by
  intro first second
  have scanned : (Scan.ofText ⟨true⟩ "oreturn".toList).result = .ok [first, second] :=
    result_eq_ok_iff.mpr ⟨by decide +kernel, by decide +kernel⟩
  obtain ⟨noOr, follows⟩ := (shortcut_splits "oreturn".toList).2 _ scanned
  exact ⟨scanned, rfl, noOr second (by simp), follows [] first [second] rfl rfl⟩

end LoxLexer.OrShortcut

import LoxLexer.Proofs.Lines
import LoxLexer.Proofs.Neighbours
import LoxLexer.Proofs.OrShortcut
import LoxLexer.Rejoin

/-!
Joined lexemes scanned again. Where each lexeme is cut off in front of what stands behind it
(`Readable`), the scan of the joined text finds exactly these lexemes, each where it was put (`placed`,
`run_joined`). Blanks between them are enough for that (`readable_settled`), except that the `o` of the
shortcut is then a word.
-/

namespace LoxLexer.Rescan
open LoxLexer.Alphabet LoxLexer.Pieces LoxLexer.Tiling LoxLexer.Neighbours

/-- A lexeme and the kind that it is to have. -/
abbrev Spelling := Kind × Text

/-- The lexemes in order, with the separator between each two. -/
def joined (separator : Text) (spellings : List Spelling) : Text :=
  separator.intercalate (spellings.map (·.2))

/-- What stands behind a lexeme that others are joined to. -/
def behind (separator : Text) (later : List Spelling) : Text := later.flatMap (separator ++ ·.2)

/-- In the joined text, each lexeme is cut off with its kind. -/
def Readable (config : Config) (separator : Text) : List Spelling → Prop
  | [] => True
  | (kind, lexeme) :: later =>
    Piece config (some kind) lexeme (behind separator later) ∧ Readable config separator later

/-- The tokens of lexemes that stand from a position on, with the separator behind each. -/
def placed (separator : Text) : Position → List Spelling → List SourceToken
  | _, [] => []
  | position, (kind, lexeme) :: later =>
    Scan.tokenAt position kind lexeme :: placed separator (position.after (lexeme ++ separator)) later

variable {config : Config} {separator : Text} {spellings later : List Spelling}

theorem joined_cons (separator : Text) (spelling : Spelling) (later : List Spelling) :
    joined separator (spelling :: later) = spelling.2 ++ behind separator later := by
  induction later generalizing spelling with
  | nil => simp [joined, behind]
  | cons next later ih =>
    have front : joined separator (spelling :: next :: later) =
        spelling.2 ++ (separator ++ joined separator (next :: later)) := by
      simp [joined, List.intercalate_cons_cons]
    rw [front, ih, behind, behind, List.flatMap_cons, List.append_assoc]

theorem behind_cons (separator : Text) (next : Spelling) (later : List Spelling) :
    behind separator (next :: later) = separator ++ (next.2 ++ behind separator later) := by
  rw [behind, List.flatMap_cons, List.append_assoc]
  rfl

private theorem run_behind (blanks : ∀ c ∈ separator, Blank c) (readable : Readable config separator spellings) :
    ∀ position, Scan.run config [] position (behind separator spellings) =
      ⟨placed separator (position.after separator) spellings, position.after (behind separator spellings), none⟩ := by
  induction spellings with
  | nil =>
    intro position
    simp [behind, placed]
  | cons spelling later ih =>
    intro position
    obtain ⟨kind, lexeme⟩ := spelling
    obtain ⟨piece, others⟩ := readable
    rw [behind_cons, run_blanks blanks, run_piece piece, ih others, after_after, after_after, after_after,
      after_after]
    simp [placed, tokens]

/-- The scan of a readable text finds the lexemes that it was joined from. -/
theorem run_joined (blanks : ∀ c ∈ separator, Blank c) (readable : Readable config separator spellings)
    (position : Position) : Scan.run config [] position (joined separator spellings) =
      ⟨placed separator position spellings, position.after (joined separator spellings), none⟩ := by
  cases spellings with
  | nil => simp [joined, placed]
  | cons spelling later =>
    obtain ⟨kind, lexeme⟩ := spelling
    obtain ⟨piece, others⟩ := readable
    rw [joined_cons, run_piece piece, run_behind blanks others, after_after, after_after]
    rfl

/-! ### The tokens of a joined text -/

/-- What a token says apart from where it stands. -/
def content (token : SourceToken) : Kind × Text × Option Literal := (token.kind, token.lexeme, token.literal)

/-- A token as its kind and its lexeme. -/
def outline (token : SourceToken) : Spelling := (token.kind, token.lexeme)

/-- What a token has from its kind and lexeme alone does not depend on where it is placed. -/
theorem placed_map {α : Type} {view : SourceToken → α} {meaning : Spelling → α}
    (same : ∀ position kind lexeme, view (Scan.tokenAt position kind lexeme) = meaning (kind, lexeme))
    (separator : Text) (spellings : List Spelling) : ∀ position,
    (placed separator position spellings).map view = spellings.map meaning := by
  induction spellings with
  | nil =>
    intro position
    rfl
  | cons spelling later ih =>
    intro position
    rw [placed, List.map_cons, List.map_cons, ih, same]

private theorem placed_content (separator : Text) (spellings : List Spelling) (position : Position) :
    (placed separator position spellings).map content =
      spellings.map fun (kind, lexeme) => (kind, lexeme, Literal.ofLexeme? kind lexeme) :=
  placed_map (fun _ _ _ => rfl) separator spellings position

theorem placed_outline (separator : Text) (spellings : List Spelling) (position : Position) :
    (placed separator position spellings).map outline = spellings := by
  have outlines := @placed_map _ outline id (fun _ _ _ => rfl) separator spellings position
  rw [outlines, List.map_id]

theorem joined_result (blanks : ∀ c ∈ separator, Blank c) (readable : Readable config separator spellings) :
    (Scan.ofText config (joined separator spellings)).result = .ok (placed separator .start spellings) := by
  rw [Scan.ofText, run_joined blanks readable]
  rfl

theorem rejoin_eq {found : List SourceToken} (same : spellings.map (·.2) = found.map (·.lexeme)) (separator : Text) :
    rejoin separator found = joined separator spellings := by
  rw [rejoin, joined, same]

/-- The line breaks before the end of a lexeme are those of the separators before it and of the lexemes up
    to it. -/
theorem placed_line (separator : Text) (spellings : List Spelling) : ∀ position i token,
    (placed separator position spellings)[i]? = some token → token.line =
      position.line + i * separator.lineBreaks + Text.lineBreaks ((spellings.take (i + 1)).flatMap (·.2)) := by
  induction spellings with
  | nil =>
    intro position i token found
    cases found
  | cons spelling later ih =>
    rintro position (_ | i) token found
    · obtain rfl := Option.some.inj found
      simp [Scan.tokenAt, Lines.after_line]
    · have line := ih _ i token found
      simp only [Lines.after_line, Text.lineBreaks_append] at line
      rw [line, List.take_succ_cons, List.flatMap_cons, Text.lineBreaks_append, Nat.succ_mul]
      omega

/-! ### Blanks between the lexemes -/

/-- How a token is read again between blanks. The `o` of the shortcut has no `r` behind it then. -/
def settle (config : Config) (token : SourceToken) : Kind × Text × Option Literal :=
  if config.orShortcut = true ∧ token.kind = .keyword .or then (.identifier, ['o'], none)
  else content token

/-- A token that a scan can find. -/
def Scanned (config : Config) (token : SourceToken) : Prop :=
  ∃ place kind rest, Piece config (some kind) token.lexeme rest ∧ token = Scan.tokenAt place kind token.lexeme

theorem result_scanned {text : Text} {found : List SourceToken}
    (scanned : (Scan.ofText config text).result = .ok found) : ∀ token ∈ found, Scanned config token := by
  obtain ⟨-, rfl⟩ := result_eq_ok_iff.mp scanned
  exact fun token => run_token

private theorem or_lexeme {lexeme rest : Text} (on : config.orShortcut = true)
    (piece : Piece config (some (.keyword .or)) lexeme rest) : lexeme = ['o'] := by
  rcases keyword_lexeme piece with whole | ⟨-, -, spelled⟩
  · exact absurd (whole ▸ List.prefix_refl _) (OrShortcut.piece_not_or on piece)
  · exact spelled

/-- In front of a blank a lexeme is cut off again, and the token settles to what is then read. -/
theorem settle_piece {token : SourceToken} (scanned : Scanned config token) {rest : Text} (apart : Apart rest) :
    Piece config (some (settle config token).1) token.lexeme rest ∧ settle config token =
      ((settle config token).1, token.lexeme, Literal.ofLexeme? (settle config token).1 token.lexeme) := by
  obtain ⟨place, kind, old, piece, same⟩ := scanned
  have named : token.kind = kind := by rw [same]; rfl
  have read : token.literal = Literal.ofLexeme? kind token.lexeme := by rw [same]; rfl
  by_cases cut : config.orShortcut = true ∧ token.kind = .keyword .or
  · -- nothing that `rest` begins with is an `r`, so the `o` is a whole word
    obtain rfl : kind = .keyword .or := named.symm.trans cut.2
    have spelled := or_lexeme cut.1 piece
    have settles : settle config token = (.identifier, ['o'], none) := if_pos cut
    have word : Piece config (some (.ofWord ['o'])) ['o'] rest :=
      .word (by decide) nofun (stops_of_apart apart fun _ => wordChar_not_blank) nofun
    rw [settles, spelled]
    exact ⟨word, rfl⟩
  · have settles : settle config token = (kind, token.lexeme, token.literal) := by rw [← named]; exact if_neg cut
    rw [settles]
    exact ⟨piece_of_bounded piece (bounded_of_apart (named ▸ cut) apart), by rw [read]⟩

/-- The spellings of tokens between blanks. -/
def settled (config : Config) (found : List SourceToken) : List Spelling :=
  found.map fun token => ((settle config token).1, token.lexeme)

private theorem settled_lexemes (config : Config) (found : List SourceToken) :
    (settled config found).map (·.2) = found.map (·.lexeme) := by
  simp [settled]

private theorem behind_apart (blanks : ∀ c ∈ separator, Blank c) (nonempty : separator ≠ []) (later : List Spelling) :
    Apart (behind separator later) := by
  cases later with
  | nil => exact apart_nil
  | cons next later =>
    obtain ⟨c, separator, rfl⟩ := List.exists_cons_of_ne_nil nonempty
    exact apart_cons.mpr (blanks c (by simp))

/-- With blanks between them, all lexemes of a scan are read again. -/
theorem readable_settled (blanks : ∀ c ∈ separator, Blank c) (nonempty : separator ≠ []) {found : List SourceToken}
    (scanned : ∀ token ∈ found, Scanned config token) : Readable config separator (settled config found) := by
  induction found with
  | nil => trivial
  | cons token later ih =>
    obtain ⟨here, others⟩ := List.forall_mem_cons.mp scanned
    exact ⟨(settle_piece here (behind_apart blanks nonempty _)).1, ih others⟩

private theorem placed_settled {found : List SourceToken} (scanned : ∀ token ∈ found, Scanned config token)
    (separator : Text) (position : Position) :
    (placed separator position (settled config found)).map content = found.map (settle config) := by
  rw [placed_content, settled, List.map_map]
  refine List.map_congr_left fun token member => ?_
  exact (settle_piece (scanned token member) apart_nil).2.symm

private theorem rejoined_text {text : Text} {found : List SourceToken} (separator : Text)
    (scanned : (Scan.ofText config text).result = .ok found) :
    (Rejoined.ofText config separator text).map (·.joined) = .ok (rejoin separator found) := by
  rw [Rejoined.ofText, scanned]
  rfl

private theorem settle_kind (on : config.orShortcut = true) (token : SourceToken) :
    (settle config token).1 = token.kind ↔ token.kind ≠ .keyword .or := by
  unfold settle
  split
  · next cut => simp [cut.2]
  · next whole => simpa [content, on] using whole

/-- The lexemes of a scan, joined with blanks and scanned again, are found again with their kinds and
    literals, except that the `o` of the shortcut becomes an identifier. The lines are those that the
    separators and the lexemes make. Joining once more changes nothing. -/
theorem rescan_blank (config : Config) (text separator : Text) (found : List SourceToken)
    (scanned : (Scan.ofText config text).result = .ok found) (nonempty : separator ≠ [])
    (blanks : ∀ c ∈ separator, Blank c) :
    ∃ again, (Scan.ofText config (rejoin separator found)).result = .ok again ∧ again.length = found.length ∧
      again.map content = found.map (settle config) ∧
      (config.orShortcut = false → again.map content = found.map content) ∧
      (config.orShortcut = true →
        (again.map (·.kind) = found.map (·.kind) ↔ ∀ token ∈ found, token.kind ≠ .keyword .or)) ∧
      (∀ i token, again[i]? = some token → token.line =
        1 + i * separator.lineBreaks + Text.lineBreaks ((found.take (i + 1)).flatMap (·.lexeme))) ∧
      (Rejoined.ofText config separator text).map (·.joined) = .ok (rejoin separator found) ∧
      (Rejoined.ofText config separator (rejoin separator found)).map (·.joined) = .ok (rejoin separator found) := by
  have tokens := result_scanned scanned
  have rescanned := joined_result blanks (readable_settled blanks nonempty tokens)
  rw [← rejoin_eq (settled_lexemes config found)] at rescanned
  have contents := placed_settled tokens separator .start
  have outlines := placed_outline separator (settled config found) .start
  have lines := placed_line separator (settled config found) .start
  generalize placed separator .start (settled config found) = again at rescanned contents outlines lines
  have kinds : again.map (·.kind) = found.map fun token => (settle config token).1 := by
    simpa [Function.comp_def, outline, settled] using congrArg (List.map (·.1)) outlines
  have lexemes : again.map (·.lexeme) = found.map (·.lexeme) := by
    simpa [Function.comp_def, outline, settled] using congrArg (List.map (·.2)) outlines
  refine ⟨again, rescanned, ?_, contents, fun off => ?_, fun on => ?_, fun i token here => ?_,
    rejoined_text separator scanned, ?_⟩
  · simpa using congrArg List.length contents
  · rw [contents]
    exact List.map_congr_left fun token _ => if_neg (by simp [off])
  · rw [kinds, List.map_inj_left]
    exact forall₂_congr fun token _ => settle_kind on token
  · rw [lines i token here, settled, ← List.map_take, List.flatMap_map]
    rfl
  · rw [rejoined_text separator rescanned, rejoin, rejoin, lexemes]

theorem rescan_blank_or :
    let first : SourceToken := ⟨⟨.keyword .or, ['o'], none, 1⟩, 0⟩
    let second : SourceToken := ⟨⟨.identifier, ['r'], none, 1⟩, 1⟩
    let third : SourceToken := ⟨⟨.string, ['"', '\n', '"'], some (.string ['\n']), 2⟩, 2⟩
    let text := ['o', 'r', '"', '\n', '"']
    (Scan.ofText ⟨true⟩ text).result = .ok [first, second, third] ∧ (∀ c ∈ ['\n', ' '], Blank c) ∧
      ∃ again, (Scan.ofText ⟨true⟩ (rejoin ['\n', ' '] [first, second, third])).result = .ok again ∧
        again.map content = [(.identifier, ['o'], none), content second, content third] ∧
        again.map (·.kind) ≠ [first, second, third].map (·.kind) ∧
        (∀ token, again[2]? = some token → token.line = 4) ∧
        (Rejoined.ofText ⟨true⟩ ['\n', ' '] (rejoin ['\n', ' '] [first, second, third])).map (·.joined) =
          .ok (rejoin ['\n', ' '] [first, second, third]) := by
  intro first second third text
  have scanned : (Scan.ofText ⟨true⟩ text).result = .ok [first, second, third] :=
    result_eq_ok_iff.mpr ⟨by decide +kernel, by decide +kernel⟩
  have blanks : ∀ c ∈ ['\n', ' '], Blank c := by simp [Blank]
  obtain ⟨again, rescanned, -, contents, -, kinds, lines, -, idempotent⟩ :=
    rescan_blank ⟨true⟩ text ['\n', ' '] _ scanned (by simp) blanks
  refine ⟨scanned, blanks, again, rescanned, contents, fun same => ?_, fun token here => lines 2 token here,
    idempotent⟩
  exact (kinds rfl).mp same first (by simp) rfl

end LoxLexer.Rescan

import LoxLexer.Proofs.Rescan

/-!
Lexemes joined with nothing between. Some neighbours then run together (`Fuses`), and all others keep
apart: what stands behind a lexeme bounds it unless its token fuses with those behind it
(`not_fuses_of_bounded`, `bounded_of_not_fuses`). A scan that finds as many characters in lexemes as its text has leaves no gap
(`run_tight`), so it reads the text as its own tokens joined.
-/

namespace LoxLexer.Fusion
open LoxLexer.Alphabet LoxLexer.Pieces LoxLexer.Neighbours LoxLexer.Rescan

/-- The first tokens of a list do not keep apart with nothing between them. Every word may run on into a
    word, but the `o` of the shortcut is cut off from what follows it. -/
inductive Fuses (config : Config) : List SourceToken → Prop
  | word {token next later} : isWord token.kind = true →
      ¬ (config.orShortcut = true ∧ token.kind = .keyword .or) →
      (isWord next.kind = true ∨ next.kind = .number) → Fuses config (token :: next :: later)
  | numbers {token next later} : token.kind = .number → next.kind = .number → Fuses config (token :: next :: later)
  | places {token point next later} : token.kind = .number → '.' ∉ token.lexeme → point.kind = .dot →
      next.kind = .number → Fuses config (token :: point :: next :: later)
  | operator {token next later} : token.kind ∈ [.bang, .equal, .less, .greater] →
      next.kind ∈ [.equal, .equalEqual] → Fuses config (token :: next :: later)
  | slashes {token next later} : token.kind = .slash → next.kind = .slash → Fuses config (token :: next :: later)

variable {config : Config} {token next : SourceToken} {later found : List SourceToken}

/-! ### First characters -/

section
variable {c : Char} {kind : Kind}

private theorem listed_leads {named : CharClass} (known : named ≠ .foreign) (first : CharClass.of c = leads kind) :
    Listed named c ↔ leads kind = named := by
  rw [← first, of_eq_iff known]

private theorem equals_leads (first : CharClass.of c = leads kind) : c = '=' ↔ kind ∈ [.equal, .equalEqual] := by
  have listed : Listed (.operator .equal .equalEqual) c ↔ c = '=' := by simp [Listed, operators]
  rw [← listed, listed_leads (by simp) first]
  cases kind <;> simp [leads]

private theorem slash_leads (first : CharClass.of c = leads kind) : c = '/' ↔ kind = .slash := by
  change Listed .slash c ↔ _
  rw [listed_leads (by simp) first]
  cases kind <;> simp [leads]

private theorem point_leads (first : CharClass.of c = leads kind) : c = '.' ↔ kind = .dot := by
  have listed : Listed (.punctuation .dot) c ↔ c = '.' := by simp [Listed, punctuation]
  rw [← listed, listed_leads (by simp) first]
  cases kind <;> simp [leads]

private theorem digit_leads (first : CharClass.of c = leads kind) : Digit c ↔ kind = .number := by
  change Listed .digit c ↔ _
  rw [listed_leads (by simp) first]
  cases kind <;> simp [leads]

private theorem wordChar_leads (first : CharClass.of c = leads kind) :
    WordChar c ↔ isWord kind = true ∨ kind = .number := by
  change Listed .letter c ∨ Digit c ↔ _
  rw [digit_leads first, listed_leads (by simp) first]
  cases kind <;> simp [leads, isWord]

end

private theorem scanned_leads (scanned : Scanned config token) :
    ∃ c cs, token.lexeme = c :: cs ∧ CharClass.of c = leads token.kind := by
  obtain ⟨place, kind, rest, piece, same⟩ := scanned
  rw [show token.kind = kind by rw [same]; rfl]
  exact piece_leads piece

private theorem point_lexeme (scanned : Scanned config token) (isPoint : token.kind = .dot) : token.lexeme = ['.'] := by
  obtain ⟨c, cs, spelled, first⟩ := scanned_leads scanned
  obtain rfl := (point_leads first).mpr isPoint
  obtain ⟨place, kind, rest, piece, -⟩ := scanned
  rw [spelled] at piece ⊢
  exact (piece_unique piece (.punctuation (cs ++ rest) rfl) rfl).2.1

/-! ### What stands behind a lexeme -/

private theorem behind_outline (next : SourceToken) (later : List SourceToken) :
    behind [] ((next :: later).map outline) = next.lexeme ++ behind [] (later.map outline) := by
  rw [List.map_cons, behind_cons]
  rfl

/-- Whether a run stops behind a lexeme is seen from the kind of the next token. -/
theorem stops_behind {inside : Char → Prop} {named : Prop} (scanned : Scanned config next) (later : List SourceToken)
    (leading : ∀ c, CharClass.of c = leads next.kind → (inside c ↔ named)) :
    Stops inside (behind [] ((next :: later).map outline)) ↔ ¬ named := by
  obtain ⟨c, cs, spelled, first⟩ := scanned_leads scanned
  rw [behind_outline, spelled, List.cons_append, stops_cons, leading c first]

/-- What stands behind a point is what may be the places of a number. -/
theorem behind_point {after : Text} (scanned : Scanned config next) (later : List SourceToken)
    (point : behind [] ((next :: later).map outline) = '.' :: after) :
    next.kind = .dot ∧ after = behind [] (later.map outline) := by
  obtain ⟨c, cs, spelled, first⟩ := scanned_leads scanned
  rw [behind_outline, spelled] at point
  obtain ⟨rfl, rest⟩ := List.cons.inj point
  have isPoint := (point_leads first).mp rfl
  obtain rfl : cs = [] := by simpa [spelled] using point_lexeme scanned isPoint
  exact ⟨isPoint, rest.symm⟩

theorem not_fuses_of_bounded (scanned : ∀ token ∈ later, Scanned config token)
    (bounded : Bounded config token.kind token.lexeme (behind [] (later.map outline))) :
    ¬ Fuses config (token :: later) := by
  intro fuses
  cases fuses with
  | @word _ next later isAWord notOr behindIt =>
    have stops := bounded.word isAWord notOr
    exact (stops_behind (scanned next (by simp)) later fun _ => wordChar_leads).mp stops behindIt
  | @numbers _ next later isNumber behindIt =>
    have stops := bounded.number isNumber
    exact (stops_behind (scanned next (by simp)) later fun _ => digit_leads).mp stops behindIt
  | @places _ point next later isNumber whole isPoint behindIt =>
    have spelled : behind [] ((point :: next :: later).map outline) =
        '.' :: behind [] ((next :: later).map outline) := by
      rw [behind_outline, point_lexeme (scanned point (by simp)) isPoint]
      rfl
    have stops := bounded.places isNumber whole _ spelled
    exact (stops_behind (scanned next (by simp)) later fun _ => digit_leads).mp stops behindIt
  | @operator _ next later isOperator behindIt =>
    have stops := bounded.operator isOperator
    exact (stops_behind (scanned next (by simp)) later fun _ => equals_leads).mp stops behindIt
  | @slashes _ next later isSlash behindIt =>
    have stops := bounded.slash isSlash
    exact (stops_behind (scanned next (by simp)) later fun _ => slash_leads).mp stops behindIt

/-- Tokens that do not fuse bound each other, if an `r` stands behind the `o` of the shortcut. -/
theorem bounded_of_not_fuses (scanned : ∀ token ∈ later, Scanned config token)
    (followed : config.orShortcut = true → token.kind = .keyword .or →
      (behind [] (later.map outline)).head? = some 'r') (apart : ¬ Fuses config (token :: later)) :
    Bounded config token.kind token.lexeme (behind [] (later.map outline)) := by
  cases later with
  | nil =>
    refine bounded_of_apart ?_ apart_nil
    rintro ⟨on, isOr⟩
    cases followed on isOr
  | cons next later =>
    obtain ⟨here, others⟩ := List.forall_mem_cons.mp scanned
    refine ⟨fun isOperator => ?_, fun isSlash => ?_, fun isNumber => ?_, fun isNumber whole after point => ?_,
      followed, fun isAWord notOr => ?_⟩
    · exact (stops_behind here later fun _ => equals_leads).mpr fun behindIt => apart (.operator isOperator behindIt)
    · exact (stops_behind here later fun _ => slash_leads).mpr fun behindIt => apart (.slashes isSlash behindIt)
    · exact (stops_behind here later fun _ => digit_leads).mpr fun behindIt => apart (.numbers isNumber behindIt)
    · obtain ⟨isPoint, rfl⟩ := behind_point here later point
      cases later with
      | nil => exact stops_nil _
      | cons last later =>
        refine (stops_behind (others last (by simp)) later fun _ => digit_leads).mpr fun behindIt => ?_
        exact apart (.places isNumber whole isPoint behindIt)
    · exact (stops_behind here later fun _ => wordChar_leads).mpr fun behindIt => apart (.word isAWord notOr behindIt)

/-! ### Whole lists -/

/-- Nowhere in a list do neighbours fuse. -/
private def Unfused (config : Config) (found : List SourceToken) : Prop := ∀ tail, tail <:+ found → ¬ Fuses config tail

private theorem unfused_cons :
    Unfused config (token :: later) ↔ ¬ Fuses config (token :: later) ∧ Unfused config later := by
  unfold Unfused
  simp only [List.suffix_cons_iff, forall_eq_or_imp]

private theorem readable_iff (scanned : ∀ token ∈ found, Scanned config token)
    (followed : config.orShortcut = true → OrShortcut.Followed found) :
    Readable config [] (found.map outline) ↔ Unfused config found := by
  induction found with
  | nil =>
    refine ⟨fun _ tail isTail fuses => ?_, fun _ => trivial⟩
    rw [List.suffix_nil.mp isTail] at fuses
    cases fuses
  | cons token later ih =>
    obtain ⟨here, others⟩ := List.forall_mem_cons.mp scanned
    obtain ⟨place, kind, rest, piece, same⟩ := here
    have named : token.kind = kind := by rw [same]; rfl
    rw [unfused_cons, ← ih others fun on => (followed on).2]
    refine and_congr ⟨fun again => not_fuses_of_bounded others (bounded_of_piece again), fun apart => ?_⟩ Iff.rfl
    have head (on : config.orShortcut = true) (isOr : token.kind = .keyword .or) :
        (behind [] (later.map outline)).head? = some 'r' := by
      obtain ⟨-, next, first, -, begins, -⟩ := (followed on).1 isOr
      obtain ⟨others, rfl⟩ := List.head?_eq_some_iff.mp first
      obtain ⟨cs, spelled⟩ := List.head?_eq_some_iff.mp begins
      rw [behind_outline, spelled]
      rfl
    subst named
    exact piece_of_bounded piece (bounded_of_not_fuses others head apart)

private theorem behind_tokens (position : Position) (kind : Option Kind) (lexeme : Text) (later : List SourceToken) :
    behind [] ((tokens position kind lexeme ++ later).map outline) =
      (if kind = none then [] else lexeme) ++ behind [] (later.map outline) := by
  cases kind with
  | none => rfl
  | some kind => exact behind_outline (Scan.tokenAt position kind lexeme) later

private theorem behind_length (text : Text) : ∀ position,
    (behind [] ((Scan.run config [] position text).tokens.map outline)).length ≤ text.length := by
  induction text using text_induction config with
  | nil =>
    intro position
    simp [behind]
  | stuck stuck =>
    intro position
    simp [run_stuck stuck, behind]
  | @piece kind lexeme rest piece later =>
    intro position
    have shorter := later (position.after lexeme)
    rw [run_piece piece, behind_tokens]
    split <;> simp only [List.length_append, List.length_nil] <;> omega

/-- A scan whose lexemes are as long as its text has no gap between them. -/
theorem run_tight (text : Text) : ∀ position, (Scan.run config [] position text).error = none →
    text.length ≤ (behind [] ((Scan.run config [] position text).tokens.map outline)).length →
      Readable config [] ((Scan.run config [] position text).tokens.map outline) ∧
        behind [] ((Scan.run config [] position text).tokens.map outline) = text := by
  induction text using text_induction config with
  | nil =>
    intro position _ _
    rw [Scan.run_nil]
    exact ⟨trivial, rfl⟩
  | stuck stuck =>
    intro position succeeds
    rw [run_stuck stuck] at succeeds
    cases succeeds
  | @piece kind lexeme rest piece later =>
    intro position succeeds long
    have shorter := @behind_length config rest (position.after lexeme)
    rw [run_piece piece] at succeeds long ⊢
    rw [behind_tokens] at long ⊢
    cases kind with
    | none =>
      -- a gap takes characters that no lexeme has
      have taken := List.length_pos_iff.mpr (piece_nonempty piece)
      simp only [↓reduceIte, List.nil_append, List.length_append] at long
      omega
    | some kind =>
      simp only [reduceCtorEq, ↓reduceIte, List.length_append, Nat.add_le_add_iff_left] at long
      obtain ⟨readable, spelled⟩ := later (position.after lexeme) succeeds long
      have here : Piece config (some kind) lexeme
          (behind [] ((Scan.run config [] (position.after lexeme) rest).tokens.map outline)) := by
        rw [spelled]
        exact piece
      exact ⟨⟨here, readable⟩, by rw [if_neg (by simp), spelled]⟩

/-- The `OR`s that a scan with the shortcut finds have their `r` behind them. -/
theorem scanned_followed {text : Text} (scanned : (Scan.ofText config text).result = .ok found)
    (on : config.orShortcut = true) : OrShortcut.Followed found := by
  obtain rfl : config = ⟨true⟩ := by
    cases config
    exact congrArg Config.mk on
  obtain ⟨-, rfl⟩ := result_eq_ok_iff.mp scanned
  exact OrShortcut.ofText_followed text

private theorem joined_bare (spellings : List Spelling) : joined [] spellings = behind [] spellings := by
  cases spellings with
  | nil => rfl
  | cons spelling later => rw [joined_cons, behind_cons, List.nil_append]

private theorem rejoin_bare (found : List SourceToken) : rejoin [] found = behind [] (found.map outline) := by
  rw [← joined_bare]
  exact rejoin_eq (List.map_map ..) []

/-- The lexemes of a scan, joined with nothing between and scanned again, are found again with their kinds
    exactly when no neighbours fuse: a word with a word or a number behind it, a number with a number, or
    without places with a point and a number, an operator that takes an `=` along with what begins with
    one, or a slash with a slash. -/
theorem rescan_bare_iff (config : Config) (text : Text) (found : List SourceToken)
    (scanned : (Scan.ofText config text).result = .ok found) :
    (∃ again, (Scan.ofText config (rejoin [] found)).result = .ok again ∧
      again.map (fun token => (token.kind, token.lexeme)) = found.map (fun token => (token.kind, token.lexeme))) ↔
        ∀ tail, tail <:+ found → ¬ Fuses config tail := by
  have readable := readable_iff (result_scanned scanned) (scanned_followed scanned)
  change _ ↔ Unfused config found
  rw [← readable, rejoin_bare]
  constructor
  · rintro ⟨again, rescanned, same⟩
    obtain ⟨succeeds, rfl⟩ := result_eq_ok_iff.mp rescanned
    have outlines : (Scan.run config [] .start (behind [] (found.map outline))).tokens.map outline =
        found.map outline := same
    have tight := run_tight (behind [] (found.map outline)) .start succeeds (by rw [outlines])
    rw [outlines] at tight
    exact tight.1
  · intro again
    have rescanned := joined_result (by simp) again
    rw [joined_bare] at rescanned
    exact ⟨placed [] .start (found.map outline), rescanned, placed_outline ..⟩

theorem rescan_bare_places :
    let one : SourceToken := ⟨⟨.number, ['1'], some (.number (.ofNumeral ['1'])), 1⟩, 0⟩
    let point : SourceToken := ⟨⟨.dot, ['.'], none, 1⟩, 2⟩
    let five : SourceToken := ⟨⟨.number, "5.5".toList, some (.number (.ofNumeral "5.5".toList)), 1⟩, 4⟩
    let first : SourceToken := ⟨⟨.keyword .or, ['o'], none, 1⟩, 0⟩
    let second : SourceToken := ⟨⟨.identifier, ['r'], none, 1⟩, 1⟩
    ((Scan.ofText {} "1 . 5.5".toList).result = .ok [one, point, five] ∧ Fuses {} [one, point, five] ∧
      ¬ ∃ again, (Scan.ofText {} (rejoin [] [one, point, five])).result = .ok again ∧
        again.map (fun token => (token.kind, token.lexeme)) = [outline one, outline point, outline five]) ∧
    (Scan.ofText ⟨true⟩ ['o', 'r']).result = .ok [first, second] ∧
      ∃ again, (Scan.ofText ⟨true⟩ (rejoin [] [first, second])).result = .ok again ∧
        again.map (fun token => (token.kind, token.lexeme)) = [outline first, outline second] := by
  intro one point five first second
  have numbers : (Scan.ofText {} "1 . 5.5".toList).result = .ok [one, point, five] :=
    result_eq_ok_iff.mpr ⟨by decide +kernel, by decide +kernel⟩
  have words : (Scan.ofText ⟨true⟩ ['o', 'r']).result = .ok [first, second] :=
    result_eq_ok_iff.mpr ⟨by decide +kernel, by decide +kernel⟩
  have fuses : Fuses {} [one, point, five] := .places rfl (by decide) rfl rfl
  refine ⟨⟨numbers, fuses, fun same => ?_⟩, words, ?_⟩
  · exact (rescan_bare_iff {} "1 . 5.5".toList _ numbers).mp same _ (List.suffix_refl _) fuses
  · refine (rescan_bare_iff ⟨true⟩ ['o', 'r'] _ words).mpr fun tail isTail => ?_
    simp only [List.suffix_cons_iff, List.suffix_nil] at isTail
    rcases isTail with rfl | rfl | rfl
    · intro fused
      cases fused with
      | word _ notOr => exact notOr ⟨rfl, rfl⟩
      | numbers isNumber => cases isNumber
      | operator listed => simp [first] at listed
      | slashes isSlash => cases isSlash
    · nofun
    · nofun

end LoxLexer.Fusion

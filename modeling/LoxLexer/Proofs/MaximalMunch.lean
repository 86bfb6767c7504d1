import LoxLexer.Proofs.Numerals

/-!
Maximal munch. The lexeme languages are stated on their own (`Lexeme`), and tokenizing a text means to
take its longest front lexeme away again and again, until nothing is left or no lexeme is at the front
(`Tokenized`). Scanning without the shortcut is exactly that (`tokenized_iff`): no piece is shorter
than another lexeme at its place (`lexeme_le`), and a stuck text has none in front (`noLexeme_of_stuck`).
-/

namespace LoxLexer.MaximalMunch
open LoxLexer.Alphabet LoxLexer.Pieces LoxLexer.Nearest LoxLexer.Numerals

/-- The reserved words and their kinds. -/
def reserved : List (Text × Kind) :=
  [("and".toList, .keyword .and), ("class".toList, .keyword .«class»), ("else".toList, .keyword .«else»),
    ("false".toList, .keyword .false), ("for".toList, .keyword .«for»), ("fun".toList, .keyword .«fun»),
    ("if".toList, .keyword .«if»), ("nil".toList, .keyword .nil), ("or".toList, .keyword .or),
    ("print".toList, .keyword .print), ("return".toList, .keyword .«return»),
    ("super".toList, .keyword .super), ("this".toList, .keyword .«this»), ("true".toList, .keyword .true),
    ("var".toList, .keyword .var), ("while".toList, .keyword .«while»)]

/-- The kind of a whole word: the one paired with it, or `identifier` where none is. -/
inductive Named (word : Text) : Kind → Prop
  | reserved {kind} : (word, kind) ∈ reserved → Named word kind
  | free : (∀ kind, (word, kind) ∉ reserved) → Named word .identifier

/-- What a lexeme stands for: the kind and the literal of its token, or nothing between tokens. -/
abbrev Reading := Option (Kind × Option Literal)

/-- The lexeme languages, each text with its reading. The literal of a number is what the number that is written
    rounds to. -/
inductive Lexeme : Text → Reading → Prop
  | punctuation {c kind} : (c, kind) ∈ punctuation → Lexeme [c] (some (kind, none))
  | operator {c alone paired} : (c, alone, paired) ∈ operators → Lexeme [c] (some (alone, none))
  | paired {c alone paired} : (c, alone, paired) ∈ operators → Lexeme [c, '='] (some (paired, none))
  | slash : Lexeme ['/'] (some (.slash, none))
  | comment {body} : (∀ c ∈ body, c ≠ '\n') → Lexeme ('/' :: '/' :: body) none
  | blank {c} : c ∈ blanks → Lexeme [c] none
  | newline : Lexeme ['\n'] none
  | string {body} : (∀ c ∈ body, c ≠ '"') →
      Lexeme ('"' :: (body ++ ['"'])) (some (.string, some (.string body)))
  | number {numeral q} {x : Binary64} : Worth numeral q → x.negative = false → Rounds q x.magnitude →
      Lexeme numeral (some (.number, some (.number x)))
  | word {c cs kind} : Letter c → (∀ x ∈ cs, WordChar x) → Named (c :: cs) kind →
      Lexeme (c :: cs) (some (kind, none))

/-- A lexeme at the front of a text that no other lexeme at the front is longer than. -/
def Longest (text lexeme : Text) (reading : Reading) : Prop :=
  Lexeme lexeme reading ∧ lexeme <+: text ∧
    ∀ other meaning, Lexeme other meaning → other <+: text → other.length ≤ lexeme.length

/-- No lexeme is at the front of a text. -/
def NoLexeme (text : Text) : Prop := ∀ lexeme reading, Lexeme lexeme reading → ¬ lexeme <+: text

/-- The tokens or the error of a text that stands behind another: the longest front lexeme is taken
    away until nothing is left or there is none. A token is on the line where its lexeme ends; an error
    is on the line of the character that begins no lexeme, or on the last line for an open string. -/
inductive Tokenized : Text → Text → Except ScanError (List SourceToken) → Prop
  | done (before : Text) : Tokenized before [] (.ok [])
  | skip {before lexeme rest result} : Longest (lexeme ++ rest) lexeme none →
      Tokenized (before ++ lexeme) rest result → Tokenized before (lexeme ++ rest) result
  | token {before lexeme rest kind literal result} : Longest (lexeme ++ rest) lexeme (some (kind, literal)) →
      Tokenized (before ++ lexeme) rest result →
      Tokenized before (lexeme ++ rest)
        (result.map (⟨⟨kind, lexeme, literal, 1 + (before ++ lexeme).lineBreaks⟩, before.byteSize⟩ :: ·))
  | foreign {before c rest} : NoLexeme (c :: rest) → c ≠ '"' →
      Tokenized before (c :: rest) (.error (.unexpectedCharacter (1 + before.lineBreaks) c))
  | unterminated {before rest} : NoLexeme ('"' :: rest) →
      Tokenized before ('"' :: rest) (.error (.unterminatedString (1 + (before ++ '"' :: rest).lineBreaks)))

/-! ### Words -/

private theorem reserved_eq : reserved = Keyword.all.map fun keyword => (keyword.word, .keyword keyword) := rfl

private theorem mem_reserved_iff {word : Text} {kind : Kind} :
    (word, kind) ∈ reserved ↔ ∃ keyword : Keyword, word = keyword.word ∧ kind = .keyword keyword := by
  rw [reserved_eq, List.mem_map]
  constructor
  · rintro ⟨keyword, -, same⟩
    obtain ⟨rfl, rfl⟩ := Prod.mk.inj same
    exact ⟨keyword, rfl, rfl⟩
  · rintro ⟨keyword, rfl, rfl⟩
    exact ⟨keyword, keyword.mem_all, rfl⟩

private theorem named_iff {word : Text} {kind : Kind} : Named word kind ↔ kind = .ofWord word := by
  constructor
  · rintro (listed | free)
    · obtain ⟨keyword, rfl, rfl⟩ := mem_reserved_iff.mp listed
      exact (ofWord_eq_keyword_iff.mpr rfl).symm
    · refine (ofWord_eq_identifier_iff.mpr fun keyword same => ?_).symm
      exact free _ (mem_reserved_iff.mpr ⟨keyword, same, rfl⟩)
  · rintro rfl
    cases known : Kind.ofWord word with
    | keyword keyword =>
      exact .reserved (mem_reserved_iff.mpr ⟨keyword, ofWord_eq_keyword_iff.mp known, rfl⟩)
    | identifier =>
      refine .free fun kind listed => ?_
      obtain ⟨keyword, same, -⟩ := mem_reserved_iff.mp listed
      exact ofWord_eq_identifier_iff.mp known keyword same
    | _ => simpa [known, isWord] using isWord_ofWord word

/-! ### The longest lexeme -/

/-- How a lexeme goes on behind its first character. -/
def Continues (c : Char) : CharClass → Text → Prop
  | .operator _ _, tail => tail = [] ∨ tail = ['=']
  | .slash, tail => tail = [] ∨ ∃ body, (∀ x ∈ body, x ≠ '\n') ∧ tail = '/' :: body
  | .quote, tail => ∃ body, (∀ x ∈ body, x ≠ '"') ∧ tail = body ++ ['"']
  | .digit, tail => Numeral (c :: tail)
  | .letter, tail => ∀ x ∈ tail, WordChar x
  | .foreign, _ => False
  | _, tail => tail = []

private theorem numeral_digit {numeral : Text} (known : Numeral numeral) : ∃ d tail, numeral = d :: tail ∧ Digit d := by
  cases known with
  | whole nonempty inside =>
    obtain ⟨d, digits, rfl⟩ := List.exists_cons_of_ne_nil nonempty
    exact ⟨d, digits, rfl, inside d (by simp)⟩
  | @fraction _ places nonempty inside =>
    obtain ⟨d, digits, rfl⟩ := List.exists_cons_of_ne_nil nonempty
    exact ⟨d, digits ++ '.' :: places, rfl, inside d (by simp)⟩

/-- The first character of a lexeme decides how it can go on. -/
theorem lexeme_continues {lexeme : Text} {reading : Reading} (known : Lexeme lexeme reading) :
    ∃ c tail, lexeme = c :: tail ∧ Continues c (CharClass.of c) tail := by
  cases known with
  | @punctuation c kind listed =>
    have known : CharClass.of c = .punctuation kind := of_listed listed
    exact ⟨c, [], rfl, by rw [known]; rfl⟩
  | @operator c alone paired listed =>
    have known : CharClass.of c = .operator alone paired := of_listed listed
    exact ⟨c, [], rfl, by rw [known]; exact .inl rfl⟩
  | @paired c alone paired listed =>
    have known : CharClass.of c = .operator alone paired := of_listed listed
    exact ⟨c, ['='], rfl, by rw [known]; exact .inr rfl⟩
  | slash => exact ⟨'/', [], rfl, .inl rfl⟩
  | @comment body inside => exact ⟨'/', '/' :: body, rfl, .inr ⟨body, inside, rfl⟩⟩
  | @blank c listed =>
    have known : CharClass.of c = .blank := of_listed listed
    exact ⟨c, [], rfl, by rw [known]; rfl⟩
  | newline => exact ⟨'\n', [], rfl, rfl⟩
  | @string body inside => exact ⟨'"', body ++ ['"'], rfl, body, inside, rfl⟩
  | number worth =>
    obtain ⟨d, tail, rfl, digit⟩ := numeral_digit (worth_numeral worth)
    exact ⟨d, tail, rfl, by rw [of_digit digit]; exact worth_numeral worth⟩
  | @word c cs _ letter inside => exact ⟨c, cs, rfl, by rw [of_letter letter]; exact inside⟩

variable {kind : Option Kind} {lexeme rest text : Text}

/-- No lexeme at the front of a text is longer than the piece that it begins with. -/
theorem lexeme_le {reading : Reading} {other : Text} (piece : Piece {} kind lexeme rest)
    (known : Lexeme other reading) (front : other <+: lexeme ++ rest) : other.length ≤ lexeme.length := by
  obtain ⟨c, tail, rfl, continues⟩ := lexeme_continues known
  cases piece with
  | punctuation rest named =>
    obtain ⟨rfl, -⟩ := List.cons_prefix_cons.mp front
    rw [named] at continues
    simp [show tail = [] from continues]
  | alone named stops =>
    obtain ⟨rfl, behind⟩ := List.cons_prefix_cons.mp front
    rw [named] at continues
    rcases continues with rfl | rfl
    · rfl
    · obtain ⟨more, rfl⟩ := behind
      exact absurd rfl (stops '=' rfl)
  | paired rest named =>
    obtain ⟨rfl, -⟩ := List.cons_prefix_cons.mp front
    rw [named] at continues
    rcases continues with rfl | rfl <;> simp
  | slash stops =>
    obtain ⟨rfl, behind⟩ := List.cons_prefix_cons.mp front
    rcases continues with rfl | ⟨body, -, rfl⟩
    · rfl
    · obtain ⟨more, rfl⟩ := behind
      exact absurd rfl (stops '/' rfl)
  | comment inside stops =>
    obtain ⟨rfl, behind⟩ := List.cons_prefix_cons.mp front
    rcases continues with rfl | ⟨body, others, rfl⟩
    · simp
    · have within := prefix_run others stops (List.cons_prefix_cons.mp behind).2
      simpa using within.length_le
  | blank rest named =>
    obtain ⟨rfl, -⟩ := List.cons_prefix_cons.mp front
    rw [named] at continues
    simp [show tail = [] from continues]
  | newline =>
    obtain ⟨rfl, -⟩ := List.cons_prefix_cons.mp front
    simp [show tail = [] from continues]
  | @string body rest inside =>
    obtain ⟨rfl, behind⟩ := List.cons_prefix_cons.mp front
    obtain ⟨otherBody, others, rfl⟩ := continues
    have stops : Stops (· ≠ '"') ('"' :: rest) := stops_cons.mpr (by simp)
    have ahead : otherBody <+: body ++ '"' :: rest := by
      refine (List.prefix_append otherBody ['"']).trans ?_
      simpa using behind
    simpa using (prefix_run others stops ahead).length_le
  | whole nonempty inside stops noPlaces =>
    obtain ⟨d, digits, rfl⟩ := List.exists_cons_of_ne_nil nonempty
    obtain ⟨rfl, -⟩ := List.cons_prefix_cons.mp front
    rw [of_digit (inside c (by simp))] at continues
    exact numeral_le_whole continues inside stops noPlaces front
  | @fraction digits places _ nonempty inside somePlaces decimals stops =>
    obtain ⟨d, digits, rfl⟩ := List.exists_cons_of_ne_nil nonempty
    obtain ⟨rfl, -⟩ := List.cons_prefix_cons.mp front
    rw [of_digit (inside c (by simp))] at continues
    rw [List.append_assoc] at front
    simpa only [List.length_append, List.length_cons] using numeral_le_fraction continues inside stops front
  | or on => cases on
  | @word d cs _ letter inside stops =>
    obtain ⟨rfl, behind⟩ := List.cons_prefix_cons.mp front
    rw [of_letter letter] at continues
    have within : tail <+: cs := prefix_run continues stops behind
    simpa using within.length_le

theorem noLexeme_of_stuck {fault : Fault} (stuck : Stuck text fault) : NoLexeme text := by
  intro other reading known front
  obtain ⟨c, tail, rfl, continues⟩ := lexeme_continues known
  cases stuck with
  | foreign cs named =>
    obtain ⟨rfl, -⟩ := List.cons_prefix_cons.mp front
    rw [named] at continues
    exact continues
  | unterminated inside =>
    obtain ⟨rfl, behind⟩ := List.cons_prefix_cons.mp front
    obtain ⟨body, -, rfl⟩ := continues
    exact inside '"' (behind.subset (by simp)) rfl

/-! ### Readings -/

/-- The reading of a lexeme of some kind. -/
def readingOf (kind : Option Kind) (lexeme : Text) : Reading :=
  kind.map fun kind => (kind, Literal.ofLexeme? kind lexeme)

private theorem no_literal {kind : Kind} (plain : kind ≠ .string ∧ kind ≠ .number) (lexeme : Text) :
    Literal.ofLexeme? kind lexeme = none := by
  unfold Literal.ofLexeme?
  split
  · exact absurd rfl plain.1
  · exact absurd rfl plain.2
  · rfl

theorem punctuation_literal {c : Char} {kind : Kind} (listed : (c, kind) ∈ punctuation) (lexeme : Text) :
    Literal.ofLexeme? kind lexeme = none := by
  have plain : ∀ entry ∈ punctuation, entry.2 ≠ .string ∧ entry.2 ≠ .number := by decide
  exact no_literal (plain _ listed) lexeme

theorem operator_literal {c : Char} {alone paired : Kind} (listed : (c, alone, paired) ∈ operators)
    (lexeme : Text) :
    Literal.ofLexeme? alone lexeme = none ∧ Literal.ofLexeme? paired lexeme = none := by
  have plain : ∀ entry ∈ operators, (entry.2.1 ≠ .string ∧ entry.2.1 ≠ .number) ∧
      entry.2.2 ≠ .string ∧ entry.2.2 ≠ .number := by decide
  exact ⟨no_literal (plain _ listed).1 lexeme, no_literal (plain _ listed).2 lexeme⟩

theorem string_literal (body : Text) :
    Literal.ofLexeme? .string ('"' :: (body ++ ['"'])) = some (.string body) := by
  simp [Literal.ofLexeme?]

private theorem lexeme_number {numeral : Text} (known : Numeral numeral) : Lexeme numeral (readingOf (some .number) numeral) := by
  obtain ⟨q, worth⟩ := numeral_worth known
  exact .number worth rfl (rounds_numeral worth)

private theorem lexeme_of_piece (piece : Piece {} kind lexeme rest) : Lexeme lexeme (readingOf kind lexeme) := by
  cases piece with
  | @punctuation c kind _ named =>
    have listed : (c, kind) ∈ punctuation := (of_eq_iff (by simp)).mp named
    simpa only [readingOf, Option.map_some, punctuation_literal listed] using Lexeme.punctuation listed
  | @alone c alone paired _ named =>
    have listed : (c, alone, paired) ∈ operators := (of_eq_iff (by simp)).mp named
    simpa only [readingOf, Option.map_some, operator_literal listed] using Lexeme.operator listed
  | @paired c alone paired _ named =>
    have listed : (c, alone, paired) ∈ operators := (of_eq_iff (by simp)).mp named
    simpa only [readingOf, Option.map_some, operator_literal listed] using Lexeme.paired listed
  | slash => exact .slash
  | comment inside => exact .comment inside
  | blank rest named => exact .blank ((of_eq_iff (by simp)).mp named)
  | newline => exact .newline
  | string rest inside => simpa only [readingOf, Option.map_some, string_literal] using Lexeme.string inside
  | whole nonempty inside => exact lexeme_number (.whole nonempty inside)
  | fraction nonempty inside somePlaces decimals => exact lexeme_number (.fraction nonempty inside somePlaces decimals)
  | or on => cases on
  | word letter inside =>
    simpa only [readingOf, Option.map_some, word_literal] using Lexeme.word letter inside (named_iff.mpr rfl)

/-- A lexeme with nothing behind it is a piece. -/
theorem piece_of_lexeme {reading : Reading} (known : Lexeme lexeme reading) :
    ∃ kind, Piece {} kind lexeme [] ∧ reading = readingOf kind lexeme := by
  cases known with
  | @punctuation c kind listed =>
    refine ⟨some kind, .punctuation [] (of_listed listed), ?_⟩
    simp only [readingOf, Option.map_some, punctuation_literal listed]
  | @operator c alone paired listed =>
    have named : CharClass.of c = .operator alone paired := of_listed listed
    refine ⟨some alone, .alone named (stops_nil _), ?_⟩
    simp only [readingOf, Option.map_some, operator_literal listed]
  | @paired c alone paired listed =>
    have named : CharClass.of c = .operator alone paired := of_listed listed
    refine ⟨some paired, .paired [] named, ?_⟩
    simp only [readingOf, Option.map_some, operator_literal listed]
  | slash => exact ⟨_, .slash (stops_nil _), rfl⟩
  | comment inside => exact ⟨_, .comment inside (stops_nil _), rfl⟩
  | blank listed => exact ⟨_, .blank [] (of_listed listed), rfl⟩
  | newline => exact ⟨_, .newline [], rfl⟩
  | string inside => exact ⟨_, .string [] inside, by simp only [readingOf, Option.map_some, string_literal]⟩
  | number worth positive rounds =>
    obtain rfl := ofNumeral_of_rounds worth positive rounds
    cases worth with
    | whole nonempty inside => exact ⟨_, .whole nonempty inside (stops_nil _) nofun, rfl⟩
    | fraction nonempty inside somePlaces decimals =>
      exact ⟨_, .fraction nonempty inside somePlaces decimals (stops_nil _), rfl⟩
  | @word c cs kind letter inside named =>
    obtain rfl := named_iff.mp named
    refine ⟨_, .word letter inside (stops_nil _) nofun, ?_⟩
    simp only [readingOf, Option.map_some, word_literal]

private theorem reading_unique {one two : Reading} (first : Lexeme lexeme one) (second : Lexeme lexeme two) :
    one = two := by
  obtain ⟨kind, piece, rfl⟩ := piece_of_lexeme first
  obtain ⟨other, again, rfl⟩ := piece_of_lexeme second
  obtain ⟨rfl, -, -⟩ := piece_unique piece again rfl
  rfl

/-! ### Tokenizing -/

private theorem longest_of_piece (piece : Piece {} kind lexeme rest) :
    Longest (lexeme ++ rest) lexeme (readingOf kind lexeme) :=
  ⟨lexeme_of_piece piece, List.prefix_append _ _, fun _ _ known front => lexeme_le piece known front⟩

/-- Behind the longest lexeme stands what the piece leaves. -/
theorem piece_of_longest {reading : Reading} (longest : Longest (lexeme ++ rest) lexeme reading) :
    ∃ kind, Piece {} kind lexeme rest ∧ reading = readingOf kind lexeme := by
  obtain ⟨known, front, greatest⟩ := longest
  obtain ⟨c, tail, rfl, -⟩ := lexeme_continues known
  cases cutting : Cut.first {} c (tail ++ rest) with
  | error fault => exact absurd front (noLexeme_of_stuck (stuck_of_first cutting) _ _ known)
  | ok cut =>
    -- both the given lexeme and the one cut off are at the front, and neither is longer
    have piece := piece_of_first cutting
    have tile : cut.lexeme ++ cut.rest = c :: tail ++ rest := Cut.first_tile cutting
    have first := lexeme_of_piece piece
    have cutFront : cut.lexeme <+: c :: tail ++ rest := ⟨cut.rest, tile⟩
    have longer : (c :: tail).length ≤ cut.lexeme.length := lexeme_le piece known (tile ▸ front)
    have same : c :: tail = cut.lexeme :=
      (List.prefix_of_prefix_length_le front cutFront longer).eq_of_length_le (greatest _ _ first cutFront)
    have left : cut.rest = rest := List.append_cancel_left (tile.trans (by rw [same]))
    rw [← same] at piece first
    rw [left] at piece
    exact ⟨cut.kind, piece, reading_unique known first⟩

private theorem tokens_start (before lexeme : Text) (kind : Kind) :
    tokens (Position.start.after before) (some kind) lexeme =
      [⟨⟨kind, lexeme, Literal.ofLexeme? kind lexeme, 1 + (before ++ lexeme).lineBreaks⟩, before.byteSize⟩] := by
  simp [tokens, Scan.tokenAt, Position.start, Position.after, Nat.add_assoc]

private theorem map_tokens_none (result : Except ScanError (List SourceToken)) (before lexeme : Text) :
    result.map (tokens (Position.start.after before) none lexeme ++ ·) = result := by
  cases result <;> rfl

private theorem stuck_of_noLexeme {c : Char} {cs : Text} (unmatched : NoLexeme (c :: cs)) : ∃ fault, Stuck (c :: cs) fault := by
  cases cutting : Cut.first {} c cs with
  | error fault => exact ⟨fault, stuck_of_first cutting⟩
  | ok cut =>
    have known := lexeme_of_piece (piece_of_first cutting)
    exact absurd ⟨cut.rest, Cut.first_tile cutting⟩ (unmatched _ _ known)

private theorem stuck_tokenized {fault : Fault} (stuck : Stuck text fault) (before : Text) :
    Tokenized before text (.error (Scan.errorAt (Position.start.after before) text fault)) := by
  have unmatched := noLexeme_of_stuck stuck
  cases stuck with
  | @foreign c cs named =>
    have notQuote : c ≠ '"' := by
      rintro rfl
      cases named
    simpa [Scan.errorAt, Position.start, Position.after] using Tokenized.foreign unmatched notQuote
  | unterminated =>
    simpa [Scan.errorAt, Position.start, Position.after, Nat.add_assoc] using Tokenized.unterminated unmatched

private theorem run_tokenized (text : Text) :
    ∀ before, Tokenized before text (Scan.run {} [] (Position.start.after before) text).result := by
  induction text using text_induction {} with
  | nil =>
    intro before
    rw [Scan.run_nil]
    exact .done before
  | stuck stuck =>
    intro before
    rw [run_stuck stuck]
    exact stuck_tokenized stuck before
  | @piece kind lexeme rest piece later =>
    intro before
    have longest := longest_of_piece piece
    rw [run_piece_result piece, after_after]
    cases kind with
    | none => exact (map_tokens_none _ before lexeme) ▸ .skip longest (later (before ++ lexeme))
    | some kind =>
      rw [tokens_start]
      exact .token longest (later (before ++ lexeme))

private theorem tokenized_run {before : Text} {result : Except ScanError (List SourceToken)}
    (tokenized : Tokenized before text result) :
    (Scan.run {} [] (Position.start.after before) text).result = result := by
  induction tokenized with
  | done before =>
    rw [Scan.run_nil]
    rfl
  | @skip before lexeme rest result longest _ later =>
    obtain ⟨kind, piece, reading⟩ := piece_of_longest longest
    obtain rfl : kind = none := Option.map_eq_none_iff.mp reading.symm
    rw [run_piece_result piece, after_after, later, map_tokens_none]
  | @token before lexeme rest kind literal result longest _ later =>
    obtain ⟨known, piece, reading⟩ := piece_of_longest longest
    cases known with
    | none => cases reading
    | some known =>
      obtain ⟨rfl, rfl⟩ := Prod.mk.inj (Option.some.inj reading)
      rw [run_piece_result piece, after_after, later, tokens_start]
      rfl
  | @foreign before c rest unmatched notQuote =>
    obtain ⟨fault, stuck⟩ := stuck_of_noLexeme unmatched
    rw [run_stuck stuck]
    cases stuck with
    | foreign => simp [Scan.result, Scan.errorAt, Position.start, Position.after]
    | unterminated => exact absurd rfl notQuote
  | @unterminated before rest unmatched =>
    obtain ⟨fault, stuck⟩ := stuck_of_noLexeme unmatched
    rw [run_stuck stuck]
    cases stuck with
    | foreign _ named => cases named
    | unterminated => simp [Scan.result, Scan.errorAt, Position.start, Position.after, Nat.add_assoc]

/-- Scanning without the shortcut tokenizes: of every text it gives the one result that taking away
    longest lexemes gives. -/
theorem tokenized_iff (text : Text) (result : Except ScanError (List SourceToken)) :
    Tokenized [] text result ↔ (Scan.ofText {} text).result = result := by
  unfold Scan.ofText
  rw [← after_nil .start]
  constructor
  · exact tokenized_run
  · rintro rfl
    exact run_tokenized text []

end LoxLexer.MaximalMunch

import Mathlib.Data.List.TakeWhile
import LoxLexer.Proofs.Alphabet
import LoxLexer.Scan

/-!
What a scan can cut off a text: the lexemes of every kind, each with the condition on the text behind
it (`Piece`), and the texts that begin with no lexeme (`Stuck`). Both are exact
(`piece_of_first`, `first_of_piece`, `stuck_of_first`, `first_of_stuck`), so whatever holds of all
pieces holds of every step of a scan, and `text_induction` carries it over whole texts.
-/

namespace LoxLexer.Pieces
open LoxLexer.Alphabet

/-- A lexeme, its kind, and the text that may follow it. -/
inductive Piece (config : Config) : Option Kind → Text → Text → Prop
  | punctuation {c kind} (rest : Text) : CharClass.of c = .punctuation kind → Piece config (some kind) [c] rest
  | alone {c alone paired rest} : CharClass.of c = .operator alone paired → Stops (· = '=') rest →
      Piece config (some alone) [c] rest
  | paired {c alone paired} (rest : Text) : CharClass.of c = .operator alone paired →
      Piece config (some paired) [c, '='] rest
  | slash {rest} : Stops (· = '/') rest → Piece config (some .slash) ['/'] rest
  | comment {body rest} : (∀ c ∈ body, c ≠ '\n') → Stops (· ≠ '\n') rest →
      Piece config none ('/' :: '/' :: body) rest
  | blank {c} (rest : Text) : CharClass.of c = .blank → Piece config none [c] rest
  | newline (rest : Text) : Piece config none ['\n'] rest
  | string {body} (rest : Text) : (∀ c ∈ body, c ≠ '"') →
      Piece config (some .string) ('"' :: (body ++ ['"'])) rest
  | whole {digits rest} : digits ≠ [] → (∀ d ∈ digits, Digit d) → Stops Digit rest →
      (∀ after, rest = '.' :: after → Stops Digit after) → Piece config (some .number) digits rest
  | fraction {digits places rest} : digits ≠ [] → (∀ d ∈ digits, Digit d) → places ≠ [] →
      (∀ d ∈ places, Digit d) → Stops Digit rest → Piece config (some .number) (digits ++ '.' :: places) rest
  | or {rest} : config.orShortcut = true → rest.head? = some 'r' → Piece config (some (.keyword .or)) ['o'] rest
  | word {c cs rest} : Letter c → (∀ x ∈ cs, WordChar x) → Stops WordChar rest →
      (config.orShortcut = true → c = 'o' → Stops (· = 'r') cs) →
      Piece config (some (.ofWord (c :: cs))) (c :: cs) rest

/-- The texts that begin with no lexeme. -/
inductive Stuck : Text → Fault → Prop
  | foreign {c} (cs : Text) : CharClass.of c = .foreign → Stuck (c :: cs) (.foreign c)
  | unterminated {cs} : (∀ c ∈ cs, c ≠ '"') → Stuck ('"' :: cs) .unterminated

variable {config : Config} {kind : Option Kind} {lexeme rest text : Text}

/-! ### Words -/

/-- Identifiers and reserved words. -/
def isWord : Kind → Bool
  | .identifier | .keyword _ => true
  | _ => false

private theorem ofWord?_word (keyword : Keyword) : Keyword.ofWord? keyword.word = some keyword := by
  cases keyword <;> rfl

private theorem ofWord?_eq_some_iff {word : Text} {keyword : Keyword} :
    Keyword.ofWord? word = some keyword ↔ word = keyword.word := by
  constructor
  · intro found
    have spelled : keyword.word = word := by simpa using List.find?_some found
    exact spelled.symm
  · rintro rfl
    exact ofWord?_word keyword

theorem ofWord_eq_keyword_iff {word : Text} {keyword : Keyword} :
    Kind.ofWord word = .keyword keyword ↔ word = keyword.word := by
  rw [← ofWord?_eq_some_iff]
  unfold Kind.ofWord
  cases Keyword.ofWord? word <;> simp

theorem ofWord_eq_identifier_iff {word : Text} :
    Kind.ofWord word = .identifier ↔ ∀ keyword : Keyword, word ≠ keyword.word := by
  constructor
  · rintro free keyword same
    rw [ofWord_eq_keyword_iff.mpr same] at free
    cases free
  · intro free
    unfold Kind.ofWord
    cases found : Keyword.ofWord? word with
    | none => rfl
    | some keyword => exact absurd (ofWord?_eq_some_iff.mp found) (free keyword)

theorem isWord_ofWord (word : Text) : isWord (.ofWord word) = true := by
  unfold Kind.ofWord
  cases Keyword.ofWord? word <;> rfl

theorem word_literal (word : Text) : Literal.ofLexeme? (.ofWord word) word = none := by
  unfold Kind.ofWord
  cases Keyword.ofWord? word <;> rfl

/-! ### One cut -/

private theorem operator_piece {c : Char} {alone paired : Kind} (known : CharClass.of c = .operator alone paired)
    (cs : Text) : let cut := Cut.operator alone paired c cs
    Piece config cut.kind cut.lexeme cut.rest := by
  unfold Cut.operator
  split
  · exact .paired _ known
  · next other =>
    refine .alone known ?_
    rintro d head rfl
    obtain ⟨cs, rfl⟩ := List.head?_eq_some_iff.mp head
    exact other cs rfl

private theorem slash_piece (cs : Text) : let cut := Cut.slash '/' cs
    Piece config cut.kind cut.lexeme cut.rest := by
  unfold Cut.slash
  split
  · exact .comment (takeWhile_all (differs_iff '\n') _) (dropWhile_stops (differs_iff '\n') _)
  · next other =>
    refine .slash ?_
    rintro d head rfl
    obtain ⟨cs, rfl⟩ := List.head?_eq_some_iff.mp head
    exact other cs rfl

private theorem string_piece {cs : Text} {cut : Cut} (found : Cut.string '"' cs = .ok cut) :
    Piece config cut.kind cut.lexeme cut.rest := by
  unfold Cut.string at found
  split at found
  · cases found
  · next close rest ending =>
    have closes : close = '"' := by
      have stops := dropWhile_stops (differs_iff '"') cs
      rw [ending] at stops
      simpa using stops_cons.mp stops
    cases found
    subst closes
    exact .string _ (takeWhile_all (differs_iff '"') _)

private theorem number_piece {c : Char} (digit : Digit c) (cs : Text) : let cut := Cut.number c cs
    Piece config cut.kind cut.lexeme cut.rest := by
  have digits : ∀ d ∈ c :: cs.takeWhile Char.isDigit, Digit d := by
    intro d member
    rcases List.mem_cons.mp member with rfl | later
    · exact digit
    · exact takeWhile_all isDigit_iff cs d later
  have stops := dropWhile_stops isDigit_iff cs
  unfold Cut.number
  dsimp only
  split
  · next d after ending =>
    by_cases more : d.isDigit = true
    · rw [if_pos more]
      refine .fraction (by simp) digits (by simp) ?_ (dropWhile_stops isDigit_iff after)
      intro e member
      rcases List.mem_cons.mp member with rfl | later
      · exact (isDigit_iff e).mp more
      · exact takeWhile_all isDigit_iff after e later
    · rw [if_neg more]
      refine .whole (by simp) digits (ending ▸ stops) ?_
      rintro _ ⟨⟩
      exact stops_cons.mpr fun yes => more ((isDigit_iff d).mpr yes)
  · next other =>
    refine .whole (by simp) digits stops ?_
    rintro after ending d head -
    obtain ⟨after, rfl⟩ := List.head?_eq_some_iff.mp head
    exact other d after ending

private theorem word_piece {c : Char} (letter : Letter c) (cs : Text)
    (plain : config.orShortcut = true → c = 'o' → cs.head? ≠ some 'r') : let cut := Cut.word c cs
    Piece config cut.kind cut.lexeme cut.rest := by
  refine .word letter (takeWhile_all isWordChar_iff cs) (dropWhile_stops isWordChar_iff cs) ?_
  rintro on isO d head rfl
  have taken : cs.head?.filter CharClass.isWordChar = some 'r' := by rw [← List.head?_takeWhile, head]
  exact plain on isO (Option.filter_eq_some_iff.mp taken).1

/-- Whatever is cut off is a piece with the rest behind it. -/
theorem piece_of_first {c : Char} {cs : Text} {cut : Cut} (found : Cut.first config c cs = .ok cut) :
    Piece config cut.kind cut.lexeme cut.rest := by
  unfold Cut.first at found
  split at found
  case h_1 kind known => cases found; exact .punctuation cs known
  case h_2 known => cases found; exact operator_piece known cs
  case h_3 known =>
    obtain rfl : c = '/' := (of_eq_iff (by simp)).mp known
    cases found
    exact slash_piece cs
  case h_4 known => cases found; exact .blank cs known
  case h_5 known =>
    obtain rfl : c = '\n' := (of_eq_iff (by simp)).mp known
    cases found
    exact .newline cs
  case h_6 known =>
    obtain rfl : c = '"' := (of_eq_iff (by simp)).mp known
    exact string_piece found
  case h_7 known =>
    cases found
    exact number_piece ((of_eq_iff (by simp)).mp known) cs
  case h_8 known =>
    split at found
    · next shortcut =>
      obtain ⟨on, rfl, head⟩ := shortcut
      cases found
      exact .or on head
    · next plain =>
      cases found
      exact word_piece ((of_eq_iff (by simp)).mp known) cs fun on isO head => plain ⟨on, isO, head⟩
  case h_9 => cases found

private theorem operator_of_stops (alone paired : Kind) (c : Char) (stops : Stops (· = '=') rest) :
    Cut.operator alone paired c rest = ⟨some alone, [c], rest⟩ := by
  unfold Cut.operator
  split
  · exact absurd rfl (stops '=' rfl)
  · rfl

private theorem slash_of_stops (stops : Stops (· = '/') rest) : Cut.slash '/' rest = ⟨some .slash, ['/'], rest⟩ := by
  unfold Cut.slash
  split
  · exact absurd rfl (stops '/' rfl)
  · rfl

private theorem slash_of_comment {body : Text} (inside : ∀ c ∈ body, c ≠ '\n') (stops : Stops (· ≠ '\n') rest) :
    Cut.slash '/' ('/' :: (body ++ rest)) = ⟨none, '/' :: '/' :: body, rest⟩ := by
  simp only [Cut.slash, takeWhile_run (differs_iff '\n') inside stops, dropWhile_run (differs_iff '\n') inside stops]

private theorem string_of_closed {body : Text} (inside : ∀ c ∈ body, c ≠ '"') (rest : Text) :
    Cut.string '"' (body ++ '"' :: rest) = .ok ⟨some .string, '"' :: (body ++ ['"']), rest⟩ := by
  have stops : Stops (· ≠ '"') ('"' :: rest) := stops_cons.mpr (by simp)
  simp only [Cut.string, takeWhile_run (differs_iff '"') inside stops, dropWhile_run (differs_iff '"') inside stops,
    List.cons_append]

private theorem number_of_whole {c : Char} {digits : Text} (inside : ∀ d ∈ digits, Digit d) (stops : Stops Digit rest)
    (noPlaces : ∀ after, rest = '.' :: after → Stops Digit after) :
    Cut.number c (digits ++ rest) = ⟨some .number, c :: digits, rest⟩ := by
  simp only [Cut.number, takeWhile_run isDigit_iff inside stops, dropWhile_run isDigit_iff inside stops]
  split
  · next d after =>
    have notDigit : ¬ d.isDigit = true := fun yes =>
      stops_cons.mp (noPlaces (d :: after) rfl) ((isDigit_iff d).mp yes)
    rw [if_neg notDigit]
  · rfl

private theorem number_of_fraction {c : Char} {digits places : Text} (inside : ∀ d ∈ digits, Digit d)
    (nonempty : places ≠ []) (decimals : ∀ d ∈ places, Digit d) (stops : Stops Digit rest) :
    Cut.number c (digits ++ '.' :: (places ++ rest)) = ⟨some .number, c :: digits ++ '.' :: places, rest⟩ := by
  obtain ⟨d, places, rfl⟩ := List.exists_cons_of_ne_nil nonempty
  have point : Stops Digit ('.' :: d :: (places ++ rest)) := stops_cons.mpr (by decide)
  have digit : d.isDigit = true := (isDigit_iff d).mpr (decimals d (by simp))
  have later : ∀ e ∈ places, Digit e := fun e member => decimals e (List.mem_cons_of_mem d member)
  simp only [Cut.number, List.cons_append, takeWhile_run isDigit_iff inside point,
    dropWhile_run isDigit_iff inside point, digit, ↓reduceIte, takeWhile_run isDigit_iff later stops,
    dropWhile_run isDigit_iff later stops]

private theorem word_of_run {c : Char} {cs : Text} (inside : ∀ x ∈ cs, WordChar x) (stops : Stops WordChar rest) :
    Cut.word c (cs ++ rest) = ⟨some (.ofWord (c :: cs)), c :: cs, rest⟩ := by
  simp only [Cut.word, takeWhile_run isWordChar_iff inside stops, dropWhile_run isWordChar_iff inside stops]

/-- A word that does not begin with the shortcut's two letters is not cut by it. -/
theorem shortcut_off {cs : Text} (stops : Stops WordChar rest) (plain : Stops (· = 'r') cs) :
    (cs ++ rest).head? ≠ some 'r' := by
  intro head
  cases cs with
  | nil => exact stops 'r' head (by decide)
  | cons d cs => exact plain d rfl (Option.some.inj head)

/-- Every piece is cut off the text that it begins. -/
theorem first_of_piece (piece : Piece config kind lexeme rest) :
    ∃ c cs, lexeme ++ rest = c :: cs ∧ Cut.first config c cs = .ok ⟨kind, lexeme, rest⟩ := by
  cases piece with
  | @punctuation c kind _ known => exact ⟨c, rest, rfl, by simp only [Cut.first, known, Cut.single]⟩
  | @alone c alone paired _ known stops =>
    exact ⟨c, rest, rfl, by simp only [Cut.first, known, operator_of_stops alone paired c stops]⟩
  | @paired c alone paired _ known => exact ⟨c, '=' :: rest, rfl, by simp only [Cut.first, known, Cut.operator]⟩
  | slash stops => exact ⟨'/', rest, rfl, congrArg Except.ok (slash_of_stops stops)⟩
  | @comment body _ inside stops =>
    exact ⟨'/', '/' :: (body ++ rest), rfl, congrArg Except.ok (slash_of_comment inside stops)⟩
  | @blank c _ known => exact ⟨c, rest, rfl, by simp only [Cut.first, known, Cut.single]⟩
  | newline => exact ⟨'\n', rest, rfl, rfl⟩
  | @string body _ inside => exact ⟨'"', body ++ '"' :: rest, by simp, string_of_closed inside rest⟩
  | whole nonempty inside stops noPlaces =>
    obtain ⟨d, digits, rfl⟩ := List.exists_cons_of_ne_nil nonempty
    obtain ⟨digit, later⟩ := List.forall_mem_cons.mp inside
    have known : CharClass.of d = .digit := of_digit digit
    exact ⟨d, digits ++ rest, rfl, by simp only [Cut.first, known, number_of_whole later stops noPlaces]⟩
  | @fraction digits places _ nonempty inside somePlaces decimals stops =>
    obtain ⟨d, digits, rfl⟩ := List.exists_cons_of_ne_nil nonempty
    obtain ⟨digit, later⟩ := List.forall_mem_cons.mp inside
    have known : CharClass.of d = .digit := of_digit digit
    refine ⟨d, digits ++ '.' :: (places ++ rest), by simp, ?_⟩
    simp only [Cut.first, known, number_of_fraction later somePlaces decimals stops]
  | or on head =>
    have letter : Letter 'o' := by decide
    exact ⟨'o', rest, rfl, by simp [Cut.first, of_letter letter, on, head, Cut.single]⟩
  | @word c cs _ letter inside stops plain =>
    have off : ¬ (config.orShortcut = true ∧ c = 'o' ∧ (cs ++ rest).head? = some 'r') :=
      fun ⟨on, isO, head⟩ => shortcut_off stops (plain on isO) head
    exact ⟨c, cs ++ rest, rfl, by simp only [Cut.first, of_letter letter, if_neg off, word_of_run inside stops]⟩

theorem stuck_of_first {c : Char} {cs : Text} {fault : Fault} (failed : Cut.first config c cs = .error fault) :
    Stuck (c :: cs) fault := by
  unfold Cut.first at failed
  split at failed
  case h_6 known =>
    obtain rfl : c = '"' := (of_eq_iff (by simp)).mp known
    unfold Cut.string at failed
    split at failed
    · next ending =>
      cases failed
      refine .unterminated fun d member => ?_
      simpa using List.dropWhile_eq_nil_iff.mp ending d member
    · cases failed
  case h_8 => split at failed <;> cases failed
  case h_9 known => cases failed; exact .foreign cs known
  all_goals cases failed

theorem first_of_stuck (config : Config) {fault : Fault} (stuck : Stuck text fault) :
    ∃ c cs, text = c :: cs ∧ Cut.first config c cs = .error fault := by
  cases stuck with
  | @foreign c cs known => exact ⟨c, cs, rfl, by simp only [Cut.first, known]⟩
  | @unterminated cs open_ =>
    have ending : cs.dropWhile (· ≠ '"') = [] := List.dropWhile_eq_nil_iff.mpr (by simpa using open_)
    exact ⟨'"', cs, rfl, by change Cut.string '"' cs = _; simp only [Cut.string, ending]⟩

theorem piece_unique {other : Option Kind} {word after : Text} (one : Piece config kind lexeme rest)
    (two : Piece config other word after) (same : lexeme ++ rest = word ++ after) :
    kind = other ∧ lexeme = word ∧ rest = after := by
  obtain ⟨c, cs, front, found⟩ := first_of_piece one
  obtain ⟨d, ds, otherFront, again⟩ := first_of_piece two
  obtain ⟨rfl, rfl⟩ := List.cons.inj (front.symm.trans (same.trans otherFront))
  simpa using found.symm.trans again

theorem piece_nonempty (piece : Piece config kind lexeme rest) : lexeme ≠ [] := by
  obtain ⟨c, cs, front, found⟩ := first_of_piece piece
  rintro rfl
  simpa using Cut.first_head found

theorem stuck_no_piece {fault : Fault} (stuck : Stuck (lexeme ++ rest) fault) : ¬ Piece config kind lexeme rest := by
  intro piece
  obtain ⟨c, cs, front, failed⟩ := first_of_stuck config stuck
  obtain ⟨d, ds, otherFront, found⟩ := first_of_piece piece
  obtain ⟨rfl, rfl⟩ := List.cons.inj (front.symm.trans otherFront)
  cases failed.symm.trans found

/-- A reserved word is spelled out, or it is the `o` that the shortcut cuts off. -/
theorem keyword_lexeme {keyword : Keyword} (piece : Piece config (some (.keyword keyword)) lexeme rest) :
    lexeme = keyword.word ∨ config.orShortcut = true ∧ keyword = .or ∧ lexeme = ['o'] := by
  generalize reserved : some (Kind.keyword keyword) = kind at piece
  cases piece with
  | punctuation _ known =>
    obtain rfl := Option.some.inj reserved
    simpa [Listed, punctuation] using (of_eq_iff (by simp)).mp known
  | alone known | paired _ known =>
    obtain rfl := Option.some.inj reserved
    simpa [Listed, operators] using (of_eq_iff (by simp)).mp known
  | slash | comment | blank | newline | string | whole | fraction => cases reserved
  | or on =>
    cases reserved
    exact .inr ⟨on, rfl, rfl⟩
  | word => exact .inl (ofWord_eq_keyword_iff.mp (Option.some.inj reserved).symm)

/-! ### Whole texts -/

@[simp] theorem after_after (position : Position) (one two : Text) :
    (position.after one).after two = position.after (one ++ two) := by
  simp [Position.after, Nat.add_assoc]

@[simp] theorem after_nil (position : Position) : position.after [] = position := by
  simp [Position.after]

/-- What holds of the empty text and of every stuck text, and of a text that begins with a piece if it
    holds of the rest, holds of every text. -/
@[elab_as_elim]
theorem text_induction (config : Config) {motive : Text → Prop} (nil : motive [])
    (stuck : ∀ {text fault}, Stuck text fault → motive text)
    (piece : ∀ {kind lexeme rest}, Piece config kind lexeme rest → motive rest → motive (lexeme ++ rest)) :
    ∀ text, motive text
  | [] => nil
  | c :: cs => by
    cases cutting : Cut.first config c cs with
    | error fault => exact stuck (stuck_of_first cutting)
    | ok cut =>
      have shorter := Cut.first_rest_le cutting
      have later := text_induction config nil stuck piece cut.rest
      exact Cut.first_tile cutting ▸ piece (piece_of_first cutting) later
termination_by text => text.length

/-- The token of a piece, unless it stands between tokens. -/
def tokens (position : Position) (kind : Option Kind) (lexeme : Text) : List SourceToken :=
  (kind.map (Scan.tokenAt position · lexeme)).toList

/-- A piece gives its token, and the scan goes on behind it. -/
theorem run_piece (piece : Piece config kind lexeme rest) (position : Position) :
    Scan.run config [] position (lexeme ++ rest) =
      { Scan.run config [] (position.after lexeme) rest with
        tokens := tokens position kind lexeme ++ (Scan.run config [] (position.after lexeme) rest).tokens } := by
  obtain ⟨c, cs, front, found⟩ := first_of_piece piece
  have reversed : ∀ token? : Option SourceToken, token?.toList.reverse = token?.toList := by
    rintro (_ | token) <;> rfl
  rw [front, Scan.run_of_ok found, List.append_nil, Scan.run_found, reversed]
  rfl

theorem run_stuck {fault : Fault} (stuck : Stuck text fault) (position : Position) :
    Scan.run config [] position text = ⟨[], position, some (Scan.errorAt position text fault)⟩ := by
  obtain ⟨c, cs, rfl, failed⟩ := first_of_stuck config stuck
  exact Scan.run_of_error failed [] position

/-- Every token of a scan is the token of a piece that stands in the text where the token is. -/
theorem run_place {token : SourceToken} (text : Text) :
    ∀ position, token ∈ (Scan.run config [] position text).tokens → ∃ before kind after,
      text = before ++ (token.lexeme ++ after) ∧ Piece config (some kind) token.lexeme after ∧
        token = Scan.tokenAt (position.after before) kind token.lexeme := by
  induction text using text_induction config with
  | nil =>
    intro position member
    simp at member
  | stuck stuck =>
    intro position member
    simp [run_stuck stuck] at member
  | @piece kind lexeme rest piece later =>
    intro position member
    rw [run_piece piece] at member
    rcases List.mem_append.mp member with here | behind
    · cases kind with
      | none => cases here
      | some kind =>
        obtain rfl : token = Scan.tokenAt position kind lexeme := by simpa [tokens] using here
        exact ⟨[], kind, rest, rfl, piece, by rw [after_nil]; rfl⟩
    · obtain ⟨before, found, after, spelled, other, same⟩ := later _ behind
      refine ⟨lexeme ++ before, found, after, ?_, other, ?_⟩
      · rw [spelled, List.append_assoc]
      · rw [← after_after]
        exact same

/-- Every token of a scan is the token of a piece. -/
theorem run_token {position : Position} {token : SourceToken}
    (member : token ∈ (Scan.run config [] position text).tokens) :
    ∃ place kind rest, Piece config (some kind) token.lexeme rest ∧ token = Scan.tokenAt place kind token.lexeme := by
  obtain ⟨before, kind, after, -, piece, same⟩ := run_place text position member
  exact ⟨position.after before, kind, after, piece, same⟩

theorem result_eq_ok_iff {scan : Scan} {found : List SourceToken} :
    scan.result = .ok found ↔ scan.error = none ∧ scan.tokens = found := by
  unfold Scan.result
  cases scan.error <;> simp

theorem result_eq_error_iff {scan : Scan} {error : ScanError} :
    scan.result = .error error ↔ scan.error = some error := by
  unfold Scan.result
  cases scan.error <;> simp

theorem run_piece_result (piece : Piece config kind lexeme rest) (position : Position) :
    (Scan.run config [] position (lexeme ++ rest)).result =
      (Scan.run config [] (position.after lexeme) rest).result.map (tokens position kind lexeme ++ ·) := by
  rw [run_piece piece]
  unfold Scan.result
  dsimp only
  cases (Scan.run config [] (position.after lexeme) rest).error <;> rfl

end LoxLexer.Pieces

import LoxLexer.Proofs.Pieces

/-!
Line numbers. A scan is always on the line that the text before it ends on, whatever the lexemes of
that text were: each token is on the line where its lexeme ends (`run_place`), the lines of the tokens
never go down (`run_sorted`), and a scan stops behind the text that it read (`run_stop`). Only strings
reach over line breaks (`piece_unbroken`).
-/

namespace LoxLexer.Lines
open LoxLexer.Alphabet LoxLexer.Pieces

variable {config : Config} {lexeme rest : Text}

/-! ### Line breaks in lexemes -/

/-- Only strings have blanks or line breaks in them. -/
theorem piece_solid {kind : Kind} (piece : Piece config (some kind) lexeme rest) (plain : kind ≠ .string) {c : Char}
    (blank : CharClass.of c = .blank ∨ CharClass.of c = .newline) : c ∉ lexeme := by
  intro member
  have notDigit : ¬ Digit c := fun digit => by simp [of_digit digit] at blank
  have notLetter : ¬ Letter c := fun letter => by simp [of_letter letter] at blank
  cases piece with
  | punctuation _ known | alone known =>
    obtain rfl := List.mem_singleton.mp member
    simp [known] at blank
  | paired _ known =>
    rcases List.mem_cons.mp member with rfl | behind
    · simp [known] at blank
    · obtain rfl := List.mem_singleton.mp behind
      simp [CharClass.of] at blank
  | slash =>
    obtain rfl := List.mem_singleton.mp member
    simp [CharClass.of] at blank
  | or =>
    obtain rfl := List.mem_singleton.mp member
    exact notLetter (by decide)
  | string => exact plain rfl
  | whole _ inside => exact notDigit (inside c member)
  | fraction _ inside _ decimals =>
    rcases List.mem_append.mp member with digit | behind
    · exact notDigit (inside c digit)
    · rcases List.mem_cons.mp behind with rfl | place
      · simp [CharClass.of] at blank
      · exact notDigit (decimals c place)
  | word letter inside =>
    rcases List.mem_cons.mp member with rfl | behind
    · exact notLetter letter
    · exact (inside c behind).elim notLetter notDigit

theorem piece_unbroken {kind : Kind} (piece : Piece config (some kind) lexeme rest) (plain : kind ≠ .string) :
    '\n' ∉ lexeme :=
  piece_solid piece plain (.inr rfl)

/-- A string is what stands between two quotes. -/
theorem string_quoted {kind : Kind} (piece : Piece config (some kind) lexeme rest) (isString : kind = .string) :
    ∃ body, '"' ∉ body ∧ lexeme = '"' :: (body ++ ['"']) := by
  cases piece with
  | @string body _ inside => exact ⟨body, fun quote => inside '"' quote rfl, rfl⟩
  | punctuation _ known | alone known | paired _ known =>
    subst isString
    simpa [Listed, punctuation, operators] using (of_eq_iff (by simp)).mp known
  | slash | whole | fraction | or => cases isString
  | @word c cs =>
    have isAWord := isWord_ofWord (c :: cs)
    rw [isString] at isAWord
    cases isAWord

/-- The last character of a string is its closing quote. -/
theorem string_closed {kind : Kind} (piece : Piece config (some kind) lexeme rest) (isString : kind = .string) :
    ∃ opened, lexeme = opened ++ ['"'] := by
  obtain ⟨body, -, rfl⟩ := string_quoted piece isString
  exact ⟨'"' :: body, rfl⟩

theorem after_line (position : Position) (text : Text) :
    (position.after text).line = position.line + text.lineBreaks := rfl

theorem after_start (before : Text) : Position.start.after before = ⟨before.byteSize, 1 + before.lineBreaks⟩ := by
  simp [Position.start, Position.after]

/-! ### Runs -/

/-- No token is on a line before the one where the scan began. -/
theorem run_line_le {position : Position} {text : Text} {token : SourceToken}
    (member : token ∈ (Scan.run config [] position text).tokens) : position.line ≤ token.line := by
  obtain ⟨before, kind, after, -, -, same⟩ := run_place text position member
  rw [same]
  simp only [Scan.tokenAt, after_line]
  omega

theorem run_sorted (text : Text) : ∀ position,
    (Scan.run config [] position text).tokens.Pairwise fun token next => token.line ≤ next.line := by
  induction text using text_induction config with
  | nil =>
    intro position
    simp
  | stuck stuck =>
    intro position
    simp [run_stuck stuck]
  | @piece kind lexeme rest piece later =>
    intro position
    rw [run_piece piece]
    cases kind with
    | none => exact later _
    | some kind => exact .cons (fun token member => run_line_le member) (later _)

/-- A scan comes to the end of its text, or it stops before a text that begins with no lexeme. -/
theorem run_stop (text : Text) : ∀ position,
    let scan := Scan.run config [] position text
    (scan.error = none ∧ scan.stop = position.after text) ∨
      ∃ read unread fault, text = read ++ unread ∧ Stuck unread fault ∧ scan.stop = position.after read ∧
        scan.error = some (Scan.errorAt (position.after read) unread fault) := by
  induction text using text_induction config with
  | nil =>
    intro position
    exact .inl (by simp)
  | @stuck text fault stuck =>
    intro position
    exact .inr ⟨[], text, fault, rfl, stuck, by simp [run_stuck stuck], by simp [run_stuck stuck]⟩
  | @piece kind lexeme rest piece later =>
    intro position
    rw [run_piece piece]
    rcases later (position.after lexeme) with ⟨succeeds, stop⟩ | ⟨read, unread, fault, rfl, stuck, stop, fails⟩
    · exact .inl ⟨succeeds, by rw [← after_after]; exact stop⟩
    · refine .inr ⟨lexeme ++ read, unread, fault, (List.append_assoc ..).symm, stuck, ?_, ?_⟩
      · rw [← after_after]
        exact stop
      · rw [← after_after]
        exact fails

/-! ### Whole texts -/

/-- What stands between quotes moves a string to the line of its closing quote; every other token is on
    one line. -/
theorem token_line {text : Text} {token : SourceToken} (member : token ∈ (Scan.ofText config text).tokens) :
    ∃ before after, text = before ++ token.lexeme ++ after ∧ token.start = before.byteSize ∧
      token.line = 1 + (before ++ token.lexeme).lineBreaks ∧
      (token.kind ≠ .string → token.line = 1 + before.lineBreaks) ∧
      (token.kind = .string → ∃ opened, token.lexeme = opened ++ ['"'] ∧
        token.line = 1 + (before ++ opened).lineBreaks) := by
  obtain ⟨before, kind, after, spelled, piece, same⟩ := run_place text .start member
  have start : token.start = before.byteSize := by
    rw [same, after_start]
    rfl
  have line : token.line = 1 + (before ++ token.lexeme).lineBreaks := by
    rw [same, after_start]
    simp [Scan.tokenAt, after_line, Nat.add_assoc]
  have named : token.kind = kind := by rw [same]; rfl
  refine ⟨before, after, by rw [spelled, List.append_assoc], start, line, fun plain => ?_, fun isString => ?_⟩
  · have unbroken : token.lexeme.lineBreaks = 0 := List.count_eq_zero.mpr (piece_unbroken piece (named ▸ plain))
    rw [line, Text.lineBreaks_append, unbroken, Nat.add_zero]
  · obtain ⟨opened, closed⟩ := string_closed piece (named.symm.trans isString)
    refine ⟨opened, closed, ?_⟩
    have quote : Text.lineBreaks ['"'] = 0 := rfl
    rw [line, closed, ← List.append_assoc, Text.lineBreaks_append, quote, Nat.add_zero]

theorem end_line {text : Text} (succeeds : (Scan.ofText config text).error = none) :
    (Scan.ofText config text).stop.line = 1 + text.lineBreaks := by
  rcases run_stop text .start with ⟨-, stop⟩ | ⟨_, _, _, _, _, _, fails⟩
  · exact (congrArg Position.line stop).trans (after_line ..)
  · cases succeeds.symm.trans fails

/-- A scan that fails stops where a text begins that has no first lexeme. -/
theorem error_place {text : Text} {error : ScanError} (fails : (Scan.ofText config text).error = some error) :
    ∃ before unread fault, text = before ++ unread ∧ Stuck unread fault ∧
      (Scan.ofText config text).stop.offset = before.byteSize ∧
      error = Scan.errorAt (Position.start.after before) unread fault := by
  rcases run_stop text .start with ⟨succeeds, -⟩ | ⟨before, unread, fault, spelled, stuck, stop, other⟩
  · cases succeeds.symm.trans fails
  · refine ⟨before, unread, fault, spelled, stuck, ?_, Option.some.inj (fails.symm.trans other)⟩
    rw [Scan.ofText, stop, after_start]

theorem foreign_line {text : Text} {line : Nat} {c : Char}
    (fails : (Scan.ofText config text).error = some (.unexpectedCharacter line c)) :
    ∃ before after, text = before ++ c :: after ∧ (Scan.ofText config text).stop.offset = before.byteSize ∧
      line = 1 + before.lineBreaks := by
  obtain ⟨before, unread, fault, spelled, stuck, stop, same⟩ := error_place fails
  rw [after_start] at same
  cases stuck with
  | foreign after =>
    obtain ⟨rfl, rfl⟩ := ScanError.unexpectedCharacter.inj same
    exact ⟨before, after, spelled, stop, rfl⟩
  | unterminated => cases same

theorem unterminated_line {text : Text} {line : Nat}
    (fails : (Scan.ofText config text).error = some (.unterminatedString line)) : line = 1 + text.lineBreaks := by
  obtain ⟨before, unread, fault, spelled, stuck, -, same⟩ := error_place fails
  cases stuck with
  | foreign => cases same
  | unterminated =>
    rw [ScanError.unterminatedString.inj same, spelled, after_after, after_line]
    rfl

/-- Every token of a scan, also of one that fails later, is on the line where its lexeme ends: for a string
    that is the line of its closing quote, for every other token also the line of its beginning. The lines
    of the tokens never go down. A scan that comes to the end counted every line break of the text, and an
    error is on the line of the character that begins no lexeme, or on the last line for an open string.
    Carriage returns break no line. -/
theorem scan_lines (config : Config) (text : Text) :
    let scan := Scan.ofText config text
    (∀ token ∈ scan.tokens, ∃ before after, text = before ++ token.lexeme ++ after ∧
      token.start = before.byteSize ∧ token.line = 1 + (before ++ token.lexeme).lineBreaks ∧
      (token.kind ≠ .string → token.line = 1 + before.lineBreaks) ∧
      (token.kind = .string → ∃ opened, token.lexeme = opened ++ ['"'] ∧
        token.line = 1 + (before ++ opened).lineBreaks)) ∧
    scan.tokens.Pairwise (fun token next => token.line ≤ next.line) ∧
    (scan.error = none → scan.stop.line = 1 + text.lineBreaks) ∧
    (∀ line c, scan.error = some (.unexpectedCharacter line c) → ∃ before after, text = before ++ c :: after ∧
      scan.stop.offset = before.byteSize ∧ line = 1 + before.lineBreaks) ∧
    (∀ line, scan.error = some (.unterminatedString line) → line = 1 + text.lineBreaks) ∧
    ∀ part : Text, Text.lineBreaks (part.filter (· ≠ '\r')) = part.lineBreaks := by
  refine ⟨fun token => token_line, run_sorted text .start, end_line, fun line c => foreign_line,
    fun line => unterminated_line, fun part => ?_⟩
  exact List.count_filter (by decide)

theorem scan_lines_around_string :
    let text := "\"a\r\n\"x@\n".toList
    let string : SourceToken := ⟨⟨.string, "\"a\r\n\"".toList, some (.string "a\r\n".toList), 2⟩, 0⟩
    let word : SourceToken := ⟨⟨.identifier, ['x'], none, 2⟩, 5⟩
    (string ∈ (Scan.ofText {} text).tokens ∧ string.kind = .string ∧ ∃ before opened : Text,
      string.lexeme = opened ++ ['"'] ∧ string.line = 1 + (before ++ opened).lineBreaks) ∧
    (word ∈ (Scan.ofText {} text).tokens ∧ word.kind ≠ .string ∧ ∃ before : Text,
      word.start = before.byteSize ∧ word.line = 1 + before.lineBreaks) ∧
    ((Scan.ofText {} text).error = some (.unexpectedCharacter 2 '@') ∧ ∃ before after : Text,
      text = before ++ '@' :: after ∧ 2 = 1 + before.lineBreaks) ∧
    ((Scan.ofText {} ['\n', '"', '\n']).error = some (.unterminatedString 3) ∧
      3 = 1 + Text.lineBreaks ['\n', '"', '\n']) ∧
    (Scan.ofText {} ['/', '/', '\n']).error = none ∧
      (Scan.ofText {} ['/', '/', '\n']).stop.line = 1 + Text.lineBreaks ['/', '/', '\n'] := by
  intro text string word
  obtain ⟨tokenLines, -, -, foreign, -⟩ := scan_lines {} text
  obtain ⟨-, -, -, -, opened, -⟩ := scan_lines {} ['\n', '"', '\n']
  obtain ⟨-, -, finished, -⟩ := scan_lines {} ['/', '/', '\n']
  have hasString : string ∈ (Scan.ofText {} text).tokens := by decide +kernel
  have hasWord : word ∈ (Scan.ofText {} text).tokens := by decide +kernel
  have stops : (Scan.ofText {} text).error = some (.unexpectedCharacter 2 '@') := by decide +kernel
  have isOpen : (Scan.ofText {} ['\n', '"', '\n']).error = some (.unterminatedString 3) := by decide +kernel
  have ends : (Scan.ofText {} ['/', '/', '\n']).error = none := by decide +kernel
  obtain ⟨before, -, -, -, -, -, closing⟩ := tokenLines string hasString
  obtain ⟨front, -, -, start, -, beginning, -⟩ := tokenLines word hasWord
  obtain ⟨read, unread, spelled, -, line⟩ := foreign 2 '@' stops
  exact ⟨⟨hasString, rfl, before, closing rfl⟩, ⟨hasWord, by decide, front, start, beginning (by decide)⟩,
    ⟨stops, read, unread, spelled, line⟩, ⟨isOpen, opened 3 isOpen⟩, ends, finished ends⟩

end LoxLexer.Lines

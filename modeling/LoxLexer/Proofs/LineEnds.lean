import LoxLexer.Proofs.Lines
import LoxLexer.Proofs.Neighbours

/-!
Texts whose lines end in a carriage return and a line feed. A scan passes over the carriage returns between lexemes,
they make a comment longer, and within a string they stay; no other lexeme gets past a line break
(`piece_crlf`, `run_gap`). So the scan of the text with them is the scan of the text without them, but for the
strings that reach over line breaks (`run_crlf`).
-/

namespace LoxLexer.LineEnds
open LoxLexer.Alphabet LoxLexer.Pieces LoxLexer.Lines LoxLexer.Tiling LoxLexer.Neighbours

/-- The text with a carriage return before each of its line breaks. -/
def crlf (text : Text) : Text := text.flatMap fun c => if c = '\n' then ['\r', '\n'] else [c]

/-- The literal of a lexeme that line breaks are changed in. -/
def literalCrlf : Literal → Literal
  | .string value => .string (crlf value)
  | .number value => .number value

/-- A token of the same kind on the same line, with other line breaks in its lexeme and in its string. -/
private def tokenCrlf (token : Token) : Token where
  kind := token.kind
  lexeme := crlf token.lexeme
  literal := token.literal.map literalCrlf
  line := token.line

variable {config : Config} {kind : Kind} {lexeme rest text : Text} {c : Char}

/-! ### Changed texts -/

@[simp] theorem crlf_nil : crlf [] = [] := rfl

@[simp] theorem crlf_append (one two : Text) : crlf (one ++ two) = crlf one ++ crlf two := by
  simp [crlf]

@[simp] theorem crlf_newline (text : Text) : crlf ('\n' :: text) = '\r' :: '\n' :: crlf text := rfl

private theorem crlf_cons (differs : c ≠ '\n') (text : Text) : crlf (c :: text) = c :: crlf text := by
  simp [crlf, differs]

private theorem crlf_unbroken (unbroken : '\n' ∉ text) : crlf text = text := by
  induction text with
  | nil => rfl
  | cons c text ih =>
    rw [List.mem_cons, not_or] at unbroken
    rw [crlf_cons (Ne.symm unbroken.1), ih unbroken.2]

private theorem mem_crlf (other : c ≠ '\r') : c ∈ crlf text ↔ c ∈ text := by
  induction text with
  | nil => simp
  | cons d text ih =>
    by_cases feed : d = '\n'
    · simp [feed, ih, other]
    · simp [crlf_cons feed, ih]

@[simp] theorem lineBreaks_crlf (text : Text) : (crlf text).lineBreaks = text.lineBreaks := by
  induction text with
  | nil => rfl
  | cons c text ih =>
    unfold Text.lineBreaks at ih ⊢
    by_cases feed : c = '\n'
    · simp [feed, ih]
    · simp [crlf_cons feed, ih, feed]

/-- Only a carriage return can come to the front of a text. -/
theorem head_crlf (text : Text) : (crlf text).head? = text.head? ∨ (crlf text).head? = some '\r' := by
  cases text with
  | nil => exact .inl rfl
  | cons c text =>
    by_cases feed : c = '\n'
    · simp [feed]
    · simp [crlf_cons feed]

private theorem stops_crlf {inside : Char → Prop} (outside : ¬ inside '\r') (stops : Stops inside rest) :
    Stops inside (crlf rest) := by
  intro c head
  rcases head_crlf rest with same | carriage
  · exact stops c (same ▸ head)
  · obtain rfl : '\r' = c := Option.some.inj (carriage.symm.trans head)
    exact outside

/-! ### Changed lexemes -/

private theorem bounded_crlf (bounded : Bounded config kind lexeme rest) : Bounded config kind lexeme (crlf rest) where
  operator isOperator := stops_crlf (by decide) (bounded.operator isOperator)
  slash isSlash := stops_crlf (by decide) (bounded.slash isSlash)
  number isNumber := stops_crlf (by decide) (bounded.number isNumber)
  places isNumber noPoint after ending := by
    cases rest with
    | nil => cases ending
    | cons c rest =>
      by_cases feed : c = '\n'
      · simp [feed] at ending
      · rw [crlf_cons feed] at ending
        obtain ⟨rfl, rfl⟩ := List.cons.inj ending
        exact stops_crlf (by decide) (bounded.places isNumber noPoint rest rfl)
  or on isOr := by
    obtain ⟨rest, rfl⟩ := List.head?_eq_some_iff.mp (bounded.or on isOr)
    rw [crlf_cons (by decide)]
    rfl
  word isAWord notOr := stops_crlf (by decide) (bounded.word isAWord notOr)

private theorem crlf_string (body : Text) : crlf ('"' :: (body ++ ['"'])) = '"' :: (crlf body ++ ['"']) := by
  have quote : crlf ['"'] = ['"'] := rfl
  rw [crlf_cons (by decide), crlf_append, quote]

/-- A lexeme is cut off the changed text where it was cut off the text. -/
theorem piece_crlf (piece : Piece config (some kind) lexeme rest) :
    Piece config (some kind) (crlf lexeme) (crlf rest) := by
  by_cases isString : kind = .string
  · obtain ⟨body, inside, rfl⟩ := string_quoted piece isString
    subst isString
    rw [crlf_string]
    refine .string (crlf rest) ?_
    rintro _ member rfl
    exact inside ((mem_crlf (by decide)).mp member)
  · rw [crlf_unbroken (piece_unbroken piece isString)]
    exact piece_of_bounded piece (bounded_crlf (bounded_of_piece piece))

private theorem literal_crlf (piece : Piece config (some kind) lexeme rest) :
    Literal.ofLexeme? kind (crlf lexeme) = (Literal.ofLexeme? kind lexeme).map literalCrlf := by
  by_cases isString : kind = .string
  · obtain ⟨body, -, rfl⟩ := string_quoted piece isString
    subst isString
    simp [crlf_string, Literal.ofLexeme?, literalCrlf]
  · rw [crlf_unbroken (piece_unbroken piece isString)]
    cases kind with
    | string => exact absurd rfl isString
    | _ => rfl

private theorem stuck_crlf {fault : Fault} (stuck : Stuck text fault) : Stuck (crlf text) fault := by
  cases stuck with
  | @foreign c cs known =>
    have differs : c ≠ '\n' := by
      rintro rfl
      cases known
    rw [crlf_cons differs]
    exact .foreign (crlf cs) known
  | @unterminated cs inside =>
    rw [crlf_cons (by decide)]
    refine .unterminated ?_
    rintro _ member rfl
    exact inside '"' ((mem_crlf (by decide)).mp member) rfl

/-! ### Scans in step -/

/-- What stands between lexemes still does. Behind a comment the carriage return belongs to it. -/
theorem run_gap (gap : Piece config none lexeme rest) (position : Position) :
    Scan.run config [] position (crlf lexeme ++ crlf rest) =
      Scan.run config [] (position.after (crlf lexeme)) (crlf rest) := by
  cases gap with
  | @blank c _ known =>
    have differs : c ≠ '\n' := by
      rintro rfl
      cases known
    have blank : Piece config none [c] (crlf rest) := .blank (crlf rest) known
    rw [crlf_unbroken (by simp [Ne.symm differs])]
    exact run_piece blank position
  | newline => exact run_blanks (by simp [crlf, Blank]) position
  | @comment body _ inside stops =>
    have unbroken : '\n' ∉ '/' :: '/' :: body := by
      simpa using fun broken => inside '\n' broken rfl
    rw [crlf_unbroken unbroken]
    cases rest with
    | nil =>
      have last : Piece config none ('/' :: '/' :: body) [] := .comment inside stops
      exact run_piece last position
    | cons c rest =>
      obtain rfl : c = '\n' := not_not.mp (stops_cons.mp stops)
      have within : ∀ d ∈ body ++ ['\r'], d ≠ '\n' := List.forall_mem_append.mpr ⟨inside, by simp⟩
      have comment : Piece config none ('/' :: '/' :: (body ++ ['\r'])) ('\n' :: crlf rest) :=
        .comment within (stops_cons.mpr (by simp))
      have newline : Piece config none ['\n'] (crlf rest) := .newline (crlf rest)
      have blanks : ∀ d ∈ ['\r', '\n'], Blank d := by simp [Blank]
      calc Scan.run config [] position ('/' :: '/' :: body ++ crlf ('\n' :: rest))
          = Scan.run config [] position ('/' :: '/' :: (body ++ ['\r']) ++ '\n' :: crlf rest) := by simp
        _ = Scan.run config [] (position.after ('/' :: '/' :: (body ++ ['\r']))) (['\n'] ++ crlf rest) :=
          run_piece comment position
        _ = Scan.run config [] ((position.after ('/' :: '/' :: (body ++ ['\r']))).after ['\n']) (crlf rest) :=
          run_piece newline _
        _ = Scan.run config [] ((position.after ('/' :: '/' :: body)).after ['\r', '\n']) (crlf rest) := by simp
        _ = Scan.run config [] (position.after ('/' :: '/' :: body)) (['\r', '\n'] ++ crlf rest) :=
          (run_blanks blanks _).symm

private theorem tokens_crlf (piece : Piece config (some kind) lexeme rest) {position other : Position}
    (level : position.line = other.line) :
    (Scan.tokenAt other kind (crlf lexeme)).toToken = tokenCrlf (Scan.tokenAt position kind lexeme).toToken := by
  simp [Scan.tokenAt, tokenCrlf, literal_crlf piece, after_line, level]

/-- Two scans, of a text and of the changed text, that begin on the same line go on in step. -/
theorem run_crlf (text : Text) : ∀ position other : Position, position.line = other.line →
    let scan := Scan.run config [] position text
    let twin := Scan.run config [] other (crlf text)
    twin.tokens.map (·.toToken) = scan.tokens.map (fun token => tokenCrlf token.toToken) ∧ twin.error = scan.error := by
  induction text using text_induction config with
  | nil =>
    intro position other level
    simp
  | @stuck text fault stuck =>
    intro position other level
    have line : (other.after (crlf text)).line = (position.after text).line := by
      simp [after_line, level]
    rw [run_stuck stuck, run_stuck (stuck_crlf stuck)]
    cases fault with
    | foreign c => simp [Scan.errorAt, level]
    | unterminated => simp [Scan.errorAt, line]
  | @piece kind lexeme rest piece later =>
    intro position other level
    have line : (position.after lexeme).line = (other.after (crlf lexeme)).line := by
      simp [after_line, level]
    obtain ⟨found, error⟩ := later (position.after lexeme) (other.after (crlf lexeme)) line
    rw [crlf_append, run_piece piece]
    cases kind with
    | none =>
      rw [run_gap piece]
      exact ⟨found, error⟩
    | some kind =>
      rw [run_piece (piece_crlf piece)]
      refine ⟨?_, error⟩
      simp only [tokens, Option.map_some, Option.toList_some, List.singleton_append, List.map_cons, found]
      rw [tokens_crlf piece level]

private theorem tokenCrlf_unbroken {token : SourceToken} (member : token ∈ (Scan.ofText config text).tokens)
    (plain : token.kind ≠ .string ∨ '\n' ∉ token.lexeme) : tokenCrlf token.toToken = token.toToken := by
  obtain ⟨place, kind, rest, piece, same⟩ := run_token member
  have named : token.kind = kind := by rw [same]; rfl
  have unbroken : '\n' ∉ token.lexeme := plain.elim (fun other => piece_unbroken piece (named ▸ other)) id
  rw [same, ← tokens_crlf piece rfl, crlf_unbroken unbroken]

/-- The text with carriage returns scans if and only if the text without them does, with the same error if not. Its
    tokens are as many, of the same kinds, on the same lines and with the same numbers, and their lexemes and
    strings are those of the text with carriage returns in them; only a string over a line break differs at all. -/
theorem scan_crlf (config : Config) (text : Text) :
    let scan := Scan.ofText config text
    let twin := Scan.ofText config (crlf text)
    twin.error = scan.error ∧
      twin.result.map (List.map (·.toToken)) = scan.result.map (List.map fun token => tokenCrlf token.toToken) ∧
      ∀ token ∈ scan.tokens, token.kind ≠ .string ∨ '\n' ∉ token.lexeme → tokenCrlf token.toToken = token.toToken := by
  intro scan twin
  obtain ⟨found, error⟩ : twin.tokens.map (·.toToken) = scan.tokens.map (fun token => tokenCrlf token.toToken) ∧
      twin.error = scan.error := run_crlf text .start .start rfl
  refine ⟨error, ?_, fun token => tokenCrlf_unbroken⟩
  unfold Scan.result
  rw [error]
  cases scan.error with
  | none => exact congrArg Except.ok found
  | some error => rfl

/-- A string over a line break and a number at the end of a line. -/
theorem scan_crlf_across_string :
    let text := "\"a\n\"//x\n1.\n".toList
    let string : SourceToken := ⟨⟨.string, "\"a\n\"".toList, some (.string "a\n".toList), 2⟩, 0⟩
    let number := Scan.tokenAt ⟨8, 3⟩ .number ['1']
    let point := Scan.tokenAt ⟨9, 3⟩ .dot ['.']
    crlf text = "\"a\r\n\"//x\r\n1.\r\n".toList ∧
      (Scan.ofText {} text).result = .ok [string, number, point] ∧
      (number ∈ (Scan.ofText {} text).tokens ∧ number.kind ≠ .string ∧
        tokenCrlf number.toToken = number.toToken) ∧
      tokenCrlf string.toToken = ⟨.string, "\"a\r\n\"".toList, some (.string "a\r\n".toList), 2⟩ ∧
      (Scan.ofText {} (crlf text)).result.map (List.map (·.toToken)) =
        .ok [tokenCrlf string.toToken, number.toToken, point.toToken] := by
  intro text string number point
  obtain ⟨-, results, unchanged⟩ := scan_crlf {} text
  have tokens : (Scan.ofText {} text).tokens = [string, number, point] := by decide +kernel
  have scans : (Scan.ofText {} text).result = .ok [string, number, point] :=
    result_eq_ok_iff.mpr ⟨by decide +kernel, tokens⟩
  have isNumber : number ∈ (Scan.ofText {} text).tokens := by simp [tokens]
  have isPoint : point ∈ (Scan.ofText {} text).tokens := by simp [tokens]
  have sameNumber := unchanged number isNumber (.inl (by decide))
  have samePoint := unchanged point isPoint (.inl (by decide))
  refine ⟨by decide +kernel, scans, ⟨isNumber, by decide, sameNumber⟩, by decide +kernel, ?_⟩
  rw [results, scans, Except.map, List.map_cons, List.map_cons, List.map_singleton, sameNumber, samePoint]

end LoxLexer.LineEnds

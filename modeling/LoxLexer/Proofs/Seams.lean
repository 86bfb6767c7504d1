import LoxLexer.Proofs.Automaton
import LoxLexer.Proofs.Neighbours

/-!
Two texts joined by a seam of blanks and whole comments. A scan that begins behind some text finds what
it would find at the beginning, only further on (`run_shift`); and where the text before the seam scans,
the scan of both goes on behind the seam as if it began there (`run_seam`). A comment at the end of the
first text ends with the first line break of the seam, and every other lexeme with its first blank.
-/

namespace LoxLexer.Seams
open LoxLexer.Alphabet LoxLexer.Pieces LoxLexer.Tiling LoxLexer.Neighbours

/-! ### Scans further on -/

/-- A token of a text, where it stands when the text comes behind another. -/
def tokenBehind (before : Text) (token : SourceToken) : SourceToken :=
  { token with line := token.line + before.lineBreaks, start := token.start + before.byteSize }

/-- The error of a text when it comes behind another. -/
def errorBehind (before : Text) : ScanError → ScanError
  | .unexpectedCharacter line c => .unexpectedCharacter (line + before.lineBreaks) c
  | .unterminatedString line => .unterminatedString (line + before.lineBreaks)

variable {config : Config} {kind : Option Kind} {lexeme rest other : Text}

private theorem after_comm (position : Position) (one two : Text) :
    (position.after one).after two = (position.after two).after one := by
  simp only [Position.after, Position.mk.injEq]
  omega

private theorem tokens_shift (position : Position) (before : Text) (kind : Option Kind) (lexeme : Text) :
    tokens (position.after before) kind lexeme = (tokens position kind lexeme).map (tokenBehind before) := by
  cases kind with
  | none => rfl
  | some kind =>
    simp only [tokens, Scan.tokenAt, after_comm position before lexeme]
    rfl

private theorem errorAt_shift (position : Position) (before text : Text) (fault : Fault) :
    Scan.errorAt (position.after before) text fault = errorBehind before (Scan.errorAt position text fault) := by
  cases fault with
  | foreign c => rfl
  | unterminated =>
    simp only [Scan.errorAt, after_comm position before text]
    rfl

theorem run_shift (before text : Text) : ∀ position, Scan.run config [] (position.after before) text =
    ⟨(Scan.run config [] position text).tokens.map (tokenBehind before),
      (Scan.run config [] position text).stop.after before,
      (Scan.run config [] position text).error.map (errorBehind before)⟩ := by
  induction text using text_induction config with
  | nil =>
    intro position
    simp
  | stuck stuck =>
    intro position
    simp [run_stuck stuck, errorAt_shift]
  | @piece kind lexeme rest piece later =>
    intro position
    rw [run_piece piece, run_piece piece, after_comm, later, tokens_shift, List.map_append]

/-! ### Seams -/

/-- What may stand in a seam. -/
inductive Spacer where
  | blank (c : Char) (within : c ∈ blanks)
  | newline
  /-- A comment together with the end of its line. -/
  | comment (body : Text) (inside : ∀ c ∈ body, c ≠ '\n')

namespace Spacer

def text : Spacer → Text
  | blank c _ => [c]
  | newline => ['\n']
  | comment body _ => '/' :: '/' :: (body ++ ['\n'])

/-- A comment that says nothing in the place of a comment. -/
def bare : Spacer → Spacer
  | comment _ _ => comment [] nofun
  | other => other

end Spacer

/-- The text of spacers in order. -/
def spaced (spacers : List Spacer) : Text := spacers.flatMap Spacer.text

private theorem spaced_cons (spacer : Spacer) (later : List Spacer) :
    spaced (spacer :: later) = spacer.text ++ spaced later := List.flatMap_cons ..

private theorem run_spacer (spacer : Spacer) (rest : Text) (position : Position) :
    Scan.run config [] position (spacer.text ++ rest) = Scan.run config [] (position.after spacer.text) rest := by
  cases spacer with
  | blank c within =>
    have blank : Piece config none [c] rest := .blank rest (of_listed within)
    exact run_piece blank position
  | newline => exact run_piece (.newline rest) position
  | comment body inside =>
    have stops : Stops (· ≠ '\n') ('\n' :: rest) := stops_cons.mpr (by simp)
    have comment : Piece config none ('/' :: '/' :: body) ('\n' :: rest) := .comment inside stops
    have newline : Piece config none ['\n'] rest := .newline rest
    calc Scan.run config [] position ('/' :: '/' :: (body ++ ['\n']) ++ rest)
        = Scan.run config [] position ('/' :: '/' :: body ++ '\n' :: rest) := by simp
      _ = Scan.run config [] (position.after ('/' :: '/' :: body)) (['\n'] ++ rest) := run_piece comment position
      _ = Scan.run config [] ((position.after ('/' :: '/' :: body)).after ['\n']) rest := run_piece newline _
      _ = Scan.run config [] (position.after ('/' :: '/' :: (body ++ ['\n']))) rest := by rw [after_after]; rfl

private theorem run_spaced (spacers : List Spacer) (rest : Text) : ∀ position,
    Scan.run config [] position (spaced spacers ++ rest) = Scan.run config [] (position.after (spaced spacers)) rest := by
  induction spacers with
  | nil =>
    intro position
    rw [spaced, List.flatMap_nil, List.nil_append, after_nil]
  | cons spacer later ih =>
    intro position
    rw [spaced_cons, List.append_assoc, run_spacer, ih, after_after]

/-- Behind the first line break, spacers are spacers again. -/
theorem spaced_break {spacers : List Spacer} (breaks : '\n' ∈ spaced spacers) :
    ∃ line later, spaced spacers = line ++ '\n' :: spaced later ∧ ∀ c ∈ line, c ≠ '\n' := by
  induction spacers with
  | nil => cases breaks
  | cons spacer others ih =>
    cases spacer with
    | blank c within =>
      have differs : c ≠ '\n' := by
        rintro rfl
        exact absurd within (by decide)
      have behind : '\n' ∈ spaced others := by simpa [spaced_cons, Spacer.text, Ne.symm differs] using breaks
      obtain ⟨line, later, spelled, inside⟩ := ih behind
      exact ⟨c :: line, later, by rw [spaced_cons, spelled]; rfl, List.forall_mem_cons.mpr ⟨differs, inside⟩⟩
    | newline => exact ⟨[], others, spaced_cons .., nofun⟩
    | comment body inside =>
      refine ⟨'/' :: '/' :: body, others, ?_, by simpa using inside⟩
      rw [spaced_cons, Spacer.text]
      simp

/-- Spacers that part two texts: they begin with a blank or a line break, and a line ends in them. -/
structure Seam where
  spacers : List Spacer
  begins : ∃ c later, spaced spacers = c :: later ∧ Blank c
  breaks : '\n' ∈ spaced spacers

def Seam.text (seam : Seam) : Text := spaced seam.spacers

private theorem seam_apart (seam : Seam) (rest : Text) : Apart (seam.text ++ rest) := by
  obtain ⟨c, later, spelled, blank⟩ := seam.begins
  rw [Seam.text, spelled]
  exact apart_cons.mpr blank

private theorem lineBreaks_bare (spacer : Spacer) : spacer.bare.text.lineBreaks = spacer.text.lineBreaks := by
  cases spacer with
  | blank | newline => rfl
  | comment body inside =>
    have unbroken : body.count '\n' = 0 := List.count_eq_zero.mpr fun member => inside '\n' member rfl
    simp [Spacer.bare, Spacer.text, Text.lineBreaks, List.count_append, unbroken]

private theorem lineBreaks_spaced (spacers : List Spacer) :
    (spaced (spacers.map Spacer.bare)).lineBreaks = (spaced spacers).lineBreaks := by
  induction spacers with
  | nil => rfl
  | cons spacer later ih =>
    rw [List.map_cons, spaced_cons, spaced_cons, Text.lineBreaks_append, Text.lineBreaks_append, lineBreaks_bare, ih]

private theorem lineBreaks_alike {one two : Seam} (alike : one.spacers.map Spacer.bare = two.spacers.map Spacer.bare) :
    one.text.lineBreaks = two.text.lineBreaks := by
  rw [Seam.text, Seam.text, ← lineBreaks_spaced, alike, lineBreaks_spaced]

/-! ### Scans across a seam -/

/-- With a blank behind the text, a piece is still cut off, except that a comment at the end goes on. -/
theorem piece_append (piece : Piece config kind lexeme rest) (apart : Apart other) :
    Piece config kind lexeme (rest ++ other) ∨
      kind = none ∧ rest = [] ∧ ∃ body, lexeme = '/' :: '/' :: body ∧ ∀ c ∈ body, c ≠ '\n' := by
  cases kind with
  | some kind => exact .inl (piece_of_bounded piece (bounded_append (bounded_of_piece piece) apart))
  | none =>
    cases piece with
    | blank _ known => exact .inl (.blank _ known)
    | newline => exact .inl (.newline _)
    | @comment body _ inside stops =>
      cases rest with
      | nil => exact .inr ⟨rfl, rfl, body, rfl, inside⟩
      | cons c rest => exact .inl (.comment inside stops)

/-- An open comment takes the first line of a seam along, so both together are spacers. -/
theorem comment_spaced {body : Text} (inside : ∀ c ∈ body, c ≠ '\n') (seam : Seam) :
    ∃ spacers, '/' :: '/' :: body ++ seam.text = spaced spacers := by
  obtain ⟨line, later, spelled, first⟩ := spaced_break seam.breaks
  have unbroken : ∀ c ∈ body ++ line, c ≠ '\n' := List.forall_mem_append.mpr ⟨inside, first⟩
  refine ⟨.comment (body ++ line) unbroken :: later, ?_⟩
  rw [Seam.text, spelled, spaced_cons, Spacer.text]
  simp

theorem run_seam (seam : Seam) (after text : Text) : ∀ position, (Scan.run config [] position text).error = none →
    Scan.run config [] position (text ++ (seam.text ++ after)) =
      { Scan.run config [] (position.after (text ++ seam.text)) after with
        tokens := (Scan.run config [] position text).tokens ++
          (Scan.run config [] (position.after (text ++ seam.text)) after).tokens } := by
  induction text using text_induction config with
  | nil =>
    intro position _
    rw [List.nil_append, Seam.text, run_spaced, Scan.run_nil]
    rfl
  | stuck stuck =>
    intro position succeeds
    rw [run_stuck stuck] at succeeds
    cases succeeds
  | @piece kind lexeme rest piece later =>
    intro position succeeds
    -- a lexeme before the last does not see the seam, and the last only as a blank, unless it is a comment
    rcases piece_append piece (seam_apart seam after) with same | ⟨rfl, rfl, body, rfl, inside⟩
    · rw [run_piece piece] at succeeds ⊢
      rw [List.append_assoc, run_piece same, later _ succeeds, after_after, List.append_assoc, List.append_assoc]
    · obtain ⟨spacers, spelled⟩ := comment_spaced inside seam
      rw [run_piece piece, Scan.run_nil, List.append_nil, ← List.append_assoc, spelled, run_spaced]
      rfl

/-! ### Results -/

/-- The result of a text when it comes behind another in which some tokens were found. -/
def resultBehind (before : Text) (found : List SourceToken) :
    Except ScanError (List SourceToken) → Except ScanError (List SourceToken)
  | .ok later => .ok (found ++ later.map (tokenBehind before))
  | .error error => .error (errorBehind before error)

theorem result_seam {a : Text} {found : List SourceToken} (scanned : (Scan.ofText config a).result = .ok found)
    (seam : Seam) (b : Text) : (Scan.ofText config (a ++ seam.text ++ b)).result =
      resultBehind (a ++ seam.text) found (Scan.ofText config b).result := by
  obtain ⟨succeeds, rfl⟩ := result_eq_ok_iff.mp scanned
  have run := run_seam seam b a .start succeeds
  rw [run_shift] at run
  rw [Scan.ofText, List.append_assoc, run]
  unfold Scan.result
  dsimp only
  cases ended : (Scan.ofText config b).error <;> rw [Scan.ofText] at ended <;> rw [ended] <;> rfl

theorem scan_stopped {a : Text} {line : Nat} {c : Char}
    (stopped : (Scan.ofText config a).result = .error (.unexpectedCharacter line c)) (more : Text) :
    (Scan.ofText config (a ++ more)).result = .error (.unexpectedCharacter line c) := by
  rw [result_eq_error_iff, Automaton.error_eq_verdict] at stopped ⊢
  exact Automaton.verdict_append more stopped

/-- Apart from where its tokens start, a result depends on the text before it only by its line breaks. -/
theorem resultBehind_lines {one two : Text} (lines : one.lineBreaks = two.lineBreaks) (found : List SourceToken)
    (result : Except ScanError (List SourceToken)) :
    (resultBehind one found result).map (·.map (·.toToken)) =
      (resultBehind two found result).map (·.map (·.toToken)) := by
  cases result with
  | ok later => simp [resultBehind, Except.map, tokenBehind, lines, Function.comp_def]
  | error error => cases error <;> simp [resultBehind, Except.map, errorBehind, lines]

/-- Two texts with a seam between them are scanned one after the other: if the first scans, its tokens come
    first and then those of the second, or its error, further on by the first text and the seam; an
    unexpected character of the first stops the scan of both. What the comments of the seam say changes
    nothing but how far on later tokens start. -/
theorem scan_seam (config : Config) (a b : Text) (seam : Seam) :
    (∀ found, (Scan.ofText config a).result = .ok found →
      (Scan.ofText config (a ++ seam.text ++ b)).result =
        match (Scan.ofText config b).result with
        | .ok later => .ok (found ++ later.map (tokenBehind (a ++ seam.text)))
        | .error error => .error (errorBehind (a ++ seam.text) error)) ∧
    (∀ line c, (Scan.ofText config a).result = .error (.unexpectedCharacter line c) →
      (Scan.ofText config (a ++ seam.text ++ b)).result = .error (.unexpectedCharacter line c)) ∧
    ∀ other : Seam, other.spacers.map Spacer.bare = seam.spacers.map Spacer.bare →
      (∀ line, (Scan.ofText config a).result ≠ .error (.unterminatedString line)) →
      (Scan.ofText config (a ++ other.text ++ b)).result.map (·.map (·.toToken)) =
        (Scan.ofText config (a ++ seam.text ++ b)).result.map (·.map (·.toToken)) := by
  refine ⟨fun found scanned => result_seam scanned seam b, fun line c stopped => ?_, fun other alike closed => ?_⟩
  · rw [List.append_assoc]
    exact scan_stopped stopped _
  · cases ended : (Scan.ofText config a).result with
    | ok found =>
      have lines : Text.lineBreaks (a ++ other.text) = Text.lineBreaks (a ++ seam.text) := by
        rw [Text.lineBreaks_append, Text.lineBreaks_append, lineBreaks_alike alike]
      rw [result_seam ended, result_seam ended]
      exact resultBehind_lines lines found _
    | error error =>
      cases error with
      | unexpectedCharacter line c =>
        rw [List.append_assoc, List.append_assoc, scan_stopped ended, scan_stopped ended]
      | unterminatedString line => exact absurd ended (closed line)

theorem scan_seam_comment :
    let seam : Seam := ⟨[.blank ' ' (by decide), .comment ['"'] (by simp)], ⟨' ', ['/', '/', '"', '\n'], rfl, by decide⟩,
      by decide⟩
    let other : Seam := ⟨[.blank ' ' (by decide), .comment ['é'] (by simp)], ⟨' ', ['/', '/', 'é', '\n'], rfl, by decide⟩,
      by decide⟩
    let one : SourceToken := ⟨⟨.number, ['1'], some (.number (.ofNumeral ['1'])), 1⟩, 0⟩
    let o : SourceToken := ⟨⟨.identifier, ['o'], none, 1⟩, 0⟩
    let a := ['1', '/', '/', 'x']
    ((Scan.ofText ⟨true⟩ a).result = .ok [one] ∧ (Scan.ofText ⟨true⟩ ['o']).result = .ok [o] ∧
      (Scan.ofText ⟨true⟩ (a ++ seam.text ++ ['o'])).result = .ok [one, { o with line := 2, start := 9 }]) ∧
    ((Scan.ofText ⟨true⟩ ['@']).result = .error (.unexpectedCharacter 1 '@') ∧
      (Scan.ofText ⟨true⟩ (['@'] ++ seam.text ++ ['"'])).result = .error (.unexpectedCharacter 1 '@')) ∧
    other.spacers.map Spacer.bare = seam.spacers.map Spacer.bare ∧
      (∀ line, (Scan.ofText ⟨true⟩ a).result ≠ .error (.unterminatedString line)) ∧
      (Scan.ofText ⟨true⟩ (a ++ other.text ++ ['o'])).result.map (·.map (·.toToken)) =
        (Scan.ofText ⟨true⟩ (a ++ seam.text ++ ['o'])).result.map (·.map (·.toToken)) := by
  intro seam other one o a
  have first : (Scan.ofText ⟨true⟩ a).result = .ok [one] := result_eq_ok_iff.mpr ⟨by decide +kernel, by decide +kernel⟩
  have second : (Scan.ofText ⟨true⟩ ['o']).result = .ok [o] :=
    result_eq_ok_iff.mpr ⟨by decide +kernel, by decide +kernel⟩
  have stops : (Scan.ofText ⟨true⟩ ['@']).result = .error (.unexpectedCharacter 1 '@') :=
    result_eq_error_iff.mpr (by decide +kernel)
  have both := (scan_seam ⟨true⟩ a ['o'] seam).1 [one] first
  rw [second] at both
  have closed : ∀ line, (Scan.ofText ⟨true⟩ a).result ≠ .error (.unterminatedString line) := by
    intro line isOpen
    cases first.symm.trans isOpen
  exact ⟨⟨first, second, both⟩, ⟨stops, (scan_seam ⟨true⟩ ['@'] ['"'] seam).2.1 1 '@' stops⟩, rfl, closed,
    (scan_seam ⟨true⟩ a ['o'] seam).2.2 other rfl closed⟩

end LoxLexer.Seams

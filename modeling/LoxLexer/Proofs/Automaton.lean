import LoxLexer.Proofs.Pieces

/-!
The verdict of a scan as a machine of four states that reads a text once, character by character
(`verdict`). It accepts, or stops at the first character that fits nowhere, exactly as the scan does
(`verdict_iff`): each piece leaves the machine where the rest of the text begins (`verdict_piece`), and
a stuck text stops it (`verdict_stuck`).
-/

namespace LoxLexer.Automaton
open LoxLexer.Alphabet LoxLexer.Pieces

inductive State where
  | code | slash | comment | string
deriving DecidableEq

/-- The characters other than word characters that leave the machine in code. -/
def plain : List Char :=
  ['(', ')', '\x7b', '\x7d', ',', '.', '-', '+', ';', '*', '!', '=', '<', '>', ' ', '\r', '\t', '\n']

/-- Where a character in code leads, unless it fits nowhere. -/
def stepCode (c : Char) : Option State :=
  if c = '"' then some .string
  else if c = '/' then some .slash
  else if c ∈ plain ∨ WordChar c then some .code
  else none

/-- Where a character leads from a state. -/
def step : State → Char → Option State
  | .code, c => stepCode c
  | .slash, c => if c = '/' then some .comment else stepCode c
  | .comment, c => some (if c = '\n' then .code else .comment)
  | .string, c => some (if c = '"' then .code else .string)

/-- What stops the machine in a text that stands behind another. -/
def verdict (before : Text) : State → Text → Option ScanError
  | .string, [] => some (.unterminatedString (1 + before.lineBreaks))
  | _, [] => none
  | state, c :: cs =>
    match step state c with
    | none => some (.unexpectedCharacter (1 + before.lineBreaks) c)
    | some next => verdict (before ++ [c]) next cs

variable {before lexeme rest text : Text}

/-! ### Single characters -/

private theorem stepCode_plain {c : Char} (known : c ∈ plain ∨ WordChar c) : stepCode c = some .code := by
  unfold stepCode
  split
  · next isQuote =>
    subst isQuote
    exact absurd known (by decide)
  · split
    · next isSlash =>
      subst isSlash
      exact absurd known (by decide)
    · rfl

private theorem stepCode_foreign {c : Char} (foreign : CharClass.of c = .foreign) : stepCode c = none := by
  have quote : c ≠ '"' := by rintro rfl; cases foreign
  have slash : c ≠ '/' := by rintro rfl; cases foreign
  have other : ¬ (c ∈ plain ∨ WordChar c) := by
    have listed : ∀ d ∈ plain, CharClass.of d ≠ .foreign := by simp [plain, CharClass.of]
    rintro (member | letter | digit)
    · exact listed c member foreign
    · rw [of_letter letter] at foreign
      cases foreign
    · rw [of_digit digit] at foreign
      cases foreign
  simp [stepCode, quote, slash, other]

private theorem step_slash {c : Char} (other : c ≠ '/') : step .slash c = step .code c := by
  simp [step, other]

/-! ### Runs of characters -/

private theorem verdict_step {state next : State} {c : Char} (taken : step state c = some next) :
    verdict before state (c :: rest) = verdict (before ++ [c]) next rest := by
  cases state <;> simp [verdict, taken]

private theorem verdict_halt {state : State} {c : Char} (halted : step state c = none) :
    verdict before state (c :: rest) = some (.unexpectedCharacter (1 + before.lineBreaks) c) := by
  cases state <;> simp [verdict, halted]

/-- A run of characters that all keep a state is read in that state. -/
theorem verdict_run {state : State} {run : Text} (kept : ∀ c ∈ run, step state c = some state) :
    verdict before state (run ++ rest) = verdict (before ++ run) state rest := by
  induction run generalizing before with
  | nil => simp
  | cons c run ih =>
    obtain ⟨here, later⟩ := List.forall_mem_cons.mp kept
    rw [List.cons_append, verdict_step here, ih later, List.append_assoc]
    rfl

private theorem verdict_slash (stops : Stops (· = '/') rest) : verdict before .slash rest = verdict before .code rest := by
  cases rest with
  | nil => rfl
  | cons c rest => simp only [verdict, step_slash (stops c rfl)]

/-- Where a comment ends, the machine goes on as in code. -/
theorem verdict_comment (stops : Stops (· ≠ '\n') rest) :
    verdict before .comment rest = verdict before .code rest := by
  cases rest with
  | nil => rfl
  | cons c rest =>
    obtain rfl : c = '\n' := by simpa using stops_cons.mp stops
    rfl

/-! ### Pieces -/

/-- The characters of a lexeme that is no slash, comment or string leave the machine in code. -/
theorem verdict_plain (inside : ∀ c ∈ lexeme, c ∈ plain ∨ WordChar c) :
    verdict before .code (lexeme ++ rest) = verdict (before ++ lexeme) .code rest :=
  verdict_run fun c member => stepCode_plain (inside c member)

private theorem punctuation_plain {c : Char} {kind : Kind} (known : CharClass.of c = .punctuation kind) : c ∈ plain := by
  have listed : ∀ entry ∈ punctuation, entry.1 ∈ plain := by decide
  exact listed (c, kind) ((of_eq_iff (by simp)).mp known)

private theorem operator_plain {c : Char} {alone paired : Kind} (known : CharClass.of c = .operator alone paired) :
    c ∈ plain := by
  have listed : ∀ entry ∈ operators, entry.1 ∈ plain := by decide
  exact listed (c, alone, paired) ((of_eq_iff (by simp)).mp known)

private theorem blank_plain {c : Char} (known : CharClass.of c = .blank) : c ∈ plain := by
  have listed : ∀ d ∈ blanks, d ∈ plain := by simp [blanks, plain]
  exact listed c ((of_eq_iff (by simp)).mp known)

/-- A piece leaves the machine in code, or in a state that reads the rest as code does. -/
theorem verdict_piece {config : Config} {kind : Option Kind} (piece : Piece config kind lexeme rest) :
    verdict before .code (lexeme ++ rest) = verdict (before ++ lexeme) .code rest := by
  cases piece with
  | punctuation _ known => exact verdict_plain (by simpa using .inl (punctuation_plain known))
  | alone known => exact verdict_plain (by simpa using .inl (operator_plain known))
  | paired _ known =>
    refine verdict_plain (List.forall_mem_cons.mpr ⟨.inl (operator_plain known), ?_⟩)
    simp [plain]
  | slash stops => exact verdict_slash stops
  | @comment body _ inside stops =>
    have kept : ∀ c ∈ body, step .comment c = some .comment := by
      intro c member
      simp [step, inside c member]
    change verdict before .code ('/' :: '/' :: (body ++ rest)) = _
    rw [verdict_step (show step .code '/' = some .slash from rfl),
      verdict_step (show step .slash '/' = some .comment from rfl), verdict_run kept, verdict_comment stops]
    simp
  | blank _ known => exact verdict_plain (by simpa using .inl (blank_plain known))
  | newline => exact verdict_plain (by simp [plain])
  | @string body _ inside =>
    have kept : ∀ c ∈ body, step .string c = some .string := by
      intro c member
      simp [step, inside c member]
    have closed : '"' :: (body ++ ['"']) ++ rest = '"' :: (body ++ '"' :: rest) := by simp
    rw [closed, verdict_step (show step .code '"' = some .string from rfl), verdict_run kept,
      verdict_step (show step .string '"' = some .code from rfl)]
    simp
  | whole _ inside => exact verdict_plain fun c member => .inr (.inr (inside c member))
  | @fraction digits places _ _ inside _ decimals =>
    refine verdict_plain fun c member => ?_
    rcases List.mem_append.mp member with digit | behind
    · exact .inr (.inr (inside c digit))
    · rcases List.mem_cons.mp behind with rfl | place
      · exact .inl (by decide)
      · exact .inr (.inr (decimals c place))
  | or =>
    have letter : WordChar 'o' := by decide
    exact verdict_plain (by simp [letter])
  | word letter inside =>
    exact verdict_plain (List.forall_mem_cons.mpr ⟨.inr (.inl letter), fun x member => .inr (inside x member)⟩)

theorem verdict_stuck {fault : Fault} (stuck : Stuck text fault) :
    verdict before .code text = some (Scan.errorAt (Position.start.after before) text fault) := by
  cases stuck with
  | foreign cs known =>
    rw [verdict_halt (show step .code _ = none from stepCode_foreign known)]
    simp [Scan.errorAt, Position.start, Position.after]
  | @unterminated cs inside =>
    have kept : ∀ c ∈ cs, step .string c = some .string := by
      intro c member
      simp [step, inside c member]
    have toEnd : verdict (before ++ ['"']) .string (cs ++ []) = verdict (before ++ ['"'] ++ cs) .string [] :=
      verdict_run kept
    rw [List.append_nil] at toEnd
    rw [verdict_step (show step .code '"' = some .string from rfl), toEnd]
    simp [verdict, Scan.errorAt, Position.start, Position.after, Nat.add_assoc]

/-! ### Whole texts -/

private theorem run_verdict (config : Config) (text : Text) :
    ∀ before, (Scan.run config [] (Position.start.after before) text).error = verdict before .code text := by
  induction text using text_induction config with
  | nil =>
    intro before
    rw [Scan.run_nil]
    rfl
  | stuck stuck =>
    intro before
    rw [run_stuck stuck, verdict_stuck stuck]
  | @piece kind lexeme rest piece later =>
    intro before
    rw [run_piece piece, verdict_piece piece, after_after]
    exact later (before ++ lexeme)

theorem error_eq_verdict (config : Config) (text : Text) :
    (Scan.ofText config text).error = verdict [] .code text := by
  have whole := run_verdict config text []
  rwa [after_nil] at whole

/-- A machine that stopped at a character does not see what follows it. -/
theorem verdict_append {state : State} {line : Nat} {c : Char} (more : Text)
    (stopped : verdict before state text = some (.unexpectedCharacter line c)) :
    verdict before state (text ++ more) = some (.unexpectedCharacter line c) := by
  induction text generalizing before state with
  | nil => cases state <;> cases stopped
  | cons d text ih =>
    rw [List.cons_append]
    cases taken : step state d with
    | none =>
      rw [verdict_halt taken] at stopped ⊢
      exact stopped
    | some next =>
      rw [verdict_step taken] at stopped ⊢
      exact ih stopped

/-- A scan fails exactly where the machine stops, with the same error, and succeeds exactly where the
    machine comes to an end; no text behind an unexpected character makes another error of it. -/
theorem verdict_iff (config : Config) (text : Text) :
    (∀ error, (Scan.ofText config text).result = .error error ↔ verdict [] .code text = some error) ∧
      ((∃ found, (Scan.ofText config text).result = .ok found) ↔ verdict [] .code text = none) ∧
      ∀ line c more, (Scan.ofText config text).result = .error (.unexpectedCharacter line c) →
        (Scan.ofText config (text ++ more)).result = .error (.unexpectedCharacter line c) := by
  refine ⟨fun error => ?_, ?_, fun line c more stopped => ?_⟩
  · rw [result_eq_error_iff, error_eq_verdict]
  · rw [← error_eq_verdict config text]
    simp [result_eq_ok_iff]
  · rw [result_eq_error_iff, error_eq_verdict] at stopped ⊢
    exact verdict_append more stopped

theorem verdict_iff_accented :
    (Scan.ofText {} "a\n1.é".toList).result = .error (.unexpectedCharacter 2 'é') ∧
      (Scan.ofText {} ("a\n1.é".toList ++ "\"".toList)).result = .error (.unexpectedCharacter 2 'é') := by
  have stopped : (Scan.ofText {} "a\n1.é".toList).result = .error (.unexpectedCharacter 2 'é') :=
    result_eq_error_iff.mpr (by decide +kernel)
  exact ⟨stopped, (verdict_iff {} "a\n1.é".toList).2.2 2 'é' "\"".toList stopped⟩

end LoxLexer.Automaton

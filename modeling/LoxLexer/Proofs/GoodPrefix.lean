import LoxLexer.Proofs.Lines
import LoxLexer.Proofs.Neighbours
import LoxLexer.Trace

/-!
What a scan that fails has found. The text before the lexeme that fails is read in the same way whatever
inert text stands behind it (`Firm`), so it scans by itself, and with any part of the rest behind it the
scan fails (`firm_longest`). The tokens made known before the failure are therefore those of the longest
prefix of the source that scans.
-/

namespace LoxLexer.GoodPrefix
open LoxLexer.Alphabet LoxLexer.Pieces LoxLexer.Neighbours

variable {config : Config} {kind : Option Kind} {lexeme rest read unread other text : Text} {fault : Fault}

/-! ### Stuck texts -/

private theorem inert_of_stuck (stuck : Stuck unread fault) : Inert unread := by
  intro c head continues
  cases stuck with
  | foreign cs known =>
    obtain rfl := Option.some.inj head
    rcases continues with (letter | digit) | listed
    · rw [of_letter letter] at known
      cases known
    · rw [of_digit digit] at known
      cases known
    · simp only [List.mem_cons, List.not_mem_nil, or_false] at listed
      rcases listed with rfl | rfl | rfl <;> cases known
  | unterminated =>
    obtain rfl := Option.some.inj head
    exact absurd continues (by decide)

/-- Every part of a stuck text that keeps its first character is stuck. -/
theorem stuck_front (stuck : Stuck unread fault) (front : other <+: unread) (nonempty : other ≠ []) :
    Stuck other fault := by
  obtain ⟨c, cs, rfl⟩ := List.exists_cons_of_ne_nil nonempty
  obtain ⟨more, spelled⟩ := front
  cases stuck with
  | foreign _ known =>
    obtain ⟨rfl, -⟩ := List.cons.inj spelled
    exact .foreign cs known
  | unterminated inside =>
    obtain ⟨rfl, rfl⟩ := List.cons.inj spelled
    exact .unterminated fun d member => inside d (List.mem_append_left more member)

/-- A stuck text behind a piece, or further on, can be exchanged for any inert text. -/
theorem piece_exchange (piece : Piece config kind lexeme (rest ++ unread)) (stuck : Stuck unread fault)
    (inert : Inert other) : Piece config kind lexeme (rest ++ other) := by
  cases kind with
  | some kind =>
    exact piece_of_bounded piece (bounded_exchange (bounded_of_piece piece) (inert_of_stuck stuck) inert)
  | none =>
    cases piece with
    | blank _ known => exact .blank _ known
    | newline => exact .newline _
    | comment inside stops =>
      refine .comment inside ?_
      cases rest with
      | cons c rest => exact stops
      | nil =>
        -- a comment goes on to the end of its line, so nothing is stuck right behind it
        cases stuck with
        | foreign _ known =>
          obtain rfl : _ = '\n' := by simpa using stops_cons.mp stops
          cases known
        | unterminated => exact absurd (by decide) (stops_cons.mp stops)

/-! ### Texts that are read in the same way -/

/-- A text that is read to its end, and in the same way whatever inert text stands behind it. -/
def Firm (config : Config) (read : Text) : Prop :=
  ∀ (position : Position) (rest : Text), Inert rest →
    Scan.run config [] position (read ++ rest) =
      { Scan.run config [] (position.after read) rest with
        tokens := (Scan.run config [] position read).tokens ++
          (Scan.run config [] (position.after read) rest).tokens }

private theorem firm_nil (config : Config) : Firm config [] := by
  intro position rest _
  simp

private theorem firm_piece (pieces : ∀ rest, Inert rest → Piece config kind lexeme (read ++ rest)) (firm : Firm config read) :
    Firm config (lexeme ++ read) := by
  intro position rest inert
  have alone : Piece config kind lexeme read := by simpa using pieces [] inert_nil
  rw [List.append_assoc, run_piece (pieces rest inert), run_piece alone, firm _ rest inert, after_after,
    List.append_assoc]

private theorem firm_succeeds (firm : Firm config read) (position : Position) :
    (Scan.run config [] position read).error = none := by
  have alone := firm position [] inert_nil
  rw [List.append_nil, Scan.run_nil] at alone
  rw [alone]

theorem firm_stuck (firm : Firm config read) (stuck : Stuck unread fault) (position : Position) :
    Scan.run config [] position (read ++ unread) =
      ⟨(Scan.run config [] position read).tokens, position.after read,
        some (Scan.errorAt (position.after read) unread fault)⟩ := by
  rw [firm position unread (inert_of_stuck stuck), run_stuck stuck, List.append_nil]

/-- A text scans, or it is a firm text with a stuck one behind it. -/
theorem scans_or_stuck (config : Config) (text : Text) :
    (∀ position, (Scan.run config [] position text).error = none) ∨
      ∃ read unread fault, text = read ++ unread ∧ Firm config read ∧ Stuck unread fault := by
  induction text using text_induction config with
  | nil =>
    left
    intro position
    simp
  | @stuck text fault stuck => exact .inr ⟨[], text, fault, rfl, firm_nil config, stuck⟩
  | @piece kind lexeme rest piece later =>
    rcases later with succeeds | ⟨read, unread, fault, rfl, firm, stuck⟩
    · left
      intro position
      rw [run_piece piece]
      exact succeeds _
    · refine .inr ⟨lexeme ++ read, unread, fault, (List.append_assoc ..).symm, ?_, stuck⟩
      exact firm_piece (fun other inert => piece_exchange piece stuck inert) firm

theorem firm_of_fails {error : ScanError} (fails : (Scan.ofText config text).error = some error) :
    ∃ read unread fault, text = read ++ unread ∧ Firm config read ∧ Stuck unread fault := by
  rcases scans_or_stuck config text with succeeds | split
  · cases (succeeds .start).symm.trans fails
  · exact split

/-- No more of a text than its firm part scans. -/
theorem firm_longest (firm : Firm config read) (stuck : Stuck unread fault) (front : other <+: read ++ unread)
    (scans : (Scan.ofText config other).error = none) : other <+: read := by
  rcases List.prefix_or_prefix_of_prefix front (List.prefix_append read unread) with shorter | ⟨more, rfl⟩
  · exact shorter
  · have onward : more <+: unread := (List.prefix_append_right_inj read).mp front
    by_cases empty : more = []
    · simp [empty]
    · have fails := firm_stuck firm (stuck_front stuck onward empty) .start
      rw [Scan.ofText, fails] at scans
      cases scans

/-! ### Events -/

/-- What an event tells: its level, its words and its counts. -/
def told (event : Event) : Level × Text × List (String × Nat) := (event.level, event.message, event.counts)

/-- What is told of tokens, one after the other. -/
private def tokensTold (found : List SourceToken) : List (Level × Text × List (String × Nat)) :=
  found.map fun token => (.trace, token.text, [("line", token.line)])

private theorem events_told (config : Config) (text : Text) :
    (Scan.events config text).map told =
      (.debug, "scanning source".toList, [("bytes", (Utf8.encode text).length)]) ::
        tokensTold (Scan.ofText config text).tokens ++ [told (Scan.ofText config text).closing] := by
  unfold Scan.events
  dsimp only
  rw [List.map_append, List.map_cons, List.map_map, Utf8.length_encode]
  rfl

private theorem told_finished {scan : Scan} (succeeds : scan.error = none) : told scan.closing =
    (.debug, "scan finished".toList, [("tokens", scan.tokens.length), ("lines", scan.stop.line)]) := by
  unfold Scan.closing
  rw [succeeds]
  rfl

private theorem told_aborted {scan : Scan} {error : ScanError} (fails : scan.error = some error) : told scan.closing =
    (.debug, "scan aborted: ".toList ++ error.message, [("line", error.line), ("scanned", scan.tokens.length)]) := by
  unfold Scan.closing
  rw [fails]
  rfl

/-- A scan tells that it starts and how long its text is, then each token in order, and once how it ends:
    with the number of tokens and lines, or with the error and the number of tokens before it. If it fails,
    the tokens that it told are those of the text before the lexeme that fails, which is the longest prefix
    of the source that scans. -/
theorem scan_events (config : Config) (text : Text) :
    let started := (Level.debug, "scanning source".toList, [("bytes", (Utf8.encode text).length)])
    (∀ found, (Scan.ofText config text).result = .ok found →
      (Scan.events config text).map told = started :: tokensTold found ++
        [(.debug, "scan finished".toList, [("tokens", found.length), ("lines", 1 + text.lineBreaks)])]) ∧
    ∀ error, (Scan.ofText config text).result = .error error →
      ∃ good bad fault found, text = good ++ bad ∧ (Scan.ofText config text).stop.offset = good.byteSize ∧
        Stuck bad fault ∧ error = Scan.errorAt (Position.start.after good) bad fault ∧
        (Scan.ofText config good).result = .ok found ∧
        (∀ other, other <+: text → (∃ others, (Scan.ofText config other).result = .ok others) → other <+: good) ∧
        (Scan.events config text).map told = started :: tokensTold found ++
          [(.debug, "scan aborted: ".toList ++ error.message, [("line", error.line), ("scanned", found.length)])] := by
  intro started
  constructor
  · intro found scanned
    obtain ⟨succeeds, rfl⟩ := result_eq_ok_iff.mp scanned
    rw [events_told, told_finished succeeds, Lines.end_line succeeds]
  · intro error scanned
    have fails := result_eq_error_iff.mp scanned
    obtain ⟨good, bad, fault, rfl, firm, stuck⟩ := firm_of_fails fails
    have whole : Scan.ofText config (good ++ bad) = _ := firm_stuck firm stuck .start
    have found : (Scan.ofText config (good ++ bad)).tokens = (Scan.ofText config good).tokens := by
      rw [whole]
      rfl
    have reason : some (Scan.errorAt (Position.start.after good) bad fault) = some error := by
      rw [← fails, whole]
    refine ⟨good, bad, fault, (Scan.ofText config good).tokens, rfl, ?_, stuck, (Option.some.inj reason).symm,
      result_eq_ok_iff.mpr ⟨firm_succeeds firm .start, rfl⟩, ?_, ?_⟩
    · rw [whole, Lines.after_start]
    · rintro other front ⟨others, scans⟩
      exact firm_longest firm stuck front (result_eq_ok_iff.mp scans).1
    · rw [events_told, told_aborted fails, found]

theorem scan_events_open_string :
    let one : SourceToken := ⟨⟨.number, ['1'], some (.number (.ofNumeral ['1'])), 1⟩, 0⟩
    let point : SourceToken := ⟨⟨.dot, ['.'], none, 1⟩, 1⟩
    ((Scan.ofText {} "1.\n".toList).result = .ok [one, point] ∧
      (Scan.events {} "1.\n".toList).map told =
        (.debug, "scanning source".toList, [("bytes", (Utf8.encode "1.\n".toList).length)]) ::
          tokensTold [one, point] ++ [(.debug, "scan finished".toList, [("tokens", 2), ("lines", 2)])]) ∧
    (Scan.ofText {} "1.\"é\n5".toList).result = .error (.unterminatedString 2) ∧
      ∃ good found, (Scan.ofText {} "1.\"é\n5".toList).stop.offset = Text.byteSize good ∧
        (Scan.ofText {} good).result = .ok found ∧
        (∀ other, other <+: "1.\"é\n5".toList → (∃ others, (Scan.ofText {} other).result = .ok others) →
          other <+: good) ∧
        (Scan.events {} "1.\"é\n5".toList).map told =
          (.debug, "scanning source".toList, [("bytes", (Utf8.encode "1.\"é\n5".toList).length)]) :: tokensTold found ++
            [(.debug, "scan aborted: Unterminated string.".toList, [("line", 2), ("scanned", found.length)])] := by
  intro one point
  have scanned : (Scan.ofText {} "1.\n".toList).result = .ok [one, point] :=
    result_eq_ok_iff.mpr ⟨by decide +kernel, by decide +kernel⟩
  have fails : (Scan.ofText {} "1.\"é\n5".toList).result = .error (.unterminatedString 2) :=
    result_eq_error_iff.mpr (by decide +kernel)
  obtain ⟨good, bad, fault, found, -, stop, -, -, scans, longest, events⟩ :=
    (scan_events {} "1.\"é\n5".toList).2 _ fails
  exact ⟨⟨scanned, (scan_events {} "1.\n".toList).1 _ scanned⟩, fails, good, found, stop, scans, longest, events⟩

end LoxLexer.GoodPrefix

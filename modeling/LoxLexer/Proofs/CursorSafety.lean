import LoxLexer.Proofs.Calls

/-!
Safety and progress of a scan by a cursor. Whatever a call comes through leads to its outcome (`visits_leads`), so
no step of it traps and the cursor stays between the beginning of the lexeme and the end of the source, also where
it stands within a character (`Guarded`). Between its calls a scan stands behind a part of the text, with at most
one call for each byte of it (`Stands`, `reaches_stands`). It comes to an end (`stands_finishes`), has the tokens
and the error of the scan of the text (`finishes_scan`), and makes known what that does (`finishes_events`).
-/

namespace LoxLexer.CursorSafety
open LoxLexer.Utf8 LoxLexer.Cursor LoxLexer.Pieces LoxLexer.Boundaries LoxLexer.Calls

variable {config : Config} {text before rest lexeme : Text} {output : Output} {outcome other : Except ScanError Cursor}
  {task next : Task} {start count line calls : Nat} {head cursor moved last : Cursor} {kind : Option Kind}
  {error : Option ScanError} {events : List Event}

/-! ### One call -/

private theorem leads_runs (leads : Leads config before rest output outcome task count line) :
    count ≤ rest.byteSize ∧ ∃ next, step config (encode (before ++ rest)) task (into before count line output) = .ok next := by
  cases leads with
  | out within stepped => exact ⟨within, _, stepped⟩
  | on within stepped _ => exact ⟨within, _, stepped⟩

private theorem leads_on (leads : Leads config before rest output outcome task count line)
    (stepped : step config (encode (before ++ rest)) task (into before count line output) = .ok (.on next moved)) :
    ∃ further lower, moved = into before further lower output ∧ Leads config before rest output outcome next further lower := by
  cases leads with
  | out _ ended => cases ended.symm.trans stepped
  | on _ gone later =>
    cases gone.symm.trans stepped
    exact ⟨_, _, rfl, later⟩

private theorem leads_out (leads : Leads config before rest output outcome task count line)
    (stepped : step config (encode (before ++ rest)) task (into before count line output) = .ok (.out other)) :
    other = outcome := by
  cases leads with
  | out _ ended =>
    cases ended.symm.trans stepped
    rfl
  | on _ gone _ => cases gone.symm.trans stepped

/-- Whatever a call comes through is on the way to its outcome. -/
theorem visits_leads (leads : Leads config before rest output outcome .first 0 line)
    (visits : Visits config (encode (before ++ rest)) ⟨start, before.byteSize, line, output⟩ task cursor) :
    ∃ count lower, cursor = into before count lower output ∧ Leads config before rest output outcome task count lower := by
  induction visits with
  | first => exact ⟨0, line, rfl, leads⟩
  | later _ stepped ih =>
    obtain ⟨count, lower, rfl, onward⟩ := ih
    exact leads_on onward stepped

private theorem leads_ends (leads : Leads config before rest output outcome task count line)
    (visits : Visits config (encode (before ++ rest)) head task (into before count line output)) :
    Ends config (encode (before ++ rest)) head outcome := by
  induction leads with
  | out _ ended => exact ⟨_, _, visits, ended⟩
  | on _ gone _ ih => exact ih (visits.later gone)

/-- A call has one outcome. -/
theorem ends_iff (leads : Leads config before rest output outcome .first 0 line) :
    Ends config (encode (before ++ rest)) ⟨start, before.byteSize, line, output⟩ other ↔ other = outcome := by
  constructor
  · rintro ⟨task, cursor, visits, stepped⟩
    obtain ⟨count, lower, rfl, onward⟩ := visits_leads leads visits
    exact leads_out onward stepped
  · rintro rfl
    exact leads_ends leads .first

/-- What holds throughout a call that begins at a cursor. -/
structure Guarded (config : Config) (text : Text) (head : Cursor) : Prop where
  /-- It begins with nothing taken, between two characters. -/
  begins : ∃ cursor, Visits config (encode text) head .first cursor ∧ cursor.start = cursor.current ∧
    Boundary text cursor.current
  /-- The cursor stays between the beginning of the lexeme and the end of the source. -/
  within : ∀ task cursor, Visits config (encode text) head task cursor →
    cursor.start = head.current ∧ cursor.start ≤ cursor.current ∧ cursor.current ≤ (encode text).length
  /-- No step asks for a byte, a slice or a number that is not there. -/
  runs : ∀ task cursor, Visits config (encode text) head task cursor → ∃ next, step config (encode text) task cursor = .ok next
  /-- The call ends, and in one way. -/
  ends : ∃ outcome, ∀ other, Ends config (encode text) head other ↔ other = outcome
  /-- If it succeeds, the cursor is further on, between two characters again. -/
  forward : ∀ next, Ends config (encode text) head (.ok next) → head.current < next.current ∧ Boundary text next.current
  /-- Where a character is refused, there is one at the beginning of the lexeme. -/
  refuses : ∀ cursor, Visits config (encode text) head .refuse cursor →
    ∃ c after, slice (encode text) cursor.start (encode text).length = .ok (c :: after)
  /-- It is the one that the error names. -/
  reports : ∀ line c, Ends config (encode text) head (.error (.unexpectedCharacter line c)) →
    ∃ before after, text = before ++ c :: after ∧ before.byteSize = head.current

/-- What a call may end with behind some text. -/
private def Sound (before rest : Text) : Except ScanError Cursor → Prop
  | .ok next => before.byteSize < next.current ∧ Boundary (before ++ rest) next.current
  | .error (.unexpectedCharacter _ c) => ∃ after, rest = c :: after
  | .error (.unterminatedString _) => True

private theorem guarded_of_leads (leads : Leads config before rest output outcome .first 0 line) (more : rest ≠ [])
    (sound : Sound before rest outcome) : Guarded config (before ++ rest) ⟨start, before.byteSize, line, output⟩ where
  begins := ⟨_, .first, rfl, before, rest, rfl, rfl⟩
  within task cursor visits := by
    obtain ⟨count, lower, rfl, onward⟩ := visits_leads leads visits
    refine ⟨rfl, Nat.le_add_right .., ?_⟩
    rw [length_encode, Text.byteSize_append]
    exact Nat.add_le_add_left (leads_runs onward).1 _
  runs task cursor visits := by
    obtain ⟨count, lower, rfl, onward⟩ := visits_leads leads visits
    exact (leads_runs onward).2
  ends := ⟨outcome, fun _ => ends_iff leads⟩
  forward next ends := by
    obtain rfl := (ends_iff leads).mp ends
    exact sound
  refuses cursor visits := by
    obtain ⟨count, lower, rfl, -⟩ := visits_leads leads visits
    obtain ⟨c, after, rfl⟩ := List.exists_cons_of_ne_nil more
    exact ⟨c, after, slice_tail before (c :: after)⟩
  reports line c ends := by
    obtain rfl := (ends_iff leads).mp ends
    obtain ⟨after, rfl⟩ := sound
    exact ⟨before, after, rfl, rfl⟩

private theorem piece_size (piece : Piece config kind lexeme rest) : 0 < lexeme.byteSize := by
  obtain ⟨c, cs, rfl⟩ := List.exists_cons_of_ne_nil (piece_nonempty piece)
  exact Nat.add_pos_left c.utf8Size_pos _

private theorem piece_sound (piece : Piece config kind lexeme rest) :
    Sound before (lexeme ++ rest) (.ok (behind before line output kind lexeme)) := by
  refine ⟨Nat.lt_add_of_pos_right (piece_size piece), ?_⟩
  exact ⟨before ++ lexeme, rest, (List.append_assoc ..).symm, Text.byteSize_append ..⟩

private theorem stuck_sound {fault : Fault} (stuck : Stuck rest fault) :
    Sound before rest (.error (Scan.errorAt ⟨before.byteSize, line⟩ rest fault)) := by
  cases stuck with
  | foreign cs => exact ⟨cs, rfl⟩
  | unterminated => trivial

/-! ### From call to call -/

/-- A scan stands behind some text: it has made at most one call for each of the bytes there, and goes on from there as
    the scan of the whole text does. -/
structure Stands (config : Config) (text : Text) (calls : Nat) (head : Cursor) (before rest : Text) : Prop where
  spelled : text = before ++ rest
  current : head.current = before.byteSize
  start : head.start ≤ head.current
  calls : calls ≤ head.current
  scan : Scan.ofText config text = Scan.run config head.output.tokens ⟨head.current, head.line⟩ rest
  events : head.output.events.reverse = Scan.opening text :: head.output.tokens.reverse.map (fun token => .found token.toToken)

private theorem stands_within (stands : Stands config text calls head before rest) : head.current ≤ (encode text).length := by
  rw [stands.current, stands.spelled, length_encode, Text.byteSize_append]
  exact Nat.le_add_right ..

private theorem stands_inside (stands : Stands config text calls head before rest) :
    head.current < (encode text).length ↔ rest ≠ [] := by
  rw [stands.current, stands.spelled, length_encode, Text.byteSize_append]
  cases rest with
  | nil => simp
  | cons c cs =>
    have := c.utf8Size_pos
    simp
    omega

private theorem stands_ends (stands : Stands config text calls head before rest)
    (leads : Leads config before rest head.output outcome .first 0 head.line) :
    Ends config (encode text) head other ↔ other = outcome := by
  obtain ⟨start, current, line, output⟩ := head
  obtain rfl := stands.current
  rw [stands.spelled]
  exact ends_iff leads

private theorem stands_guarded (stands : Stands config text calls head before rest) (more : rest ≠ []) : Guarded config text head := by
  obtain ⟨start, current, line, output⟩ := head
  obtain rfl := stands.current
  rw [stands.spelled]
  induction rest using text_induction config with
  | nil => exact absurd rfl more
  | stuck stuck => exact guarded_of_leads (leads_stuck stuck) more (stuck_sound stuck)
  | piece piece => exact guarded_of_leads (leads_piece piece) more (piece_sound piece)

/-- A call that takes a piece leaves the scan behind it. -/
theorem stands_behind (stands : Stands config text calls head before (lexeme ++ rest))
    (piece : Piece config kind lexeme rest) :
    Stands config text (calls + 1) (behind before head.line head.output kind lexeme) (before ++ lexeme) rest where
  spelled := by rw [stands.spelled, List.append_assoc]
  current := (Text.byteSize_append ..).symm
  start := Nat.le_add_right ..
  calls := Nat.add_le_add (stands.current ▸ stands.calls) (piece_size piece)
  scan := by
    obtain ⟨c, cs, front, cutting⟩ := first_of_piece piece
    rw [stands.scan, front, Scan.run_of_ok cutting, stands.current]
    cases kind <;> rfl
  events := by
    cases kind with
    | none => exact stands.events
    | some kind => simp [behind, into, tokens, Output.push, stands.events]

private theorem stands_call {next : Cursor} (stands : Stands config text calls head before rest) (more : rest ≠ [])
    (ends : Ends config (encode text) head (.ok next)) : ∃ before rest, Stands config text (calls + 1) next before rest := by
  induction rest using text_induction config with
  | nil => exact absurd rfl more
  | stuck stuck => cases (stands_ends stands (leads_stuck stuck)).mp ends
  | @piece kind lexeme rest piece =>
    obtain rfl := Except.ok.inj ((stands_ends stands (leads_piece piece)).mp ends)
    exact ⟨before ++ lexeme, rest, stands_behind stands piece⟩

private theorem stands_origin (config : Config) (text : Text) : Stands config text 0 (.origin (encode text)) [] text where
  spelled := rfl
  current := rfl
  start := Nat.le_refl 0
  calls := Nat.le_refl 0
  scan := rfl
  events := by simp [origin, Scan.opening]

/-- Between its calls a scan stands behind some text. -/
theorem reaches_stands (reaches : Reaches config (encode text) calls head) :
    ∃ before rest, Stands config text calls head before rest := by
  induction reaches with
  | origin => exact ⟨[], text, stands_origin config text⟩
  | call _ inside ends ih =>
    obtain ⟨before, rest, stands⟩ := ih
    exact stands_call stands ((stands_inside stands).mp inside) ends

/-- From wherever a scan stands it comes to an end. -/
theorem stands_finishes (rest : Text) : ∀ {calls head before}, Stands config text calls head before rest →
    Reaches config (encode text) calls head → ∃ calls last error events, Finishes config (encode text) calls last error events := by
  induction rest using text_induction config with
  | nil =>
    intro calls head before stands reaches
    have atEnd : ¬ head.current < (encode text).length := fun inside => (stands_inside stands).mp inside rfl
    exact ⟨calls, head, none, _, .done reaches (Nat.le_of_not_lt atEnd)⟩
  | @stuck rest fault stuck =>
    intro calls head before stands reaches
    have more : rest ≠ [] := by rintro rfl; cases stuck
    have fails := (stands_ends stands (leads_stuck stuck)).mpr rfl
    exact ⟨calls + 1, head, _, _, .failed reaches ((stands_inside stands).mpr more) fails⟩
  | @piece kind lexeme rest piece ih =>
    intro calls head before stands reaches
    have more : lexeme ++ rest ≠ [] := by simp [piece_nonempty piece]
    have succeeds := (stands_ends stands (leads_piece piece)).mpr rfl
    exact ih (stands_behind stands piece) (.call reaches ((stands_inside stands).mpr more) succeeds)

/-- The last call too has a byte of its own. -/
theorem finishes_calls (finishes : Finishes config (encode text) calls last error events) :
    calls ≤ (encode text).length := by
  cases finishes with
  | done reaches =>
    obtain ⟨before, rest, stands⟩ := reaches_stands reaches
    exact Nat.le_trans stands.calls (stands_within stands)
  | failed reaches inside =>
    obtain ⟨before, rest, stands⟩ := reaches_stands reaches
    exact Nat.lt_of_le_of_lt stands.calls inside

private theorem finishes_end (finishes : Finishes config (encode text) calls last none events) :
    last.current = (encode text).length := by
  cases finishes with
  | done reaches atEnd =>
    obtain ⟨before, rest, stands⟩ := reaches_stands reaches
    exact Nat.le_antisymm (stands_within stands) atEnd

/-- A scan by a cursor has the tokens and the error of the scan of its text. -/
theorem finishes_scan (finishes : Finishes config (encode text) calls last error events) :
    Scan.ofText config text = ⟨last.output.tokens.reverse, ⟨last.current, last.line⟩, error⟩ := by
  cases finishes with
  | done reaches atEnd =>
    obtain ⟨before, rest, stands⟩ := reaches_stands reaches
    have nothing : rest = [] := by
      by_contra more
      exact absurd ((stands_inside stands).mpr more) (Nat.not_lt.mpr atEnd)
    rw [stands.scan, nothing, Scan.run_nil]
  | failed reaches inside ends =>
    obtain ⟨before, rest, stands⟩ := reaches_stands reaches
    induction rest using text_induction config with
    | nil => exact absurd rfl ((stands_inside stands).mp inside)
    | stuck stuck =>
      obtain rfl := Except.error.inj ((stands_ends stands (leads_stuck stuck)).mp ends)
      rw [stands.scan, Scan.run_found, run_stuck stuck, stands.current]
      simp
    | piece piece => cases (stands_ends stands (leads_piece piece)).mp ends

/-- What a scan by a cursor makes known, one thing after the other, are the events of the scan of its text. -/
theorem finishes_events (finishes : Finishes config (encode text) calls last error events) :
    events = Scan.events config text := by
  have scanned := finishes_scan finishes
  rw [Scan.events, scanned]
  cases finishes with
  | done reaches =>
    obtain ⟨before, rest, stands⟩ := reaches_stands reaches
    simp [stands.events, Scan.closing]
  | failed reaches =>
    obtain ⟨before, rest, stands⟩ := reaches_stands reaches
    simp [stands.events, Scan.closing]

/-- Wherever a scan stands between its calls, it has made at most one call for each byte, and its next call is guarded;
    it comes to an end, at the end of the source unless a call fails, has the tokens and the error of the text, and has
    made known what the scan of the text does. -/
theorem cursor_safe (config : Config) (text : Text) :
    (∀ calls head, Reaches config (encode text) calls head →
      head.start ≤ head.current ∧ head.current ≤ (encode text).length ∧ calls ≤ head.current ∧
        (head.current < (encode text).length → Guarded config text head)) ∧
    (∃ calls last error events, Finishes config (encode text) calls last error events) ∧
    ∀ calls last error events, Finishes config (encode text) calls last error events →
      calls ≤ (encode text).length ∧ (error = none → last.current = (encode text).length) ∧
        Scan.ofText config text = ⟨last.output.tokens.reverse, ⟨last.current, last.line⟩, error⟩ ∧
        events = Scan.events config text := by
  refine ⟨fun calls head reaches => ?_, ?_, fun calls last error events finishes => ?_⟩
  · obtain ⟨before, rest, stands⟩ := reaches_stands reaches
    refine ⟨stands.start, stands_within stands, stands.calls, fun inside => ?_⟩
    exact stands_guarded stands ((stands_inside stands).mp inside)
  · exact stands_finishes text (stands_origin config text) .origin
  · refine ⟨finishes_calls finishes, ?_, finishes_scan finishes, finishes_events finishes⟩
    rintro rfl
    exact finishes_end finishes

/-- Within the string the cursor comes to stand in the middle of a character; the same character is refused behind it. -/
theorem cursor_safe_within_character :
    let text : Text := "\"é\"é".toList
    let token : SourceToken := ⟨⟨.string, "\"é\"".toList, some (.string ['é']), 1⟩, 0⟩
    let started : Output := ⟨[], [.started 6]⟩
    ¬ Boundary text 2 ∧ (∃ next, step {} (encode text) .string ⟨0, 2, 1, started⟩ = .ok next) ∧
      (∃ c after, slice (encode text) 4 6 = .ok (c :: after)) ∧
      Scan.ofText {} text = ⟨[token], ⟨4, 1⟩, some (.unexpectedCharacter 1 'é')⟩ ∧
      Scan.events {} text = [.started 6, .found token.toToken, .aborted (.unexpectedCharacter 1 'é') 1] := by
  intro text token started
  obtain ⟨heads, -, ended⟩ := cursor_safe {} text
  -- the first call takes the string byte by byte
  have quote : Visits {} (encode text) (.origin (encode text)) .string ⟨0, 1, 1, started⟩ := .later (.later .first rfl) rfl
  have middle : Visits {} (encode text) (.origin (encode text)) .string ⟨0, 2, 1, started⟩ := .later quote rfl
  have closed : Visits {} (encode text) (.origin (encode text)) .quoted ⟨0, 4, 1, started⟩ := .later (.later middle rfl) rfl
  have value : slice (encode text) 1 3 = .ok ['é'] := slice_encode ['"'] ['é'] "\"é".toList
  have taken : step {} (encode text) .quoted ⟨0, 4, 1, started⟩ = .ok (.out (.ok ⟨0, 4, 1, started.push token⟩)) := by
    simp only [step, value]
    exact push_behind [] "\"é\"".toList ['é'] .string 1 started
  have one : Reaches {} (encode text) 1 ⟨0, 4, 1, started.push token⟩ := .call .origin (by decide) ⟨_, _, closed, taken⟩
  -- the second call comes to a character that begins no lexeme
  have foreign : Visits {} (encode text) ⟨0, 4, 1, started.push token⟩ .refuse ⟨4, 5, 1, started.push token⟩ :=
    .later (.later .first rfl) rfl
  have tail : slice (encode text) 4 (encode text).length = .ok ['é'] := slice_tail "\"é\"".toList ['é']
  have refused : step {} (encode text) .refuse ⟨4, 5, 1, started.push token⟩ =
      .ok (.out (.error (.unexpectedCharacter 1 'é'))) := by
    simp only [step, tail]
    rfl
  obtain ⟨-, -, -, first⟩ := heads 0 _ .origin
  obtain ⟨-, -, -, second⟩ := heads 1 _ one
  obtain ⟨-, -, same, told⟩ := ended 2 _ _ _ (.failed one (by decide) ⟨_, _, foreign, refused⟩)
  have notBetween : ¬ Boundary text 2 := fun boundary => by cases isBoundary_iff.mpr boundary
  exact ⟨notBetween, (first (by decide)).runs _ _ middle, (second (by decide)).refuses _ foreign, same, told.symm⟩

end LoxLexer.CursorSafety

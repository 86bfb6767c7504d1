import LoxLexer.Proofs.Effects

/-!
The effects of the parts of the program.
-/

namespace LoxLexer.Runs
open LoxLexer.Effects

/-- The scan of the text of some bytes. -/
def scanned (config : Config) (source : Bytes) : Scan := .ofText config (Utf8.decode source)

/-- Tokens as they are printed, each on a line. -/
def printed (tokens : List Token) : Text := tokens.flatMap fun token => token.record ++ ['\n']

/-- The entries about a source. -/
def entries (source : Bytes) (scan : Scan) : List Entry :=
  (if Utf8.replaces source then [Program.replaced source.length] else []) ++
    [(Scan.opening (Utf8.decode source)).entry, scan.closing.entry]

/-- What is said of a source: the entries about it, and the report of its error. -/
def said (source : Bytes) (scan : Scan) : List Remark :=
  match scan.result with
  | .ok _ => (entries source scan).map .entry
  | .error error => (entries source scan).map .entry ++ [.diagnostic (error.report ++ ['\n'])]

/-- The tokens of a scan that succeeds, as they are printed. -/
def dump (scan : Scan) : Text :=
  match scan.result with
  | .ok found => printed (found.map (·.toToken))
  | .error _ => []

variable {world : World} {unread source input : Bytes} {config : Config} {reason : Text} {found : List SourceToken}
  {error : ScanError}

theorem said_ok {scan : Scan} (scans : scan.result = .ok found) : said source scan = (entries source scan).map .entry := by
  rw [said, scans]

theorem said_error {scan : Scan} (fails : scan.result = .error error) :
    said source scan = (entries source scan).map .entry ++ [.diagnostic (error.report ++ ['\n'])] := by
  rw [said, fails]

theorem dump_ok {scan : Scan} (scans : scan.result = .ok found) : dump scan = printed (found.map (·.toToken)) := by
  rw [dump, scans]

theorem dump_error {scan : Scan} (fails : scan.result = .error error) : dump scan = [] := by
  rw [dump, fails]

private theorem acts_decode (world : World) (unread source : Bytes) : Acts world unread (Program.decode source)
    ⟨Utf8.decode source, [], if Utf8.replaces source then [.entry (Program.replaced source.length)] else [], unread⟩ := by
  have done : Acts world unread (pure (Utf8.decode source) : Run Text) ⟨Utf8.decode source, [], [], unread⟩ :=
    acts_pure world unread _
  unfold Program.decode
  by_cases replaces : Utf8.replaces source = true
  · simp only [replaces, if_true]
    exact acts_bind (acts_log world unread _) done
  · simp only [replaces, Bool.false_eq_true, if_false]
    exact acts_bind (acts_pure world unread _) done

private theorem acts_scan (world : World) (unread : Bytes) (config : Config) (text : Text) :
    let scan := Scan.ofText config text
    Acts world unread (Program.scan config text)
      ⟨scan.result, [], [.entry (Scan.opening text).entry, .entry scan.closing.entry], unread⟩ := by
  intro scan
  exact acts_bind (acts_log world unread _) (acts_bind (acts_log world unread _) (acts_pure world unread _))

private theorem acts_printTokens (able : world.blocked = none ∨ found = []) (unread : Bytes) :
    Acts world unread (Program.printTokens (m := Run) found).run
      ⟨.ok (), printed (found.map (·.toToken)), [], unread⟩ := by
  induction found with
  | nil => exact acts_pure world unread (Except.ok ())
  | cons token found ih =>
    have writable : world.blocked = none := able.resolve_right (List.cons_ne_nil token found)
    exact acts_on (acts_print writable unread _) (ih (.inl writable))

private theorem acts_printTokens_blocked (blocked : world.blocked = some reason) (unread : Bytes) (nonempty : found ≠ []) :
    Acts world unread (Program.printTokens (m := Run) found).run ⟨.error reason, [], [], unread⟩ := by
  obtain ⟨token, found, rfl⟩ := List.exists_cons_of_ne_nil nonempty
  exact acts_fail (acts_print_blocked blocked unread (by simp))

private theorem acts_tell_ok (able : world.blocked = none ∨ found = []) (unread : Bytes) :
    Acts world unread (Program.tell (m := Run) (.ok found)).run
      ⟨.ok false, printed (found.map (·.toToken)), [], unread⟩ := by
  exact acts_last (acts_printTokens able unread) fun _ => false

private theorem acts_tell_blocked (blocked : world.blocked = some reason) (unread : Bytes) (nonempty : found ≠ []) :
    Acts world unread (Program.tell (m := Run) (.ok found)).run ⟨.error reason, [], [], unread⟩ :=
  acts_fail (acts_printTokens_blocked blocked unread nonempty)

private theorem acts_tell_error (world : World) (unread : Bytes) (error : ScanError) :
    Acts world unread (Program.tell (m := Run) (.error error)).run
      ⟨.ok true, [], [.diagnostic (error.report ++ ['\n'])], unread⟩ :=
  acts_sure (acts_complain world unread _) (acts_pure world unread (Except.ok true))

private theorem acts_answer {scan : Scan} (same : scanned config source = scan) {result : Except Text Bool} {output : Text}
    {remarks : List Remark}
    (telling : Acts world unread (Program.tell (m := Run) scan.result).run ⟨result, output, remarks, unread⟩) :
    Acts world unread (Program.answer (m := Run) config source).run
      ⟨result, output, (entries source scan).map .entry ++ remarks, unread⟩ := by
  subst same
  have scanning := acts_scan world unread config (Utf8.decode source)
  have parts : (entries source (scanned config source)).map .entry ++ remarks =
      (if Utf8.replaces source then [.entry (Program.replaced source.length)] else []) ++
        ([.entry (Scan.opening (Utf8.decode source)).entry, .entry (scanned config source).closing.entry] ++ remarks) := by
    unfold entries
    split <;> rfl
  rw [parts]
  exact acts_sure (acts_decode world unread source) (acts_sure scanning telling)

private theorem acts_answer_error (world : World) (unread : Bytes) (fails : (scanned config source).result = .error error) :
    Acts world unread (Program.answer (m := Run) config source).run
      ⟨.ok true, [], said source (scanned config source), unread⟩ := by
  have telling := acts_tell_error world unread error
  rw [← fails] at telling
  rw [said_error fails]
  exact acts_answer rfl telling

private theorem acts_answer_ok (scans : (scanned config source).result = .ok found) (able : world.blocked = none ∨ found = [])
    (unread : Bytes) : Acts world unread (Program.answer (m := Run) config source).run
      ⟨.ok false, printed (found.map (·.toToken)), said source (scanned config source), unread⟩ := by
  have telling := acts_tell_ok able unread
  rw [← scans] at telling
  rw [said_ok scans, ← List.append_nil ((entries _ _).map _)]
  exact acts_answer rfl telling

private theorem acts_answer_blocked (scans : (scanned config source).result = .ok found) (blocked : world.blocked = some reason)
    (unread : Bytes) (nonempty : found ≠ []) : Acts world unread (Program.answer (m := Run) config source).run
      ⟨.error reason, [], said source (scanned config source), unread⟩ := by
  have telling := acts_tell_blocked blocked unread nonempty
  rw [← scans] at telling
  rw [said_ok scans, ← List.append_nil ((entries _ _).map _)]
  exact acts_answer rfl telling

/-- Whatever comes of an answer, the same is said. -/
theorem acts_answer_any (world : World) (unread source : Bytes) (config : Config) : ∃ result output,
    Acts world unread (Program.answer (m := Run) config source).run
      ⟨result, output, said source (scanned config source), unread⟩ := by
  cases ended : (scanned config source).result with
  | error error => exact ⟨_, _, acts_answer_error world unread ended⟩
  | ok found =>
    by_cases nothing : found = []
    · exact ⟨_, _, acts_answer_ok ended (.inr nothing) unread⟩
    cases device : world.blocked with
    | none => exact ⟨_, _, acts_answer_ok ended (.inl device) unread⟩
    | some reason => exact ⟨_, _, acts_answer_blocked ended device unread nothing⟩

/-! ### Sessions -/

private theorem acts_respond (writable : world.blocked = none) (unread : Bytes) {line : Bytes} (nonempty : line ≠ []) :
    Acts world unread (Program.respond (m := Run) config line).run
      ⟨.ok (), dump (scanned config line), said line (scanned config line), unread⟩ := by
  have others : ¬ line.isEmpty = true := by simpa using nonempty
  rw [Program.respond, if_neg others]
  cases ended : (scanned config line).result with
  | ok found =>
    rw [dump_ok ended]
    exact acts_last (acts_answer_ok ended (.inl writable) unread) fun _ => ()
  | error error =>
    rw [dump_error ended]
    exact acts_last (acts_answer_error world unread ended) fun _ => ()

private theorem acts_turn (writable : world.blocked = none) {line rest : Bytes} (next : splitLine unread = (line, rest))
    (nonempty : line ≠ []) : Acts world unread (Program.turn (m := Run) config).run
      ⟨.ok true, Program.prompt ++ dump (scanned config line), said line (scanned config line), rest⟩ := by
  have reading := acts_readLine world unread
  rw [next] at reading
  have others : (!line.isEmpty) = true := by simpa using nonempty
  rw [← others]
  exact acts_on (acts_print writable unread _)
    (acts_on reading (acts_last (acts_respond writable rest nonempty) fun _ => !line.isEmpty))

private theorem acts_turn_end (writable : world.blocked = none) : Acts world [] (Program.turn (m := Run) config).run
    ⟨.ok false, Program.prompt ++ ['\n'], [], []⟩ :=
  acts_on (acts_print writable [] _) (acts_on (acts_readLine world [])
    (acts_last (acts_print writable [] ['\n']) fun _ => false))

/-- A session goes on while there are lines. -/
theorem session_turn (config : Config) : Program.session (m := Run) config =
    (do if ← Program.turn config then Program.session config else pure ()) := by
  show repeatM _ () = _
  rw [repeatM_eq_of_monadTail, repeatM.body, bind_assoc]
  congr 1
  funext more
  cases more <;> simp [Program.session]

theorem acts_session_end (writable : world.blocked = none) : Acts world [] (Program.session (m := Run) config).run
    ⟨.ok (), Program.prompt ++ ['\n'], [], []⟩ := by
  rw [session_turn, ← List.append_nil (_ ++ _)]
  exact acts_on (acts_turn_end writable) (acts_pure world [] (Except.ok ()))

theorem acts_session_line (writable : world.blocked = none) {line rest : Bytes} (next : splitLine unread = (line, rest))
    (nonempty : line ≠ []) {output : Text} {remarks : List Remark}
    (later : Acts world rest (Program.session (m := Run) config).run ⟨.ok (), output, remarks, []⟩) :
    Acts world unread (Program.session (m := Run) config).run
      ⟨.ok (), Program.prompt ++ dump (scanned config line) ++ output, said line (scanned config line) ++ remarks, []⟩ := by
  rw [session_turn]
  exact acts_on (acts_turn writable next nonempty) later

/-- Where nothing can be written, a session ends with its first prompt. -/
theorem acts_session_blocked (blocked : world.blocked = some reason) (unread : Bytes) :
    Acts world unread (Program.session (m := Run) config).run ⟨.error reason, [], [], unread⟩ := by
  rw [session_turn]
  exact acts_fail (acts_fail (acts_print_blocked blocked unread (by decide +kernel)))

/-! ### Scripts -/

section
variable {path : Text}

private theorem acts_script_unread (missing : world.files path = none) (unread : Bytes) :
    Acts world unread (Program.script (m := Run) config path).run
      ⟨.ok .ioError, [], [.diagnostic (Program.unreadable path)], unread⟩ := by
  have reading := acts_readFile world unread path
  rw [missing] at reading
  exact acts_sure reading (acts_sure (acts_complain world unread _) (acts_pure world unread (Except.ok Exit.ioError)))

private theorem acts_script (held : world.files path = some source) {output : Text} {remarks : List Remark} {failed : Bool}
    (answering : Acts world unread (Program.answer (m := Run) config source).run ⟨.ok failed, output, remarks, unread⟩) :
    Acts world unread (Program.script (m := Run) config path).run
      ⟨.ok (if failed then .dataError else .success), output, remarks, unread⟩ := by
  have reading := acts_readFile world unread path
  rw [held] at reading
  exact acts_sure reading (acts_last answering fun failed => if failed then Exit.dataError else Exit.success)

private theorem acts_script_blocked (held : world.files path = some source) {remarks : List Remark}
    (answering : Acts world unread (Program.answer (m := Run) config source).run ⟨.error reason, [], remarks, unread⟩) :
    Acts world unread (Program.script (m := Run) config path).run ⟨.error reason, [], remarks, unread⟩ := by
  have reading := acts_readFile world unread path
  rw [held] at reading
  exact acts_sure reading (acts_fail answering)

end

/-! ### Whole runs -/

section
variable {orShortcut : Bool} {requested : Option Text} {exit : Exit} {output : Text} {remarks : List Remark} {left : Bytes}

theorem acts_start (working : Acts world unread (Program.work (m := Run) ⟨orShortcut⟩ requested).run
      ⟨.ok exit, output, remarks, left⟩) :
    Acts world unread (Program.start ⟨orShortcut, requested⟩)
      ⟨exit, output, .entry (Program.starting ⟨orShortcut⟩) :: remarks, left⟩ := by
  rw [← List.append_nil output, ← List.append_nil remarks]
  exact acts_bind (acts_log world unread _) (acts_bind working (acts_pure world left exit))

/-- A failure is told by the log. -/
theorem acts_start_failed (working : Acts world unread (Program.work (m := Run) ⟨orShortcut⟩ requested).run
      ⟨.error reason, output, remarks, left⟩) :
    Acts world unread (Program.start ⟨orShortcut, requested⟩)
      ⟨.ioError, output, .entry (Program.starting ⟨orShortcut⟩) :: (remarks ++ [.entry (Program.ioFailure reason)]),
        left⟩ := by
  rw [← List.append_nil output]
  exact acts_bind (acts_log world unread _)
    (acts_bind working (acts_bind (acts_log world left _) (acts_pure world left Exit.ioError)))

end

private theorem acts_explain_error (world : World) (unread : Bytes) (text : Text) :
    Acts world unread (Program.explain ⟨true, text⟩) ⟨.usage, [], [.diagnostic text], unread⟩ :=
  acts_bind (acts_complain world unread text) (acts_pure world unread Exit.usage)

private theorem acts_explain_help (world : World) (unread : Bytes) (text : Text) :
    Acts world unread (Program.explain ⟨false, text⟩) ⟨.success, if world.blocked.isNone then text else [], [], unread⟩ := by
  cases device : world.blocked with
  | none =>
    have whole : (if (none : Option Text).isNone then text else []) = text ++ [] := by simp
    rw [whole]
    exact acts_bind (acts_print device unread text) (acts_pure world unread Exit.success)
  | some reason =>
    by_cases nothing : text = []
    · subst nothing
      exact acts_bind (acts_print_nothing world unread) (acts_pure world unread Exit.success)
    · exact acts_bind (acts_print_blocked device unread nothing) (acts_pure world unread Exit.success)

/-- What a run does and says, however its log is set and shown. -/
def Comes (reader : ArgumentReader) (arguments : List Text) (world : World) (effect : Effect Exit) : Prop :=
  Acts world world.input (Program.follow (reader arguments)) effect

section
variable {reader : ArgumentReader} {filters : FilterReader} {arguments : List Text} {effect : Effect Exit}
  {orShortcut : Bool} {path text : Text}

/-- The log chooses what is heard of a run. -/
theorem run_comes (comes : Comes reader arguments world effect) (setting : Option Text) (line : Nat → Entry → Text) :
    Program.run reader filters arguments { world with setting, line } =
      ⟨effect.result, effect.output, heard line (Program.passing filters setting) effect.remarks, effect.unread⟩ := by
  let begun : Streams := ⟨world.input, [], [], Program.passing filters setting⟩
  have whole : (Program.main reader filters arguments : Run Exit) { world with setting, line } { unread := world.input } =
      (effect.result, effect.on line begun) := comes setting line begun rfl
  rw [Program.run, whole]
  rfl

/-- What is seen of a run in the world that it is in. -/
theorem run_here (comes : Comes reader arguments world effect) : Program.run reader filters arguments world =
    ⟨effect.result, effect.output, heard world.line (Program.passing filters world.setting) effect.remarks, effect.unread⟩ :=
  run_comes comes world.setting world.line

theorem comes_unread (asked : reader arguments = .ok ⟨orShortcut, some path⟩) (missing : world.files path = none) :
    Comes reader arguments world
      ⟨.ioError, [], [.entry (Program.starting ⟨orShortcut⟩), .diagnostic (Program.unreadable path)], world.input⟩ := by
  rw [Comes, asked]
  exact acts_start (acts_script_unread missing world.input)

theorem comes_error (asked : reader arguments = .ok ⟨orShortcut, some path⟩) (held : world.files path = some source)
    (fails : (scanned ⟨orShortcut⟩ source).result = .error error) : Comes reader arguments world
      ⟨.dataError, [], .entry (Program.starting ⟨orShortcut⟩) :: said source (scanned ⟨orShortcut⟩ source), world.input⟩ := by
  rw [Comes, asked]
  exact acts_start (acts_script held (acts_answer_error world world.input fails))

theorem comes_ok (asked : reader arguments = .ok ⟨orShortcut, some path⟩) (held : world.files path = some source)
    (scans : (scanned ⟨orShortcut⟩ source).result = .ok found) (able : world.blocked = none ∨ found = []) :
    Comes reader arguments world
      ⟨.success, printed (found.map (·.toToken)),
        .entry (Program.starting ⟨orShortcut⟩) :: said source (scanned ⟨orShortcut⟩ source), world.input⟩ := by
  rw [Comes, asked]
  exact acts_start (acts_script held (acts_answer_ok scans able world.input))

theorem comes_blocked (asked : reader arguments = .ok ⟨orShortcut, some path⟩) (held : world.files path = some source)
    (scans : (scanned ⟨orShortcut⟩ source).result = .ok found) (blocked : world.blocked = some reason)
    (nonempty : found ≠ []) : Comes reader arguments world
      ⟨.ioError, [], .entry (Program.starting ⟨orShortcut⟩) ::
        (said source (scanned ⟨orShortcut⟩ source) ++ [.entry (Program.ioFailure reason)]), world.input⟩ := by
  rw [Comes, asked]
  exact acts_start_failed (acts_script_blocked held (acts_answer_blocked scans blocked world.input nonempty))

theorem comes_session_blocked (asked : reader arguments = .ok ⟨orShortcut, none⟩) (blocked : world.blocked = some reason) :
    Comes reader arguments world
      ⟨.ioError, [], [.entry (Program.starting ⟨orShortcut⟩), .entry (Program.ioFailure reason)], world.input⟩ := by
  rw [Comes, asked]
  have working : Acts world world.input (Program.work (m := Run) ⟨orShortcut⟩ none).run _ :=
    acts_fail (acts_session_blocked blocked world.input)
  exact acts_start_failed working

theorem comes_refused (refused : reader arguments = .error ⟨true, text⟩) :
    Comes reader arguments world ⟨.usage, [], [.diagnostic text], world.input⟩ := by
  rw [Comes, refused]
  exact acts_explain_error world world.input text

theorem comes_help (asked : reader arguments = .error ⟨false, text⟩) :
    Comes reader arguments world ⟨.success, if world.blocked.isNone then text else [], [], world.input⟩ := by
  rw [Comes, asked]
  exact acts_explain_help world world.input text

end

/-! ### A log that is not set -/

/-- What the program relies on in the setting that it falls back on. -/
def WarnsByDefault (filters : FilterReader) : Prop :=
  ∀ entry, filters.lenient "warn".toList entry = true ↔ entry.level.verbosity ≤ Level.warn.verbosity

/-- Remarks whose entries are all made in passing. -/
def Quiet (remarks : List Remark) : Prop := ∀ entry, .entry entry ∈ remarks → entry.level = .debug

section
variable {filters : FilterReader} {entry : Entry} {scan : Scan} {remarks : List Remark}

/-- Without a setting only what goes wrong is shown. -/
theorem debug_silent (warns : WarnsByDefault filters) (debug : entry.level = .debug) :
    Program.passing filters none entry = false := by
  have fallback : Program.passing filters none entry = filters.lenient "warn".toList entry := rfl
  rw [fallback, Bool.eq_false_iff]
  intro shown
  have severe := (warns entry).mp shown
  rw [debug] at severe
  exact absurd severe (by decide)

private theorem closing_debug (scan : Scan) : scan.closing.entry.level = .debug := by
  unfold Scan.closing
  cases scan.error <;> rfl

private theorem entries_debug (member : entry ∈ entries source scan) : entry.level = .debug := by
  rcases List.mem_append.mp member with replaced | scanning
  · split at replaced
    · rw [List.mem_singleton.mp replaced]
      rfl
    · cases replaced
  · simp only [List.mem_cons, List.not_mem_nil, or_false] at scanning
    rcases scanning with rfl | rfl
    · rfl
    · exact closing_debug scan

/-- Of a source all is said in passing but the report of its error. -/
theorem quiet_said (source : Bytes) (scan : Scan) : Quiet (said source scan) := by
  intro entry member
  unfold said at member
  split at member
  · simp only [List.mem_map, Remark.entry.injEq, exists_eq_right] at member
    exact entries_debug member
  · simp only [List.mem_append, List.mem_map, Remark.entry.injEq, exists_eq_right, List.mem_singleton,
      reduceCtorEq, or_false] at member
    exact entries_debug member

theorem quiet_starting (config : Config) (quiet : Quiet remarks) : Quiet (.entry (Program.starting config) :: remarks) := by
  intro entry member
  rcases List.mem_cons.mp member with starts | later
  · rw [Remark.entry.inj starts]
    rfl
  · exact quiet entry later

theorem heard_quiet (warns : WarnsByDefault filters) (quiet : Quiet remarks) (line : Nat → Entry → Text) :
    heard line (Program.passing filters none) remarks = remarks.filterMap diagnostic? :=
  heard_silent (fun entry member => debug_silent warns (quiet entry member)) line

theorem diagnostics_entries (told : List Entry) : (told.map Remark.entry).filterMap diagnostic? = [] := by
  simp [List.filterMap_map, Function.comp_def, diagnostic?]

/-- A run that says nothing but in passing is seen by its diagnostics only. -/
theorem run_quiet {reader : ArgumentReader} {arguments : List Text} {effect : Effect Exit} (warns : WarnsByDefault filters)
    (comes : Comes reader arguments world effect) (unset : world.setting = none) (quiet : Quiet effect.remarks) :
    Program.run reader filters arguments world =
      ⟨effect.result, effect.output, effect.remarks.filterMap diagnostic?, effect.unread⟩ := by
  rw [run_here comes, unset, heard_quiet warns quiet]

end
end LoxLexer.Runs

import LoxLexer.Proofs.Logging

/-!
How a run ends, where its log is not set. Each stage of a run for a script has an effect of its own, and
what it says in passing is not heard (`run_quiet`), but that standard output fails is (`run_failed`). So the
first stage that fails decides (`script_exits`).
-/

namespace LoxLexer.Exits
open LoxLexer.Pieces LoxLexer.Effects LoxLexer.Runs LoxLexer.Logging

/-- What is seen of a run from outside: its exit code, standard output and what is on standard error. -/
def seen (outcome : Outcome) : Nat × Text × List Message := (outcome.exit.code, outcome.stdout, outcome.messages)

/-- The line of the log that tells of a failed output, where nothing else is on standard error. -/
def failure (world : World) (reason : Text) : Message :=
  .log (Program.ioFailure reason) (world.line 0 (Program.ioFailure reason))

/-- The run makes these entries of the log and no others, whatever is shown of them. -/
def Logs (reader : ArgumentReader) (arguments : List Text) (world : World) (entries : List Entry) : Prop :=
  ∀ filters setting line,
    logged (Program.run reader filters arguments { world with setting, line }) = entries.filter (Program.passing filters setting)

variable {filters : FilterReader} {reader : ArgumentReader} {arguments : List Text} {world : World}
  {orShortcut : Bool} {path reason : Text} {source : Bytes}

private theorem printed_eq_nil_iff (tokens : List Token) : printed tokens = [] ↔ tokens = [] := by
  cases tokens <;> simp [printed]

private theorem logs_comes {effect : Effect Exit} (comes : Comes reader arguments world effect) {entries : List Entry}
    (told : effect.remarks.filterMap entry? = entries) : Logs reader arguments world entries := by
  intro filters setting line
  rw [logged_comes comes, told]

/-! ### A failed output -/

/-- A failure is severe enough to be shown without a setting. -/
theorem failure_shown (warns : WarnsByDefault filters) (reason : Text) :
    Program.passing filters none (Program.ioFailure reason) = true := by
  have severe : Level.error.verbosity ≤ Level.warn.verbosity := by decide
  exact (warns (Program.ioFailure reason)).mpr severe

/-- Of a run that says nothing but in passing until its output fails, only that is seen. -/
theorem run_failed (warns : WarnsByDefault filters) {exit : Exit} {output : Text} {said : List Remark} {left : Bytes}
    (comes : Comes reader arguments world ⟨exit, output, said ++ [.entry (Program.ioFailure reason)], left⟩)
    (unset : world.setting = none) (quiet : Quiet said) (nothing : said.filterMap diagnostic? = []) :
    Program.run reader filters arguments world = ⟨exit, output, [failure world reason], left⟩ := by
  have before : heard world.line (Program.passing filters none) said = [] := by
    rw [heard_quiet warns quiet, nothing]
  have last : heard world.line (Program.passing filters none) (said ++ [.entry (Program.ioFailure reason)]) =
      hear world.line (Program.passing filters none) (heard world.line (Program.passing filters none) said)
        (.entry (Program.ioFailure reason)) := by
    simp [heard]
  rw [run_here comes, unset, last, before]
  simp only [hear, failure_shown warns reason, if_true, List.nil_append]
  rfl

/-! ### What a run says in passing -/

/-- The remarks up to the end of a scan. -/
private def upTo (orShortcut : Bool) (source : Bytes) : List Remark :=
  .entry (Program.starting ⟨orShortcut⟩) :: said source (scanned ⟨orShortcut⟩ source)

private theorem upTo_quiet (orShortcut : Bool) (source : Bytes) : Quiet (upTo orShortcut source) :=
  quiet_starting ⟨orShortcut⟩ (quiet_said source _)

private theorem upTo_ok {found : List SourceToken} (scans : (scanned ⟨orShortcut⟩ source).result = .ok found) :
    (upTo orShortcut source).filterMap diagnostic? = [] := by
  rw [upTo, said_ok scans]
  exact diagnostics_entries (Program.starting ⟨orShortcut⟩ :: _)

private theorem upTo_error {error : ScanError} (fails : (scanned ⟨orShortcut⟩ source).result = .error error) :
    (upTo orShortcut source).filterMap diagnostic? = [.diagnostic (error.report ++ ['\n'])] := by
  have silent := diagnostics_entries (Program.starting ⟨orShortcut⟩ :: Runs.entries source (scanned ⟨orShortcut⟩ source))
  rw [upTo, said_error fails, ← List.cons_append, ← List.map_cons, List.filterMap_append, silent]
  rfl

/-! ### Stages -/

section
variable (warns : WarnsByDefault filters) (asked : reader arguments = .ok ⟨orShortcut, some path⟩)
  (unset : world.setting = none)
include warns asked unset

private theorem seen_unread (missing : world.files path = none) :
    seen (Program.run reader filters arguments world) = (74, [], [.diagnostic (Program.unreadable path)]) := by
  have quiet : Quiet [.diagnostic (Program.unreadable path)] := by simp [Quiet]
  rw [run_quiet warns (comes_unread asked missing) unset (quiet_starting _ quiet)]
  rfl

private theorem seen_error (held : world.files path = some source) {error : ScanError}
    (fails : (scanned ⟨orShortcut⟩ source).result = .error error) :
    seen (Program.run reader filters arguments world) = (65, [], [.diagnostic (error.report ++ ['\n'])]) := by
  rw [run_quiet warns (comes_error asked held fails) unset (upTo_quiet orShortcut source)]
  exact congrArg (fun messages => (65, [], messages)) (upTo_error fails)

private theorem seen_ok (held : world.files path = some source) {found : List SourceToken}
    (scans : (scanned ⟨orShortcut⟩ source).result = .ok found) (able : world.blocked = none ∨ found = []) :
    seen (Program.run reader filters arguments world) = (0, printed (found.map (·.toToken)), []) := by
  rw [run_quiet warns (comes_ok asked held scans able) unset (upTo_quiet orShortcut source)]
  exact congrArg (fun messages => (0, printed (found.map (·.toToken)), messages)) (upTo_ok scans)

private theorem seen_blocked (held : world.files path = some source) {found : List SourceToken}
    (scans : (scanned ⟨orShortcut⟩ source).result = .ok found) (blocked : world.blocked = some reason)
    (nonempty : found ≠ []) :
    seen (Program.run reader filters arguments world) = (74, [], [failure world reason]) := by
  have quiet := upTo_quiet orShortcut source
  rw [run_failed warns (comes_blocked asked held scans blocked nonempty) unset quiet (upTo_ok scans)]
  rfl

end

/-- Where nothing can be written, a session ends before it reads. -/
theorem run_session_blocked (warns : WarnsByDefault filters) (asked : reader arguments = .ok ⟨orShortcut, none⟩)
    (unset : world.setting = none) (blocked : world.blocked = some reason) :
    Program.run reader filters arguments world = ⟨.ioError, [], [failure world reason], world.input⟩ := by
  have comes : Comes reader arguments world
      ⟨.ioError, [], [.entry (Program.starting ⟨orShortcut⟩)] ++ [.entry (Program.ioFailure reason)], world.input⟩ :=
    comes_session_blocked asked blocked
  have nothing : Quiet [] := nofun
  exact run_failed warns comes unset (quiet_starting _ nothing) rfl

/-- What is seen of a run that is asked for, by the first stage that fails. -/
structure Ends (request : Request) (world : World) (outcome : Outcome) (logs : List Entry → Prop) : Prop where
  /-- A script that cannot be read is not scanned. -/
  unread : ∀ path, request.script = some path → world.files path = none →
    seen outcome = (74, [], [.diagnostic ("Could not read file \"".toList ++ path ++ "\".\n".toList)]) ∧
      logs [Program.starting ⟨request.orShortcut⟩]
  /-- Whether standard output can be written or not, the report is all that is seen. -/
  error : ∀ path source error, request.script = some path → world.files path = some source →
    (Scan.ofText ⟨request.orShortcut⟩ (Utf8.decode source)).result = .error error →
    seen outcome = (65, [], [.diagnostic (error.report ++ ['\n'])])
  /-- An output that fails is noticed if there is a token to write. -/
  blocked : ∀ path source found reason, request.script = some path → world.files path = some source →
    (Scan.ofText ⟨request.orShortcut⟩ (Utf8.decode source)).result = .ok found →
    world.blocked = some reason → found ≠ [] → seen outcome = (74, [], [failure world reason])
  /-- Otherwise the tokens are printed and nothing is said. -/
  ok : ∀ path source found, request.script = some path → world.files path = some source →
    (Scan.ofText ⟨request.orShortcut⟩ (Utf8.decode source)).result = .ok found →
    world.blocked = none ∨ found = [] →
    seen outcome = (0, printed (found.map (·.toToken)), []) ∧ (outcome.stdout = [] ↔ found = [])
  /-- Where nothing can be written, a session reads nothing and scans nothing. -/
  session : ∀ reason, request.script = none → world.blocked = some reason →
    seen outcome = (74, [], [failure world reason]) ∧ outcome.unread = world.input ∧
      logs [Program.starting ⟨request.orShortcut⟩, Program.ioFailure reason]

/-- A run for a script ends at the first stage that fails, and only the last stage writes to standard output. -/
theorem script_exits (warns : WarnsByDefault filters) {request : Request} (asked : reader arguments = .ok request)
    (world : World) (unset : world.setting = none) :
    Ends request world (Program.run reader filters arguments world) (Logs reader arguments world) := by
  obtain ⟨orShortcut, script⟩ := request
  constructor
  · rintro path rfl missing
    exact ⟨seen_unread warns asked unset missing, logs_comes (comes_unread asked missing) rfl⟩
  · rintro path source error rfl held fails
    exact seen_error warns asked unset held fails
  · rintro path source found reason rfl held scans blocked nonempty
    exact seen_blocked warns asked unset held scans blocked nonempty
  · rintro path source found rfl held scans able
    have whole := seen_ok warns asked unset held scans able
    obtain ⟨-, stdout, -⟩ := Prod.mk.inj whole |>.imp_right Prod.mk.inj
    refine ⟨whole, ?_⟩
    rw [stdout, printed_eq_nil_iff, List.map_eq_nil_iff]
  · rintro reason rfl blocked
    rw [run_session_blocked warns asked unset blocked]
    exact ⟨rfl, rfl, logs_comes (comes_session_blocked asked blocked) rfl⟩

/-- With no room on standard output and with room: a script with an open string behind a token, one with a token, one
    with a comment, none, and a session. -/
theorem script_exits_full :
    let broken := "/a/broken".toList
    let token := "/a/token".toList
    let comment := "../comment".toList
    let files : Text → Option Bytes := fun path =>
      if path = broken then some [0x78, 0x22] else if path = token then some [0x78]
      else if path = comment then some [0x2F, 0x2F] else none
    let reason := "No space left on device (os error 28)".toList
    let full : World := { files, input := [0x78, 0x0A], blocked := some reason }
    let roomy : World := { full with blocked := none }
    let run := fun arguments world => seen (Program.run argumentReader filterReader arguments world)
    let failed := "ERROR i/o failure: No space left on device (os error 28)\n".toList
    (argumentReader [broken] = .ok ⟨false, some broken⟩ ∧
      run [broken] full = (65, [], [.diagnostic "[line 1] Error: Unterminated string.\n".toList])) ∧
    (argumentReader [token] = .ok ⟨false, some token⟩ ∧ run [token] full = (74, [], [failure full reason]) ∧
      (failure full reason).text = failed ∧ run [token] roomy = (0, "1 IDENTIFIER x null\n".toList, [])) ∧
    run [comment] full = (0, [], []) ∧
    run ["-".toList] full = (74, [], [.diagnostic "Could not read file \"-\".\n".toList]) ∧
    (argumentReader [] = .ok ⟨false, none⟩ ∧ run [] full = (74, [], [failure full reason])) := by
  intro broken token comment files reason full roomy run failed
  let x : SourceToken := ⟨⟨.identifier, ['x'], none, 1⟩, 0⟩
  have warns := Settings.filterReader_documented.warns
  have accepts (path : Text) (named : path ∈ [broken, token, comment, "-".toList]) :
      argumentReader [path] = .ok ⟨false, some path⟩ := by
    revert path
    decide +kernel
  have isOpen : (Scan.ofText {} (Utf8.decode [0x78, 0x22])).result = .error (.unterminatedString 1) :=
    result_eq_error_iff.mpr (by decide +kernel)
  have scans : (Scan.ofText {} (Utf8.decode [0x78])).result = .ok [x] :=
    result_eq_ok_iff.mpr ⟨by decide +kernel, by decide +kernel⟩
  have nothing : (Scan.ofText {} (Utf8.decode [0x2F, 0x2F])).result = .ok [] :=
    result_eq_ok_iff.mpr ⟨by decide +kernel, by decide +kernel⟩
  have session : argumentReader [] = .ok ⟨false, none⟩ := by decide +kernel
  have brokenHeld : files broken = some [0x78, 0x22] := by decide +kernel
  have tokenHeld : files token = some [0x78] := by decide +kernel
  have commentHeld : files comment = some [0x2F, 0x2F] := by decide +kernel
  have missing : files "-".toList = none := by decide +kernel
  have reported := (script_exits warns (accepts broken (by simp)) full rfl).error _ _ _ rfl brokenHeld isOpen
  have stopped := (script_exits warns (accepts token (by simp)) full rfl).blocked _ _ _ _ rfl tokenHeld scans rfl (by simp)
  obtain ⟨printed, -⟩ := (script_exits warns (accepts token (by simp)) roomy rfl).ok _ _ _ rfl tokenHeld scans (.inl rfl)
  obtain ⟨empty, -⟩ := (script_exits warns (accepts comment (by simp)) full rfl).ok _ _ _ rfl commentHeld nothing (.inr rfl)
  obtain ⟨unread, -⟩ := (script_exits warns (accepts "-".toList (by simp)) full rfl).unread _ rfl missing
  obtain ⟨quit, -⟩ := (script_exits warns session full rfl).session _ rfl rfl
  refine ⟨⟨accepts broken (by simp), reported.trans ?_⟩, ⟨accepts token (by simp), stopped, ?_, printed.trans ?_⟩,
    empty, unread.trans ?_, session, quit⟩
  all_goals decide +kernel

end LoxLexer.Exits

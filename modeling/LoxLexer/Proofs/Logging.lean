import Mathlib.Data.List.Basic
import LoxLexer.Proofs.Session

/-!
The log only speaks. All that a run says is fixed before a setting chooses from it (`comes_any`), and what is
heard are the remarks that pass, in their order (`heard_remarks`), each entry as the world shows it at its place
(`heard_lines`). What else is seen of the run has nothing to do with the setting (`log_chooses`).
-/

namespace LoxLexer.Logging
open LoxLexer.Effects LoxLexer.Runs LoxLexer.Settings

/-- The remark that is heard in a message. -/
def remark : Message → Remark
  | .diagnostic text => .diagnostic text
  | .log entry _ => .entry entry

/-- The entry of the log in a remark. -/
def entry? : Remark → Option Entry
  | .diagnostic _ => none
  | .entry entry => some entry

/-- Diagnostics are always heard. -/
def audible (passes : Entry → Bool) : Remark → Bool
  | .diagnostic _ => true
  | .entry entry => passes entry

/-- The text of a message that is no entry of the log. -/
def plain : Message → Text
  | .diagnostic text => text
  | .log _ _ => []

/-- What is heard on standard error, entries and diagnostics in their order. -/
def remarks (outcome : Outcome) : List Remark := outcome.messages.map remark

/-- The entries of the log on standard error. -/
def logged (outcome : Outcome) : List Entry := (remarks outcome).filterMap entry?

/-- Standard error without the lines of the log. -/
def withoutLog (outcome : Outcome) : Text := outcome.messages.flatMap plain

/-- What the setting of the log, and the way in which its entries are shown, have to do with a run. The run
    says the same remarks in any case. -/
structure Chosen (filters : FilterReader) (outcome : Option Text → (Nat → Entry → Text) → Outcome)
    (said : List Remark) : Prop where
  exit : ∀ setting line other otherLine, (outcome setting line).exit = (outcome other otherLine).exit
  stdout : ∀ setting line other otherLine, (outcome setting line).stdout = (outcome other otherLine).stdout
  unread : ∀ setting line other otherLine, (outcome setting line).unread = (outcome other otherLine).unread
  withoutLog : ∀ setting line other otherLine,
    withoutLog (outcome setting line) = withoutLog (outcome other otherLine)
  /-- The remarks are heard in their order, those that pass. -/
  heard : ∀ setting line,
    remarks (outcome setting line) = said.filter (audible (Program.passing filters setting))
  lines : ∀ setting line (i : Nat) entry text,
    (outcome setting line).messages[i]? = some (.log entry text) → text = line i entry
  /-- Without a setting that makes sense, warnings and errors are shown. -/
  fallback : ∀ setting line, setting.bind filters.strict = none →
    logged (outcome setting line) =
      (said.filterMap entry?).filter (fun entry => entry.level.verbosity ≤ Level.warn.verbosity)
  level : ∀ word verbosity line, Spelled word verbosity →
    logged (outcome (some word) line) =
      (said.filterMap entry?).filter (fun entry => entry.level.verbosity ≤ verbosity)
  target : ∀ target word verbosity line, Unbroken target → Spelled word verbosity →
    (filters.strict (target ++ '=' :: word)).isSome →
    logged (outcome (some (target ++ '=' :: word)) line) =
      (said.filterMap entry?).filter (fun entry => target <+: entry.target ∧ entry.level.verbosity ≤ verbosity)
  /-- A less talkative level leaves out of what a more talkative one shows, and adds nothing to it. -/
  nested : ∀ quiet loud low high line otherLine, Spelled quiet low → Spelled loud high → low ≤ high →
    (remarks (outcome (some quiet) line)).Sublist (remarks (outcome (some loud) otherLine))

variable {passes : Entry → Bool}

/-! ### What is heard -/

theorem heard_remarks (line : Nat → Entry → Text) (passes : Entry → Bool) (said : List Remark) :
    (heard line passes said).map remark = said.filter (audible passes) := by
  have behind : ∀ messages, (said.foldl (hear line passes) messages).map remark =
      messages.map remark ++ said.filter (audible passes) := by
    induction said with
    | nil => simp
    | cons first said ih =>
      intro messages
      rw [List.foldl_cons, ih, List.filter_cons]
      cases first with
      | diagnostic text => simp [hear, audible, remark]
      | entry entry => cases shown : passes entry <;> simp [hear, audible, remark, shown]
  exact behind []

/-- Each entry is shown as it is at its place. -/
def Shown (line : Nat → Entry → Text) (messages : List Message) : Prop :=
  ∀ (i : Nat) entry text, messages[i]? = some (.log entry text) → text = line i entry

private theorem shown_concat {line : Nat → Entry → Text} {messages : List Message} (shown : Shown line messages)
    {message : Message} (last : ∀ entry text, message = .log entry text → text = line messages.length entry) :
    Shown line (messages ++ [message]) := by
  intro i entry text here
  rcases Nat.lt_or_ge i messages.length with before | behind
  · rw [List.getElem?_append_left before] at here
    exact shown i entry text here
  · rw [List.getElem?_append_right behind, List.getElem?_singleton] at here
    split at here
    · obtain rfl : i = messages.length := by omega
      exact last entry text (Option.some.inj here)
    · cases here

theorem heard_lines (line : Nat → Entry → Text) (passes : Entry → Bool) (said : List Remark) :
    Shown line (heard line passes said) := by
  have behind : ∀ messages, Shown line messages → Shown line (said.foldl (hear line passes) messages) := by
    induction said with
    | nil => exact fun _ shown => shown
    | cons first said ih =>
      intro messages shown
      refine ih _ ?_
      cases first with
      | diagnostic text =>
        refine shown_concat shown fun entry line same => ?_
        cases same
      | entry entry =>
        by_cases passing : passes entry = true
        · simp only [hear, if_pos passing]
          refine shown_concat shown fun other text same => ?_
          obtain ⟨rfl, rfl⟩ := Message.log.inj same
          rfl
        · simpa only [hear, if_neg passing] using shown
  exact behind [] fun i entry text here => by cases here

/-- A filter that passes more lets more be heard. -/
theorem audible_sublist {more : Entry → Bool} (wider : ∀ entry, passes entry = true → more entry = true)
    (said : List Remark) : (said.filter (audible passes)).Sublist (said.filter (audible more)) := by
  refine List.monotone_filter_right said fun first heard => ?_
  cases first with
  | diagnostic => rfl
  | entry entry => exact wider entry heard

private theorem audible_logged (passes : Entry → Bool) (said : List Remark) :
    (said.filter (audible passes)).filterMap entry? = (said.filterMap entry?).filter passes := by
  induction said with
  | nil => rfl
  | cons first said ih =>
    cases first with
    | diagnostic text =>
      have passes : audible passes (.diagnostic text) = true := rfl
      rw [List.filter_cons_of_pos passes]
      exact ih
    | entry entry => cases shown : passes entry <;> simp [audible, entry?, shown, ih]

private theorem withoutLog_remarks (outcome : Outcome) :
    withoutLog outcome = ((remarks outcome).filterMap diagnostic?).flatMap Message.text := by
  unfold withoutLog remarks
  induction outcome.messages with
  | nil => rfl
  | cons message messages ih =>
    rw [List.flatMap_cons, ih]
    cases message with
    | diagnostic text => simp [remark, diagnostic?, Message.text, plain]
    | log entry line => simp [remark, List.filterMap_cons, diagnostic?, plain]

/-- Diagnostics pass every filter. -/
theorem audible_diagnostics (passes : Entry → Bool) (said : List Remark) :
    (said.filter (audible passes)).filterMap diagnostic? = said.filterMap diagnostic? := by
  rw [List.filterMap_filter]
  congr 1
  funext remark
  cases remark with
  | diagnostic => rfl
  | entry entry => cases shown : passes entry <;> simp [audible, diagnostic?, shown]

/-! ### All that a run says -/

section
variable {reader : ArgumentReader} {arguments : List Text}

/-- A run that is asked for makes its first entry before all else. -/
theorem comes_request {request : Request} (asked : reader arguments = .ok request) (world : World) :
    ∃ exit output later left, Comes reader arguments world
      ⟨exit, output, .entry (Program.starting ⟨request.orShortcut⟩) :: later, left⟩ := by
  obtain ⟨orShortcut, _ | path⟩ := request
  · cases device : world.blocked with
    | some reason => exact ⟨_, _, _, _, comes_session_blocked asked device⟩
    | none => exact ⟨_, _, _, _, Session.comes_session asked device (Session.inLines_lines world.input)⟩
  cases content : world.files path with
  | none => exact ⟨_, _, _, _, comes_unread asked content⟩
  | some source =>
    cases ended : (scanned ⟨orShortcut⟩ source).result with
    | error error => exact ⟨_, _, _, _, comes_error asked content ended⟩
    | ok found =>
      by_cases nothing : found = []
      · exact ⟨_, _, _, _, comes_ok asked content ended (.inr nothing)⟩
      cases device : world.blocked with
      | none => exact ⟨_, _, _, _, comes_ok asked content ended (.inl device)⟩
      | some reason => exact ⟨_, _, _, _, comes_blocked asked content ended device nothing⟩

/-- Help and refusals make no entry. -/
theorem comes_notice {notice : Notice} (told : reader arguments = .error notice) (world : World) :
    ∃ effect, Comes reader arguments world effect ∧ effect.remarks.filterMap entry? = [] := by
  obtain ⟨_ | _, text⟩ := notice
  · exact ⟨_, comes_help told, rfl⟩
  · exact ⟨_, comes_refused told, rfl⟩

theorem comes_any (reader : ArgumentReader) (arguments : List Text) (world : World) :
    ∃ effect, Comes reader arguments world effect ∧
      (∀ request, reader arguments = .ok request →
        (effect.remarks.filterMap entry?).head? = some (Program.starting ⟨request.orShortcut⟩)) ∧
      ∀ notice, reader arguments = .error notice → effect.remarks.filterMap entry? = [] := by
  cases verdict : reader arguments with
  | ok request =>
    obtain ⟨exit, output, later, left, comes⟩ := comes_request verdict world
    refine ⟨_, comes, fun other same => ?_, nofun⟩
    obtain rfl := Except.ok.inj same
    rfl
  | error notice =>
    obtain ⟨effect, comes, silent⟩ := comes_notice verdict world
    exact ⟨effect, comes, nofun, fun _ _ => silent⟩

variable {world : World} {effect : Effect Exit} (comes : Comes reader arguments world effect) (filters : FilterReader)
  (setting : Option Text) (line : Nat → Entry → Text)
include comes

private theorem remarks_comes : remarks (Program.run reader filters arguments { world with setting, line }) =
    effect.remarks.filter (audible (Program.passing filters setting)) := by
  rw [run_comes comes]
  exact heard_remarks line _ _

theorem logged_comes : logged (Program.run reader filters arguments { world with setting, line }) =
    (effect.remarks.filterMap entry?).filter (Program.passing filters setting) := by
  rw [logged, remarks_comes comes, audible_logged]

private theorem withoutLog_comes : withoutLog (Program.run reader filters arguments { world with setting, line }) =
    (effect.remarks.filterMap diagnostic?).flatMap Message.text := by
  rw [withoutLog_remarks, remarks_comes comes, audible_diagnostics]

end

/-! ### What a setting lets pass -/

section
variable {filters : FilterReader} (documented : Documented filters) {word target : Text} {verbosity : Nat}
include documented

private theorem passing_fallback {setting : Option Text} (senseless : setting.bind filters.strict = none) :
    Program.passing filters setting = fun entry => decide (entry.level.verbosity ≤ Level.warn.verbosity) := by
  funext entry
  rw [Program.passing, senseless, Option.getD_none, Bool.eq_iff_iff, decide_eq_true_iff]
  exact documented.warns entry

private theorem passing_level (spelled : Spelled word verbosity) :
    Program.passing filters (some word) = fun entry => decide (entry.level.verbosity ≤ verbosity) := by
  obtain ⟨passes, reads, meaning⟩ := documented.level spelled
  funext entry
  rw [Program.passing, Option.bind_some, reads, Option.getD_some, Bool.eq_iff_iff, decide_eq_true_iff]
  exact meaning entry

private theorem passing_target (unbroken : Unbroken target) (spelled : Spelled word verbosity)
    (reads : (filters.strict (target ++ '=' :: word)).isSome) :
    Program.passing filters (some (target ++ '=' :: word)) =
      fun entry => decide (target <+: entry.target ∧ entry.level.verbosity ≤ verbosity) := by
  obtain ⟨passes, read⟩ := Option.isSome_iff_exists.mp reads
  funext entry
  rw [Program.passing, Option.bind_some, read, Option.getD_some, Bool.eq_iff_iff, decide_eq_true_iff]
  exact documented.target unbroken spelled passes read entry

end

/-- Two settings of the log, and two ways to show it, give the same exit, the same standard output, and the same
    standard error but for the lines of the log. What a run says is fixed, and of its entries those are shown that
    pass, among all of its diagnostics. A level passes the entries of at most its verbosity, a level for a target
    those of them whose target begins with it, and where nothing sensible is set, warnings and errors pass. A
    usage error or help makes no entry. -/
theorem log_chooses {filters : FilterReader} (documented : Documented filters) (reader : ArgumentReader)
    (arguments : List Text) (world : World) :
    ∃ said, Chosen filters (fun setting line => Program.run reader filters arguments { world with setting, line }) said ∧
      (∀ request, reader arguments = .ok request →
        (said.filterMap entry?).head? = some (Program.starting ⟨request.orShortcut⟩)) ∧
      ∀ notice, reader arguments = .error notice → said.filterMap entry? = [] := by
  obtain ⟨effect, comes, starts, silent⟩ := comes_any reader arguments world
  have ran (setting : Option Text) (line : Nat → Entry → Text) :
      Program.run reader filters arguments { world with setting, line } = _ := run_comes comes setting line
  refine ⟨effect.remarks, ?_, starts, silent⟩
  constructor
  · intro setting line other otherLine
    rw [ran, ran]
  · intro setting line other otherLine
    rw [ran, ran]
  · intro setting line other otherLine
    rw [ran, ran]
  · intro setting line other otherLine
    rw [withoutLog_comes comes, withoutLog_comes comes]
  · exact remarks_comes comes filters
  · intro setting line
    rw [ran]
    exact heard_lines line _ _
  · intro setting line senseless
    rw [logged_comes comes, passing_fallback documented senseless]
  · intro word verbosity line spelled
    rw [logged_comes comes, passing_level documented spelled]
  · intro target word verbosity line unbroken spelled reads
    rw [logged_comes comes, passing_target documented unbroken spelled reads]
  · intro quiet loud low high line otherLine isQuiet isLoud less
    rw [remarks_comes comes, remarks_comes comes, passing_level documented isQuiet, passing_level documented isLoud]
    refine audible_sublist (fun entry passes => ?_) effect.remarks
    exact decide_eq_true (Nat.le_trans (of_decide_eq_true passes) less)

/-- A session over a string left open and a byte that is no character: quiet, talkative, and with a setting that
    makes no sense, and an option that is refused. -/
theorem log_chooses_open_string :
    let world : World := { input := [0x22, 0xFF, 0x0A] }
    let session := fun setting => Program.run argumentReader filterReader [] { world with setting }
    let quiet := some "OfF".toList
    let own := some ("lox".toList ++ '=' :: "4".toList)
    let report := "[line 2] Error: Unterminated string.\n".toList
    (session own).exit = .success ∧ (session own).stdout = "> > \n".toList ∧ (session own).unread = [] ∧
      withoutLog (session own) = report ∧ withoutLog (session quiet) = report ∧
      (remarks (session quiet)).Sublist (remarks (session (some "warn".toList))) ∧
      (∃ said : List Entry, said.head? = some (Program.starting {}) ∧
        logged (session quiet) = said.filter (fun entry => entry.level.verbosity ≤ 0) ∧
        logged (session own) = said.filter (fun entry => "lox".toList <+: entry.target ∧ entry.level.verbosity ≤ 4) ∧
        logged (session (some "==".toList)) =
          said.filter (fun entry => entry.level.verbosity ≤ Level.warn.verbosity)) ∧
      (∀ (i : Nat) entry text, (session own).messages[i]? = some (.log entry text) → text = entry.line) ∧
      logged (Program.run argumentReader filterReader ["-x".toList] { world with setting := own }) = [] := by
  intro world session quiet own report
  have spelled : Spelled "OfF".toList 0 := .off (by decide +kernel)
  have warn : Spelled "warn".toList 2 := .level .warn (by decide +kernel)
  have digit : Text.ofNat 4 = "4".toList := by decide +kernel
  have four : Spelled "4".toList 4 := digit ▸ .number (by decide)
  have unbroken : Unbroken "lox".toList := by simp [Unbroken, Text.isBlank]
  have reads : (filterReader.strict ("lox".toList ++ '=' :: "4".toList)).isSome := by decide +kernel
  have senseless : (some "==".toList).bind filterReader.strict = none := by
    refine Option.isNone_iff_eq_none.mp ?_
    decide +kernel
  have asked : argumentReader [] = .ok ⟨false, none⟩ := by decide +kernel
  have refused : argumentReader ["-x".toList] = .error ⟨true, "error: unexpected argument '-x' found".toList⟩ := by
    decide +kernel
  have comes := Session.comes_session asked (rfl : world.blocked = none) (Session.inLines_lines world.input)
  have ran : session own = _ := run_comes comes own world.line
  have documented := filterReader_documented
  obtain ⟨said, chosen, starts, -⟩ := log_chooses documented argumentReader [] world
  obtain ⟨nothing, refusal, -, silent⟩ := log_chooses documented argumentReader ["-x".toList] world
  have told : withoutLog (session own) = report := (withoutLog_comes comes filterReader own world.line).trans (by decide +kernel)
  refine ⟨congrArg Outcome.exit ran, ?_, congrArg Outcome.unread ran, told, ?_, ?_, ⟨said.filterMap entry?, ?_, ?_, ?_, ?_⟩, ?_, ?_⟩
  · exact (congrArg Outcome.stdout ran).trans (by decide +kernel)
  · exact (chosen.withoutLog quiet world.line own world.line).trans told
  · exact chosen.nested _ _ 0 2 world.line world.line spelled warn (by decide)
  · exact starts _ asked
  · exact chosen.level _ 0 world.line spelled
  · exact chosen.target _ _ 4 world.line unbroken four reads
  · exact chosen.fallback _ world.line senseless
  · exact chosen.lines own world.line
  · have unsaid := refusal.target _ _ 4 world.line unbroken four reads
    rw [silent _ refused] at unsaid
    exact unsaid

end LoxLexer.Logging

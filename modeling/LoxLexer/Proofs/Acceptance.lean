import Mathlib.Data.List.Induction
import LoxLexer.Filter
import LoxLexer.Proofs.Reading
import LoxLexer.Proofs.Runs

/-!
Which command lines are accepted. The rule counts arguments and says nothing of their order (`Accepted`); the
arguments are read from left to right all the same, and reading gets as far behind accepted ones as they ask for
(`reader_append`). So the first argument that is not accepted settles the matter (`reader_offence`), but for an
empty script, which the next argument can hide (`reader_empty`). The flag may stand at any place where it is read
(`accepted_flag`).
-/

namespace LoxLexer.Acceptance
open LoxLexer.Effects LoxLexer.Runs LoxLexer.Reading

/-- The arguments that may be options: those before the first `--`. -/
def options (arguments : List Text) : List Text := arguments.takeWhile (· ≠ dashes)

/-- The arguments behind the first `--`. -/
def literal (arguments : List Text) : List Text := (arguments.dropWhile (· ≠ dashes)).drop 1

/-- The arguments that are no option. -/
def remaining (arguments : List Text) : List Text := (options arguments).filter (· ≠ flag) ++ literal arguments

/-- No option but the flag, and that once at most, and no more than one other argument, which is not empty. -/
structure Accepted (arguments : List Text) : Prop where
  known : ∀ argument ∈ options arguments, argument.head? = some '-' → argument = ['-'] ∨ argument = flag
  once : (options arguments).count flag ≤ 1
  single : (remaining arguments).length ≤ 1
  named : [] ∉ remaining arguments

instance (arguments : List Text) : Decidable (Accepted arguments) :=
  decidable_of_iff (_ ∧ _ ∧ _ ∧ _) ⟨fun ⟨known, once, single, named⟩ => ⟨known, once, single, named⟩,
    fun accepted => ⟨accepted.known, accepted.once, accepted.single, accepted.named⟩⟩

/-- What accepted arguments ask for. -/
def requested (arguments : List Text) : Request := ⟨flag ∈ options arguments, (remaining arguments).head?⟩

/-- What is wrong with an argument that is not accepted behind others. -/
def offence (read : List Text) (argument : Text) : Offence :=
  if dashes ∉ read ∧ argument.head? = some '-' ∧ argument ≠ ['-'] then
    if argument = flag then .repeated else .unknown argument
  else .surplus argument

/-- What is reported of an empty script where no options are read, by what is behind it. -/
def reported : List Text → Offence
  | [] => .emptyScript
  | argument :: _ => .surplus argument

/-- What is reported of an empty script, by what is read before it and what is behind it: what is wrong with the
    next argument behind any script, but for a repeated flag. Options can end in between. -/
def hidden (read : List Text) : List Text → Offence
  | [] => .emptyScript
  | argument :: rest =>
    if dashes ∉ read ∧ argument = dashes then reported rest
    else if dashes ∉ read ∧ (argument = flag ∨ AsksHelp argument) then .emptyScript
    else offence read argument

/-- The arguments that are looked at behind an empty script: the next one, and one more if that is the first `--`. -/
def looked (read rest : List Text) : List Text :=
  if dashes ∉ read ∧ rest.head? = some dashes then rest.take 2 else rest.take 1

variable {read front back arguments : List Text} {argument : Text}

/-! ### Parts of a command line -/

private theorem options_plain (plain : dashes ∉ read) (more : List Text) : options (read ++ more) = read ++ options more := by
  refine List.takeWhile_append_of_pos fun argument member => ?_
  simpa using ne_of_mem_of_not_mem member plain

private theorem literal_plain (plain : dashes ∉ read) (more : List Text) : literal (read ++ more) = literal more := by
  refine congrArg (List.drop 1) (List.dropWhile_append_of_pos fun argument member => ?_)
  simpa using ne_of_mem_of_not_mem member plain

private theorem options_ended (ended : dashes ∈ read) (more : List Text) : options (read ++ more) = options read := by
  obtain ⟨front, back, rfl, plain⟩ := List.eq_append_cons_of_mem ended
  rw [List.append_assoc, options_plain plain, options_plain plain]
  simp [options]

private theorem literal_ended (ended : dashes ∈ read) (more : List Text) : literal (read ++ more) = literal read ++ more := by
  obtain ⟨front, back, rfl, plain⟩ := List.eq_append_cons_of_mem ended
  rw [List.append_assoc, literal_plain plain, literal_plain plain]
  simp [literal]

private theorem remaining_ended (ended : dashes ∈ read) (more : List Text) : remaining (read ++ more) = remaining read ++ more := by
  rw [remaining, options_ended ended, literal_ended ended, ← List.append_assoc]
  rfl

private theorem options_all (plain : dashes ∉ read) : options read = read := by
  simpa [options] using options_plain plain []

private theorem remaining_plain (plain : dashes ∉ read) (more : List Text) :
    remaining (read ++ more) = remaining read ++ remaining more := by
  have nothing : literal read = [] := by simpa [literal] using literal_plain plain []
  unfold remaining
  rw [options_plain plain, literal_plain plain, List.filter_append, options_all plain, nothing]
  simp

private theorem options_one (argument : Text) : options [argument] = if argument = dashes then [] else [argument] := by
  by_cases ends : argument = dashes <;> simp [options, ends]

private theorem remaining_one (argument : Text) :
    remaining [argument] = if argument = dashes ∨ argument = flag then [] else [argument] := by
  have nothing : literal [argument] = [] := by by_cases ends : argument = dashes <;> simp [literal, ends]
  rw [remaining, nothing, options_one]
  by_cases ends : argument = dashes
  · simp [ends]
  · by_cases isFlag : argument = flag <;> simp [ends, isFlag]

private theorem flag_ne_dashes : flag ≠ dashes := by decide +kernel

private theorem script_plain (dash : argument.head? = some '-' → argument = ['-']) : argument ≠ dashes ∧ argument ≠ flag := by
  constructor
  · rintro rfl
    cases dash rfl
  · rintro rfl
    exact absurd (dash (by decide +kernel)) (by decide +kernel)

private theorem options_ending (plain : dashes ∉ read) : options (read ++ [dashes]) = options read := by
  rw [options_plain plain, options_one, if_pos rfl, List.append_nil, options_all plain]

private theorem remaining_ending (plain : dashes ∉ read) : remaining (read ++ [dashes]) = remaining read := by
  rw [remaining_plain plain, remaining_one]
  simp

private theorem options_more (plain : dashes ∉ read) (other : argument ≠ dashes) :
    options (read ++ [argument]) = options read ++ [argument] := by
  rw [options_plain plain, options_one, if_neg other, options_all plain]

private theorem remaining_shortcut (plain : dashes ∉ read) : remaining (read ++ [flag]) = remaining read := by
  rw [remaining_plain plain, remaining_one]
  simp

/-- An argument remains if it is behind the first `--`, or if it is neither that nor the flag. -/
theorem remaining_script (plain : dashes ∉ read → argument ≠ dashes ∧ argument ≠ flag) :
    remaining (read ++ [argument]) = remaining read ++ [argument] := by
  by_cases ended : dashes ∈ read
  · exact remaining_ended ended [argument]
  · obtain ⟨noEnd, noFlag⟩ := plain ended
    rw [remaining_plain ended, remaining_one]
    simp [noEnd, noFlag]

/-- What may come next behind accepted arguments. -/
inductive Fits (read : List Text) : Text → Prop
  | ending : dashes ∉ read → Fits read dashes
  | shortcut : dashes ∉ read → flag ∉ options read → Fits read flag
  | script {argument : Text} : Positional (dashes ∈ read) argument → remaining read = [] → argument ≠ [] →
      Fits read argument

private theorem accepted_front {more : List Text} (accepted : Accepted (read ++ more)) : Accepted read := by
  have prefixes : options read <+: options (read ++ more) ∧ remaining read <+: remaining (read ++ more) := by
    by_cases ended : dashes ∈ read
    · rw [options_ended ended, remaining_ended ended]
      exact ⟨List.prefix_rfl, List.prefix_append ..⟩
    · rw [options_plain ended, remaining_plain ended, options_all ended]
      exact ⟨List.prefix_append .., List.prefix_append ..⟩
  obtain ⟨front, others⟩ := prefixes
  constructor
  · exact fun argument member => accepted.known argument (front.subset member)
  · exact Nat.le_trans (front.sublist.count_le flag) accepted.once
  · exact Nat.le_trans others.length_le accepted.single
  · exact fun member => accepted.named (others.subset member)

private theorem fits_of_accepted (accepted : Accepted (read ++ [argument])) : Fits read argument := by
  obtain ⟨known, once, single, named⟩ := accepted
  -- what holds of an argument that remains
  have script (plain : dashes ∉ read → argument ≠ dashes ∧ argument ≠ flag)
      (positional : Positional (dashes ∈ read) argument) : Fits read argument := by
    rw [remaining_script plain] at single named
    refine .script positional (by simpa using single) ?_
    rintro rfl
    simp at named
  by_cases ended : dashes ∈ read
  · exact script (absurd ended) (absurd ended)
  by_cases ends : argument = dashes
  · exact ends ▸ .ending ended
  rw [options_more ended ends] at known once
  by_cases isFlag : argument = flag
  · subst isFlag
    refine .shortcut ended fun before => ?_
    have counted := List.count_pos_iff.mpr before
    simp at once
    omega
  · refine script (fun _ => ⟨ends, isFlag⟩) fun _ dash => ?_
    exact (known argument (by simp) dash).resolve_right isFlag

private theorem accepted_of_fits (accepted : Accepted read) (fits : Fits read argument) : Accepted (read ++ [argument]) := by
  obtain ⟨known, once, single, named⟩ := accepted
  cases fits with
  | ending plain => constructor <;> simpa only [options_ending plain, remaining_ending plain]
  | shortcut plain first =>
    have more := options_more plain flag_ne_dashes
    constructor
    · rw [more]
      exact List.forall_mem_append.mpr ⟨known, by simp⟩
    · simp [more, List.count_eq_zero.mpr first]
    · rwa [remaining_shortcut plain]
    · rwa [remaining_shortcut plain]
  | script positional free nonempty =>
    have plain := fun plain => script_plain (positional plain)
    constructor
    · by_cases ended : dashes ∈ read
      · rwa [options_ended ended]
      · rw [options_more ended (plain ended).1]
        refine List.forall_mem_append.mpr ⟨known, ?_⟩
        simpa using fun isDash => .inl (positional ended isDash)
    · by_cases ended : dashes ∈ read
      · rwa [options_ended ended]
      · rw [options_more ended (plain ended).1]
        simpa [(plain ended).2] using once
    · simp [remaining_script plain, free]
    · simp [remaining_script plain, free, Ne.symm nonempty]

private theorem options_flag (plain : dashes ∉ front) (back : List Text) :
    options (front ++ flag :: back) = front ++ flag :: options back := by
  rw [options_plain plain]
  simp [options, flag_ne_dashes]

private theorem remaining_flag (plain : dashes ∉ front) (back : List Text) :
    remaining (front ++ flag :: back) = remaining (front ++ back) := by
  have noFlag : remaining (flag :: back) = remaining back := by
    simp [remaining, options, literal, flag_ne_dashes]
  rw [remaining_plain plain, remaining_plain plain, noFlag]

/-- The flag is accepted at any place where options are read, if it is the only one. -/
theorem accepted_flag (plain : dashes ∉ front) (back : List Text) :
    Accepted (front ++ flag :: back) ↔ Accepted (front ++ back) ∧ flag ∉ options (front ++ back) := by
  have more : options (front ++ flag :: back) = front ++ flag :: options back := options_flag plain back
  have others : options (front ++ back) = front ++ options back := options_plain plain back
  have counted : (options (front ++ flag :: back)).count flag = (options (front ++ back)).count flag + 1 := by
    simp [more, others]
    omega
  have same : remaining (front ++ flag :: back) = remaining (front ++ back) := remaining_flag plain back
  have within : ∀ argument ∈ options (front ++ back), argument ∈ options (front ++ flag :: back) := by
    intro argument member
    rw [others, List.mem_append] at member
    rw [more, List.mem_append, List.mem_cons]
    exact member.imp_right .inr
  constructor
  · rintro ⟨known, once, single, named⟩
    rw [counted] at once
    refine ⟨⟨fun argument member => known argument (within argument member), by omega, same ▸ single, same ▸ named⟩, ?_⟩
    exact List.count_eq_zero.mp (by omega)
  · rintro ⟨⟨known, once, single, named⟩, first⟩
    refine ⟨fun argument member dash => ?_, ?_, same ▸ single, same ▸ named⟩
    · by_cases isFlag : argument = flag
      · exact .inr isFlag
      · refine known argument ?_ dash
        simpa [more, others, isFlag] using member
    · have unflagged := List.count_eq_zero.mpr first
      omega

private theorem requested_flag (plain : dashes ∉ front) (back : List Text) :
    requested (front ++ flag :: back) = ⟨true, (remaining (front ++ back)).head?⟩ := by
  have more := options_flag plain back
  simp [requested, remaining_flag plain, more]

/-! ### Reading on -/

/-- How far the reading of accepted arguments gets. -/
def progress (read : List Text) : Progress := { requested read with ended := dashes ∈ read }

/-- How far it gets behind an empty script. -/
def pending (read : List Text) : Progress := { progress read with script := some [] }

private theorem progress_ending (plain : dashes ∉ read) : progress (read ++ [dashes]) = { progress read with ended := true } := by
  simp [progress, requested, options_ending plain, remaining_ending plain]

private theorem progress_shortcut (plain : dashes ∉ read) :
    progress (read ++ [flag]) = { progress read with orShortcut := true } := by
  simp [progress, requested, options_more plain flag_ne_dashes, remaining_shortcut plain, Ne.symm flag_ne_dashes]

private theorem progress_script (positional : Positional (dashes ∈ read) argument) (free : remaining read = []) :
    progress (read ++ [argument]) = { progress read with script := some argument } := by
  have plain := fun plain => script_plain (positional plain)
  have same : flag ∈ options (read ++ [argument]) ↔ flag ∈ options read := by
    by_cases ended : dashes ∈ read
    · rw [options_ended ended]
    · rw [options_more ended (plain ended).1]
      simp [Ne.symm (plain ended).2]
  have still : dashes ∈ read ++ [argument] ↔ dashes ∈ read := by
    by_cases ended : dashes ∈ read
    · simp [ended]
    · simp [ended, Ne.symm (plain ended).1]
  simp [progress, requested, remaining_script plain, free, same, still]

private theorem script_free (free : remaining read = []) : (progress read).script = none := by
  simp [progress, requested, free]

private theorem script_taken (taken : remaining read ≠ []) : (progress read).script ≠ none := by
  simpa [progress, requested] using taken

/-- No accepted script is empty. -/
theorem script_named (accepted : Accepted read) : (progress read).script ≠ some [] := by
  intro empty
  exact accepted.named (List.mem_of_head? empty)

private theorem ended_iff : (progress read).ended = true ↔ dashes ∈ read := by
  simp [progress]

private theorem plain_iff : (progress read).ended = false ↔ dashes ∉ read := by
  simp [progress]

/-- What an argument has to do with options, from here and by the arguments before. -/
theorem positional_progress (positional : Positional (dashes ∈ read) argument) :
    Positional (progress read).ended argument := by
  rwa [Positional, ended_iff]

section
variable {parser : ArgumentParser} {help : Text} {headline : Offence → Text}

/-- What comes of arguments from some progress on. -/
def onward (parser : ArgumentParser) (progress : Progress) (rest : List Text) : Except Notice Request := do
  parser.finish (← rest.foldlM parser.step progress)

private theorem onward_step {here next : Progress} (step : parser.step here argument = .ok next) (rest : List Text) :
    onward parser here (argument :: rest) = onward parser next rest := by
  rw [onward, List.foldlM_cons, step]
  rfl

/-- What settles the matter leaves the rest unread. -/
theorem onward_stop {here : Progress} {notice : Notice} (step : parser.step here argument = .error notice)
    (rest : List Text) : onward parser here (argument :: rest) = .error notice := by
  rw [onward, List.foldlM_cons, step]
  rfl

variable (declared : Declared parser help headline)
include declared

private theorem step_fits (accepted : Accepted read) (fits : Fits read argument) :
    parser.step (progress read) argument = .ok (progress (read ++ [argument])) := by
  cases fits with
  | ending plain => rw [declared.ending (plain_iff.mpr plain), progress_ending plain]
  | shortcut plain first =>
    have off : (progress read).orShortcut = false := by simpa [progress, requested] using first
    rw [declared.shortcut (plain_iff.mpr plain) (script_named accepted) off, progress_shortcut plain]
  | script positional free =>
    rw [declared.script (positional_progress positional) (script_free free), progress_script positional free]

/-- Behind accepted arguments reading goes on. -/
theorem reader_append (accepted : Accepted read) (rest : List Text) :
    parser.reader (read ++ rest) = onward parser (progress read) rest := by
  induction read using List.reverseRecOn generalizing rest with
  | nil => rfl
  | append_singleton read argument ih =>
    have before : Accepted read := accepted_front accepted
    rw [List.append_assoc, List.singleton_append, ih before, onward_step (step_fits declared before (fits_of_accepted accepted))]

private theorem reader_accepted (accepted : Accepted arguments) : parser.reader arguments = .ok (requested arguments) := by
  have whole := reader_append declared accepted []
  rw [List.append_nil] at whole
  exact whole.trans (declared.finish (script_named accepted))

/-! ### Arguments that are not accepted -/

private theorem reader_help (accepted : Accepted read) (plain : dashes ∉ read) (asks : AsksHelp argument) (more : List Text) :
    parser.reader (read ++ argument :: more) = .error ⟨false, help⟩ := by
  rw [reader_append declared accepted]
  exact onward_stop (declared.help (plain_iff.mpr plain) (script_named accepted) asks) more

/-- An argument that does not fit is refused, unless it is an empty script. -/
theorem step_offence (accepted : Accepted read) (offends : ¬ Fits read argument)
    (told : argument ≠ [] ∨ remaining read ≠ []) (noHelp : dashes ∉ read → ¬ AsksHelp argument) :
    Refuses (parser.step (progress read) argument) (headline (offence read argument)) := by
  by_cases option : dashes ∉ read ∧ argument.head? = some '-' ∧ argument ≠ ['-']
  · obtain ⟨plain, dash, noScript⟩ := option
    rw [offence, if_pos ⟨plain, dash, noScript⟩]
    by_cases isFlag : argument = flag
    · subst isFlag
      have again : (progress read).orShortcut = true := by
        by_contra first
        exact offends (.shortcut plain (by simpa [progress, requested] using first))
      rw [if_pos rfl]
      exact declared.repeated (plain_iff.mpr plain) (script_named accepted) again
    · have noEnd : argument ≠ dashes := by
        rintro rfl
        exact offends (.ending plain)
      rw [if_neg isFlag]
      exact declared.unknown (plain_iff.mpr plain) ⟨dash, noScript, noEnd, isFlag, noHelp plain⟩
  · have positional : Positional (dashes ∈ read) argument := by
      intro plain dash
      by_contra noScript
      exact option ⟨plain, dash, noScript⟩
    have taken : remaining read ≠ [] := by
      intro free
      exact offends (.script positional free (told.resolve_right (not_not.mpr free)))
    rw [offence, if_neg option]
    exact declared.surplus (positional_progress positional) (script_taken taken)

theorem reader_offence (accepted : Accepted read) (offends : ¬ Fits read argument)
    (told : argument ≠ [] ∨ remaining read ≠ []) (noHelp : dashes ∉ read → ¬ AsksHelp argument) :
    ∃ text, headline (offence read argument) <+: text ∧
      ∀ more, parser.reader (read ++ argument :: more) = .error ⟨true, text⟩ := by
  obtain ⟨text, refused, begins⟩ := step_offence declared accepted offends told noHelp
  refine ⟨text, begins, fun more => ?_⟩
  rw [reader_append declared accepted]
  exact onward_stop refused more

omit declared in
theorem head_of_looked {more rest : List Text} (alike : looked read more = looked read rest) : more.head? = rest.head? := by
  have first (rest : List Text) : (looked read rest).head? = rest.head? := by
    unfold looked
    split <;> exact List.head?_take
  rw [← first more, alike, first rest]

omit declared in
theorem looked_end (plain : dashes ∉ read) (rest : List Text) : looked read (dashes :: rest) = dashes :: rest.take 1 :=
  if_pos ⟨plain, rfl⟩

/-- An empty script is refused at the end, or the argument behind it where no options are read. -/
theorem onward_reported (here : Progress) (empty : here.script = some []) (ended : here.ended = true)
    (rest : List Text) : ∃ text, headline (reported rest) <+: text ∧
      ∀ more, more.take 1 = rest.take 1 → onward parser here more = .error ⟨true, text⟩ := by
  cases rest with
  | nil =>
    obtain ⟨text, refused, begins⟩ := declared.finish_empty empty
    refine ⟨text, begins, fun more alike => ?_⟩
    obtain rfl : more = [] := by simpa using alike
    exact refused
  | cons argument rest =>
    have positional : Positional here.ended argument := absurd ended
    have taken : here.script ≠ none := by simp [empty]
    obtain ⟨text, refused, begins⟩ := declared.surplus positional taken
    refine ⟨text, begins, fun more alike => ?_⟩
    cases more with
    | nil => cases alike
    | cons other more =>
      obtain ⟨rfl, -⟩ := List.cons.inj alike
      exact onward_stop refused more

/-- What is refused behind an empty script. -/
theorem step_pending (noEnd : ¬ (dashes ∉ read ∧ argument = dashes)) (rest : List Text) :
    Refuses (parser.step (pending read) argument) (headline (hidden read (argument :: rest))) := by
  rw [hidden, if_neg noEnd]
  by_cases option : dashes ∉ read ∧ (argument = flag ∨ AsksHelp argument)
  · rw [if_pos option]
    exact declared.empty (plain_iff.mpr option.1) rfl option.2
  rw [if_neg option, offence]
  by_cases unknown : dashes ∉ read ∧ argument.head? = some '-' ∧ argument ≠ ['-']
  · obtain ⟨plain, dash, noScript⟩ := unknown
    have noFlag : argument ≠ flag := fun isFlag => option ⟨plain, .inl isFlag⟩
    rw [if_pos ⟨plain, dash, noScript⟩, if_neg noFlag]
    exact declared.unknown (plain_iff.mpr plain)
      ⟨dash, noScript, fun ends => noEnd ⟨plain, ends⟩, noFlag, fun asks => option ⟨plain, .inr asks⟩⟩
  · have positional : Positional (dashes ∈ read) argument := by
      intro plain dash
      by_contra noScript
      exact unknown ⟨plain, dash, noScript⟩
    rw [if_neg unknown]
    exact declared.surplus (positional_progress positional) (Option.some_ne_none _)

theorem reader_empty (accepted : Accepted read) (free : remaining read = []) (rest : List Text) :
    ∃ text, headline (hidden read rest) <+: text ∧ ∀ more, looked read more = looked read rest →
      parser.reader (read ++ [] :: more) = .error ⟨true, text⟩ := by
  have taken : parser.step (progress read) [] = .ok (pending read) :=
    declared.script (positional_progress nofun) (script_free free)
  simp only [reader_append declared accepted, onward_step taken]
  cases rest with
  | nil =>
    obtain ⟨text, refused, begins⟩ := declared.finish_empty (rfl : (pending read).script = some [])
    refine ⟨text, begins, fun more alike => ?_⟩
    obtain rfl : more = [] := List.head?_eq_none_iff.mp (head_of_looked alike)
    exact refused
  | cons argument rest =>
    by_cases ends : dashes ∉ read ∧ argument = dashes
    · obtain ⟨plain, rfl⟩ := ends
      have ending : parser.step (pending read) dashes = .ok { pending read with ended := true } :=
        declared.ending (plain_iff.mpr plain)
      obtain ⟨text, begins, refused⟩ := onward_reported declared { pending read with ended := true } rfl rfl rest
      rw [hidden, if_pos ⟨plain, rfl⟩]
      refine ⟨text, begins, fun more alike => ?_⟩
      obtain ⟨more, rfl⟩ := List.head?_eq_some_iff.mp (head_of_looked alike)
      rw [looked_end plain, looked_end plain] at alike
      rw [onward_step ending]
      exact refused more (List.cons.inj alike).2
    · obtain ⟨text, refused, begins⟩ := step_pending declared ends rest
      refine ⟨text, begins, fun more alike => ?_⟩
      obtain ⟨more, rfl⟩ := List.head?_eq_some_iff.mp (head_of_looked alike)
      exact onward_stop refused more

end

private theorem first_offence (refused : ¬ Accepted arguments) : ∃ read argument unread,
    arguments = read ++ argument :: unread ∧ Accepted read ∧ ¬ Accepted (read ++ [argument]) := by
  induction arguments using List.reverseRecOn with
  | nil => exact absurd (by decide) refused
  | append_singleton arguments last ih =>
    by_cases accepted : Accepted arguments
    · exact ⟨arguments, last, [], rfl, accepted, refused⟩
    · obtain ⟨read, argument, unread, rfl, before, offends⟩ := ih accepted
      exact ⟨read, argument, unread ++ [last], by simp, before, offends⟩

/-! ### Whole command lines -/

section
variable {reader : ArgumentReader} {filters : FilterReader} {text : Text}

private theorem run_help (asked : reader arguments = .error ⟨false, text⟩) (world : World) :
    Program.run reader filters arguments world =
      ⟨.success, if world.blocked.isNone then text else [], [], world.input⟩ :=
  run_here (comes_help asked)

private theorem run_refused (refused : reader arguments = .error ⟨true, text⟩) (world : World) :
    Program.run reader filters arguments world = ⟨.usage, [], [.diagnostic text], world.input⟩ :=
  run_here (comes_refused refused)

end

private theorem not_fits_of_offends (accepted : Accepted read) (offends : ¬ Accepted (read ++ [argument])) :
    ¬ Fits read argument := fun fits => offends (accepted_of_fits accepted fits)

/-- What the program makes of arguments. They ask for a run if and only if no option but the flag is among them,
    and that once at most, and no more than one other argument, which is not empty. -/
structure Settled (parser : ArgumentParser) (help : Text) (headline : Offence → Text) (arguments : List Text) : Prop where
  runs : ∀ request, parser.reader arguments = .ok request ↔
    Accepted arguments ∧ request = ⟨flag ∈ options arguments, (remaining arguments).head?⟩
  starts : Accepted arguments → ∀ filters, (Program.main parser.reader filters arguments : Run Exit) = do
    Program.startLog filters
    Program.start ⟨flag ∈ options arguments, (remaining arguments).head?⟩
  /-- The flag can stand wherever options are read. -/
  moved : ∀ before after front back, arguments = before ++ flag :: after → dashes ∉ before → Accepted arguments →
    front ++ back = before ++ after → dashes ∉ front →
    Accepted (front ++ flag :: back) ∧ parser.reader (front ++ flag :: back) = parser.reader arguments
  /-- Where arguments are not accepted, one is the first with which they are not. -/
  first : ¬ Accepted arguments → ∃ read argument unread, arguments = read ++ argument :: unread ∧ Accepted read ∧
    ¬ Accepted (read ++ [argument])
  /-- If it asks for help where options are read, the help is shown, whatever stands behind it. -/
  helped : ∀ read argument unread, arguments = read ++ argument :: unread → Accepted read →
    dashes ∉ read → AsksHelp argument → ∀ more filters world,
      Program.run parser.reader filters (read ++ argument :: more) world =
        ⟨.success, if world.blocked.isNone then help else [], [], world.input⟩
  /-- If not, the run is refused with a message about it, whatever stands behind it. -/
  refused : ∀ read argument unread, arguments = read ++ argument :: unread → Accepted read →
    ¬ Accepted (read ++ [argument]) → (dashes ∉ read → ¬ AsksHelp argument) → argument ≠ [] ∨ remaining read ≠ [] →
    ∃ text, headline (offence read argument) <+: text ∧ ∀ more filters world,
      Program.run parser.reader filters (read ++ argument :: more) world =
        ⟨.usage, [], [.diagnostic text], world.input⟩
  /-- But if it is an empty script, the run is refused in any case, and the argument behind it is looked at before. -/
  empty : ∀ read unread, arguments = read ++ [] :: unread → Accepted read → remaining read = [] →
    ∃ text, headline (hidden read unread) <+: text ∧ ∀ more, looked read more = looked read unread → ∀ filters world,
      Program.run parser.reader filters (read ++ [] :: more) world = ⟨.usage, [], [.diagnostic text], world.input⟩

section
variable {parser : ArgumentParser} {help : Text} {headline : Offence → Text} (declared : Declared parser help headline)
include declared

private theorem reader_unaccepted (refused : ¬ Accepted arguments) (request : Request) :
    parser.reader arguments ≠ .ok request := by
  obtain ⟨read, argument, unread, rfl, accepted, offends⟩ := first_offence refused
  by_cases asks : dashes ∉ read ∧ AsksHelp argument
  · rw [reader_help declared accepted asks.1 asks.2]
    nofun
  by_cases empty : argument = [] ∧ remaining read = []
  · obtain ⟨rfl, free⟩ := empty
    obtain ⟨text, -, told⟩ := reader_empty declared accepted free unread
    rw [told unread rfl]
    nofun
  · obtain ⟨text, -, told⟩ := reader_offence declared accepted (not_fits_of_offends accepted offends)
      (not_and_or.mp empty) fun plain help => asks ⟨plain, help⟩
    rw [told]
    nofun

private theorem reader_moved {before after : List Text} (plain : dashes ∉ before) (accepted : Accepted (before ++ flag :: after))
    (same : front ++ back = before ++ after) (frontPlain : dashes ∉ front) :
    Accepted (front ++ flag :: back) ∧
      parser.reader (front ++ flag :: back) = parser.reader (before ++ flag :: after) := by
  have moved := (accepted_flag plain after).mp accepted
  rw [← same] at moved
  have again : Accepted (front ++ flag :: back) := (accepted_flag frontPlain back).mpr moved
  refine ⟨again, ?_⟩
  rw [reader_accepted declared again, reader_accepted declared accepted, requested_flag frontPlain, requested_flag plain, same]

/-- The parser goes from left to right, but what it accepts is a rule that knows no order. Where arguments are not
    accepted, the first that is not settles the matter, before anything is read. -/
theorem arguments_settled (arguments : List Text) : Settled parser help headline arguments where
  runs request := by
    by_cases accepted : Accepted arguments
    · rw [reader_accepted declared accepted, Except.ok.injEq]
      exact ⟨fun same => ⟨accepted, same.symm⟩, fun both => both.2.symm⟩
    · exact ⟨fun runs => absurd runs (reader_unaccepted declared accepted request), fun both => absurd both.1 accepted⟩
  starts accepted filters := by
    rw [Program.main, reader_accepted declared accepted]
    rfl
  moved before after front back := by
    rintro rfl plain accepted same frontPlain
    exact reader_moved declared plain accepted same frontPlain
  first := first_offence
  helped read argument unread _ accepted plain asks more filters :=
    run_help (reader_help declared accepted plain asks more)
  refused read argument unread _ accepted offends noHelp told := by
    obtain ⟨text, begins, refused⟩ := reader_offence declared accepted (not_fits_of_offends accepted offends) told noHelp
    exact ⟨text, begins, fun more filters => run_refused (refused more)⟩
  empty read unread _ accepted free := by
    obtain ⟨text, begins, refused⟩ := reader_empty declared accepted free unread
    exact ⟨text, begins, fun more alike filters => run_refused (refused more alike)⟩

end

/-- The flag behind the script, a wrong argument behind a script, a request for help among wrong arguments, and an
    empty script with another one behind it. -/
theorem arguments_settled_places :
    let script := "a".toList
    let run := fun arguments world => Program.run argumentReader filterReader arguments world
    (Accepted [flag, script] ∧ argumentReader [flag, script] = .ok ⟨true, some script⟩ ∧
      argumentReader [script, flag] = argumentReader [flag, script]) ∧
    (¬ Accepted [script, script] ∧ ∃ read argument unread, [script, script] = read ++ argument :: unread ∧
      Accepted read ∧ ¬ Accepted (read ++ [argument])) ∧
    (∃ text, "error: unexpected argument 'a' found".toList <+: text ∧ ∀ more world,
      run (script :: script :: more) world = ⟨.usage, [], [.diagnostic text], world.input⟩) ∧
    (∀ more world, run (script :: "-hx".toList :: more) world =
      ⟨.success, if world.blocked.isNone then helpText else [], [], world.input⟩) ∧
    ∃ text, "error: unexpected argument 'a' found".toList <+: text ∧ ∀ more world,
      run ([] :: dashes :: script :: more) world = ⟨.usage, [], [.diagnostic text], world.input⟩ := by
  intro script run
  have accepted : Accepted [flag, script] := by decide +kernel
  have alone : Accepted [script] := by decide +kernel
  have twice : ¬ Accepted [script, script] := by decide +kernel
  have plain : dashes ∉ [script] := by decide +kernel
  have noHelp : ¬ AsksHelp script := by decide +kernel
  have asks : AsksHelp "-hx".toList := by decide +kernel
  have wanted : Request.mk true (some script) = ⟨flag ∈ options [flag, script], (remaining [flag, script]).head?⟩ := by
    decide +kernel
  have surplus : commandHeadline (offence [script] script) = "error: unexpected argument 'a' found".toList := by
    decide +kernel
  have behind : commandHeadline (hidden [] [dashes, script]) = "error: unexpected argument 'a' found".toList := by
    decide +kernel
  have settled := arguments_settled argumentParser_declared
  obtain ⟨-, moved⟩ := (settled [flag, script]).moved [] [script] [script] [] rfl nofun accepted rfl plain
  obtain ⟨refusal, begins, refused⟩ := (settled [script, script]).refused [script] script [] rfl alone twice
    (fun _ => noHelp) (.inl (by decide +kernel))
  obtain ⟨message, starts, hides⟩ := (settled [[], dashes, script]).empty [] [dashes, script] rfl (by decide) rfl
  refine ⟨⟨accepted, ((settled _).runs _).mpr ⟨accepted, wanted⟩, moved⟩, ⟨twice, (settled _).first twice⟩,
    ⟨refusal, surplus ▸ begins, fun more => refused more filterReader⟩, ?_,
    message, behind ▸ starts, fun more => hides (dashes :: script :: more) rfl filterReader⟩
  exact fun more => (settled [script, "-hx".toList]).helped [script] _ [] rfl alone plain asks more filterReader

/-- What stands behind an empty script is not without influence. -/
theorem empty_script_hidden :
    let world : World := {}
    let run := fun arguments => Program.run argumentReader filterReader arguments world
    (run [[]]).stderr = "error: a value is required for '[SCRIPT]' but none was supplied".toList ∧
      (run [[], "--foo".toList]).stderr = "error: unexpected argument '--foo' found".toList ∧
      ¬ ∀ (read : List Text) (argument : Text) (unread more : List Text), Accepted read →
        ¬ Accepted (read ++ [argument]) → run (read ++ argument :: unread) = run (read ++ argument :: more) := by
  intro world run
  have alone : (run [[]]).stderr = "error: a value is required for '[SCRIPT]' but none was supplied".toList := by
    decide +kernel
  have hidden : (run [[], "--foo".toList]).stderr = "error: unexpected argument '--foo' found".toList := by
    decide +kernel
  refine ⟨alone, hidden, fun alike => ?_⟩
  have same := alike [] [] [] ["--foo".toList] (by decide) (by decide)
  have stderr : (run [[]]).stderr = (run [[], "--foo".toList]).stderr := congrArg Outcome.stderr same
  rw [alone, hidden] at stderr
  exact absurd stderr (by decide +kernel)

end LoxLexer.Acceptance

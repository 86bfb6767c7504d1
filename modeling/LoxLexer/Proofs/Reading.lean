import LoxLexer.Arguments

/-!
What the program relies on in the library that reads its arguments (`Declared`): what comes of one argument, by
how far the arguments are read. A script, a flag and help are declared, and nothing else. The command's parser is
one of which this is true (`argumentParser_declared`).
-/

namespace LoxLexer.Reading

/-- The flag for the shortcut. -/
def flag : Text := "--or-shortcut".toList

/-- What ends the options. -/
def dashes : Text := ['-', '-']

/-- An argument that asks for help, where it may be an option. -/
def AsksHelp (argument : Text) : Prop := argument = "--help".toList ∨ ['-', 'h'] <+: argument

instance (argument : Text) : Decidable (AsksHelp argument) := inferInstanceAs (Decidable (_ ∨ _))

/-- Behind the first `--` every argument is positional, before it those that begin with no dash or are one. -/
def Positional (ended : Prop) (argument : Text) : Prop := ¬ ended → argument.head? = some '-' → argument = ['-']

/-- An option that is not declared, or one with a value where none is. -/
structure Unknown (argument : Text) : Prop where
  dash : argument.head? = some '-'
  noScript : argument ≠ ['-']
  noEnd : argument ≠ dashes
  noFlag : argument ≠ flag
  noHelp : ¬ AsksHelp argument

/-- What can be wrong with arguments. -/
inductive Offence where
  | repeated
  | unknown (argument : Text)
  | surplus (argument : Text)
  | emptyScript

/-- A refusal whose message has some beginning. -/
def Refuses {α : Type} (result : Except Notice α) (beginning : Text) : Prop :=
  ∃ text, result = .error ⟨true, text⟩ ∧ beginning <+: text

/-- What comes of one argument, and of the end of the arguments. A script that is empty is noticed late: by the
    next option that is declared, or by the end. -/
structure Declared (parser : ArgumentParser) (help : Text) (headline : Offence → Text) : Prop where
  finish : ∀ {progress : Progress}, progress.script ≠ some [] → parser.finish progress = .ok progress.toRequest
  finish_empty : ∀ {progress : Progress}, progress.script = some [] →
    Refuses (parser.finish progress) (headline .emptyScript)
  ending : ∀ {progress : Progress}, progress.ended = false →
    parser.step progress dashes = .ok { progress with ended := true }
  script : ∀ {progress : Progress} {argument}, Positional progress.ended argument → progress.script = none →
    parser.step progress argument = .ok { progress with script := some argument }
  surplus : ∀ {progress : Progress} {argument}, Positional progress.ended argument → progress.script ≠ none →
    Refuses (parser.step progress argument) (headline (.surplus argument))
  unknown : ∀ {progress : Progress} {argument}, progress.ended = false → Unknown argument →
    Refuses (parser.step progress argument) (headline (.unknown argument))
  shortcut : ∀ {progress : Progress}, progress.ended = false → progress.script ≠ some [] →
    progress.orShortcut = false → parser.step progress flag = .ok { progress with orShortcut := true }
  repeated : ∀ {progress : Progress}, progress.ended = false → progress.script ≠ some [] →
    progress.orShortcut = true → Refuses (parser.step progress flag) (headline .repeated)
  help : ∀ {progress : Progress} {argument}, progress.ended = false → progress.script ≠ some [] →
    AsksHelp argument → parser.step progress argument = .error ⟨false, help⟩
  empty : ∀ {progress : Progress} {argument}, progress.ended = false → progress.script = some [] →
    argument = flag ∨ AsksHelp argument → Refuses (parser.step progress argument) (headline .emptyScript)

variable {progress : Progress} {argument : Text}

/-! ### Forms of arguments -/

private theorem form_flag : Argument.of flag = .long "or-shortcut".toList none := by decide +kernel

private theorem form_positional (dash : argument.head? = some '-' → argument = ['-']) : Argument.of argument = .positional := by
  unfold Argument.of
  split
  · cases dash rfl
  · cases dash rfl
  · cases dash rfl
  · rfl

private theorem positional_of_form (form : Argument.of argument = .positional) :
    argument.head? = some '-' → argument = ['-'] := by
  intro dash
  obtain ⟨more, rfl⟩ := List.head?_eq_some_iff.mp dash
  cases more with
  | nil => rfl
  | cons letter more =>
    unfold Argument.of at form
    split at form <;> simp_all

private theorem ending_of_form (form : Argument.of argument = .endOfOptions) : argument = dashes := by
  unfold Argument.of at form
  split at form
  · rfl
  all_goals cases form

private theorem long_of_form {name : Text} (form : Argument.of argument = .long name none) : argument = '-' :: '-' :: name := by
  unfold Argument.of at form
  split at form
  case h_2 body _ =>
    obtain ⟨named, valueless⟩ := Argument.long.inj form
    have nothing : body.dropWhile (· ≠ '=') = [] := by
      cases ending : body.dropWhile (· ≠ '=') with
      | nil => rfl
      | cons c cs =>
        rw [ending] at valueless
        cases valueless
    have whole := List.takeWhile_append_dropWhile (p := (· ≠ '=')) (l := body)
    rw [nothing, List.append_nil, named] at whole
    rw [whole]
  all_goals cases form

private theorem short_of_form {letter : Char} (form : Argument.of argument = .short letter) :
    ∃ more, argument = '-' :: letter :: more := by
  unfold Argument.of at form
  split at form
  case h_3 more _ _ =>
    obtain rfl := Argument.short.inj form
    exact ⟨more, rfl⟩
  all_goals cases form

private theorem asksHelp_iff : AsksHelp argument ↔
    Argument.of argument = .long "help".toList none ∨ Argument.of argument = .short 'h' := by
  have spelled : "--help".toList = '-' :: '-' :: "help".toList := by decide +kernel
  constructor
  · rintro (rfl | ⟨more, rfl⟩)
    · exact .inl (by decide +kernel)
    · exact .inr rfl
  · rintro (long | short)
    · exact .inl (by rw [long_of_form long, spelled])
    · obtain ⟨more, rfl⟩ := short_of_form short
      exact .inr ⟨more, rfl⟩

/-! ### The command's parser -/

private theorem withScript_free (free : progress.script = none) :
    progress.withScript argument = .ok { progress with script := some argument } := by
  rw [Progress.withScript, free]

private theorem withScript_taken (taken : progress.script ≠ none) :
    progress.withScript argument = UsageError.refuse (.unexpectedArgument argument) := by
  obtain ⟨script, held⟩ := Option.ne_none_iff_exists'.mp taken
  rw [Progress.withScript, held]

private theorem withAny_positional (dash : argument.head? = some '-' → argument = ['-']) :
    progress.withAny argument = progress.withScript argument := by
  rw [Progress.withAny, form_positional dash]

private theorem withAny_flag (progress : Progress) : progress.withAny flag =
    if progress.orShortcut then progress.settle (UsageError.refuse .repeatedShortcut)
    else progress.settle (.ok { progress with orShortcut := true }) := by
  have isFlag : '-' :: '-' :: "or-shortcut".toList = "--or-shortcut".toList := by decide +kernel
  have notHelp : '-' :: '-' :: "or-shortcut".toList ≠ "--help".toList := by decide +kernel
  rw [Progress.withAny, form_flag]
  simp only [if_pos (Or.inl isFlag), if_neg notHelp]

private theorem withAny_help (progress : Progress) (asks : AsksHelp argument) :
    progress.withAny argument = progress.settle (.error ⟨false, helpText⟩) := by
  have isHelp : '-' :: '-' :: "help".toList = "--help".toList := by decide +kernel
  rw [Progress.withAny]
  rcases asksHelp_iff.mp asks with long | short
  · simp only [long, if_pos (Or.inr isHelp), if_pos isHelp]
  · simp only [short, if_pos]

/-- An unknown option is refused, whatever is read before it. -/
theorem withAny_unknown (unknown : Unknown argument) :
    ∃ error, ∀ progress : Progress, progress.withAny argument = UsageError.refuse error := by
  obtain ⟨dash, noScript, noEnd, noFlag, noHelp⟩ := unknown
  cases form : Argument.of argument with
  | positional => exact absurd (positional_of_form form dash) noScript
  | endOfOptions => exact absurd (ending_of_form form) noEnd
  | short letter =>
    have other : letter ≠ 'h' := by
      rintro rfl
      exact noHelp (asksHelp_iff.mpr (.inr form))
    refine ⟨.unexpectedArgument ['-', letter], fun progress => ?_⟩
    rw [Progress.withAny, form]
    simp only [if_neg other]
  | long name value =>
    by_cases known : '-' :: '-' :: name = "--or-shortcut".toList ∨ '-' :: '-' :: name = "--help".toList
    · cases value with
      | some value =>
        refine ⟨.unexpectedValue ('-' :: '-' :: name) value, fun progress => ?_⟩
        rw [Progress.withAny, form]
        simp only [if_pos known]
      | none =>
        rw [← long_of_form form] at known
        rcases known with isFlag | isHelp
        · exact absurd isFlag noFlag
        · exact absurd (.inl isHelp) noHelp
    · refine ⟨.unexpectedArgument ('-' :: '-' :: name), fun progress => ?_⟩
      rw [Progress.withAny, form]
      simp only [if_neg known]

private theorem step_any (plain : progress.ended = false) : argumentParser.step progress argument = progress.withAny argument := by
  simp [argumentParser, plain]

private theorem step_positional (positional : Positional progress.ended argument) :
    argumentParser.step progress argument = progress.withScript argument := by
  cases ended : progress.ended with
  | true => simp [argumentParser, ended]
  | false => rw [step_any ended, withAny_positional (positional (by simp [ended]))]

private theorem settle_empty {α : Type} (empty : progress.script = some []) (result : Except Notice α) :
    progress.settle result = UsageError.refuse .emptyScript := if_pos empty

private theorem settle_other {α : Type} (other : progress.script ≠ some []) (result : Except Notice α) :
    progress.settle result = result := if_neg other

/-- How the command's refusals begin. Its messages say no more than that. -/
def commandHeadline : Offence → Text
  | .repeated => UsageError.repeatedShortcut.message
  | .unknown argument =>
    match Progress.withAny {} argument with
    | .ok _ => []
    | .error notice => notice.text
  | .surplus argument => (UsageError.unexpectedArgument argument).message
  | .emptyScript => UsageError.emptyScript.message

private theorem refuses_of_eq {α : Type} {result : Except Notice α} {error : UsageError} (refused : result = error.refuse) :
    Refuses result error.message := ⟨error.message, refused, List.prefix_rfl⟩

theorem argumentParser_declared : Declared argumentParser helpText commandHeadline where
  finish other := settle_other other _
  finish_empty empty := refuses_of_eq (settle_empty empty _)
  ending plain := step_any plain
  script positional free := (step_positional positional).trans (withScript_free free)
  surplus positional taken := refuses_of_eq ((step_positional positional).trans (withScript_taken taken))
  unknown := by
    intro progress argument plain unknown
    obtain ⟨error, refuses⟩ := withAny_unknown unknown
    have same : commandHeadline (.unknown argument) = error.message := by
      rw [commandHeadline, refuses]
      rfl
    rw [same]
    exact refuses_of_eq ((step_any plain).trans (refuses progress))
  shortcut := by
    intro progress plain other first
    rw [step_any plain, withAny_flag, first, if_neg Bool.false_ne_true, settle_other other]
  repeated := by
    intro progress plain other again
    refine refuses_of_eq ?_
    rw [step_any plain, withAny_flag, if_pos again, settle_other other]
  help := by
    intro progress argument plain other asks
    rw [step_any plain, withAny_help progress asks, settle_other other]
  empty := by
    intro progress argument plain empty option
    refine refuses_of_eq ?_
    rw [step_any plain]
    rcases option with rfl | asks
    · rw [withAny_flag, settle_empty empty, settle_empty empty, ite_self]
    · rw [withAny_help progress asks, settle_empty empty]

end LoxLexer.Reading

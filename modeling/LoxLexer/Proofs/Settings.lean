import LoxLexer.Filter
import LoxLexer.Proofs.Alphabet
import LoxLexer.Proofs.Runs

/-!
What the program relies on in the library that reads the setting of its log (`Documented`): a level by
itself shows every entry of at most its verbosity, and a level for a target those of them whose target
begins with it. The command's reader is one of which this is true (`filterReader_documented`).
-/

namespace LoxLexer.Settings
open LoxLexer.Alphabet LoxLexer.Runs

/-- A level in letters of either case or as a number, and the verbosity that it stands for. -/
inductive Spelled : Text → Nat → Prop
  | off {word} : word.map Char.toLower = "off".toList → Spelled word 0
  | level {word} (level : Level) : word.map Char.toLower = level.name.toList.map Char.toLower →
      Spelled word level.verbosity
  | number {n} : n ≤ 5 → Spelled (Text.ofNat n) n

/-- A target that ends where the equals sign stands. -/
def Unbroken (target : Text) : Prop := ∀ c ∈ target, Text.isBlank c = false ∧ c ≠ ',' ∧ c ≠ '=' ∧ c ≠ '['

/-- What settings of one level mean to a reader. It may refuse a target, but not read it otherwise. -/
structure Documented (filters : FilterReader) : Prop where
  level : ∀ {word verbosity}, Spelled word verbosity → ∃ passes, filters.strict word = some passes ∧
    ∀ entry, passes entry = true ↔ entry.level.verbosity ≤ verbosity
  target : ∀ {target word verbosity}, Unbroken target → Spelled word verbosity →
    ∀ passes, filters.strict (target ++ '=' :: word) = some passes →
      ∀ entry, passes entry = true ↔ target <+: entry.target ∧ entry.level.verbosity ≤ verbosity
  warns : WarnsByDefault filters

variable {word target : Text} {verbosity : Nat} {c : Char}

/-! ### Characters -/

/-- The characters of a spelled level. -/
private def Plain (c : Char) : Prop := ('0' ≤ c ∧ c ≤ '9') ∨ ('A' ≤ c ∧ c ≤ 'Z') ∨ ('a' ≤ c ∧ c ≤ 'z')

private theorem plain_alphanumeric (plain : Plain c) : Alphanumeric.contains c = true := by
  simp only [Alphanumeric.contains, Alphanumeric.isLetter, Alphanumeric.within, Bool.or_eq_true, List.any_eq_true,
    Bool.and_eq_true, decide_eq_true_eq]
  rcases plain with ⟨low, high⟩ | ⟨low, high⟩ | ⟨low, high⟩
  · exact .inr ⟨(0x30, 0x39), .head _, low, high⟩
  · exact .inl ⟨(0x41, 0x5A), .head _, low, high⟩
  · exact .inl ⟨(0x61, 0x7A), .tail _ (.head _), low, high⟩

private theorem plain_shown (plain : Plain c) : Text.isBlank c = false := by
  rw [Bool.eq_false_iff]
  simp only [Plain, Char.le_def, UInt32.le_iff_toNat_le] at plain
  simp only [Text.isBlank, ne_eq, Bool.or_eq_true, Bool.and_eq_true, decide_eq_true_eq, Char.le_def,
    UInt32.le_iff_toNat_le, ← Char.toNat_inj]
  simp at plain ⊢
  unfold Char.toNat at *
  omega

private theorem plain_unbroken (plain : Plain c) : c ≠ ',' ∧ c ≠ '=' ∧ c ≠ '[' := by
  refine ⟨?_, ?_, ?_⟩ <;> rintro rfl <;> revert plain <;> unfold Plain <;> decide

/-! ### Levels -/

/-- Whatever a character is in lower case, a lower-case letter comes from a letter. -/
theorem letter_of_toLower (lower : 'a' ≤ c.toLower ∧ c.toLower ≤ 'z') :
    ('A' ≤ c ∧ c ≤ 'Z') ∨ ('a' ≤ c ∧ c ≤ 'z') := by
  by_cases upper : 'A' ≤ c ∧ c ≤ 'Z'
  · exact .inl upper
  · have same : c.toLower = c := dif_neg upper
    exact .inr (same ▸ lower)

/-- The words for levels in lower case. -/
private def Lower (word : Text) : Prop := ∀ c ∈ word, 'a' ≤ c ∧ c ≤ 'z'

private theorem isLower_iff (c : Char) : c.isLower = true ↔ 'a' ≤ c ∧ c ≤ 'z' := by
  have lower : c.isLower = (decide ('a' ≤ c) && decide (c ≤ 'z')) := rfl
  rw [lower, Bool.and_eq_true, decide_eq_true_iff, decide_eq_true_iff]

private theorem lower_name (level : Level) : Lower (level.name.toList.map Char.toLower) := by
  refine all_run isLower_iff ?_
  cases level <;> decide +kernel

private theorem letters_of_lower (lower : Lower (word.map Char.toLower)) :
    ∀ c ∈ word, ('A' ≤ c ∧ c ≤ 'Z') ∨ ('a' ≤ c ∧ c ≤ 'z') := by
  intro c member
  exact letter_of_toLower (lower _ (List.mem_map_of_mem member))

private theorem verbosity_word (lower : Lower (word.map Char.toLower)) (nonempty : word ≠ []) : Directive.verbosity? word =
    Directive.levelWords.findIdx? (fun level => level.toList = word.map Char.toLower) := by
  obtain ⟨c, cs, rfl⟩ := List.exists_cons_of_ne_nil nonempty
  have letter := letters_of_lower lower c (by simp)
  have unsigned : c ≠ '+' := by
    rintro rfl
    revert letter
    decide
  have noDigit : c.isDigit = false := by
    simp only [Char.isDigit, Bool.and_eq_false_iff, decide_eq_false_iff_not, ge_iff_le, Char.le_def,
      UInt32.le_iff_toNat_le] at letter ⊢
    simp at letter ⊢
    omega
  simp [Directive.verbosity?, unsigned, noDigit]

private theorem spelled_cases (spelled : Spelled word verbosity) :
    (Lower (word.map Char.toLower) ∧ word ≠ []) ∨ verbosity ≤ 5 ∧ word = Text.ofNat verbosity := by
  cases spelled with
  | off same =>
    refine .inl ⟨?_, ?_⟩
    · rw [same]
      exact all_run isLower_iff (by decide +kernel)
    · rintro rfl
      cases same
  | level level same =>
    refine .inl ⟨same ▸ lower_name level, ?_⟩
    rintro rfl
    cases level <;> cases same
  | number small => exact .inr ⟨small, rfl⟩

private theorem spelled_verbosity (spelled : Spelled word verbosity) : Directive.verbosity? word = some verbosity := by
  rcases spelled_cases spelled with ⟨lower, nonempty⟩ | ⟨small, rfl⟩
  · rw [verbosity_word lower nonempty]
    cases spelled with
    | off same =>
      rw [same]
      decide +kernel
    | level level same =>
      rw [same]
      cases level <;> decide +kernel
    | number small =>
      have numbers : ∀ n ≤ 5, ((Text.ofNat n).map Char.toLower).all Char.isLower = false := by decide +kernel
      have letters : ((Text.ofNat verbosity).map Char.toLower).all Char.isLower = true :=
        List.all_eq_true.mpr fun c member => (isLower_iff c).mpr (lower c member)
      rw [numbers verbosity small] at letters
      cases letters
  · have numbers : ∀ n ≤ 5, Directive.verbosity? (Text.ofNat n) = some n := by decide +kernel
    exact numbers verbosity small

private theorem spelled_plain (spelled : Spelled word verbosity) : word ≠ [] ∧ ∀ c ∈ word, Plain c := by
  rcases spelled_cases spelled with ⟨lower, nonempty⟩ | ⟨small, rfl⟩
  · exact ⟨nonempty, fun c member => .inr (letters_of_lower lower c member)⟩
  · refine ⟨Nat.toDigits_ne_nil, fun c member => .inl ?_⟩
    exact (isDigit_iff c).mp (Nat.isDigit_of_mem_toDigits (by decide) (by decide) member)

/-! ### Directives -/

private theorem trim_of_ends {text : Text} {first last : Char} (head : text.head? = some first)
    (firstShown : Text.isBlank first = false) (ending : text.getLast? = some last)
    (lastShown : Text.isBlank last = false) : text.trim = text := by
  have front : text.dropWhile Text.isBlank = text := by
    obtain ⟨cs, rfl⟩ := List.head?_eq_some_iff.mp head
    simp [firstShown]
  have back : text.reverse.dropWhile Text.isBlank = text.reverse := by
    rw [← List.head?_reverse] at ending
    obtain ⟨cs, reversed⟩ := List.head?_eq_some_iff.mp ending
    simp [reversed, lastShown]
  rw [Text.trim, front, back, List.reverse_reverse]

private theorem dropBytes_cons (n : Nat) (c : Char) (text : Text) :
    Text.dropBytes (c.utf8Size + n) (c :: text) = Text.dropBytes n text := by
  obtain ⟨size, positive⟩ := Nat.exists_eq_add_of_lt c.utf8Size_pos
  have offset : c.utf8Size + n = (size + n) + 1 := by omega
  rw [offset, Text.dropBytes, ← offset, Nat.add_sub_cancel_left]
  exact Nat.succ_ne_zero _

private theorem takeBytes_cons (n : Nat) (c : Char) (text : Text) :
    Text.takeBytes (c.utf8Size + n) (c :: text) = c :: Text.takeBytes n text := by
  obtain ⟨size, positive⟩ := Nat.exists_eq_add_of_lt c.utf8Size_pos
  have offset : c.utf8Size + n = (size + n) + 1 := by omega
  rw [offset, Text.takeBytes, ← offset, Nat.add_sub_cancel_left]
  exact Nat.succ_ne_zero _

private theorem dropBytes_append (n : Nat) (left right : Text) :
    Text.dropBytes (left.byteSize + n) (left ++ right) = Text.dropBytes n right := by
  induction left with
  | nil => simp
  | cons c left ih => rw [Text.byteSize_cons, List.cons_append, Nat.add_assoc, dropBytes_cons, ih]

private theorem takeBytes_append (left right : Text) : Text.takeBytes left.byteSize (left ++ right) = left := by
  induction left with
  | nil => simp [Text.takeBytes]
  | cons c left ih => rw [Text.byteSize_cons, List.cons_append, takeBytes_cons, ih]

/-- What the name in a directive goes on with. -/
private def Within (c : Char) : Prop := c ≠ '=' ∧ c ≠ '['

private theorem within_iff (c : Char) : decide (c ≠ '=' ∧ c ≠ '[') = true ↔ Within c := decide_eq_true_iff

private theorem plain_last (spelled : Spelled word verbosity) : ∃ c, word.getLast? = some c ∧ Text.isBlank c = false := by
  obtain ⟨nonempty, plain⟩ := spelled_plain spelled
  exact ⟨_, List.getLast?_eq_some_getLast nonempty, plain_shown (plain _ (List.getLast_mem nonempty))⟩

private theorem parse_level (spelled : Spelled word verbosity) : Directive.parse? word = some { verbosity } := by
  obtain ⟨nonempty, plain⟩ := spelled_plain spelled
  obtain ⟨last, ending, lastShown⟩ := plain_last spelled
  obtain ⟨c, cs, rfl⟩ := List.exists_cons_of_ne_nil nonempty
  have first : Plain c := plain c (by simp)
  have trimmed : Text.trim (c :: cs) = c :: cs := trim_of_ends rfl (plain_shown first) ending lastShown
  have within : ∀ d ∈ c :: cs, Within d := fun d member => (plain_unbroken (plain d member)).2
  have rest : List.dropWhile (fun c => decide (c ≠ '=' ∧ c ≠ '[')) (c :: cs) = [] := by
    simpa using dropWhile_run within_iff within (stops_nil Within)
  have noBracket : c ≠ '[' := (plain_unbroken first).2.2
  unfold Directive.parse?
  rw [trimmed]
  split
  · simp_all
  · simp_all
  · next d text _ same =>
    obtain ⟨rfl, rfl⟩ := List.cons.inj same
    rw [if_pos (.inr (plain_alphanumeric first))]
    dsimp only
    rw [rest]
    dsimp only
    rw [spelled_verbosity spelled]

/-- What a directive may begin with that is not about a span. -/
def Begins (c : Char) : Prop := c ∈ ['-', ':', '_'] ∨ Alphanumeric.contains c = true

private theorem trim_target {head : Char} {cs : Text} (unbroken : Unbroken (head :: cs)) (spelled : Spelled word verbosity) :
    Text.trim (head :: cs ++ '=' :: word) = head :: (cs ++ '=' :: word) := by
  obtain ⟨last, ending, lastShown⟩ := plain_last spelled
  obtain ⟨nonempty, -⟩ := spelled_plain spelled
  have whole : (head :: cs ++ '=' :: word).getLast? = some last := by
    obtain ⟨d, ds, rfl⟩ := List.exists_cons_of_ne_nil nonempty
    rw [List.getLast?_append, List.getLast?_cons_cons, ending]
    rfl
  exact trim_of_ends rfl (unbroken head (by simp)).1 whole lastShown

private theorem parse_target {head : Char} {cs : Text} (unbroken : Unbroken (head :: cs)) (begins : Begins head)
    (spelled : Spelled word verbosity) :
    Directive.parse? (head :: cs ++ '=' :: word) = some { target := head :: cs, verbosity } := by
  have within : ∀ d ∈ head :: cs, Within d := fun d member => (unbroken d member).2.2
  have stops : Stops Within ('=' :: word) := stops_cons.mpr fun inside => inside.1 rfl
  have name : List.takeWhile (fun c => decide (c ≠ '=' ∧ c ≠ '[')) (head :: (cs ++ '=' :: word)) = head :: cs :=
    takeWhile_run within_iff within stops
  have rest : List.dropWhile (fun c => decide (c ≠ '=' ∧ c ≠ '[')) (head :: (cs ++ '=' :: word)) = '=' :: word :=
    dropWhile_run within_iff within stops
  have value : Text.dropBytes (Text.byteSize (head :: cs) + 1) (head :: cs ++ '=' :: word) = word := by
    rw [dropBytes_append, show 1 = '='.utf8Size + 0 from rfl, dropBytes_cons, Text.dropBytes]
  have noBracket : head ≠ '[' := (within head (by simp)).2
  unfold Begins at begins
  unfold Directive.parse?
  rw [trim_target unbroken spelled]
  split
  · simp_all
  · simp_all
  · next d text _ same =>
    obtain ⟨rfl, rfl⟩ := List.cons.inj same
    rw [if_pos begins, rest, name]
    dsimp only
    simp only [Directive.withLevel?]
    rw [value, takeBytes_append]
    obtain ⟨nonempty, -⟩ := spelled_plain spelled
    obtain ⟨d, ds, rfl⟩ := List.exists_cons_of_ne_nil nonempty
    dsimp only
    rw [spelled_verbosity spelled]
    rfl

/-- A target that begins in another way is refused. -/
theorem parse_refused {head : Char} {setting cs : Text} (trimmed : setting.trim = head :: cs) (noBracket : head ≠ '[')
    (refused : ¬ Begins head) : Directive.parse? setting = none := by
  unfold Directive.parse?
  rw [trimmed]
  split
  · simp_all
  · simp_all
  · next d text _ same =>
    obtain ⟨rfl, rfl⟩ := List.cons.inj same
    exact if_neg refused

private theorem directive_target (unbroken : Unbroken target) (spelled : Spelled word verbosity) {directive : Directive}
    (parses : Directive.parse? (target ++ '=' :: word) = some directive) : directive = { target, verbosity } := by
  cases target with
  | nil =>
    obtain ⟨last, ending, lastShown⟩ := plain_last spelled
    obtain ⟨nonempty, -⟩ := spelled_plain spelled
    have whole : ('=' :: word).getLast? = some last := by
      obtain ⟨d, ds, rfl⟩ := List.exists_cons_of_ne_nil nonempty
      rw [List.getLast?_cons_cons, ending]
    have trimmed : Text.trim ([] ++ '=' :: word) = '=' :: word :=
      trim_of_ends rfl (by decide +kernel) whole lastShown
    have noName : ¬ Begins '=' := by
      unfold Begins
      decide +kernel
    rw [parse_refused trimmed (by decide) noName] at parses
    cases parses
  | cons head cs =>
    by_cases begins : Begins head
    · exact Option.some.inj (parses.symm.trans (parse_target unbroken begins spelled))
    · have noBracket : head ≠ '[' := (unbroken head (by simp)).2.2.2
      rw [parse_refused (trim_target unbroken spelled) noBracket begins] at parses
      cases parses

/-! ### Settings of one directive -/

private theorem directives_one {setting : Text} (nonempty : setting ≠ []) (one : ',' ∉ setting) :
    (setting.splitOn ',').filter (· ≠ []) = [setting] := by
  rw [List.splitOn_eq_singleton one]
  simp [nonempty]

private theorem parse_one {setting : Text} (nonempty : setting ≠ []) (one : ',' ∉ setting) :
    Filter.parse? setting = (Directive.parse? setting).map fun directive => ⟨[directive]⟩ := by
  rw [Filter.parse?, directives_one nonempty one]
  cases parsed : Directive.parse? setting <;> simp [parsed]

private theorem admits_one (directive : Directive) (entry : Entry) : Filter.admits ⟨[directive]⟩ entry =
    (directive.concerns entry && entry.level.verbosity ≤ directive.verbosity) := by
  cases concerned : directive.concerns entry <;> simp [Filter.admits, Filter.deciding, concerned]

private theorem unbroken_word (spelled : Spelled word verbosity) : word ≠ [] ∧ ',' ∉ word := by
  obtain ⟨nonempty, plain⟩ := spelled_plain spelled
  exact ⟨nonempty, fun member => (plain_unbroken (plain _ member)).1 rfl⟩

private theorem admits_level (verbosity : Nat) (entry : Entry) :
    Filter.admits ⟨[{ verbosity }]⟩ entry = true ↔ entry.level.verbosity ≤ verbosity := by
  rw [admits_one]
  simp [Directive.concerns]

theorem filterReader_documented : Documented filterReader where
  level := by
    intro word verbosity spelled
    obtain ⟨nonempty, one⟩ := unbroken_word spelled
    refine ⟨Filter.admits ⟨[{ verbosity }]⟩, ?_, admits_level verbosity⟩
    simp [filterReader, parse_one nonempty one, parse_level spelled]
  target := by
    intro target word verbosity unbroken spelled passes reads entry
    have one : ',' ∉ target ++ '=' :: word := by
      intro member
      rcases List.mem_append.mp member with within | behind
      · exact (unbroken _ within).2.1 rfl
      · rcases List.mem_cons.mp behind with sign | within
        · cases sign
        · exact (unbroken_word spelled).2 within
    have parsed : filterReader.strict (target ++ '=' :: word) =
        (Directive.parse? (target ++ '=' :: word)).map fun directive => Filter.admits ⟨[directive]⟩ := by
      simp [filterReader, parse_one _ one, Function.comp_def]
    rw [parsed] at reads
    obtain ⟨directive, parses, rfl⟩ := Option.map_eq_some_iff.mp reads
    rw [directive_target unbroken spelled parses, admits_one]
    simp [Directive.concerns]
  warns := by
    have spelled : Spelled "warn".toList Level.warn.verbosity := .level .warn (by decide +kernel)
    obtain ⟨nonempty, one⟩ := unbroken_word spelled
    intro entry
    have filter : filterReader.lenient "warn".toList = Filter.admits ⟨[{ verbosity := Level.warn.verbosity }]⟩ := by
      simp only [filterReader, Filter.parse, directives_one nonempty one]
      simp only [List.filterMap_cons, parse_level spelled, List.filterMap_nil]
    rw [filter]
    exact admits_level _ entry

end LoxLexer.Settings

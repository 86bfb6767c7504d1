import LoxLexer.CharClass

/-!
The characters of each class, spelled out: a class is exactly the characters listed for it
(`of_eq_iff`). Where a run of characters of one kind ends (`Stops`), the library's spans cut it
exactly (`takeWhile_run`, `dropWhile_run`), and no other run at the same place is longer
(`prefix_run`).
-/

namespace LoxLexer.Alphabet
open LoxLexer

/-- Exactly the ASCII digits. -/
def Digit (c : Char) : Prop := '0' ≤ c ∧ c ≤ '9'

/-- Exactly the ASCII letters and the underscore. -/
def Letter (c : Char) : Prop := ('A' ≤ c ∧ c ≤ 'Z') ∨ ('a' ≤ c ∧ c ≤ 'z') ∨ c = '_'

/-- What a word goes on with. -/
def WordChar (c : Char) : Prop := Letter c ∨ Digit c

instance : DecidablePred Digit := fun _ => inferInstanceAs (Decidable (_ ∧ _))
instance : DecidablePred Letter := fun _ => inferInstanceAs (Decidable (_ ∨ _))
instance : DecidablePred WordChar := fun _ => inferInstanceAs (Decidable (_ ∨ _))

/-- The ten characters that are tokens by themselves. -/
def punctuation : List (Char × Kind) :=
  [('(', .leftParen), (')', .rightParen), ('\x7b', .leftBrace), ('\x7d', .rightBrace), (',', .comma),
    ('.', .dot), ('-', .minus), ('+', .plus), (';', .semicolon), ('*', .star)]

/-- The four characters that take a following `=` along, with the kinds without it and with it. -/
def operators : List (Char × Kind × Kind) :=
  [('!', .bang, .bangEqual), ('=', .equal, .equalEqual), ('<', .less, .lessEqual),
    ('>', .greater, .greaterEqual)]

/-- The blanks within a line. -/
def blanks : List Char := [' ', '\r', '\t']

/-- Digits, and if a point follows them, digits behind it too. -/
inductive Numeral : Text → Prop
  | whole {digits} : digits ≠ [] → (∀ d ∈ digits, Digit d) → Numeral digits
  | fraction {digits places} : digits ≠ [] → (∀ d ∈ digits, Digit d) → places ≠ [] →
      (∀ d ∈ places, Digit d) → Numeral (digits ++ '.' :: places)

theorem isDigit_iff (c : Char) : c.isDigit = true ↔ Digit c := by
  simp [Char.isDigit, Digit, Char.le_def]

private theorem isLetter_iff (c : Char) : CharClass.isLetter c = true ↔ Letter c := by
  have upper : c.isUpper = decide ('A' ≤ c ∧ c ≤ 'Z') := rfl
  have lower : c.isLower = (decide ('a' ≤ c) && decide (c ≤ 'z')) := rfl
  have alpha : c.isAlpha = (c.isUpper || c.isLower) := rfl
  simp [CharClass.isLetter, alpha, upper, lower, Letter, or_assoc]

theorem differs_iff (d c : Char) : decide (c ≠ d) = true ↔ c ≠ d := decide_eq_true_iff

theorem isWordChar_iff (c : Char) : CharClass.isWordChar c = true ↔ WordChar c := by
  simp [CharClass.isWordChar, WordChar, isLetter_iff, isDigit_iff]

/-! ### Classes -/

/-- The characters of each class; the foreign ones are those that no class lists. -/
def Listed : CharClass → Char → Prop
  | .punctuation kind, c => (c, kind) ∈ punctuation
  | .operator alone paired, c => (c, alone, paired) ∈ operators
  | .slash, c => c = '/'
  | .blank, c => c ∈ blanks
  | .newline, c => c = '\n'
  | .quote, c => c = '"'
  | .digit, c => Digit c
  | .letter, c => Letter c
  | .foreign, _ => False

private theorem letter_not_digit {c : Char} (letter : Letter c) : ¬ Digit c := by
  rintro ⟨low, high⟩
  rcases letter with ⟨upper, _⟩ | ⟨lower, _⟩ | rfl
  · exact absurd (Char.le_trans upper high) (by decide)
  · exact absurd (Char.le_trans lower high) (by decide)
  · exact absurd high (by decide)

theorem of_digit {c : Char} (digit : Digit c) : CharClass.of c = .digit := by
  unfold CharClass.of
  split
  case h_21 => simp [isDigit_iff, digit]
  all_goals exact absurd digit (by decide)

theorem of_letter {c : Char} (letter : Letter c) : CharClass.of c = .letter := by
  unfold CharClass.of
  split
  case h_21 => simp [isDigit_iff, isLetter_iff, letter, letter_not_digit letter]
  all_goals exact absurd letter (by decide)

/-- A character is in the class that lists it. -/
theorem of_listed {c : Char} {named : CharClass} (listed : Listed named c) : CharClass.of c = named := by
  cases named with
  | punctuation kind =>
    simp only [Listed, punctuation, List.mem_cons, Prod.mk.injEq, List.not_mem_nil, or_false] at listed
    rcases listed with ⟨rfl, rfl⟩ | ⟨rfl, rfl⟩ | ⟨rfl, rfl⟩ | ⟨rfl, rfl⟩ | ⟨rfl, rfl⟩ | ⟨rfl, rfl⟩ |
      ⟨rfl, rfl⟩ | ⟨rfl, rfl⟩ | ⟨rfl, rfl⟩ | ⟨rfl, rfl⟩ <;> rfl
  | operator alone paired =>
    simp only [Listed, operators, List.mem_cons, Prod.mk.injEq, List.not_mem_nil, or_false] at listed
    rcases listed with ⟨rfl, rfl, rfl⟩ | ⟨rfl, rfl, rfl⟩ | ⟨rfl, rfl, rfl⟩ | ⟨rfl, rfl, rfl⟩ <;> rfl
  | slash => rw [show c = '/' from listed]; rfl
  | blank =>
    simp only [Listed, blanks, List.mem_cons, List.not_mem_nil, or_false] at listed
    rcases listed with rfl | rfl | rfl <;> rfl
  | newline => rw [show c = '\n' from listed]; rfl
  | quote => rw [show c = '"' from listed]; rfl
  | digit => exact of_digit listed
  | letter => exact of_letter listed
  | foreign => exact False.elim listed

/-- Every character is in a class that lists it, or is foreign. -/
theorem listed_of (c : Char) : CharClass.of c = .foreign ∨ Listed (CharClass.of c) c := by
  unfold CharClass.of
  split
  case h_21 =>
    by_cases digit : Digit c
    · simp [isDigit_iff, digit, Listed]
    · by_cases letter : Letter c
      · simp [isDigit_iff, isLetter_iff, digit, letter, Listed]
      · simp [isDigit_iff, isLetter_iff, digit, letter]
  all_goals simp [Listed, punctuation, operators, blanks]

theorem of_eq_iff {c : Char} {named : CharClass} (known : named ≠ .foreign) :
    CharClass.of c = named ↔ Listed named c := by
  constructor
  · rintro rfl
    exact (listed_of c).resolve_left known
  · exact of_listed

/-! ### Runs -/

/-- The text does not go on with a character of a kind. -/
def Stops (inside : Char → Prop) (rest : Text) : Prop := ∀ c, rest.head? = some c → ¬ inside c

theorem stops_nil (inside : Char → Prop) : Stops inside [] := by
  intro c head
  cases head

theorem stops_cons {inside : Char → Prop} {c : Char} {rest : Text} : Stops inside (c :: rest) ↔ ¬ inside c := by
  simp [Stops]

variable {inside : Char → Prop} {p : Char → Bool}

theorem takeWhile_run (decides : ∀ c, p c = true ↔ inside c) {run rest : Text} (all : ∀ c ∈ run, inside c)
    (stops : Stops inside rest) : (run ++ rest).takeWhile p = run := by
  rw [List.takeWhile_append_of_pos (fun c member => (decides c).mpr (all c member))]
  cases rest with
  | nil => simp
  | cons c rest =>
    have outside : ¬ p c = true := fun yes => stops_cons.mp stops ((decides c).mp yes)
    simp [outside]

theorem dropWhile_run (decides : ∀ c, p c = true ↔ inside c) {run rest : Text} (all : ∀ c ∈ run, inside c)
    (stops : Stops inside rest) : (run ++ rest).dropWhile p = rest := by
  rw [List.dropWhile_append_of_pos (fun c member => (decides c).mpr (all c member))]
  cases rest with
  | nil => rfl
  | cons c rest =>
    have outside : ¬ p c = true := fun yes => stops_cons.mp stops ((decides c).mp yes)
    simp [outside]

theorem all_run (decides : ∀ c, p c = true ↔ inside c) {run : Text} (all : run.all p = true) : ∀ c ∈ run, inside c :=
  fun c member => (decides c).mp (List.all_eq_true.mp all c member)

/-- Every text is a run and a rest that does not go on with it. -/
theorem takeWhile_all (decides : ∀ c, p c = true ↔ inside c) (text : Text) :
    ∀ c ∈ text.takeWhile p, inside c :=
  all_run decides List.all_takeWhile

theorem dropWhile_stops (decides : ∀ c, p c = true ↔ inside c) (text : Text) :
    Stops inside (text.dropWhile p) := by
  intro c head yes
  have outside := List.head?_dropWhile_not p text
  rw [head] at outside
  simp [(decides c).mpr yes] at outside

/-- Another run at the front of a text goes no further than one after which the text stops. -/
theorem prefix_run {run other rest : Text} (others : ∀ c ∈ other, inside c) (stops : Stops inside rest)
    (front : other <+: run ++ rest) : other <+: run := by
  rcases List.prefix_or_prefix_of_prefix front (List.prefix_append run rest) with shorter | ⟨more, rfl⟩
  · exact shorter
  · have onward : more <+: rest := (List.prefix_append_right_inj run).mp front
    cases more with
    | nil => simp
    | cons c more =>
      obtain ⟨after, rfl⟩ := onward
      exact absurd (others c (by simp)) (stops_cons.mp stops)

/-- A text has one cut into a run and a rest that does not go on with it. -/
theorem run_unique {run other rest after : Text} (all : ∀ c ∈ run, inside c) (others : ∀ c ∈ other, inside c)
    (stops : Stops inside rest) (ends : Stops inside after) (same : run ++ rest = other ++ after) :
    run = other ∧ rest = after := by
  have left : run <+: other := prefix_run all ends (same ▸ List.prefix_append run rest)
  have right : other <+: run := prefix_run others stops (same ▸ List.prefix_append other after)
  obtain rfl := left.eq_of_length_le right.length_le
  exact ⟨rfl, List.append_cancel_left same⟩

/-! ### Numerals -/

variable {digits places other after : Text}

/-- No numeral at the front of a text is longer than digits with no digit and no places behind them. -/
theorem numeral_le_whole (numeral : Numeral other) (all : ∀ d ∈ digits, Digit d) (stops : Stops Digit after)
    (noPlaces : ∀ more, after = '.' :: more → Stops Digit more) (front : other <+: digits ++ after) :
    other.length ≤ digits.length := by
  cases numeral with
  | whole _ others => exact (prefix_run others stops front).length_le
  | @fraction others decimals _ otherDigits nonempty allDecimals =>
    obtain ⟨more, same⟩ := front
    have point : Stops Digit ('.' :: (decimals ++ more)) := stops_cons.mpr (by decide)
    obtain ⟨rfl, rfl⟩ := run_unique all otherDigits stops point (by simpa using same.symm)
    obtain ⟨d, decimals, rfl⟩ := List.exists_cons_of_ne_nil nonempty
    exact absurd (allDecimals d (by simp)) (stops_cons.mp (noPlaces _ rfl))

/-- No numeral at the front of a text is longer than one with places and no digit behind them. -/
theorem numeral_le_fraction (numeral : Numeral other) (all : ∀ d ∈ digits, Digit d) (stops : Stops Digit after)
    (front : other <+: digits ++ '.' :: (places ++ after)) :
    other.length ≤ digits.length + (places.length + 1) := by
  have point : Stops Digit ('.' :: (places ++ after)) := stops_cons.mpr (by decide)
  cases numeral with
  | whole _ others =>
    have shorter := (prefix_run others point front).length_le
    omega
  | @fraction others otherPlaces _ otherDigits _ otherDecimals =>
    obtain ⟨more, same⟩ := front
    have otherPoint : Stops Digit ('.' :: (otherPlaces ++ more)) := stops_cons.mpr (by decide)
    obtain ⟨rfl, later⟩ := run_unique all otherDigits point otherPoint (by simpa using same.symm)
    have within : otherPlaces <+: places ++ after := ⟨more, (List.cons.inj later).2.symm⟩
    have shorter := (prefix_run otherDecimals stops within).length_le
    simp only [List.length_append, List.length_cons]
    omega

end LoxLexer.Alphabet

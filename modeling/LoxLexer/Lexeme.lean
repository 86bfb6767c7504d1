import LoxLexer.CharClass

/-!
The lexeme at the front of a text. Every cut takes at least one character and loses none: the lexeme
and the rest together are the text.
-/

namespace LoxLexer

/-- How lexemes are cut. -/
structure Config where
  /-- Where a lexeme begins with `o` directly before `r`, the `o` alone is an `OR`. -/
  orShortcut : Bool := false
deriving DecidableEq

/-- Usually the shortcut is off. -/
instance : Inhabited Config := ⟨{}⟩

/-- The same rules with the shortcut switched as said. -/
def Config.withOrShortcut (config : Config) (enabled : Bool) : Config :=
  { config with orShortcut := enabled }

/-- A lexeme and the text after it. No kind means that it stands between tokens: a blank, a line
    break or a comment. -/
structure Cut where
  kind : Option Kind
  lexeme : Text
  rest : Text
deriving DecidableEq

/-- Why no lexeme can be cut off a text. -/
inductive Fault where
  | foreign (character : Char)
  | unterminated
deriving DecidableEq

namespace Cut

/-- A lexeme of one character. -/
def single (kind : Option Kind) (c : Char) (cs : Text) : Cut := ⟨kind, [c], cs⟩

/-- An operator takes a following `=` along. -/
def operator (alone paired : Kind) (c : Char) : Text → Cut
  | '=' :: cs => ⟨some paired, [c, '='], cs⟩
  | cs => single (some alone) c cs

/-- A second slash opens a comment, which ends before the line does. -/
def slash (c : Char) : Text → Cut
  | '/' :: cs => ⟨none, c :: '/' :: cs.takeWhile (· ≠ '\n'), cs.dropWhile (· ≠ '\n')⟩
  | cs => single (some .slash) c cs

/-- A string ends at the next quote, whatever stands between. -/
def string (c : Char) (cs : Text) : Except Fault Cut :=
  match cs.dropWhile (· ≠ '"') with
  | [] => .error .unterminated
  | close :: rest => .ok ⟨some .string, c :: cs.takeWhile (· ≠ '"') ++ [close], rest⟩

/-- A number is digits, and a point with further digits only if a digit follows the point. -/
def number (c : Char) (cs : Text) : Cut :=
  let whole := c :: cs.takeWhile Char.isDigit
  match cs.dropWhile Char.isDigit with
  | '.' :: d :: after =>
    if d.isDigit then
      ⟨some .number, whole ++ '.' :: d :: after.takeWhile Char.isDigit, after.dropWhile Char.isDigit⟩
    else ⟨some .number, whole, '.' :: d :: after⟩
  | after => ⟨some .number, whole, after⟩

/-- A word goes on as far as it can; which kind it is depends on the whole of it. -/
def word (c : Char) (cs : Text) : Cut :=
  let lexeme := c :: cs.takeWhile CharClass.isWordChar
  ⟨some (.ofWord lexeme), lexeme, cs.dropWhile CharClass.isWordChar⟩

/-- The first lexeme of `c :: cs`. -/
def first (config : Config) (c : Char) (cs : Text) : Except Fault Cut :=
  match CharClass.of c with
  | .punctuation kind => .ok (single (some kind) c cs)
  | .operator alone paired => .ok (operator alone paired c cs)
  | .slash => .ok (slash c cs)
  | .blank => .ok (single none c cs)
  | .newline => .ok (single none c cs)
  | .quote => string c cs
  | .digit => .ok (number c cs)
  | .letter =>
    if config.orShortcut ∧ c = 'o' ∧ cs.head? = some 'r' then
      .ok (single (some (.keyword .or)) c cs)
    else .ok (word c cs)
  | .foreign => .error (.foreign c)

theorem operator_tile (alone paired : Kind) (c : Char) (cs : Text) :
    (operator alone paired c cs).lexeme ++ (operator alone paired c cs).rest = c :: cs := by
  unfold operator
  split <;> rfl

theorem slash_tile (c : Char) (cs : Text) : (slash c cs).lexeme ++ (slash c cs).rest = c :: cs := by
  unfold slash
  split
  · simp
  · rfl

theorem string_tile {c : Char} {cs : Text} {cut : Cut} (found : string c cs = .ok cut) :
    cut.lexeme ++ cut.rest = c :: cs := by
  unfold string at found
  split at found
  · cases found
  · next close rest ending =>
    cases found
    have whole := List.takeWhile_append_dropWhile (p := (· ≠ '"')) (l := cs)
    rw [ending] at whole
    simpa using whole

theorem number_tile (c : Char) (cs : Text) : (number c cs).lexeme ++ (number c cs).rest = c :: cs := by
  have whole := List.takeWhile_append_dropWhile (p := Char.isDigit) (l := cs)
  unfold number
  split
  · next d after ending =>
    rw [ending] at whole
    split <;> simpa using whole
  · simp

theorem word_tile (c : Char) (cs : Text) : (word c cs).lexeme ++ (word c cs).rest = c :: cs := by
  simp [word]

/-- A cut loses nothing. -/
theorem first_tile {config : Config} {c : Char} {cs : Text} {cut : Cut}
    (found : first config c cs = .ok cut) : cut.lexeme ++ cut.rest = c :: cs := by
  unfold first at found
  split at found
  case h_2 => cases found; exact operator_tile ..
  case h_3 => cases found; exact slash_tile ..
  case h_6 => exact string_tile found
  case h_7 => cases found; exact number_tile ..
  case h_8 =>
    split at found <;> cases found
    · rfl
    · exact word_tile ..
  case h_9 => cases found
  all_goals cases found; rfl

/-- A lexeme begins with the first character. -/
theorem first_head {config : Config} {c : Char} {cs : Text} {cut : Cut}
    (found : first config c cs = .ok cut) : cut.lexeme.head? = some c := by
  unfold first at found
  split at found
  case h_2 => cases found; unfold operator; split <;> rfl
  case h_3 => cases found; unfold slash; split <;> rfl
  case h_6 => unfold string at found; split at found <;> cases found; rfl
  case h_7 =>
    cases found
    unfold number
    split
    · split <;> rfl
    · rfl
  case h_8 => split at found <;> cases found <;> rfl
  case h_9 => cases found
  all_goals cases found; rfl

/-- So what is left is never longer than what followed the first character. -/
theorem first_rest_le {config : Config} {c : Char} {cs : Text} {cut : Cut}
    (found : first config c cs = .ok cut) : cut.rest.length ≤ cs.length := by
  have tile := congrArg List.length (first_tile found)
  have head := first_head found
  have taken : cut.lexeme ≠ [] := by rintro empty; simp [empty] at head
  have := List.length_pos_iff.mpr taken
  simp at tile
  omega

end Cut
end LoxLexer

import LoxLexer.Proofs.Tiling

/-!
What a token needs to the right of its lexeme. A lexeme begins with a character of the class that its
kind leads with (`piece_leads`), and one that is cut off some text is cut off every text in which what
follows bounds it (`Bounded`, `bounded_of_piece`, `piece_of_bounded`). Text that no lexeme goes on with
(`Inert`), such as a blank, bounds every lexeme but the `o` of the shortcut, and behind more text it can
stand for any other such text (`bounded_exchange`).
-/

namespace LoxLexer.Neighbours
open LoxLexer.Alphabet LoxLexer.Pieces LoxLexer.Tiling

variable {config : Config} {kind : Kind} {lexeme rest other : Text}

/-! ### The first character -/

/-- The class of character that the lexemes of a kind begin with. -/
def leads : Kind → CharClass
  | .bang | .bangEqual => .operator .bang .bangEqual
  | .equal | .equalEqual => .operator .equal .equalEqual
  | .less | .lessEqual => .operator .less .lessEqual
  | .greater | .greaterEqual => .operator .greater .greaterEqual
  | .slash => .slash
  | .string => .quote
  | .number => .digit
  | .identifier | .keyword _ => .letter
  | kind => .punctuation kind

theorem leads_word (word : Text) : leads (.ofWord word) = .letter := by
  unfold Kind.ofWord
  cases Keyword.ofWord? word <;> rfl

theorem piece_leads (piece : Piece config (some kind) lexeme rest) :
    ∃ c cs, lexeme = c :: cs ∧ CharClass.of c = leads kind := by
  cases piece with
  | @punctuation c kind _ known =>
    have listed : ∀ entry ∈ punctuation, leads entry.2 = .punctuation entry.2 := by decide
    have leading := listed (c, kind) ((of_eq_iff (by simp)).mp known)
    exact ⟨c, [], rfl, known.trans leading.symm⟩
  | @alone c _ paired _ known =>
    have listed : ∀ entry ∈ operators, leads entry.2.1 = .operator entry.2.1 entry.2.2 := by decide
    have leading := listed (c, kind, paired) ((of_eq_iff (by simp)).mp known)
    exact ⟨c, [], rfl, known.trans leading.symm⟩
  | @paired c alone _ _ known =>
    have listed : ∀ entry ∈ operators, leads entry.2.2 = .operator entry.2.1 entry.2.2 := by decide
    have leading := listed (c, alone, kind) ((of_eq_iff (by simp)).mp known)
    exact ⟨c, ['='], rfl, known.trans leading.symm⟩
  | slash => exact ⟨'/', [], rfl, rfl⟩
  | @string body _ inside => exact ⟨'"', body ++ ['"'], rfl, rfl⟩
  | whole nonempty inside =>
    obtain ⟨d, digits, rfl⟩ := List.exists_cons_of_ne_nil nonempty
    exact ⟨d, digits, rfl, of_digit (inside d (by simp))⟩
  | @fraction _ places _ nonempty inside =>
    obtain ⟨d, digits, rfl⟩ := List.exists_cons_of_ne_nil nonempty
    exact ⟨d, digits ++ '.' :: places, rfl, of_digit (inside d (by simp))⟩
  | or => exact ⟨'o', [], rfl, of_letter (by decide)⟩
  | @word c cs _ letter => exact ⟨c, cs, rfl, (of_letter letter).trans (leads_word _).symm⟩

/-! ### What follows -/

/-- The text behind a lexeme that ends where it does because of that text: no `=` follows an operator
    alone, no slash a slash, no digit a number and no point with a digit one without places, and no word
    goes on. The `OR` of the shortcut, though, needs an `r` behind it. -/
structure Bounded (config : Config) (kind : Kind) (lexeme rest : Text) : Prop where
  operator : kind ∈ [.bang, .equal, .less, .greater] → Stops (· = '=') rest
  slash : kind = .slash → Stops (· = '/') rest
  number : kind = .number → Stops Digit rest
  places : kind = .number → '.' ∉ lexeme → ∀ after, rest = '.' :: after → Stops Digit after
  or : config.orShortcut = true → kind = .keyword .or → rest.head? = some 'r'
  word : isWord kind = true → ¬ (config.orShortcut = true ∧ kind = .keyword .or) → Stops WordChar rest

/-- The kinds whose lexemes end the same whatever follows them. -/
def closed (kind : Kind) : Bool := !isWord kind && kind ∉ [.bang, .equal, .less, .greater, .slash, .number]

private theorem bounded_of_closed (isClosed : closed kind = true) (lexeme rest : Text) : Bounded config kind lexeme rest := by
  simp only [closed, Bool.and_eq_true, Bool.not_eq_true', decide_eq_true_eq, List.mem_cons, List.not_mem_nil,
    or_false, not_or] at isClosed
  obtain ⟨noWord, noBang, noEqual, noLess, noGreater, noSlash, noNumber⟩ := isClosed
  constructor
  · simp [noBang, noEqual, noLess, noGreater]
  · exact fun isSlash => absurd isSlash noSlash
  · exact fun isNumber => absurd isNumber noNumber
  · exact fun isNumber => absurd isNumber noNumber
  · rintro - rfl
    cases noWord
  · intro isAWord
    rw [noWord] at isAWord
    cases isAWord

private theorem whole_no_point {digits : Text} (inside : ∀ d ∈ digits, Digit d) : '.' ∉ digits :=
  fun member => absurd (inside '.' member) (by decide)

/-- A word that a scan with the shortcut finds is never the whole `or`. -/
theorem word_not_or {c : Char} {cs : Text} (plain : config.orShortcut = true → c = 'o' → Stops (· = 'r') cs) :
    ¬ (config.orShortcut = true ∧ Kind.ofWord (c :: cs) = .keyword .or) := by
  rintro ⟨on, isOr⟩
  obtain ⟨rfl, rfl⟩ := List.cons.inj (ofWord_eq_keyword_iff.mp isOr)
  exact plain on rfl 'r' rfl rfl

private theorem bounded_of_word (isAWord : isWord kind = true) (notOr : ¬ (config.orShortcut = true ∧ kind = .keyword .or))
    (stops : Stops WordChar rest) : Bounded config kind lexeme rest := by
  cases kind with
  | identifier => exact ⟨by simp, nofun, nofun, nofun, nofun, fun _ _ => stops⟩
  | keyword => exact ⟨by simp, nofun, nofun, nofun, fun on isOr => absurd ⟨on, isOr⟩ notOr, fun _ _ => stops⟩
  | _ => cases isAWord

theorem bounded_of_piece (piece : Piece config (some kind) lexeme rest) : Bounded config kind lexeme rest := by
  cases piece with
  | @punctuation c kind _ known =>
    have listed : ∀ entry ∈ punctuation, closed entry.2 = true := by decide
    exact bounded_of_closed (listed (c, kind) ((of_eq_iff (by simp)).mp known)) _ _
  | @alone c _ paired _ known stops =>
    have listed : ∀ entry ∈ operators, entry.2.1 ∈ [.bang, .equal, .less, .greater] := by decide
    have isOperator := listed (c, kind, paired) ((of_eq_iff (by simp)).mp known)
    simp only [List.mem_cons, List.not_mem_nil, or_false] at isOperator
    rcases isOperator with rfl | rfl | rfl | rfl <;> exact ⟨fun _ => stops, nofun, nofun, nofun, nofun, nofun⟩
  | @paired c alone _ _ known =>
    have listed : ∀ entry ∈ operators, closed entry.2.2 = true := by decide
    exact bounded_of_closed (listed (c, alone, kind) ((of_eq_iff (by simp)).mp known)) _ _
  | slash stops => exact ⟨by simp, fun _ => stops, nofun, nofun, nofun, nofun⟩
  | string => exact bounded_of_closed rfl _ _
  | whole nonempty inside stops noPlaces =>
    exact ⟨by simp, nofun, fun _ => stops, fun _ _ => noPlaces, nofun, nofun⟩
  | fraction nonempty inside somePlaces decimals stops =>
    exact ⟨by simp, nofun, fun _ => stops, fun _ noPoint => absurd (by simp) noPoint, nofun, nofun⟩
  | or on head => exact ⟨by simp, nofun, nofun, nofun, fun _ _ => head, fun _ other => absurd ⟨on, rfl⟩ other⟩
  | word letter inside stops plain => exact bounded_of_word (isWord_ofWord _) (word_not_or plain) stops

/-- A lexeme that is cut off one text is cut off another if what follows it there bounds it too. -/
theorem piece_of_bounded (piece : Piece config (some kind) lexeme rest) (bounded : Bounded config kind lexeme other) :
    Piece config (some kind) lexeme other := by
  cases piece with
  | punctuation _ known => exact .punctuation other known
  | @alone c _ paired _ known =>
    have listed : ∀ entry ∈ operators, entry.2.1 ∈ [.bang, .equal, .less, .greater] := by decide
    exact .alone known (bounded.operator (listed (c, kind, paired) ((of_eq_iff (by simp)).mp known)))
  | paired _ known => exact .paired other known
  | slash => exact .slash (bounded.slash rfl)
  | string _ inside => exact .string other inside
  | whole nonempty inside =>
    exact .whole nonempty inside (bounded.number rfl) (bounded.places rfl (whole_no_point inside))
  | fraction nonempty inside somePlaces decimals =>
    exact .fraction nonempty inside somePlaces decimals (bounded.number rfl)
  | or on => exact .or on (bounded.or on rfl)
  | word letter inside stops plain =>
    exact .word letter inside (bounded.word (isWord_ofWord _) (word_not_or plain)) plain

/-! ### Blanks -/

private theorem blank_piece {c : Char} (blank : Blank c) (rest : Text) : Piece config none [c] rest := by
  simp only [Blank, List.mem_cons, List.not_mem_nil, or_false] at blank
  rcases blank with rfl | rfl | rfl | rfl
  · exact .blank rest rfl
  · exact .blank rest rfl
  · exact .blank rest rfl
  · exact .newline rest

/-- A scan passes over blanks. -/
theorem run_blanks {gap : Text} (blanks : ∀ c ∈ gap, Blank c) (position : Position) :
    Scan.run config [] position (gap ++ rest) = Scan.run config [] (position.after gap) rest := by
  induction gap generalizing position with
  | nil => rw [List.nil_append, after_nil]
  | cons c gap ih =>
    obtain ⟨blank, later⟩ := List.forall_mem_cons.mp blanks
    calc Scan.run config [] position ([c] ++ (gap ++ rest))
        = Scan.run config [] (position.after [c]) (gap ++ rest) := run_piece (blank_piece blank _) position
      _ = Scan.run config [] ((position.after [c]).after gap) rest := ih later _
      _ = Scan.run config [] (position.after (c :: gap)) rest := by rw [after_after]; rfl

/-- Nothing follows, or a blank does. -/
def Apart (rest : Text) : Prop := Stops (¬ Blank ·) rest

theorem apart_nil : Apart [] := stops_nil _

theorem apart_cons {c : Char} : Apart (c :: rest) ↔ Blank c := by
  unfold Apart
  rw [stops_cons, not_not]

/-- A blank ends every run of other characters. -/
theorem stops_of_apart {inside : Char → Prop} (apart : Apart rest) (others : ∀ c, inside c → ¬ Blank c) :
    Stops inside rest :=
  fun c head found => apart c head (others c found)

theorem wordChar_not_blank {c : Char} (wordChar : WordChar c) : ¬ Blank c := by
  intro blank
  simp only [Blank, List.mem_cons, List.not_mem_nil, or_false] at blank
  rcases blank with rfl | rfl | rfl | rfl <;> exact absurd wordChar (by decide)

/-- Nothing follows that could belong to a lexeme which another character has not ended yet. -/
def Inert (rest : Text) : Prop := Stops (fun c => WordChar c ∨ c ∈ ['=', '/', '.']) rest

theorem inert_nil : Inert [] := stops_nil _

private theorem inert_of_apart (apart : Apart rest) : Inert rest := by
  refine stops_of_apart apart ?_
  rintro c (wordChar | listed) blank
  · exact wordChar_not_blank wordChar blank
  · simp only [Blank, List.mem_cons, List.not_mem_nil, or_false] at blank
    rcases blank with rfl | rfl | rfl | rfl <;> simp at listed

private theorem bounded_of_inert (notOr : ¬ (config.orShortcut = true ∧ kind = .keyword .or)) (inert : Inert rest) :
    Bounded config kind lexeme rest where
  operator _ := by
    rintro _ head rfl
    exact inert '=' head (by simp)
  slash _ := by
    rintro _ head rfl
    exact inert '/' head (by simp)
  number _ := fun c head digit => inert c head (.inl (.inr digit))
  places _ _ := by
    rintro after rfl
    exact absurd (.inr (by simp)) (inert '.' rfl)
  or on isOr := absurd ⟨on, isOr⟩ notOr
  word _ _ := fun c head wordChar => inert c head (.inl wordChar)

theorem bounded_of_apart (notOr : ¬ (config.orShortcut = true ∧ kind = .keyword .or)) (apart : Apart rest) :
    Bounded config kind lexeme rest :=
  bounded_of_inert notOr (inert_of_apart apart)

/-- Only the first two characters behind a lexeme matter, and an inert text bounds it in place of either. -/
theorem bounded_exchange {one two : Text} (bounded : Bounded config kind lexeme (rest ++ one)) (inert : Inert one)
    (other : Inert two) : Bounded config kind lexeme (rest ++ two) := by
  cases rest with
  | nil =>
    refine bounded_of_inert ?_ other
    rintro ⟨on, isOr⟩
    exact inert 'r' (bounded.or on isOr) (.inl (by decide))
  | cons c rest =>
    refine ⟨bounded.operator, bounded.slash, bounded.number, fun isNumber noPoint after ending => ?_, bounded.or,
      bounded.word⟩
    obtain ⟨rfl, rfl⟩ := List.cons.inj ending
    have stops := bounded.places isNumber noPoint (rest ++ one) rfl
    cases rest with
    | nil => exact fun d head digit => other d head (.inl (.inr digit))
    | cons d rest => exact stops

theorem bounded_append (bounded : Bounded config kind lexeme rest) (apart : Apart other) :
    Bounded config kind lexeme (rest ++ other) := by
  rw [← List.append_nil rest] at bounded
  exact bounded_exchange bounded inert_nil (inert_of_apart apart)

end LoxLexer.Neighbours

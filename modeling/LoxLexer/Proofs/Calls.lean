import LoxLexer.Proofs.Boundaries
import LoxLexer.Proofs.MaximalMunch
import LoxLexer.Proofs.Numerals

/-!
What one call of a scan by a cursor does with the text behind the cursor. From each task that the call comes
through, the steps that are left lead to its outcome (`Leads`); the lemmas go from the end of a lexeme back to its
beginning, over all bytes of a run at once (`leads_over`, `leads_run`). So a call takes the piece that the text
begins with (`leads_piece`), and fails on a stuck text (`leads_stuck`).
-/

namespace LoxLexer.Calls
open LoxLexer.Utf8 LoxLexer.Cursor LoxLexer.Alphabet LoxLexer.Pieces LoxLexer.Boundaries

/-- The cursor so many bytes behind the text where a lexeme begins. -/
def into (before : Text) (count line : Nat) (output : Output) : Cursor :=
  ⟨before.byteSize, before.byteSize + count, line, output⟩

/-- The cursor behind a lexeme, with its token if it is one. -/
def behind (before : Text) (line : Nat) (output : Output) (kind : Option Kind) (lexeme : Text) : Cursor :=
  into before lexeme.byteSize (line + lexeme.lineBreaks) ((tokens ⟨before.byteSize, line⟩ kind lexeme).foldl .push output)

/-- From a task on, so many bytes into the text that is left and on some line, a call comes to an outcome. No step
    of it traps, moves the beginning of the lexeme or leaves the text. -/
inductive Leads (config : Config) (before rest : Text) (output : Output)
    (outcome : Except ScanError Cursor) : Task → Nat → Nat → Prop
  | out {task count line} : count ≤ rest.byteSize →
      step config (encode (before ++ rest)) task (into before count line output) = .ok (.out outcome) →
      Leads config before rest output outcome task count line
  | on {task count line next further lower} : count ≤ rest.byteSize →
      step config (encode (before ++ rest)) task (into before count line output) =
        .ok (.on next (into before further lower output)) →
      Leads config before rest output outcome next further lower →
      Leads config before rest output outcome task count line

variable {config : Config} {before read run left rest lexeme : Text} {output : Output}
  {outcome : Except ScanError Cursor} {task next : Task} {count line lower : Nat} {p : Char → Bool}
  {kind : Kind} {c : Char} {cs : Text}

/-! ### Steps -/

private theorem sees_into (uniform : Uniform p) (before read left : Text) :
    sees (encode (before ++ (read ++ left))) (before.byteSize + read.byteSize) p = left.head?.any p := by
  rw [← List.append_assoc, ← Text.byteSize_append]
  exact sees_encode uniform (before ++ read) left

private theorem sees_character (ascii : c.utf8Size = 1) (before read left : Text) :
    sees (encode (before ++ (read ++ left))) (before.byteSize + read.byteSize) (· = c) = true ↔ left.head? = some c := by
  rw [sees_into (uniform_eq ascii)]
  cases left <;> simp

private theorem not_sees (uniform : Uniform p) {inside : Char → Prop} (decides : ∀ c, p c = true ↔ inside c)
    (stops : Stops inside left) (before read : Text) :
    sees (encode (before ++ (read ++ left))) (before.byteSize + read.byteSize) p = false := by
  rw [sees_into uniform]
  cases left with
  | nil => rfl
  | cons c left =>
    have outside : ¬ p c = true := fun yes => stops c rfl ((decides c).mp yes)
    simpa using outside

private theorem piece_line (piece : Piece config (some kind) lexeme rest) (plain : kind ≠ .string) (line : Nat) :
    line + lexeme.lineBreaks = line := by
  rw [Text.lineBreaks, List.count_eq_zero.mpr (Lines.piece_unbroken piece plain), Nat.add_zero]

/-- The token of what was taken is the one of the lexeme. -/
theorem push_behind (before lexeme left : Text) (kind : Kind) (line : Nat) (output : Output) :
    push (encode (before ++ (lexeme ++ left))) kind (Literal.ofLexeme? kind lexeme)
        (into before lexeme.byteSize (line + lexeme.lineBreaks) output) =
      .ok (.out (.ok (behind before line output (some kind) lexeme))) := by
  have sliced := slice_encode before lexeme left
  simp only [push, into, sliced]
  rfl

private theorem leads_token (piece : Piece config (some kind) lexeme rest) (plain : Literal.ofLexeme? kind lexeme = none) :
    Leads config before (lexeme ++ rest) output (.ok (behind before line output (some kind) lexeme))
      (.token kind) lexeme.byteSize line := by
  have notString : kind ≠ .string := by
    rintro rfl
    cases plain
  have pushed := push_behind before lexeme rest kind line output
  rw [plain, piece_line piece notString] at pushed
  exact .out (by simp) pushed

/-- The first byte decides how a call goes on. -/
theorem leads_first (goesOn : ∀ b ∈ String.utf8EncodeChar c,
      Leads config before (c :: cs) output outcome (.choose b) 1 line) :
    Leads config before (c :: cs) output outcome .first 0 line := by
  obtain ⟨b, byte, member⟩ := first_byte before c cs
  refine .on (Nat.zero_le _) ?_ (goesOn b member)
  simp only [step, into, Nat.add_zero, byte]
  rfl

private theorem leads_chosen (chosen : ∀ b ∈ String.utf8EncodeChar c,
      choose config (encode (before ++ c :: cs)) b (into before 1 line output) = .on next (into before count lower output))
    (later : Leads config before (c :: cs) output outcome next count lower) :
    Leads config before (c :: cs) output outcome .first 0 line := by
  refine leads_first fun b member => .on ?_ (congrArg Except.ok (chosen b member)) later
  have := c.utf8Size_pos
  rw [Text.byteSize_cons]
  omega

private theorem class_byte {named : CharClass} {b : UInt8} (known : CharClass.of c = named) (member : b ∈ String.utf8EncodeChar c) :
    CharClass.of (character b) = named :=
  (byte_alike uniform_class member).trans known

/-! ### Runs of bytes -/

/-- The task takes some bytes one by one, wherever they stand, and counts line breaks among them. -/
def Takes (config : Config) (source : Bytes) (task : Task) (bytes : Bytes) : Prop :=
  ∀ cursor b, b ∈ bytes → source[cursor.current]? = some b →
    step config source task cursor = .ok (.on task { cursor.advance with line := cursor.line + [b].count 0x0A })

/-- The induction over the bytes of a run. The cursor stands behind `front`, wherever in a character that is. -/
theorem leads_bytes {bytes : Bytes} (takes : Takes config (encode (before ++ rest)) task bytes) :
    ∀ {front back : Bytes} {line : Nat}, encode rest = front ++ (bytes ++ back) →
      Leads config before rest output outcome task (front.length + bytes.length) (line + bytes.count 0x0A) →
      Leads config before rest output outcome task front.length line := by
  induction bytes with
  | nil =>
    intro front back line _ later
    exact later
  | cons b bytes ih =>
    intro front back line spelled later
    have within : front.length ≤ rest.byteSize := by
      rw [← length_encode, spelled, List.length_append]
      exact Nat.le_add_right ..
    have byte : (encode (before ++ rest))[before.byteSize + front.length]? = some b := by
      rw [getElem?_encode, spelled]
      simp
    have taken := takes (into before front.length line output) b (by simp) byte
    have further : (front ++ [b]).length = front.length + 1 := List.length_append
    have counted : (b :: bytes).count 0x0A = [b].count 0x0A + bytes.count 0x0A := by
      rw [← List.count_append]
      rfl
    have onward := @ih (fun cursor d member => takes cursor d (List.mem_cons_of_mem b member)) (front ++ [b]) back
      (line + [b].count 0x0A) (by simp [spelled])
    rw [counted, ← Nat.add_assoc, List.length_cons, Nat.add_comm bytes.length, ← Nat.add_assoc] at later
    rw [further] at onward
    exact .on within taken (onward later)

/-- A task that takes the bytes of a run is still to be done behind it. -/
theorem leads_over (read run left : Text)
    (takes : Takes config (encode (before ++ (read ++ (run ++ left)))) task (encode run))
    (later : Leads config before (read ++ (run ++ left)) output outcome task (read ++ run).byteSize (line + run.lineBreaks)) :
    Leads config before (read ++ (run ++ left)) output outcome task read.byteSize line := by
  have spelled : encode (read ++ (run ++ left)) = encode read ++ (encode run ++ encode left) := by simp
  have breaks : (encode run).count 0x0A = run.lineBreaks := by
    rw [← Decoding.lineBreaks_decode, Decoding.decode_encode]
  have onward := @leads_bytes config before _ output outcome task _ takes _ _ line spelled
  rw [breaks, length_encode, length_encode, ← Text.byteSize_append] at onward
  exact onward later

private theorem count_newline (b : UInt8) : [b].count 0x0A = if character b = '\n' then 1 else 0 := by
  by_cases breaks : b = 0x0A
  · rw [breaks]
    rfl
  · have other : character b ≠ '\n' := by
      intro same
      have value : (character b).val.toNat = b.toNat :=
        WellFormed.val_ofNat (.inl (Nat.lt_trans b.toNat_lt (by decide)))
      rw [same] at value
      exact breaks (UInt8.toNat_inj.mp value.symm)
    rw [if_neg other]
    exact List.count_eq_zero.mpr (by simpa using Ne.symm breaks)

/-- A task that takes what is seen to be of some kind takes a run of it. No such run breaks a line. -/
theorem leads_run (read run left : Text) (uniform : Uniform p) (unbroken : p '\n' = false) (inside : ∀ c ∈ run, p c = true)
    (goesOn : ∀ cursor, sees (encode (before ++ (read ++ (run ++ left)))) cursor.current p = true →
      step config (encode (before ++ (read ++ (run ++ left)))) task cursor = .ok (.on task cursor.advance))
    (later : Leads config before (read ++ (run ++ left)) output outcome task (read ++ run).byteSize line) :
    Leads config before (read ++ (run ++ left)) output outcome task read.byteSize line := by
  have flat : run.lineBreaks = 0 := List.count_eq_zero.mpr fun member => by
    cases unbroken.symm.trans (inside '\n' member)
  refine leads_over read run left (fun cursor b member byte => ?_) (by rwa [flat, Nat.add_zero])
  have ofKind : p (character b) = true := bytes_alike uniform inside b member
  have seen : sees (encode (before ++ (read ++ (run ++ left)))) cursor.current p = true := by
    rw [sees, byte]
    exact ofKind
  have other : character b ≠ '\n' := by
    intro same
    rw [same, unbroken] at ofKind
    cases ofKind
  rw [goesOn cursor seen, count_newline, if_neg other]
  rfl

/-! ### Lexemes -/

private theorem leads_single (piece : Piece config (some kind) [c] rest) (plain : Literal.ofLexeme? kind [c] = none)
    (known : CharClass.of c ≠ .foreign)
    (chosen : ∀ b ∈ String.utf8EncodeChar c, choose config (encode (before ++ c :: rest)) b (into before 1 line output) =
      .on (.token kind) (into before 1 line output)) :
    Leads config before (c :: rest) output (.ok (behind before line output (some kind) [c])) .first 0 line := by
  have one : Text.byteSize [c] = 1 := class_ascii known
  refine leads_chosen chosen ?_
  rw [← one]
  exact leads_token piece plain

private theorem leads_comment {body : Text} (inside : ∀ c ∈ body, c ≠ '\n') (stops : Stops (· ≠ '\n') rest) :
    Leads config before ('/' :: '/' :: (body ++ rest)) output (.ok (behind before line output none ('/' :: '/' :: body)))
      .first 0 line := by
  have second : sees (encode (before ++ ('/' :: '/' :: (body ++ rest)))) (before.byteSize + 1) (· = '/') = true :=
    (sees_character rfl before ['/'] ('/' :: (body ++ rest))).mpr rfl
  have nothing : sees (encode (before ++ ('/' :: '/' :: (body ++ rest))))
      (before.byteSize + Text.byteSize ('/' :: '/' :: body)) (· ≠ '\n') = false :=
    not_sees (uniform_ne rfl) (differs_iff '\n') stops before ('/' :: '/' :: body)
  have flat : Text.lineBreaks ('/' :: '/' :: body) = 0 := by
    refine List.count_eq_zero.mpr fun member => ?_
    have inBody : '\n' ∈ body := by simpa using member
    exact inside '\n' inBody rfl
  have ended : Leads config before ('/' :: '/' :: (body ++ rest)) output
      (.ok (behind before line output none ('/' :: '/' :: body))) .comment (Text.byteSize ('/' :: '/' :: body)) line := by
    refine .out (by simp) ?_
    simp only [step, into, nothing, behind, flat]
    rfl
  have passed : Leads config before ('/' :: '/' :: (body ++ rest)) output
      (.ok (behind before line output none ('/' :: '/' :: body))) .comment (Text.byteSize ['/', '/']) line :=
    leads_run ['/', '/'] body rest (uniform_ne rfl) rfl (fun c member => (differs_iff '\n' c).mpr (inside c member))
      (fun cursor seen => if_pos seen) ended
  refine leads_chosen (fun b member => ?_) passed
  simp only [choose, class_byte rfl member, into, second, ↓reduceIte]
  rfl

/-- Within a string every byte but a quote is taken. -/
theorem takes_string {source : Bytes} {body : Text} (inside : ∀ c ∈ body, c ≠ '"') :
    Takes config source .string (encode body) := by
  intro cursor b member byte
  have notQuote : character b ≠ '"' :=
    of_decide_eq_true (bytes_alike (uniform_ne rfl) (fun c member => decide_eq_true (inside c member)) b member)
  simp only [step, byte, notQuote, ↓reduceIte, count_newline]
  by_cases breaks : character b = '\n'
  · simp only [breaks, ↓reduceIte]
    rfl
  · simp only [breaks, ↓reduceIte]
    rfl

/-- What stands behind an opening quote is taken up to a closing one. -/
theorem leads_body {body : Text} (inside : ∀ c ∈ body, c ≠ '"')
    (later : Leads config before ('"' :: (body ++ rest)) output outcome .string (Text.byteSize ('"' :: body))
      (line + body.lineBreaks)) : Leads config before ('"' :: (body ++ rest)) output outcome .first 0 line := by
  have passed : Leads config before ('"' :: (body ++ rest)) output outcome .string (Text.byteSize ['"']) line :=
    leads_over ['"'] body rest (takes_string inside) later
  refine leads_chosen (fun b member => ?_) passed
  simp only [choose, class_byte rfl member]
  rfl

/-- Behind the closing quote the value is what stands between the quotes. -/
theorem leads_quoted (body : Text) :
    Leads config before ('"' :: (body ++ '"' :: rest)) output
      (.ok (behind before line output (some .string) ('"' :: (body ++ ['"'])))) .quoted
      (Text.byteSize ('"' :: body) + 1) (line + body.lineBreaks) := by
  have taken : Text.byteSize ('"' :: (body ++ ['"'])) = Text.byteSize ('"' :: body) + 1 :=
    Text.byteSize_append ('"' :: body) ['"']
  have flat : Text.lineBreaks ('"' :: (body ++ ['"'])) = body.lineBreaks := by simp [Text.lineBreaks]
  have within : Text.byteSize ('"' :: body) + 1 ≤ Text.byteSize ('"' :: (body ++ '"' :: rest)) := by
    have whole : '"' :: (body ++ '"' :: rest) = '"' :: (body ++ ['"']) ++ rest := by simp
    rw [← taken, whole, Text.byteSize_append]
    exact Nat.le_add_right ..
  have value : slice (encode (before ++ '"' :: (body ++ '"' :: rest))) (before.byteSize + 1)
      (before.byteSize + 1 + body.byteSize) = .ok body := by
    have sliced := slice_encode (before ++ ['"']) body ('"' :: rest)
    rwa [List.append_assoc, Text.byteSize_append] at sliced
  have inner : before.byteSize + (Text.byteSize ('"' :: body) + 1) - 1 = before.byteSize + 1 + body.byteSize :=
    Nat.add_assoc before.byteSize 1 body.byteSize ▸ rfl
  have pushed := push_behind before ('"' :: (body ++ ['"'])) rest .string line output
  rw [MaximalMunch.string_literal, taken, flat, List.cons_append, List.append_assoc] at pushed
  refine .out within ?_
  simp only [step, into, inner, value]
  exact pushed

private theorem leads_string {body : Text} (inside : ∀ c ∈ body, c ≠ '"') :
    Leads config before ('"' :: (body ++ '"' :: rest)) output
      (.ok (behind before line output (some .string) ('"' :: (body ++ ['"'])))) .first 0 line := by
  obtain ⟨b, byte, member⟩ := first_byte (before ++ '"' :: body) '"' rest
  rw [List.append_assoc, Text.byteSize_append, List.cons_append] at byte
  have quote : character b = '"' := character_byte rfl member
  refine leads_body inside (.on (by simp) ?_ (leads_quoted body))
  simp only [step, into, byte, quote, ↓reduceIte]
  rfl

private theorem leads_numeral (piece : Piece config (some .number) lexeme rest) :
    Leads config before (lexeme ++ rest) output (.ok (behind before line output (some .number) lexeme))
      .numeral lexeme.byteSize line := by
  have sliced := slice_encode before lexeme rest
  have decoded : Binary64.decode lexeme = .ok (.ofNumeral lexeme) :=
    if_pos (isNumeral_iff.mpr (Numerals.numeral_of_piece piece))
  have pushed := push_behind before lexeme rest .number line output
  rw [piece_line piece (by simp)] at pushed
  refine .out (by simp) ?_
  simp only [step, into, sliced]
  change (Binary64.decode lexeme >>= _) = _
  rw [decoded]
  exact pushed

/-- The digits of a number are taken. -/
theorem leads_digits {digits : Text} (digit : Digit c) (inside : ∀ d ∈ digits, Digit d)
    (later : Leads config before (c :: (digits ++ rest)) output outcome .whole (Text.byteSize (c :: digits)) line) :
    Leads config before (c :: (digits ++ rest)) output outcome .first 0 line := by
  have one : Text.byteSize [c] = 1 := Lookahead.digit_ascii digit
  have passed : Leads config before (c :: (digits ++ rest)) output outcome .whole (Text.byteSize [c]) line :=
    leads_run [c] digits rest uniform_digit rfl (fun d member => (isDigit_iff d).mpr (inside d member))
      (fun cursor seen => if_pos seen) later
  refine leads_chosen (fun b member => ?_) passed
  rw [one]
  simp only [choose, class_byte (of_digit digit) member]

private theorem leads_whole {digits : Text} (digit : Digit c) (inside : ∀ d ∈ digits, Digit d) (stops : Stops Digit rest)
    (noPlaces : ∀ after, rest = '.' :: after → Stops Digit after) :
    Leads config before (c :: (digits ++ rest)) output (.ok (behind before line output (some .number) (c :: digits)))
      .first 0 line := by
  have piece : Piece config (some .number) (c :: digits) rest :=
    .whole (by simp) (List.forall_mem_cons.mpr ⟨digit, inside⟩) stops noPlaces
  have nothing : sees (encode (before ++ (c :: (digits ++ rest)))) (before.byteSize + Text.byteSize (c :: digits))
      Char.isDigit = false := not_sees uniform_digit isDigit_iff stops before (c :: digits)
  have noFraction : ¬ (sees (encode (before ++ (c :: (digits ++ rest)))) (before.byteSize + Text.byteSize (c :: digits))
      (· = '.') = true ∧ sees (encode (before ++ (c :: (digits ++ rest))))
        (before.byteSize + Text.byteSize (c :: digits) + 1) Char.isDigit = true) := by
    rintro ⟨point, place⟩
    obtain ⟨after, rfl⟩ := List.head?_eq_some_iff.mp ((sees_character rfl before (c :: digits) rest).mp point)
    have more := not_sees uniform_digit isDigit_iff (noPlaces after rfl) before (c :: digits ++ ['.'])
    rw [List.append_assoc, Text.byteSize_append] at more
    cases more.symm.trans place
  refine leads_digits digit inside (.on (by simp) ?_ (leads_numeral piece))
  simp only [step, into, nothing, noFraction]
  rfl

/-- Behind the point of a number its places are taken. -/
theorem leads_places {whole places : Text} (piece : Piece config (some .number) (whole ++ '.' :: places) rest)
    (decimals : ∀ d ∈ places, Digit d) (stops : Stops Digit rest) :
    Leads config before (whole ++ '.' :: (places ++ rest)) output
      (.ok (behind before line output (some .number) (whole ++ '.' :: places))) .places (whole.byteSize + 1) line := by
  have spelled : whole ++ '.' :: (places ++ rest) = (whole ++ ['.']) ++ (places ++ rest) := by simp
  have taken : whole ++ '.' :: places = whole ++ ['.'] ++ places := by simp
  have nothing := not_sees uniform_digit isDigit_iff stops before (whole ++ '.' :: places)
  have numeral := @leads_numeral config before rest _ output line piece
  have ended : Leads config before (whole ++ '.' :: places ++ rest) output
      (.ok (behind before line output (some .number) (whole ++ '.' :: places))) .places
      (whole ++ '.' :: places).byteSize line := by
    refine .on (by simp) ?_ numeral
    simp only [step, into, nothing]
    rfl
  have point : (whole ++ ['.']).byteSize = whole.byteSize + 1 := Text.byteSize_append whole ['.']
  rw [taken, List.append_assoc] at ended
  rw [taken, spelled, ← point]
  exact leads_run (whole ++ ['.']) places rest uniform_digit rfl (fun d member => (isDigit_iff d).mpr (decimals d member))
    (fun cursor seen => if_pos seen) ended

private theorem leads_fraction {digits places : Text} (digit : Digit c) (inside : ∀ d ∈ digits, Digit d) (nonempty : places ≠ [])
    (decimals : ∀ d ∈ places, Digit d) (stops : Stops Digit rest) :
    Leads config before (c :: (digits ++ '.' :: (places ++ rest))) output
      (.ok (behind before line output (some .number) (c :: (digits ++ '.' :: places)))) .first 0 line := by
  have piece : Piece config (some .number) (c :: digits ++ '.' :: places) rest :=
    .fraction (by simp) (List.forall_mem_cons.mpr ⟨digit, inside⟩) nonempty decimals stops
  have pointStops : Stops Digit ('.' :: (places ++ rest)) := stops_cons.mpr (by decide)
  have nothing : sees (encode (before ++ (c :: (digits ++ '.' :: (places ++ rest)))))
      (before.byteSize + Text.byteSize (c :: digits)) Char.isDigit = false :=
    not_sees uniform_digit isDigit_iff pointStops before (c :: digits)
  have point : sees (encode (before ++ (c :: (digits ++ '.' :: (places ++ rest)))))
      (before.byteSize + Text.byteSize (c :: digits)) (· = '.') = true :=
    (sees_character rfl before (c :: digits) ('.' :: (places ++ rest))).mpr rfl
  have place : sees (encode (before ++ (c :: (digits ++ '.' :: (places ++ rest)))))
      (before.byteSize + Text.byteSize (c :: digits) + 1) Char.isDigit = true := by
    obtain ⟨d, places, rfl⟩ := List.exists_cons_of_ne_nil nonempty
    have seen := sees_into uniform_digit before (c :: digits ++ ['.']) (d :: places ++ rest)
    rw [List.append_assoc, Text.byteSize_append] at seen
    exact seen.trans ((isDigit_iff d).mpr (decimals d (by simp)))
  refine leads_digits digit inside (.on (by simp) ?_ (leads_places piece decimals stops))
  simp only [step, into, nothing, point, place]
  rfl

theorem leads_word (letter : Letter c) (inside : ∀ x ∈ cs, WordChar x) (stops : Stops WordChar rest)
    (plain : config.orShortcut = true → c = 'o' → Stops (· = 'r') cs) :
    Leads config before (c :: (cs ++ rest)) output (.ok (behind before line output (some (.ofWord (c :: cs))) (c :: cs)))
      .first 0 line := by
  have piece : Piece config (some (.ofWord (c :: cs))) (c :: cs) rest := .word letter inside stops plain
  have one : Text.byteSize [c] = 1 := Lookahead.wordChar_ascii (.inl letter)
  have nothing : sees (encode (before ++ (c :: (cs ++ rest)))) (before.byteSize + Text.byteSize (c :: cs))
      CharClass.isWordChar = false := not_sees uniform_wordChar isWordChar_iff stops before (c :: cs)
  have sliced : slice (encode (before ++ (c :: (cs ++ rest)))) before.byteSize
      (before.byteSize + Text.byteSize (c :: cs)) = .ok (c :: cs) := slice_encode before (c :: cs) rest
  have ended : Leads config before (c :: (cs ++ rest)) output
      (.ok (behind before line output (some (.ofWord (c :: cs))) (c :: cs))) .word (Text.byteSize (c :: cs)) line := by
    refine .on (by simp) ?_ (leads_token piece (word_literal (c :: cs)))
    simp only [step, into, nothing, sliced]
    rfl
  have passed : Leads config before (c :: (cs ++ rest)) output
      (.ok (behind before line output (some (.ofWord (c :: cs))) (c :: cs))) .word (Text.byteSize [c]) line :=
    leads_run [c] cs rest uniform_wordChar rfl (fun x member => (isWordChar_iff x).mpr (inside x member))
      (fun cursor seen => if_pos seen) ended
  have second : sees (encode (before ++ (c :: (cs ++ rest)))) (before.byteSize + 1) (· = 'r') = true ↔
      (cs ++ rest).head? = some 'r' := by
    rw [← one]
    exact sees_character rfl before [c] (cs ++ rest)
  rw [one] at passed
  refine leads_chosen (fun b member => ?_) passed
  have noShortcut : ¬ (config.orShortcut = true ∧ character b = 'o' ∧
      sees (encode (before ++ (c :: (cs ++ rest)))) (before.byteSize + 1) (· = 'r') = true) := by
    rintro ⟨on, isO, isR⟩
    rw [character_byte one member] at isO
    exact shortcut_off stops (plain on isO) (second.mp isR)
  simp only [choose, class_byte (of_letter letter) member]
  exact if_neg noShortcut

private theorem leads_alone {alone paired : Kind} (known : CharClass.of c = .operator alone paired) (stops : Stops (· = '=') rest) :
    Leads config before (c :: rest) output (.ok (behind before line output (some alone) [c])) .first 0 line := by
  have other : CharClass.of c ≠ .foreign := by simp [known]
  have one : Text.byteSize [c] = 1 := class_ascii other
  have plain := (MaximalMunch.operator_literal ((of_eq_iff (by simp)).mp known) [c]).1
  have nothing := not_sees (uniform_eq rfl) (fun _ => decide_eq_true_iff) stops before [c]
  rw [one] at nothing
  refine leads_single (.alone known stops) plain other fun b member => ?_
  simp only [choose, class_byte known member]
  exact if_neg (Bool.eq_false_iff.mp nothing)

private theorem leads_paired {alone paired : Kind} (known : CharClass.of c = .operator alone paired) :
    Leads config before (c :: '=' :: rest) output (.ok (behind before line output (some paired) [c, '='])) .first 0 line := by
  have one : Text.byteSize [c] = 1 := class_ascii (by simp [known])
  have plain := (MaximalMunch.operator_literal ((of_eq_iff (by simp)).mp known) [c, '=']).2
  have follows := (sees_character rfl before [c] ('=' :: rest)).mpr rfl
  rw [one] at follows
  have two : Text.byteSize [c, '='] = 1 + 1 := congrArg (· + 1) one
  have token := @leads_token config before rest _ output line _ (.paired rest known) plain
  refine leads_chosen (fun b member => ?_) token
  rw [two]
  simp only [choose, class_byte known member]
  exact if_pos follows

private theorem leads_slash (stops : Stops (· = '/') rest) :
    Leads config before ('/' :: rest) output (.ok (behind before line output (some .slash) ['/'])) .first 0 line := by
  have nothing := not_sees (uniform_eq rfl) (fun _ => decide_eq_true_iff) stops before ['/']
  refine leads_single (.slash stops) rfl (by decide) fun b member => ?_
  simp only [choose, class_byte rfl member]
  exact if_neg (Bool.eq_false_iff.mp nothing)

private theorem leads_or (on : config.orShortcut = true) (head : rest.head? = some 'r') :
    Leads config before ('o' :: rest) output (.ok (behind before line output (some (.keyword .or)) ['o'])) .first 0 line := by
  have follows := (sees_character rfl before ['o'] rest).mpr head
  refine leads_single (.or on head) rfl (by decide) fun b member => ?_
  simp only [choose, class_byte rfl member]
  exact if_pos ⟨on, character_byte rfl member, follows⟩

private theorem leads_blank (known : CharClass.of c = .blank) :
    Leads config before (c :: rest) output (.ok (behind before line output none [c])) .first 0 line := by
  have one : Text.byteSize [c] = 1 := class_ascii (by simp [known])
  have flat : Text.lineBreaks [c] = 0 := by
    refine List.count_eq_zero.mpr fun member => ?_
    obtain rfl := List.mem_singleton.mp member
    cases known
  refine leads_first fun b member => .out ?_ ?_
  · rw [Text.byteSize_cons, class_ascii (by simp [known])]
    exact Nat.le_add_right ..
  · simp only [step, choose, class_byte known member, behind, one, flat]
    rfl

private theorem leads_newline :
    Leads config before ('\n' :: rest) output (.ok (behind before line output none ['\n'])) .first 0 line := by
  refine leads_first fun b member => .out (Nat.le_add_right 1 rest.byteSize) ?_
  simp only [step, choose, class_byte rfl member]
  rfl

/-- A call takes the piece that the text behind the cursor begins with. -/
theorem leads_piece {kind : Option Kind} (piece : Piece config kind lexeme rest) :
    Leads config before (lexeme ++ rest) output (.ok (behind before line output kind lexeme)) .first 0 line := by
  cases piece with
  | @punctuation c kind _ known =>
    have plain := MaximalMunch.punctuation_literal ((of_eq_iff (by simp)).mp known) [c]
    refine leads_single (.punctuation rest known) plain (by simp [known]) fun b member => ?_
    simp only [choose, class_byte known member]
  | alone known stops => exact leads_alone known stops
  | paired _ known => exact leads_paired known
  | slash stops => exact leads_slash stops
  | comment inside stops => exact leads_comment inside stops
  | blank _ known => exact leads_blank known
  | newline => exact leads_newline
  | @string body _ inside =>
    rw [List.cons_append, List.append_assoc]
    exact leads_string inside
  | whole nonempty inside stops noPlaces =>
    obtain ⟨d, digits, rfl⟩ := List.exists_cons_of_ne_nil nonempty
    obtain ⟨digit, later⟩ := List.forall_mem_cons.mp inside
    exact leads_whole digit later stops noPlaces
  | fraction nonempty inside somePlaces decimals stops =>
    obtain ⟨d, digits, rfl⟩ := List.exists_cons_of_ne_nil nonempty
    obtain ⟨digit, later⟩ := List.forall_mem_cons.mp inside
    rw [List.append_assoc]
    exact leads_fraction digit later somePlaces decimals stops
  | or on head => exact leads_or on head
  | word letter inside stops plain => exact leads_word letter inside stops plain

private theorem leads_foreign (known : CharClass.of c = .foreign) :
    Leads config before (c :: rest) output (.error (.unexpectedCharacter line c)) .first 0 line := by
  have within : 1 ≤ Text.byteSize (c :: rest) := Nat.le_add_right_of_le c.utf8Size_pos
  have refused : Leads config before (c :: rest) output (.error (.unexpectedCharacter line c)) .refuse 1 line := by
    refine .out within ?_
    simp only [step, into, slice_tail]
    rfl
  refine leads_chosen (fun b member => ?_) refused
  simp only [choose, class_byte known member]

private theorem leads_unterminated {body : Text} (inside : ∀ c ∈ body, c ≠ '"') :
    Leads config before ('"' :: (body ++ [])) output (.error (.unterminatedString (line + body.lineBreaks))) .first 0 line := by
  have nothing : (encode (before ++ '"' :: (body ++ [])))[before.byteSize + Text.byteSize ('"' :: body)]? = none := by
    rw [List.append_nil, ← Text.byteSize_append, ← length_encode]
    exact List.getElem?_eq_none (Nat.le_refl _)
  refine leads_body inside (.out (by simp) ?_)
  simp only [step, into, nothing]

/-- A call fails on a text that begins with no lexeme. -/
theorem leads_stuck {fault : Fault} (stuck : Stuck rest fault) :
    Leads config before rest output (.error (Scan.errorAt ⟨before.byteSize, line⟩ rest fault)) .first 0 line := by
  cases stuck with
  | foreign cs known => exact leads_foreign known
  | @unterminated cs inside =>
    have flat : Text.lineBreaks ('"' :: cs) = Text.lineBreaks cs := List.count_cons_of_ne (by decide)
    have fails := @leads_unterminated config before output line cs inside
    rwa [← flat, List.append_nil] at fails

end LoxLexer.Calls

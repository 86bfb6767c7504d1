import LoxLexer.Proofs.Neighbours
import LoxLexer.Proofs.WellFormed

/-!
How far a scan looks ahead. A lexeme is cut off as soon as two bytes behind it are known
(`piece_agree`); the second is needed for a number, where a digit may stand behind a point. So two texts
that begin with the same bytes have the same tokens up to two bytes before the end of what they share
(`run_settled`), whatever stands behind it.
-/

namespace LoxLexer.Lookahead
open LoxLexer.Alphabet LoxLexer.Pieces LoxLexer.Neighbours

/-- Two texts with the same first `n` bytes. They are equal if one of them has no more. -/
def Agree (n : Nat) (one two : Text) : Prop := (Utf8.encode one).take n = (Utf8.encode two).take n

/-- The tokens whose lexemes end at least two bytes before an offset. -/
def settled (n : Nat) (found : List SourceToken) : List SourceToken :=
  found.filter fun token => token.start + token.lexeme.byteSize + 2 ≤ n

variable {config : Config} {n : Nat} {one two rest other text : Text}

/-! ### Texts that agree -/

private theorem agree_symm (agree : Agree n one two) : Agree n two one := agree.symm

theorem encode_cons (c : Char) (text : Text) : Utf8.encode (c :: text) = String.utf8EncodeChar c ++ Utf8.encode text :=
  List.flatMap_cons ..

private theorem take_cons (c : Char) (text : Text) (n : Nat) :
    (Utf8.encode (c :: text)).take (c.utf8Size + n) = String.utf8EncodeChar c ++ (Utf8.encode text).take n := by
  rw [encode_cons, ← String.length_utf8EncodeChar, List.take_length_add_append]

private theorem agree_cons {c : Char} (agree : Agree (c.utf8Size + n) (c :: one) two) :
    ∃ other, two = c :: other ∧ Agree n one other := by
  have bytes : String.utf8EncodeChar c ++ ((Utf8.encode one).take n ++ (Utf8.encode two).drop (c.utf8Size + n)) =
      Utf8.encode two := by
    rw [← List.append_assoc, ← take_cons, show List.take _ _ = _ from agree, List.take_append_drop]
  cases two with
  | nil =>
    have empty := (List.append_eq_nil_iff.mp bytes).1
    exact absurd empty String.utf8EncodeChar_ne_nil
  | cons d other =>
    rw [encode_cons] at bytes
    obtain rfl := WellFormed.char_unique bytes
    refine ⟨other, rfl, ?_⟩
    unfold Agree at agree
    rw [take_cons, take_cons] at agree
    exact List.append_cancel_left agree

private theorem agree_append {lexeme : Text} (agree : Agree (lexeme.byteSize + n) (lexeme ++ one) two) :
    ∃ other, two = lexeme ++ other ∧ Agree n one other := by
  induction lexeme generalizing two with
  | nil => exact ⟨two, rfl, by simpa using agree⟩
  | cons c lexeme ih =>
    rw [Text.byteSize_cons, Nat.add_assoc] at agree
    obtain ⟨behind, rfl, later⟩ := agree_cons agree
    obtain ⟨other, rfl, same⟩ := ih later
    exact ⟨other, rfl, same⟩

/-! ### What stands behind a lexeme -/

theorem wordChar_ascii {c : Char} (wordChar : WordChar c) : c.utf8Size = 1 := by
  have bounded : c ≤ 'z' := by
    rcases wordChar with (⟨-, upper⟩ | ⟨-, lower⟩ | rfl) | ⟨-, digit⟩
    · exact Char.le_trans upper (by decide)
    · exact lower
    · decide
    · exact Char.le_trans digit (by decide)
  rw [Char.utf8Size_eq_one_iff]
  exact UInt32.le_trans bounded (by decide)

theorem digit_ascii {c : Char} (digit : Digit c) : c.utf8Size = 1 := wordChar_ascii (.inr digit)

/-- The first byte of a text decides whether a given ASCII character is in front. -/
theorem head_agree {c : Char} (ascii : c.utf8Size = 1) (agree : Agree (n + 1) rest other) (head : rest.head? = some c) :
    ∃ behind after, rest = c :: behind ∧ other = c :: after ∧ Agree n behind after := by
  obtain ⟨behind, rfl⟩ := List.head?_eq_some_iff.mp head
  rw [Nat.add_comm, ← ascii] at agree
  obtain ⟨after, rfl, same⟩ := agree_cons agree
  exact ⟨behind, after, rfl, rfl, same⟩

private theorem stops_agree {inside : Char → Prop} (ascii : ∀ c, inside c → c.utf8Size = 1) (agree : Agree (n + 1) rest other)
    (stops : Stops inside rest) : Stops inside other := by
  intro c head yes
  obtain ⟨after, behind, rfl, rfl, -⟩ := head_agree (ascii c yes) (agree_symm agree) head
  exact stops c rfl yes

private theorem nil_agree (agree : Agree (n + 1) [] other) : other = [] := by
  cases other with
  | nil => rfl
  | cons c other =>
    have empty : (Utf8.encode (c :: other)).take (n + 1) = [] := agree.symm
    rw [encode_cons] at empty
    simp [String.utf8EncodeChar_ne_nil] at empty

private theorem bounded_agree {kind : Kind} {lexeme : Text} (agree : Agree (n + 2) rest other)
    (bounded : Bounded config kind lexeme rest) : Bounded config kind lexeme other where
  operator isOperator := stops_agree (by rintro _ rfl; rfl) agree (bounded.operator isOperator)
  slash isSlash := stops_agree (by rintro _ rfl; rfl) agree (bounded.slash isSlash)
  number isNumber := stops_agree (fun _ => digit_ascii) agree (bounded.number isNumber)
  places isNumber whole := by
    rintro after rfl
    -- the point is the first byte behind the number, so the second is left for the digit
    obtain ⟨_, before, point, rfl, same⟩ := head_agree rfl (agree_symm agree) rfl
    obtain ⟨-, rfl⟩ := List.cons.inj point
    exact stops_agree (fun _ => digit_ascii) (agree_symm same) (bounded.places isNumber whole before rfl)
  or on isOr := by
    obtain ⟨behind, after, -, rfl, -⟩ := head_agree rfl agree (bounded.or on isOr)
    rfl
  word isAWord notOr := stops_agree (fun _ => wordChar_ascii) agree (bounded.word isAWord notOr)

/-- Two bytes behind a lexeme are enough to cut it off. -/
theorem piece_agree {kind : Option Kind} {lexeme : Text} (agree : Agree (n + 2) rest other)
    (piece : Piece config kind lexeme rest) : Piece config kind lexeme other := by
  cases kind with
  | some kind => exact piece_of_bounded piece (bounded_agree agree (bounded_of_piece piece))
  | none =>
    cases piece with
    | blank _ known => exact .blank other known
    | newline => exact .newline other
    | comment inside stops =>
      refine .comment inside ?_
      cases rest with
      | nil =>
        rw [nil_agree agree]
        exact stops_nil _
      | cons c rest =>
        obtain rfl : c = '\n' := by simpa using stops_cons.mp stops
        obtain ⟨behind, after, -, rfl, -⟩ := head_agree rfl agree rfl
        exact stops_cons.mpr (by simp)

/-! ### Tokens that are settled -/

/-- A piece in front of a text, with two more bytes behind it among the first `n`. -/
def Visible (config : Config) (n : Nat) (text : Text) : Prop :=
  ∃ kind lexeme rest, text = lexeme ++ rest ∧ Piece config kind lexeme rest ∧ lexeme.byteSize + 2 ≤ n

private theorem visible_agree (agree : Agree n one two) (visible : Visible config n one) : Visible config n two := by
  obtain ⟨kind, lexeme, rest, rfl, piece, inside⟩ := visible
  obtain ⟨m, rfl⟩ := Nat.exists_eq_add_of_le inside
  rw [Nat.add_assoc, Nat.add_comm 2] at agree
  obtain ⟨other, rfl, same⟩ := agree_append agree
  exact ⟨kind, lexeme, other, rfl, piece_agree same piece, inside⟩

private theorem run_start {position : Position} {token : SourceToken}
    (member : token ∈ (Scan.run config [] position text).tokens) : position.offset ≤ token.start := by
  obtain ⟨before, kind, after, -, -, same⟩ := run_place text position member
  rw [same]
  simp [Scan.tokenAt, Position.after]

/-- If the first piece is not visible, no token ends early enough. -/
theorem run_unsettled (hidden : ¬ Visible config n text) (position : Position) :
    settled (position.offset + n) (Scan.run config [] position text).tokens = [] := by
  unfold settled
  rw [List.filter_eq_nil_iff]
  intro token member
  rw [decide_eq_true_iff]
  induction text using text_induction config with
  | nil => simp at member
  | stuck stuck => simp [run_stuck stuck] at member
  | @piece kind lexeme rest piece _ =>
    have long : n < lexeme.byteSize + 2 := by
      by_contra short
      exact hidden ⟨kind, lexeme, rest, rfl, piece, by omega⟩
    rw [run_piece piece] at member
    rcases List.mem_append.mp member with here | behind
    · cases kind with
      | none => cases here
      | some kind =>
        obtain rfl : token = Scan.tokenAt position kind lexeme := by simpa [tokens] using here
        simp only [Scan.tokenAt]
        omega
    · have start := run_start behind
      simp only [Position.after] at start
      omega

private theorem settled_hidden (agree : Agree n one two) (hidden : ¬ Visible config n one) (position : Position) :
    settled (position.offset + n) (Scan.run config [] position one).tokens =
      settled (position.offset + n) (Scan.run config [] position two).tokens := by
  have other : ¬ Visible config n two := fun visible => hidden (visible_agree (agree_symm agree) visible)
  rw [run_unsettled hidden, run_unsettled other]

/-- Two texts that agree are scanned in step as long as the first piece is visible, and from then on
    neither has a settled token. -/
theorem run_settled (one : Text) : ∀ (two : Text) (n : Nat) (position : Position), Agree n one two →
    settled (position.offset + n) (Scan.run config [] position one).tokens =
      settled (position.offset + n) (Scan.run config [] position two).tokens := by
  induction one using text_induction config with
  | nil =>
    intro two n position agree
    apply settled_hidden agree
    rintro ⟨kind, lexeme, rest, spelled, piece, -⟩
    exact piece_nonempty piece (List.append_eq_nil_iff.mp spelled.symm).1
  | stuck stuck =>
    intro two n position agree
    apply settled_hidden agree
    rintro ⟨kind, lexeme, rest, rfl, piece, -⟩
    exact stuck_no_piece stuck piece
  | @piece kind lexeme rest piece later =>
    intro two n position agree
    by_cases inside : lexeme.byteSize + 2 ≤ n
    · obtain ⟨m, rfl⟩ := Nat.exists_eq_add_of_le inside
      rw [Nat.add_assoc, Nat.add_comm 2] at agree ⊢
      obtain ⟨other, rfl, same⟩ := agree_append agree
      have behind := later other (m + 2) (position.after lexeme) same
      have bound : (position.after lexeme).offset + (m + 2) = position.offset + (lexeme.byteSize + (m + 2)) :=
        Nat.add_assoc ..
      rw [bound] at behind
      rw [run_piece piece, run_piece (piece_agree same piece)]
      unfold settled at behind ⊢
      rw [List.filter_append, List.filter_append, behind]
    · apply settled_hidden agree
      rintro ⟨_, word, after, spelled, found, visible⟩
      obtain ⟨-, rfl, -⟩ := piece_unique piece found spelled
      exact inside visible

/-- Two texts with the same first `n` bytes have the same tokens as far as these end at `n - 2` or before,
    whatever stands behind the shared bytes and however the two scans end. At `n - 1` this is no longer so:
    a number ends there in the first of two texts that share both their bytes, and in the second it goes on. -/
theorem tokens_settled (config : Config) :
    (∀ (n : Nat) (one two : Text), Agree n one two →
      settled n (Scan.ofText config one).tokens = settled n (Scan.ofText config two).tokens) ∧
    Agree 2 ['1', '.'] ['1', '.', '5'] ∧
      (∃ token ∈ (Scan.ofText config ['1', '.']).tokens, token.start + token.lexeme.byteSize + 1 = 2) ∧
      ∀ token ∈ (Scan.ofText config ['1', '.']).tokens, token ∉ (Scan.ofText config ['1', '.', '5']).tokens := by
  obtain ⟨shortcut⟩ := config
  refine ⟨fun n one two agree => ?_, rfl, ?_, ?_⟩
  · have whole := @run_settled ⟨shortcut⟩ one two n .start agree
    rwa [show Position.start.offset + n = n from Nat.zero_add n] at whole
  · cases shortcut <;> decide +kernel
  · cases shortcut <;> decide +kernel

theorem tokens_settled_within_character :
    let one := "\"é\" 1.é".toList
    let two := "\"é\" 1.ê\"".toList
    let string : SourceToken := ⟨⟨.string, "\"é\"".toList, some (.string ['é']), 1⟩, 0⟩
    let number : SourceToken := ⟨⟨.number, ['1'], some (.number (.ofNumeral ['1'])), 1⟩, 5⟩
    Agree 8 one two ∧ settled 8 (Scan.ofText {} one).tokens = [string, number] ∧
      settled 8 (Scan.ofText {} two).tokens = [string, number] ∧
      (Scan.ofText {} one).error = some (.unexpectedCharacter 1 'é') ∧
      (Scan.ofText {} two).error = some (.unexpectedCharacter 1 'ê') := by
  intro one two string number
  have agree : Agree 8 one two := by
    unfold Agree
    decide +kernel
  have first : settled 8 (Scan.ofText {} one).tokens = [string, number] := by decide +kernel
  have second := (tokens_settled {}).1 8 one two agree
  exact ⟨agree, first, second ▸ first, by decide +kernel, by decide +kernel⟩

end LoxLexer.Lookahead

import LoxLexer.Arguments
import LoxLexer.Proofs.Decoding
import LoxLexer.Proofs.Lines
import LoxLexer.Proofs.Settings

/-!
Interactive sessions. A session cuts its input behind each of its line feeds, and what it writes is written
for one line after the other (`acts_session`). Decoding puts a line break only where a line ends, so no lexeme
of a line but an open string gets past line 1 (`token_first_line`, `foreign_first_line`).
-/

namespace LoxLexer.Session
open LoxLexer.Pieces LoxLexer.Lines LoxLexer.Effects LoxLexer.Runs

/-! ### Lines of bytes -/

/-- The input line by line. Each line ends in the line feed that it was read up to, only the last may lack
    one, and then it is not empty. -/
inductive InLines : Bytes → List Bytes → Prop
  | nil : InLines [] []
  | last {line} : line ≠ [] → 0x0A ∉ line → InLines line [line]
  | line {body rest later} : 0x0A ∉ body → InLines rest later →
      InLines (body ++ 0x0A :: rest) ((body ++ [0x0A]) :: later)

/-- The lines of some bytes. -/
def inputLines (input : Bytes) : List Bytes :=
  input.foldr
    (fun b lines =>
      if b = 0x0A then [b] :: lines
      else
        match lines with
        | [] => [[b]]
        | line :: lines => (b :: line) :: lines)
    []

variable {config : Config} {input line : Bytes} {lines : List Bytes}

private theorem lines_cons (b : UInt8) (input : Bytes) : inputLines (b :: input) =
    if b = 0x0A then [b] :: inputLines input
    else match inputLines input with
      | [] => [[b]]
      | line :: lines => (b :: line) :: lines := rfl

theorem inLines_lines (input : Bytes) : InLines input (inputLines input) := by
  induction input with
  | nil => exact .nil
  | cons b input ih =>
    rw [lines_cons]
    by_cases feed : b = 0x0A
    · have noFeed : 0x0A ∉ ([] : Bytes) := by simp
      rw [if_pos feed, feed]
      exact .line noFeed ih
    · rw [if_neg feed]
      have differs : 0x0A ≠ b := Ne.symm feed
      generalize inputLines input = lines at ih
      cases ih with
      | nil => exact .last (by simp) (by simpa using differs)
      | last _ unbroken => exact .last (by simp) (by simp [differs, unbroken])
      | @line body rest later unbroken others =>
        have inside : 0x0A ∉ b :: body := by simp [differs, unbroken]
        exact .line inside others

variable {text : Text}

private theorem splitLine_unbroken (unbroken : 0x0A ∉ line) : splitLine line = (line, []) := by
  induction line with
  | nil => rfl
  | cons b line ih =>
    rw [List.mem_cons, not_or] at unbroken
    rw [splitLine, if_neg (Ne.symm unbroken.1), ih unbroken.2]

private theorem splitLine_line {body : Bytes} (unbroken : 0x0A ∉ body) (rest : Bytes) :
    splitLine (body ++ 0x0A :: rest) = (body ++ [0x0A], rest) := by
  induction body with
  | nil => rfl
  | cons b body ih =>
    rw [List.mem_cons, not_or] at unbroken
    rw [List.cons_append, splitLine, if_neg (Ne.symm unbroken.1), ih unbroken.2]
    rfl

theorem acts_session {world : World} (writable : world.blocked = none) (config : Config) (cut : InLines input lines) :
    Acts world input (Program.session (m := Run) config).run
      ⟨.ok (), (lines.flatMap fun line => Program.prompt ++ dump (scanned config line)) ++ (Program.prompt ++ ['\n']),
        lines.flatMap fun line => said line (scanned config line), []⟩ := by
  induction cut with
  | nil => exact acts_session_end writable
  | @last line nonempty unbroken =>
    have ending : Acts world [] (Program.session (m := Run) config).run _ := acts_session_end writable
    simpa using acts_session_line writable (splitLine_unbroken unbroken) nonempty ending
  | @line body rest lines unbroken _ ih =>
    simpa using acts_session_line writable (splitLine_line unbroken rest) (by simp) ih

section
variable {reader : ArgumentReader} {filters : FilterReader} {arguments : List Text} {orShortcut : Bool}

theorem comes_session (asked : reader arguments = .ok ⟨orShortcut, none⟩) {world : World} (writable : world.blocked = none)
    (cut : InLines world.input lines) : Comes reader arguments world
      ⟨.success, (lines.flatMap fun line => "> ".toList ++ dump (scanned ⟨orShortcut⟩ line)) ++ "> \n".toList,
        .entry (Program.starting ⟨orShortcut⟩) :: lines.flatMap fun line => said line (scanned ⟨orShortcut⟩ line), []⟩ := by
  have working : Acts world world.input (Program.work (m := Run) ⟨orShortcut⟩ none).run
      ⟨.ok .success, _, _, _⟩ := acts_last (acts_session writable ⟨orShortcut⟩ cut) fun _ => Exit.success
  rw [Comes, asked]
  exact acts_start working

end

end LoxLexer.Session

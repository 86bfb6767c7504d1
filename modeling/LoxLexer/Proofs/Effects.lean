import LoxLexer.World

/-!
What a part of the program does whatever is shown of the log. An effect is stated once for every setting
of the log and every way to show it (`Acts`), so the log has no say in it: of what is said, the filter only
chooses what is heard (`hear`). Effects are put together along the parts of the program (`acts_bind`).
-/

namespace LoxLexer.Effects

/-- Something said on standard error, if it passes. -/
inductive Remark where
  | diagnostic (text : Text)
  | entry (entry : Entry)
deriving DecidableEq

/-- Standard error behind a remark. -/
def hear (line : Nat → Entry → Text) (passes : Entry → Bool) (messages : List Message) : Remark → List Message
  | .diagnostic text => messages ++ [.diagnostic text]
  | .entry entry => if passes entry then messages ++ [.log entry (line messages.length entry)] else messages

/-- What is heard of remarks where nothing is said before. -/
def heard (line : Nat → Entry → Text) (passes : Entry → Bool) (remarks : List Remark) : List Message :=
  remarks.foldl (hear line passes) []

/-- What is heard of a remark where no entry passes. -/
def diagnostic? : Remark → Option Message
  | .diagnostic text => some (.diagnostic text)
  | .entry _ => none

/-- What comes of a part of a program, with what it writes and says and what it leaves unread. -/
structure Effect (α : Type) where
  result : α
  output : Text
  remarks : List Remark
  unread : Bytes

/-- The streams behind an effect. -/
def Effect.on {α : Type} (effect : Effect α) (line : Nat → Entry → Text) (streams : Streams) : Streams where
  unread := effect.unread
  stdout := streams.stdout ++ effect.output
  stderr := effect.remarks.foldl (hear line streams.passes) streams.stderr
  passes := streams.passes

/-- With some input unread, a part of a program has an effect, whatever is set and shown of the log. -/
def Acts {α : Type} (world : World) (unread : Bytes) (part : Run α) (effect : Effect α) : Prop :=
  ∀ setting line streams, streams.unread = unread →
    part { world with setting, line } streams = (effect.result, effect.on line streams)

theorem heard_silent {passes : Entry → Bool} {remarks : List Remark}
    (silent : ∀ entry, .entry entry ∈ remarks → passes entry = false) (line : Nat → Entry → Text) :
    heard line passes remarks = remarks.filterMap diagnostic? := by
  have behind : ∀ messages, remarks.foldl (hear line passes) messages = messages ++ remarks.filterMap diagnostic? := by
    induction remarks with
    | nil => simp
    | cons remark remarks ih =>
      have later := ih fun entry member => silent entry (List.mem_cons_of_mem remark member)
      intro messages
      rw [List.foldl_cons, later]
      cases remark with
      | diagnostic text => simp [hear, diagnostic?]
      | entry entry =>
        have unheard : passes entry = false := silent entry (List.mem_cons_self ..)
        simp [hear, List.filterMap_cons, diagnostic?, unheard]
  exact behind []

/-! ### Effects of parts -/

section
variable {α β : Type} {world : World} {unread left rest : Bytes} {output more : Text} {said told : List Remark}

theorem acts_pure (world : World) (unread : Bytes) (result : α) : Acts world unread (pure result) ⟨result, [], [], unread⟩ := by
  rintro setting line streams rfl
  show (result, streams) = _
  simp [Effect.on]

/-- One part after the other. -/
theorem acts_bind {part : Run α} {next : α → Run β} {a : α} {b : β} (first : Acts world unread part ⟨a, output, said, left⟩)
    (second : Acts world left (next a) ⟨b, more, told, rest⟩) :
    Acts world unread (part >>= next) ⟨b, output ++ more, said ++ told, rest⟩ := by
  intro setting line streams held
  have behind := second setting line (Effect.on ⟨a, output, said, left⟩ line streams) rfl
  have together : (part >>= next) { world with setting, line } streams =
      next a { world with setting, line } (Effect.on ⟨a, output, said, left⟩ line streams) := by
    show (match part { world with setting, line } streams with | (a, s) => next a { world with setting, line } s) = _
    rw [first setting line streams held]
  rw [together, behind]
  simp [Effect.on]

/-- A failure ends all that would have followed. -/
theorem acts_fail {part : ExceptT Text Run α} {next : α → ExceptT Text Run β} {reason : Text}
    (first : Acts world unread part.run ⟨.error reason, output, said, left⟩) :
    Acts world unread (part >>= next).run ⟨.error reason, output, said, left⟩ := by
  rw [ExceptT.run_bind, ← List.append_nil output, ← List.append_nil said]
  exact acts_bind first (acts_pure world left (Except.error reason))

theorem acts_on {part : ExceptT Text Run α} {next : α → ExceptT Text Run β} {a : α} {result : Except Text β}
    (first : Acts world unread part.run ⟨.ok a, output, said, left⟩)
    (second : Acts world left (next a).run ⟨result, more, told, rest⟩) :
    Acts world unread (part >>= next).run ⟨result, output ++ more, said ++ told, rest⟩ := by
  rw [ExceptT.run_bind]
  exact acts_bind first second

/-- Nothing but a result follows. -/
theorem acts_last {part : ExceptT Text Run α} {a : α} (first : Acts world unread part.run ⟨.ok a, output, said, left⟩)
    (next : α → β) : Acts world unread (part >>= fun a => pure (next a)).run ⟨.ok (next a), output, said, left⟩ := by
  rw [← List.append_nil output, ← List.append_nil said]
  exact acts_on first (acts_pure world left (Except.ok (next a)))

/-- A part that cannot fail among those that can. -/
theorem acts_sure {part : Run α} {next : α → ExceptT Text Run β} {a : α} {result : Except Text β}
    (first : Acts world unread part ⟨a, output, said, left⟩)
    (second : Acts world left (next a).run ⟨result, more, told, rest⟩) :
    Acts world unread (liftM part >>= next).run ⟨result, output ++ more, said ++ told, rest⟩ := by
  have lifted : Acts world unread (liftM part : ExceptT Text Run α).run ⟨.ok a, output, said, left⟩ := by
    rw [← List.append_nil output, ← List.append_nil said]
    show Acts world unread (part >>= fun a => pure (Except.ok a)) _
    exact acts_bind first (acts_pure world left (Except.ok a))
  exact acts_on lifted second

end

section
variable {world : World} {unread : Bytes} {reason text : Text}

theorem acts_log (world : World) (unread : Bytes) (entry : Entry) :
    Acts world unread (Host.log entry) ⟨(), [], [.entry entry], unread⟩ := by
  rintro setting line streams rfl
  show ((), if streams.passes entry then _ else streams) = _
  by_cases passes : streams.passes entry = true <;> simp [Effect.on, hear, passes]

theorem acts_complain (world : World) (unread : Bytes) (text : Text) :
    Acts world unread (Host.complain text) ⟨(), [], [.diagnostic text], unread⟩ := by
  rintro setting line streams rfl
  show ((), _) = _
  simp [Effect.on, hear]

theorem acts_print (writable : world.blocked = none) (unread : Bytes) (text : Text) :
    Acts world unread (Host.print (m := Run) text).run ⟨.ok (), text, [], unread⟩ := by
  rintro setting line streams rfl
  obtain ⟨_, files, input, device, _⟩ := world
  obtain rfl : device = none := writable
  rfl

theorem acts_print_blocked (blocked : world.blocked = some reason) (unread : Bytes) (nonempty : text ≠ []) :
    Acts world unread (Host.print (m := Run) text).run ⟨.error reason, [], [], unread⟩ := by
  rintro setting line streams rfl
  obtain ⟨_, files, input, device, _⟩ := world
  obtain rfl : device = some reason := blocked
  obtain ⟨c, cs, rfl⟩ := List.exists_cons_of_ne_nil nonempty
  simp [Effect.on]
  rfl

/-- No room is needed for no text. -/
theorem acts_print_nothing (world : World) (unread : Bytes) :
    Acts world unread (Host.print (m := Run) []).run ⟨.ok (), [], [], unread⟩ := by
  cases device : world.blocked with
  | none => exact acts_print device unread []
  | some reason =>
    rintro setting line streams rfl
    obtain ⟨_, files, input, blocked, _⟩ := world
    obtain rfl : blocked = some reason := device
    simp [Effect.on]
    rfl

theorem acts_readLine (world : World) (unread : Bytes) :
    Acts world unread (Host.readLine (m := Run)).run ⟨.ok (splitLine unread).1, [], [], (splitLine unread).2⟩ := by
  rintro setting line streams rfl
  simp [Effect.on]
  rfl

theorem acts_readFile (world : World) (unread : Bytes) (path : Text) :
    Acts world unread (Host.readFile path) ⟨world.files path, [], [], unread⟩ := by
  rintro setting line streams rfl
  simp [Effect.on]
  rfl

end
end LoxLexer.Effects

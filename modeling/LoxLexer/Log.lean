import LoxLexer.Text

/-!
The log: entries with a level, a target and fields.
-/

namespace LoxLexer

/-- How severe an entry is. -/
inductive Level where
  | error | warn | info | debug | trace
deriving DecidableEq

namespace Level

def name : Level → String
  | .error => "ERROR"
  | .warn => "WARN"
  | .info => "INFO"
  | .debug => "DEBUG"
  | .trace => "TRACE"

/-- Levels count from the most severe, `1`, to the most talkative, `5`. -/
def verbosity : Level → Nat
  | .error => 1
  | .warn => 2
  | .info => 3
  | .debug => 4
  | .trace => 5

end Level

/-- A line of the log. The target names the part of the program that speaks. -/
structure Entry where
  level : Level
  target : Text
  message : Text
  fields : List (Text × Text) := []
deriving DecidableEq

namespace Entry

/-- An entry as a line, with its level, its message and its fields. A host may add the time. -/
def line (entry : Entry) : Text :=
  entry.level.name.toList ++ ' ' :: entry.message ++
    entry.fields.flatMap (fun (name, value) => ' ' :: name ++ '=' :: value) ++ ['\n']

/-- Whether an entry has a field of some name; the message is a field of every entry. -/
def hasField (entry : Entry) (name : Text) : Bool :=
  name = "message".toList || entry.fields.any (·.1 = name)

end Entry
end LoxLexer

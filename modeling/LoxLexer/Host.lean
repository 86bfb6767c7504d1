import LoxLexer.Log
import LoxLexer.Utf8

/-!
What a program can ask of the host that it runs on. The same program runs on any host: the command's
is the machine itself (`Command`), and that of the theory is a world of values (`World`).
-/

namespace LoxLexer

/-- The requests of a program. What can fail for a reason outside the program says the reason. -/
class Host (m : Type → Type) where
  /-- The value of the variable that says what is to be shown of the log. -/
  setting : m (Option Text)
  /-- From now on, show the entries of the log that pass. -/
  subscribe (passes : Entry → Bool) : m Unit
  /-- Make an entry of the log. It is shown on standard error, if it passes. -/
  log (entry : Entry) : m Unit
  /-- Write to standard output. -/
  print (text : Text) : ExceptT Text m Unit
  /-- Write to standard error. -/
  complain (text : Text) : m Unit
  /-- Read on to the end of the line, or to the end of the input. -/
  readLine : ExceptT Text m Bytes
  /-- The content of a file, if it can be read. -/
  readFile (path : Text) : m (Option Bytes)

end LoxLexer

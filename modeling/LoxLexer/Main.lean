import LoxLexer.Arguments
import LoxLexer.Filter

/-!
The command: the program on the machine that it is started on.
-/

namespace LoxLexer.Command

/-- The machine, and what passes of the log. -/
abbrev Machine := StateT (Entry → Bool) IO

/-- Why a request failed. -/
def reason : IO.Error → Text
  | .resourceExhausted _ 28 _ => "No space left on device (os error 28)".toList
  | failure => failure.toString.toList

/-- Do what can fail. -/
def attempt {α : Type} (action : IO α) : ExceptT Text Machine α := do
  match ← (action.toBaseIO : Machine _) with
  | .ok result => return result
  | .error failure => throw (reason failure)

/-- Read up to and including the next line feed, or to the end of the input. -/
partial def readLine (input : IO.FS.Stream) (line : ByteArray) : IO ByteArray := do
  let next ← input.read 1
  if next.isEmpty then return line
  let line := line ++ next
  if next.data = #[0x0A] then return line
  readLine input line

instance : Host Machine where
  setting := return (← IO.getEnv "LOX_LOG").map String.toList
  subscribe passes := set passes
  log entry := do
    if (← get) entry then (← IO.getStderr).putStr (String.ofList entry.line)
  print text := attempt do
    let out ← IO.getStdout
    out.putStr (String.ofList text)
    out.flush
  complain text := do (← IO.getStderr).putStr (String.ofList text)
  readLine := attempt do
    return (← readLine (← IO.getStdin) .empty).data.toList
  readFile path := do
    match ← (IO.FS.readBinFile (String.ofList path)).toBaseIO with
    | .ok content => return some content.data.toList
    | .error _ => return none

end LoxLexer.Command

open LoxLexer in
def main (arguments : List String) : IO UInt32 := do
  let program : Command.Machine Exit := Program.main argumentReader filterReader (arguments.map String.toList)
  let (exit, _) ← program.run fun _ => false
  return exit.code.toUInt32

import LoxLexer.Host
import LoxLexer.Trace

/-!
The program, on any host. Arguments and the setting of the log are read by libraries, which the program
gets from outside.
-/

namespace LoxLexer

/-- How the program exits. -/
inductive Exit where
  | success | usage | dataError | ioError
deriving DecidableEq

/-- The codes by which shells tell usage errors, bad data and failed input or output apart. -/
def Exit.code : Exit → Nat
  | .success => 0
  | .usage => 64
  | .dataError => 65
  | .ioError => 74

/-- What the arguments ask for. Without a script the session is interactive. -/
structure Request where
  orShortcut : Bool := false
  script : Option Text := none
deriving DecidableEq

/-- What is said instead where the arguments ask for no run: the help, or that they are wrong. -/
structure Notice where
  isError : Bool
  text : Text
deriving DecidableEq

/-- The library that reads the arguments. -/
abbrev ArgumentReader := List Text → Except Notice Request

/-- How far the arguments are read. -/
structure Progress extends Request where
  /-- Whether the first `--` is read, behind which there are no options. -/
  ended : Bool := false
deriving DecidableEq

/-- A way to read the arguments one by one, from left to right, up to the first that settles the matter. -/
structure ArgumentParser where
  step : Progress → Text → Except Notice Progress
  finish : Progress → Except Notice Request

def ArgumentParser.reader (parser : ArgumentParser) : ArgumentReader := fun arguments => do
  parser.finish (← arguments.foldlM parser.step {})

/-- The library that reads which entries of the log a setting lets pass. -/
structure FilterReader where
  /-- A setting that makes no sense has no filter. -/
  strict : Text → Option (Entry → Bool)
  /-- The parts of a setting that make no sense are left out. -/
  lenient : Text → Entry → Bool

namespace Program

/-- The target of the program's own log entries. -/
def target : Text := "lox".toList

/-- The entry made once the arguments are accepted. -/
def starting (config : Config) : Entry where
  level := .debug
  target := target
  message := "starting".toList
  fields :=
    let shown := if config.orShortcut then "true".toList else "false".toList
    [("config".toList, "ScannerConfig \x7b or_shortcut: ".toList ++ shown ++ " \x7d".toList)]

/-- The entry made when the bytes of a source are not all well-formed. -/
def replaced (bytes : Nat) : Entry where
  level := .debug
  target := target
  message := "replaced invalid UTF-8 in source".toList
  fields := [("bytes".toList, Text.ofNat bytes)]

/-- The entry made when reading or writing fails. -/
def ioFailure (reason : Text) : Entry where
  level := .error
  target := target
  message := "i/o failure: ".toList ++ reason

/-- What is said of a script that cannot be read. -/
def unreadable (path : Text) : Text := "Could not read file \"".toList ++ path ++ "\".\n".toList

def prompt : Text := "> ".toList

/-- What passes of the log: what its setting says, or else warnings and errors. -/
def passing (filters : FilterReader) (setting : Option Text) : Entry → Bool :=
  (setting.bind filters.strict).getD (filters.lenient "warn".toList)

variable {m : Type → Type} [Monad m] [Host m]

def startLog (filters : FilterReader) : m Unit := do
  Host.subscribe (passing filters (← Host.setting))

/-- The text of a source of any bytes. -/
def decode (source : Bytes) : m Text := do
  if Utf8.replaces source then Host.log (replaced source.length)
  return Utf8.decode source

/-- Scan a text; the log tells of the scan, but not of each token. -/
def scan (config : Config) (text : Text) : m (Except ScanError (List SourceToken)) := do
  Host.log (Scan.opening text).entry
  let scan := Scan.ofText config text
  Host.log scan.closing.entry
  return scan.result

def printTokens (tokens : List SourceToken) : ExceptT Text m Unit :=
  tokens.forM fun token => Host.print (token.record ++ ['\n'])

/-- Say what comes of a scan: all its tokens, or its error and no token. The answer is whether there is
    an error. -/
def tell (result : Except ScanError (List SourceToken)) : ExceptT Text m Bool := do
  match result with
  | .ok tokens =>
    printTokens tokens
    return false
  | .error error =>
    Host.complain (m := m) (error.report ++ ['\n'])
    return true

/-- Scan a source of any bytes, and say what comes of it. -/
def answer (config : Config) (source : Bytes) : ExceptT Text m Bool := do
  let text ← decode (m := m) source
  tell (← scan (m := m) config text)

/-- Answer a line of a session; an error in it does not matter to the next. Where there is no line, the
    answer is a line feed. -/
def respond (config : Config) (line : Bytes) : ExceptT Text m Unit := do
  if line.isEmpty then Host.print ['\n']
  else
    let _ ← answer config line

/-- Ask for a line and answer it. The answer is whether there was one. -/
def turn (config : Config) : ExceptT Text m Bool := do
  Host.print prompt
  let line ← Host.readLine
  respond config line
  return !line.isEmpty

/-- An interactive session, until the input ends. -/
def session (config : Config) : ExceptT Text m Unit :=
  repeatM (fun _ => return if ← turn config then .inl () else .inr ()) ()

/-- A script is scanned as a whole. -/
def script (config : Config) (path : Text) : ExceptT Text m Exit := do
  match ← Host.readFile (m := m) path with
  | none =>
    Host.complain (m := m) (unreadable path)
    return .ioError
  | some source => return if ← answer config source then .dataError else .success

/-- The script, or the session where there is none. -/
def work (config : Config) : Option Text → ExceptT Text m Exit
  | some path => script config path
  | none => do
    session config
    return .success

/-- Do what the arguments ask for. -/
def start (request : Request) : m Exit := do
  let config := ({} : Config).withOrShortcut request.orShortcut
  Host.log (starting config)
  match ← ExceptT.run (work config request.script) with
  | .ok exit => return exit
  | .error reason =>
    Host.log (ioFailure reason)
    return .ioError

/-- Say why there is no run. Whether the help arrives does not matter. -/
def explain (notice : Notice) : m Exit := do
  if notice.isError then
    Host.complain notice.text
    return .usage
  else
    let _ ← ExceptT.run (Host.print notice.text)
    return .success

/-- Go by what the reader makes of the arguments. -/
def follow : Except Notice Request → m Exit
  | .ok request => start request
  | .error notice => explain notice

/-- The program. -/
def main (reader : ArgumentReader) (filters : FilterReader) (arguments : List Text) : m Exit := do
  startLog filters
  follow (reader arguments)

end Program
end LoxLexer

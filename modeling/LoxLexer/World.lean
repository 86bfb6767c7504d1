import LoxLexer.Program

/-!
A host of values: what surrounds a run is given, and what the run does to its streams is kept. Nothing
is random or late here; what the outside decides, such as the time at which an entry of the log is
shown, is part of the world.
-/

namespace LoxLexer

/-- What surrounds a run. -/
structure World where
  /-- The value of the variable for the log. -/
  setting : Option Text := none
  /-- The content of each file that can be read. -/
  files : Text → Option Bytes := fun _ => none
  input : Bytes := []
  /-- Why nothing can be written to standard output, if that is so. -/
  blocked : Option Text := none
  /-- How an entry of the log is shown behind so many others on standard error, with the time. -/
  line : Nat → Entry → Text := fun _ => Entry.line

/-- One thing on standard error. -/
inductive Message where
  | diagnostic (text : Text)
  /-- An entry of the log, as it is shown. -/
  | log (entry : Entry) (line : Text)
deriving DecidableEq

def Message.text : Message → Text
  | .diagnostic text => text
  | .log _ line => line

/-- The streams of a run, and what passes of its log. -/
structure Streams where
  unread : Bytes
  stdout : Text := []
  stderr : List Message := []
  passes : Entry → Bool := fun _ => false

/-- Nothing is left unread and nothing written. -/
instance : Inhabited Streams := ⟨{ unread := [] }⟩

/-- The line at the front of some bytes, with the line feed that ends it if there is one, and the bytes
    behind it. -/
def splitLine : Bytes → Bytes × Bytes
  | [] => ([], [])
  | b :: bytes =>
    if b = 0x0A then ([b], bytes)
    else
      let (line, rest) := splitLine bytes
      (b :: line, rest)

/-- A part of a program that runs in a world. -/
abbrev Run := ReaderT World (StateM Streams)

namespace Run

/-- An entry is written if it passes, with what the world shows of it. -/
def log (entry : Entry) : Run Unit := do
  let world ← read
  modify fun streams =>
    if streams.passes entry then
      { streams with stderr := streams.stderr ++ [.log entry (world.line streams.stderr.length entry)] }
    else streams

/-- Where nothing can be written, an empty text still can. -/
def print (text : Text) : ExceptT Text Run Unit := do
  match (← read).blocked with
  | some reason => unless text.isEmpty do throw reason
  | none => modify fun streams => { streams with stdout := streams.stdout ++ text }

def readLine : ExceptT Text Run Bytes := do
  let (line, rest) := splitLine (← get).unread
  modify fun streams => { streams with unread := rest }
  return line

instance : Host Run where
  setting := return (← read).setting
  subscribe passes := modify fun streams => { streams with passes }
  log := log
  print := print
  complain text := modify fun streams => { streams with stderr := streams.stderr ++ [.diagnostic text] }
  readLine := readLine
  readFile path := return (← read).files path

end Run

/-- What is seen of a run when it is done. -/
structure Outcome where
  exit : Exit
  stdout : Text
  messages : List Message
  /-- What the run has left of its input. -/
  unread : Bytes

/-- Standard error as text. -/
def Outcome.stderr (outcome : Outcome) : Text := outcome.messages.flatMap Message.text

/-- The program in a world. -/
def Program.run (reader : ArgumentReader) (filters : FilterReader) (arguments : List Text) (world : World) :
    Outcome :=
  let (exit, streams) := (main reader filters arguments : Run Exit) world { unread := world.input }
  ⟨exit, streams.stdout, streams.stderr, streams.unread⟩

end LoxLexer

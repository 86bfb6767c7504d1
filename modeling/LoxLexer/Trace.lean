import LoxLexer.Log
import LoxLexer.Scan

/-!
What a scan makes known while it goes on: that it starts, each token as it is found, and how it ends.
-/

namespace LoxLexer

/-- Something made known during a scan. -/
inductive Event where
  /-- A scan of so many bytes starts. -/
  | started (bytes : Nat)
  | found (token : Token)
  /-- The text came to its end with so many tokens, on this line. -/
  | finished (tokens lines : Nat)
  /-- An error stopped the scan after so many tokens. -/
  | aborted (error : ScanError) (scanned : Nat)
deriving DecidableEq

namespace Event

/-- Single tokens are told only at the most talkative level. -/
def level : Event → Level
  | .found _ => .trace
  | _ => .debug

/-- The words of an event, without its counts. -/
def message : Event → Text
  | .started _ => "scanning source".toList
  | .found token => token.text
  | .finished .. => "scan finished".toList
  | .aborted error _ => "scan aborted: ".toList ++ error.message

/-- The counts of an event by their names. -/
def counts : Event → List (String × Nat)
  | .started bytes => [("bytes", bytes)]
  | .found token => [("line", token.line)]
  | .finished tokens lines => [("tokens", tokens), ("lines", lines)]
  | .aborted error scanned => [("line", error.line), ("scanned", scanned)]

/-- The log entry of an event. -/
def entry (event : Event) : Entry where
  level := event.level
  target := "lox::scanner".toList
  message := event.message
  fields := event.counts.map fun (name, count) => (name.toList, Text.ofNat count)

end Event

namespace Scan

/-- The opening event of the scan of a text. -/
def opening (text : Text) : Event := .started text.byteSize

/-- The closing event. -/
def closing (scan : Scan) : Event :=
  match scan.error with
  | none => .finished scan.tokens.length scan.stop.line
  | some error => .aborted error scan.tokens.length

/-- All events of the scan of a text, in order. -/
def events (config : Config) (text : Text) : List Event :=
  let scan := ofText config text
  opening text :: scan.tokens.map (fun token => .found token.toToken) ++ [scan.closing]

end Scan
end LoxLexer

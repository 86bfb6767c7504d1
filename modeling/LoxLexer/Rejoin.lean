import LoxLexer.Scan

/-!
The lexemes of a scan joined into a text again, and that text scanned in turn. What stood between the
lexemes is replaced by one separator, so the second scan shows what it was needed for.
-/

namespace LoxLexer

/-- The lexemes in order, with the separator between each two. -/
def rejoin (separator : Text) (tokens : List SourceToken) : Text :=
  separator.intercalate (tokens.map (·.lexeme))

/-- A text joined from the tokens of one scan, and its own scan. -/
structure Rejoined where
  tokens : List SourceToken
  joined : Text
  again : Scan
deriving DecidableEq

namespace Rejoined

/-- Scan, join and scan again; the error of the first scan if it fails. -/
def ofText (config : Config) (separator text : Text) : Except ScanError Rejoined :=
  (Scan.ofText config text).result.map fun tokens =>
    let joined := rejoin separator tokens
    ⟨tokens, joined, Scan.ofText config joined⟩

/-- Both scans have the same kinds in order. -/
def sameKinds (rejoined : Rejoined) : Bool :=
  rejoined.tokens.map (·.kind) = rejoined.again.tokens.map (·.kind)

/-- Both scans have equal tokens in order; where the lexemes stand does not count. -/
def sameTokens (rejoined : Rejoined) : Bool :=
  rejoined.tokens.length = rejoined.again.tokens.length &&
    (rejoined.tokens.zip rejoined.again.tokens).all fun (token, again) =>
      token.toToken.equal again.toToken

end Rejoined
end LoxLexer

import StyleTokens.Yaml.Value

namespace StyleTokens

namespace Yaml

/-- The document that a YAML text says, by the rules of version 1.1 and with the common types only; an empty text
says nothing. A part that stands inside itself has no document here and is refused, though only if the text is in
order otherwise. All tokens are cut before the first part is read, so an escape above the last character counts
before an error of syntax in front of it. -/
def load (s : String) : Except Trouble Doc := do
  match ← Node.ofTokens? (← tokens s.toList) with
  | some n => value n
  | none => pure .null

end Yaml

end StyleTokens

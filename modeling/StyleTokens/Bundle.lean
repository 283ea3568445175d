import StyleTokens.Bundle.Variables
import StyleTokens.Bundle.Themes
import StyleTokens.Bundle.Scripts
import StyleTokens.Log

namespace StyleTokens

namespace Bundle

/-- The file of a flattened table unless another one is asked for. -/
def tableFilename : String := "tokens-flattened.json"

/-- The flattened table as an indented document. -/
def tableArtifact (filename : String) (t : Table) : Artifact :=
  ⟨filename, Json.print Json.indented t.toDoc⟩

/-- The theme sheets, with a record of their number. -/
def themeSheets (t : Table) : Traced Fault (List Artifact) := do
  let sheets ← .ofExcept (ThemeSheets.artifacts t)
  .note .themes .debug s!"Generated {sheets.length} Tailwind file(s)"
  pure sheets

def generated (selector : String) (t : Table) : Traced Fault (List Artifact) := do
  let sheets ← themeSheets t
  pure (Variables.artifacts selector t ++ sheets ++ Scripts.artifacts t)

/-- The flattened table, the sheets and the scripts. -/
def all (selector : String) (t : Table) : Traced Fault (List Artifact) := do
  let rest ← generated selector t
  pure (tableArtifact tableFilename t :: rest)

end Bundle

end StyleTokens

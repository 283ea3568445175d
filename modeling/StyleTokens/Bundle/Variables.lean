import StyleTokens.Token.Rendering
import StyleTokens.Artifact

namespace StyleTokens

namespace Variables

/-- The selector of a sheet unless another one is asked for. -/
def defaultSelector : String := ":root"

/-- The sheet of a mode: one declaration for each token, in order. -/
def sheet (selector : String) (m : Mode) : String :=
  let body := String.join (m.tokens.items.map fun t => s!"  {t.cssDeclaration}\n")
  s!"{selector} \x7b\n{body}\x7d\n"

/-- The path of the sheet of a mode. -/
def path (theme mode : String) : String := s!"{theme}/{mode}/css/tokens.css"

/-- The sheets of all modes of all themes, in order. -/
def artifacts (selector : String) (t : Table) : List Artifact :=
  t.modes.map fun p => ⟨path p.1 p.2.name, sheet selector p.2⟩

end Variables

end StyleTokens

import StyleTokens.Bundle.Utilities
import StyleTokens.Artifact
import StyleTokens.Failure

namespace StyleTokens

namespace Theme

/-- The mode of a name, or the fault that the theme has none. -/
def getMode (t : Theme) (name : String) : Except Fault Mode :=
  match t.mode? name with
  | some m => .ok m
  | none => .error (.missingMode t.name name)

end Theme

namespace ThemeSheets

def directory : String := "tailwind"

def filename (theme : String) : String := theme ++ ".css"

def block (m : Mode) : String :=
  String.intercalate "\n" (m.tokens.items.map fun t => "   " ++ t.cssDeclaration)

def sheet (t : Theme) : Except Fault String := do
  let light ← t.getMode lightMode
  let dark ← t.getMode darkMode
  let name := t.cleanName
  .ok (s!"/**\n * Tailwind CSS v4 Theme: {name}\n * Auto-generated from design tokens\n */\n\n" ++
    s!".theme-{name} \x7b\n{block light}\n\x7d\n\n.theme-{name}.dark \x7b\n{block dark}\n\x7d\n")

/-- The utility variables of a table, from the light mode of its first theme. -/
def utilities (t : Table) : Except Fault (List (String × String)) :=
  match t.first? with
  | none => .ok []
  | some theme => (theme.getMode lightMode).map (Utilities.mapping Utilities.groups)

/-- The sheet that takes in the sheets of all themes and maps tokens of the first one to utility variables. -/
def appSheet (t : Table) : Except Fault String := do
  let imports := t.themeNames.map fun n => s!"@import \"./{filename n}\";"
  let lines := (← utilities t).map fun p => s!"\n    {p.1}: var({p.2});"
  .ok ("@import \"tailwindcss\";\n\n/* Import all theme definitions */\n" ++
    String.intercalate "\n" imports ++
    "\n\n@custom-variant dark (&:is(.dark *));\n\n/* Disable all default Tailwind utilities */\n" ++
    "@theme \x7b\n  --color-*: initial;\n\x7d\n\n" ++
    "/* Map theme tokens to Tailwind-prefixed CSS variables for custom utilities */\n" ++
    "@theme inline \x7b" ++ String.join lines ++ "\n\x7d\n")

/-- The sheets of all themes, and the one that takes them in. -/
def artifacts (t : Table) : Except Fault (List Artifact) := do
  let sheets ← t.themes.items.mapM fun theme => do
    .ok (⟨s!"{directory}/{filename theme.name}", ← sheet theme⟩ : Artifact)
  .ok (sheets ++ [⟨s!"{directory}/app.css", ← appSheet t⟩])

end ThemeSheets

end StyleTokens

import StyleTokens.Token.Rendering
import StyleTokens.Artifact

namespace StyleTokens

namespace Scripts

/-- The comment at the head of a module. -/
def header : String := "/**\n * Do not edit directly, this file was auto-generated.\n */\n"

/-- The exports of a mode: identifiers with their literals and types. Tokens whose names make the same
identifier share one export, in the place of the first and with the value of the last. -/
def exportsOf (m : Mode) : List (String × List Char × ScriptType) :=
  Ordered.ofList (m.tokens.items.map fun t => (Naming.camel t.name, t.scriptLiteral, t.scriptType))

def tokenModule (m : Mode) : String :=
  let lines := (exportsOf m).map fun p => s!"export const {p.1} = {String.ofList p.2.1};\n"
  s!"{header}\n{String.join lines}"

def tokenDeclarations (m : Mode) : String :=
  let lines := (exportsOf m).map fun p => s!"export const {p.1}: {p.2.2.name};\n"
  s!"{header}\n{String.join lines}"

/-- The path of the module of a mode, without its ending. -/
def modulePathStem (theme mode : String) : String := s!"{theme}/{mode}/ts/tokens"

def modulePath (theme mode : String) : String := modulePathStem theme mode ++ ".js"

def declarationPath (theme mode : String) : String := modulePathStem theme mode ++ ".d.ts"

/-- The name under which the index imports the module of a mode. -/
def binding (theme mode : String) : String := Naming.camelize theme ++ Naming.title mode

/-- The imports of the light and the dark module of each theme. -/
def imports (themes : List String) : String :=
  String.intercalate "\n" (themes.flatMap fun theme =>
    requiredModes.map fun mode =>
      s!"import * as {binding theme mode} from \x27./{modulePath theme mode}\x27;")

def indexPath : String := "index.js"

def indexDeclarationPath : String := "index.d.ts"

def index (themes : List String) : String :=
  let entries := themes.map fun name =>
    s!"  \x27{name}\x27: \x7b\n    light: {binding name lightMode},\n    dark: {binding name darkMode},\n  \x7d"
  "/**\n * Auto-generated theme exports\n * This file provides easy access to all theme tokens\n */\n\n" ++
    imports themes ++ "\n\nexport const themes = \x7b\n" ++ String.intercalate ",\n" entries ++
    "\n\x7d;\n\nexport default themes;\n\n"

def indexDeclarations (themes : List String) : String :=
  let entries := themes.map fun name =>
    s!"  \x27{name}\x27: \x7b\n    light: typeof {binding name lightMode};\n" ++
      s!"    dark: typeof {binding name darkMode};\n  \x7d;"
  "/**\n * Auto-generated theme declarations\n */\n\n" ++ imports themes ++
    "\n\nexport declare const themes: \x7b\n" ++ String.intercalate "\n" entries ++
    "\n\x7d;\n\nexport default themes;\n"

/-- The modules and declarations of all modes, then the index. -/
def artifacts (t : Table) : List Artifact :=
  (t.modes.flatMap fun p =>
    [⟨modulePath p.1 p.2.name, tokenModule p.2⟩, ⟨declarationPath p.1 p.2.name, tokenDeclarations p.2⟩]) ++
  [⟨indexPath, index t.themeNames⟩, ⟨indexDeclarationPath, indexDeclarations t.themeNames⟩]

end Scripts

end StyleTokens

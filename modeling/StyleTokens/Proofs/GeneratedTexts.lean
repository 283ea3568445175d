import StyleTokens.Bundle

namespace StyleTokens

namespace Scripts

/-- An import: the name that it binds, and the text between its quotes. -/
structure Import where
  binding : String
  specifier : String

def Import.text (i : Import) : String := s!"import * as {i.binding} from \x27{i.specifier}\x27;"

/-- An entry of an index: the text between the quotes of its key, and the names bound to its modules. -/
structure Entry where
  key : String
  light : String
  dark : String

def Entry.text (e : Entry) : String :=
  s!"  \x27{e.key}\x27: \x7b\n    light: {e.light},\n    dark: {e.dark},\n  \x7d"

def Entry.declarationText (e : Entry) : String :=
  s!"  \x27{e.key}\x27: \x7b\n    light: typeof {e.light};\n" ++ s!"    dark: typeof {e.dark};\n  \x7d;"

/-- The imports and the entries of an index. -/
structure Index where
  imports : List Import
  entries : List Entry

namespace Index

def text (i : Index) : String :=
  "/**\n * Auto-generated theme exports\n * This file provides easy access to all theme tokens\n */\n\n" ++
    String.intercalate "\n" (i.imports.map Import.text) ++ "\n\nexport const themes = \x7b\n" ++
    String.intercalate ",\n" (i.entries.map Entry.text) ++ "\n\x7d;\n\nexport default themes;\n\n"

def declarationText (i : Index) : String :=
  "/**\n * Auto-generated theme declarations\n */\n\n" ++
    String.intercalate "\n" (i.imports.map Import.text) ++ "\n\nexport declare const themes: \x7b\n" ++
    String.intercalate "\n" (i.entries.map Entry.declarationText) ++ "\n\x7d;\n\nexport default themes;\n"

/-- The imports of the light and the dark module of each theme, and an entry for each theme. -/
def ofThemes (themes : List String) : Index where
  imports := themes.flatMap fun theme =>
    requiredModes.map fun mode => ⟨binding theme mode, "./" ++ modulePath theme mode⟩
  entries := themes.map fun theme => ⟨theme, binding theme lightMode, binding theme darkMode⟩

end Index

theorem imports_eq (themes : List String) :
    imports themes = String.intercalate "\n" ((Index.ofThemes themes).imports.map Import.text) := by
  have import_eq : ∀ theme mode, s!"import * as {binding theme mode} from \x27./{modulePath theme mode}\x27;" =
      Import.text ⟨binding theme mode, "./" ++ modulePath theme mode⟩ := by
    intro theme mode
    have quoted : " from \x27./" = " from \x27" ++ "./" := rfl
    simp only [Import.text, quoted, toString, String.append_assoc]
  simp only [imports, import_eq, Index.ofThemes, List.map_flatMap, List.map_map, Function.comp_def]

theorem index_eq (themes : List String) : index themes = (Index.ofThemes themes).text := by
  have entries : (Index.ofThemes themes).entries.map Entry.text = themes.map fun name =>
      Entry.text ⟨name, binding name lightMode, binding name darkMode⟩ := List.map_map
  unfold index Index.text
  rw [imports_eq themes, entries]
  rfl

theorem indexDeclarations_eq (themes : List String) :
    indexDeclarations themes = (Index.ofThemes themes).declarationText := by
  have entries : (Index.ofThemes themes).entries.map Entry.declarationText = themes.map fun name =>
      Entry.declarationText ⟨name, binding name lightMode, binding name darkMode⟩ := List.map_map
  unfold indexDeclarations Index.declarationText
  rw [imports_eq themes, entries]
  rfl

end Scripts

/-- A declaration of a property in a sheet. -/
structure Declaration where
  property : String
  value : String

def Declaration.text (d : Declaration) : String := s!"{d.property}: {d.value};"

/-- The declaration of the custom property of a token. -/
def Token.declaration (t : Token) : Declaration := ⟨variableName t.name, String.ofList t.cssValue⟩

/-- The declarations of the tokens of a mode, in order. -/
def Mode.declarations (m : Mode) : List Declaration := m.tokens.items.map Token.declaration

/-- The selector and the declarations of the sheet of a mode. -/
structure Variables.Sheet where
  selector : String
  declarations : List Declaration

namespace Variables

def Sheet.text (s : Sheet) : String :=
  let body := String.join (s.declarations.map fun d => s!"  {d.text}\n")
  s!"{s.selector} \x7b\n{body}\x7d\n"

theorem sheet_eq (selector : String) (m : Mode) : sheet selector m = (Sheet.mk selector m.declarations).text := by
  unfold sheet Sheet.text Mode.declarations
  rw [List.map_map]
  rfl

end Variables

namespace ThemeSheets

/-- The name of a theme in its sheet, and the declarations of its two blocks. -/
structure Sheet where
  name : String
  light : List Declaration
  dark : List Declaration

def blockText (ds : List Declaration) : String := String.intercalate "\n" (ds.map fun d => "   " ++ d.text)

def Sheet.text (s : Sheet) : String :=
  s!"/**\n * Tailwind CSS v4 Theme: {s.name}\n * Auto-generated from design tokens\n */\n\n" ++
    s!".theme-{s.name} \x7b\n{blockText s.light}\n\x7d\n\n.theme-{s.name}.dark \x7b\n{blockText s.dark}\n\x7d\n"

theorem block_eq (m : Mode) : block m = blockText m.declarations := by
  unfold block blockText Mode.declarations
  rw [List.map_map]
  rfl

/-- The sheet of a theme, which has its light and its dark declarations. -/
def Sheet.ofTheme (t : Theme) : Except Fault Sheet := do
  let light ← t.getMode lightMode
  let dark ← t.getMode darkMode
  .ok ⟨t.cleanName, light.declarations, dark.declarations⟩

theorem sheet_eq (t : Theme) : sheet t = (Sheet.ofTheme t).map Sheet.text := by
  unfold sheet Sheet.ofTheme
  cases t.getMode lightMode with
  | error fault => rfl
  | ok light =>
    cases t.getMode darkMode with
    | error fault => rfl
    | ok dark =>
      simp only [bind, Except.bind, Except.map]
      unfold Sheet.text
      rw [← block_eq, ← block_eq]

/-- The texts between the quotes of the imports in the sheet that takes in all theme sheets, and its utility
variables with the variables that they stand for. -/
structure AppSheet where
  imports : List String
  utilities : List (String × String)

def AppSheet.text (s : AppSheet) : String :=
  let imports := s.imports.map fun i => s!"@import \"{i}\";"
  let lines := s.utilities.map fun p => s!"\n    {p.1}: var({p.2});"
  "@import \"tailwindcss\";\n\n/* Import all theme definitions */\n" ++
    String.intercalate "\n" imports ++
    "\n\n@custom-variant dark (&:is(.dark *));\n\n/* Disable all default Tailwind utilities */\n" ++
    "@theme \x7b\n  --color-*: initial;\n\x7d\n\n" ++
    "/* Map theme tokens to Tailwind-prefixed CSS variables for custom utilities */\n" ++
    "@theme inline \x7b" ++ String.join lines ++ "\n\x7d\n"

/-- The sheet that takes in the sheets of all themes of a table, with the utility variables of the table. -/
def AppSheet.ofTable (t : Table) : Except Fault AppSheet :=
  (ThemeSheets.utilities t).map fun pairs => ⟨t.themeNames.map fun n => "./" ++ filename n, pairs⟩

theorem appSheet_eq (t : Table) : appSheet t = (AppSheet.ofTable t).map AppSheet.text := by
  have import_eq : ∀ n, s!"@import \"./{filename n}\";" =
      let i := "./" ++ filename n
      s!"@import \"{i}\";" := by
    intro n
    have quoted : "@import \"./" = "@import \"" ++ "./" := rfl
    simp only [quoted, toString, String.append_assoc]
  unfold appSheet AppSheet.ofTable
  cases utilities t with
  | error fault => rfl
  | ok pairs =>
    simp only [bind, Except.bind, Except.map, import_eq]
    unfold AppSheet.text
    rw [List.map_map]
    rfl

end ThemeSheets

end StyleTokens

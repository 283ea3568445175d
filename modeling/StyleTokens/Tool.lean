import StyleTokens.Build
import StyleTokens.Success

namespace StyleTokens

inductive Tool where
  | listBrands
  | validate
  | listThemes
  | flatten
  | build
  deriving DecidableEq, Repr

structure ToolArguments where
  brand : Doc
  source : Doc
  format : Doc
  theme : Doc

namespace ToolArguments

/-- What holds for arguments that are not given. -/
def standard : ToolArguments := ⟨.null, .null, .text ExportFormat.collections.name, .null⟩

def names : List String := ["brand", "source", "format", "theme"]

def ofList (values : List (String × Doc)) : ToolArguments :=
  let get (name : String) (other : Doc) := (Ordered.find? values name).getD other
  ⟨get "brand" standard.brand, get "source" standard.source, get "format" standard.format,
    get "theme" standard.theme⟩

/-- The name of the kind of a document in a message. -/
def kindName : Doc → String
  | .scalar s => s.kindName
  | .list _ => "list"
  | .mapping _ => "dict"
  | .set _ => "set"

def isBlank : Doc → Bool
  | .scalar s => s.isBlankValue
  | .list items => items.isEmpty
  | .mapping entries => entries.isEmpty
  | .set members => members.isEmpty

def checkFormat : Doc → Except Fault ExportFormat
  | .scalar s => match s with
    | .text name => match ExportFormat.ofName? name with
      | some format => .ok format
      | none => .error (.unknownFormat name)
    | other => .error (.unknownFormat other.message)
  | d => .error (.badShape s!"unhashable type: \x27{kindName d}\x27")

/-- The setting of the source; a blank one is none. -/
def checkSource (d : Doc) : Except Fault Doc :=
  if isBlank d then .ok .null
  else match d with
    | .scalar (.text s) => .ok (.text s)
    | _ => .error (.badShape s!"expected str, bytes or os.PathLike object, not {kindName d}")

def config (a : ToolArguments) (brandsDirectory outputDirectory : Path) : Except Fault BuildConfig := do
  if isBlank a.brand && isBlank a.source then throw .brandRequired
  let format ← checkFormat a.format
  let source ← checkSource a.source
  let c ← BuildConfig.ofSettings
    [(Setting.brand, a.brand), (Setting.source, source), (Setting.theme, a.theme)]
  pure { c with brandsDirectory, outputDirectory, format }

end ToolArguments

namespace Tool

def all : List Tool := [listBrands, validate, listThemes, flatten, build]

def name : Tool → String
  | listBrands => "tokens_list_brands"
  | validate => "tokens_validate"
  | listThemes => "tokens_list_themes"
  | flatten => "tokens_flatten"
  | build => "tokens_build"

def ofName? (s : String) : Option Tool := all.find? fun tool => tool.name == s

/-- What a tool that cannot answer writes into the log. -/
def complaint : Tool → String
  | listBrands => "Failed to list brands"
  | validate => "Failed to validate tokens"
  | listThemes => "Failed to list themes"
  | flatten => "Failed to flatten tokens"
  | build => "Failed to build tokens"

/-- The names of the arguments that a tool takes. -/
def parameters : Tool → List String
  | listBrands => []
  | _ => ToolArguments.names

def count (n : Nat) : Doc := .scalar (.int n)

def success (entries : List (String × Doc)) : Doc := .object (("status", .text "success") :: entries)

/-- The kind of a scalar that JSON cannot say. -/
def foreignKind? : Scalar → Option String
  | .date _ => some "date"
  | .time _ _ => some "datetime"
  | .bytes _ => some "bytes"
  | _ => none

/-- The answer of a failure; a place that JSON cannot say makes it a fault. -/
def failed (f : Failure) : Except Fault Doc :=
  match f.location?.bind foreignKind? with
  | some kind => .error (.badShape s!"Object of type {kind} is not JSON serializable")
  | none => .ok (.object (("status", .text "error") :: f.entries))

/-- The answer of an outcome: what a success says, or the failure. -/
def report (answer : Outcome → Doc) (o : Outcome) : Except Fault Doc :=
  match o.failure? with
  | some f => failed f
  | none => .ok (answer o)

def themes (o : Outcome) : Doc := .list (o.themeNames.map Doc.text)

def warnings (o : Outcome) : Doc := .list (o.warnings.map Issue.toDoc)

def validAnswer (o : Outcome) : Doc :=
  success [("valid", .scalar (.bool true)), ("themes", themes o), ("warnings", warnings o),
    ("message", .text (Success.valid o.themeNames.length))]

/-- A theme with the number of tokens in each of its modes. -/
def themeEntry (t : Theme) : Doc :=
  .object [("name", .text t.name),
    ("modes", .object (t.modes.items.map fun m => (m.name, count m.tokens.size)))]

def themesAnswer (o : Outcome) : Doc :=
  let table := o.table?.getD .empty
  success [("themes", .list (table.themes.items.map themeEntry)), ("count", count table.themes.size)]

def flattenedAnswer (format : String) (o : Outcome) : Doc :=
  let path := o.written.headD ""
  success [("path", .text path), ("themes", themes o),
    ("message", .text (Success.flattened format path))]

def builtAnswer (outputDirectory : String) (o : Outcome) : Doc :=
  success [("output_dir", .text outputDirectory), ("themes", themes o),
    ("files", .list (o.artifacts.map fun a => .text a.path)), ("warnings", warnings o),
    ("message", .text (Success.built o.written.length o.themeNames.length outputDirectory))]

def brandsAnswer (brands : List String) : Doc :=
  success [("brands", .list (brands.map Doc.text)), ("count", count brands.length)]

/-- A run and its answer. -/
def answering (answer : Outcome → Doc) (run : Traced Fault Outcome) : Traced Fault Doc := do
  let outcome ← run
  .ofExcept (report answer outcome)

/-- What a tool does with a configuration. -/
def perform (tool : Tool) (c : BuildConfig) (t : FileTree) : FileTree × Traced Fault Doc :=
  match tool with
  | listBrands => (t, .ofExcept ((Source.brands t c.brandsDirectory).map brandsAnswer))
  | validate => (t, answering validAnswer (c.validate t))
  | listThemes => (t, answering themesAnswer (c.validate t))
  | flatten =>
    let (t, run) := c.flatten t
    (t, answering (flattenedAnswer c.format.name) run)
  | build =>
    let (t, run) := c.build t
    (t, answering (builtAnswer c.outputDirectory.text) run)

/-- The answer of a fault, with a record of it. -/
def complain (tool : Tool) (fault : Fault) : Traced Fault Doc := do
  .note .tools .error tool.complaint
  pure (.object [("status", .text "error"), ("message", .text fault.message)])

/-- Calls a tool. Only arguments that it does not know stop it; whatever else goes wrong is part of the answer.
-/
def call (tool : Tool) (t : FileTree) (brandsDirectory outputDirectory : Path)
    (values : List (String × Doc)) : FileTree × Traced Fault String :=
  match values.find? fun p => !tool.parameters.contains p.1 with
  | some p => (t, .stop (.badShape s!"{tool.name}() got an unexpected keyword argument \x27{p.1}\x27"))
  | none =>
    let config : Except Fault BuildConfig := match tool with
      | listBrands => .ok { BuildConfig.standard with brandsDirectory, outputDirectory }
      | _ => (ToolArguments.ofList values).config brandsDirectory outputDirectory
    let (t, run) : FileTree × Traced Fault Doc := match config with
      | .error fault => (t, .stop fault)
      | .ok c => tool.perform c t
    (t, do
      let answer ← run.recover tool.complain
      pure (Json.print Json.compactAscii answer))

end Tool

end StyleTokens

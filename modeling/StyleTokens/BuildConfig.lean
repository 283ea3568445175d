import StyleTokens.Pipeline
import StyleTokens.Source

namespace StyleTokens

/-- The settings of a build. -/
structure BuildConfig where
  brand : Option String
  source : Option Path
  brandsDirectory : Path
  outputDirectory : Path
  format : ExportFormat
  theme : Option String
  modes : List String
  selector : String
  deriving DecidableEq

namespace Setting

def brand : String := "brand"

/-- The setting of the source file, which goes before the brand's. -/
def source : String := "source"

def brandsDirectory : String := "brands_dir"

def outputDirectory : String := "output_dir"

def format : String := "input_format"

def theme : String := "theme"

def modes : String := "modes"

def selector : String := "css_selector"

/-- The settings that the environment can give, and the names of its variables. -/
def inEnvironment : List (String × String) :=
  [(brand, "BRAND"), (brandsDirectory, "TOKENS_BRANDS_DIR"), (outputDirectory, "TOKENS_OUTPUT_DIR"),
    (format, "TOKENS_FORMAT")]

def text (name : String) : Doc → Except (List Violation) String
  | .scalar (.text s) => .ok s
  | _ => .error [⟨name, .isText⟩]

def path (name : String) : Doc → Except (List Violation) Path
  | .scalar (.text s) => .ok (.ofString s)
  | _ => .error [⟨name, .isPath⟩]

def choice (name : String) : Doc → Except (List Violation) ExportFormat
  | .scalar (.text s) => match ExportFormat.ofName? s with
    | some f => .ok f
    | none => .error [⟨name, .isChoice⟩]
  | _ => .error [⟨name, .isChoice⟩]

/-- The violations of the items of a sequence of texts, counted from a place on. -/
def itemViolations (name : String) : (index : Nat) → List Doc → List Violation
  | _, [] => []
  | index, .scalar (.text _) :: rest => itemViolations name (index + 1) rest
  | index, _ :: rest => ⟨s!"{name}.{index}", .isText⟩ :: itemViolations name (index + 1) rest

def texts (name : String) : Doc → Except (List Violation) (List String)
  | .list items => match itemViolations name 0 items with
    | [] => .ok (items.filterMap fun d => match d with
      | .scalar (.text s) => some s
      | _ => none)
    | vs => .error vs
  | _ => .error [⟨name, .isSequence⟩]

/-- A setting that may be null. -/
def optional {α : Type} (check : Doc → Except (List Violation) α) : Doc → Except (List Violation) (Option α)
  | .scalar .null => .ok none
  | d => (check d).map some

end Setting

namespace BuildConfig

def standard : BuildConfig :=
  ⟨none, none, .ofString "brands", .ofString "output", .collections, none, requiredModes,
    Variables.defaultSelector⟩

/-- Checks a setting if it is there. -/
def setting {α : Type} (settings : List (String × Doc)) (name : String)
    (check : String → Doc → Except (List Violation) α) (other : α) : Except (List Violation) α :=
  match Ordered.find? settings name with
  | some d => check name d
  | none => .ok other

/-- The configuration that settings by name make, or all the rules they break. Unknown names are passed
over. -/
def ofSettings (settings : List (String × Doc)) : Except Fault BuildConfig :=
  let std := standard
  let brand := setting settings Setting.brand (fun n => Setting.optional (Setting.text n)) std.brand
  let source := setting settings Setting.source (fun n => Setting.optional (Setting.path n)) std.source
  let brandsDirectory := setting settings Setting.brandsDirectory Setting.path std.brandsDirectory
  let outputDirectory := setting settings Setting.outputDirectory Setting.path std.outputDirectory
  let format := setting settings Setting.format Setting.choice std.format
  let theme := setting settings Setting.theme (fun n => Setting.optional (Setting.text n)) std.theme
  let modes := setting settings Setting.modes Setting.texts std.modes
  let selector := setting settings Setting.selector Setting.text std.selector
  match brand, source, brandsDirectory, outputDirectory, format, theme, modes, selector with
  | .ok brand, .ok source, .ok brandsDirectory, .ok outputDirectory, .ok format, .ok theme, .ok modes,
    .ok selector =>
    .ok ⟨brand, source, brandsDirectory, outputDirectory, format, theme, modes, selector⟩
  | _, _, _, _, _, _, _, _ =>
    .error (.invalidConfig (Token.refusals brand ++ Token.refusals source ++
      Token.refusals brandsDirectory ++ Token.refusals outputDirectory ++ Token.refusals format ++
      Token.refusals theme ++ Token.refusals modes ++ Token.refusals selector))

/-- The settings that an environment gives; an empty variable gives none. -/
def environmentSettings (environment : List (String × String)) : List (String × Doc) :=
  Setting.inEnvironment.filterMap fun p =>
    match Ordered.find? environment p.2 with
    | some s => if s = "" then none else some (p.1, .text s)
    | none => none

/-- The configuration of an environment and of settings, which go before it unless they are null. -/
def ofEnvironment (environment : List (String × String)) (settings : List (String × Doc)) :
    Except Fault BuildConfig :=
  ofSettings (Ordered.union (environmentSettings environment) (settings.filter fun p => !p.2.isNull))

/-- The path of the source: the one that is set, or else the one of the brand. -/
def sourcePath (c : BuildConfig) (t : FileTree) : Except Fault Path :=
  match c.source, c.brand.filter (· ≠ "") with
  | some path, _ => .ok path
  | none, some brand => Source.brandPath t c.brandsDirectory brand
  | none, none => .error .brandRequired

/-- The paths at which the source may lie. -/
def candidates (c : BuildConfig) : List Path :=
  match c.source, c.brand with
  | some path, _ => [path]
  | none, some brand => Source.candidates c.brandsDirectory brand
  | none, none => []

/-- The theme of a nested source: the one that is set, the brand, or the name of the source. -/
def themeName (c : BuildConfig) : Option String :=
  match c.theme.filter (· ≠ ""), c.brand with
  | some theme, _ => some theme
  | none, some brand => if brand = "" then c.source.map (fun p => Source.stripLabel p.stem) else some brand
  | none, none => c.source.map fun p => Source.stripLabel p.stem

def request (c : BuildConfig) : Request := ⟨c.format.name, c.themeName, c.modes⟩

end BuildConfig

end StyleTokens

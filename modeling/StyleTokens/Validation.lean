import StyleTokens.Export.Format
import StyleTokens.Token.References
import StyleTokens.Log

namespace StyleTokens

/-- What a validation can find. -/
inductive Finding where
  | notASequence
  | emptyInput
  | invalidThemeRecord (index : Nat)
  | missingModes (theme : Scalar)
  | missingMode (theme : Scalar)
  | invalidMode (theme mode : Scalar)
  | missingTypeOrValue (theme mode token : Scalar)
  | invalidValue (theme mode token : Scalar)
  | unknownType (theme mode token : Scalar) (type : String)
  | circularReference (theme mode : String) (cycle : List String)
  | danglingReference (theme mode token reference : String)
  deriving DecidableEq

namespace Finding

/-- Unknown types and dangling references are warnings, all else is an error. -/
def severity : Finding → Severity
  | unknownType _ _ _ _ | danglingReference _ _ _ _ => .warning
  | _ => .error

def code : Finding → String
  | notASequence => "NOT_A_SEQUENCE"
  | emptyInput => "EMPTY_INPUT"
  | invalidThemeRecord _ => "INVALID_THEME_RECORD"
  | missingModes _ => "MISSING_MODES"
  | missingMode _ => "MISSING_MODE"
  | invalidMode _ _ => "INVALID_MODE"
  | missingTypeOrValue _ _ _ => "MISSING_TYPE_OR_VALUE"
  | invalidValue _ _ _ => "INVALID_VALUE"
  | unknownType _ _ _ _ => "UNKNOWN_TOKEN_TYPE"
  | circularReference _ _ _ => "CIRCULAR_REFERENCE"
  | danglingReference _ _ _ _ => "DANGLING_REFERENCE"

def message : Finding → String
  | notASequence => wording.notASequence
  | emptyInput => "At least one theme must exist"
  | invalidThemeRecord index => wording.invalidCollection index
  | missingModes theme => s!"Theme {theme.message} must have a \x27modes\x27 object"
  | missingMode theme => s!"Theme {theme.message} must have both \x27light\x27 and \x27dark\x27 modes"
  | invalidMode theme mode => s!"Theme {theme.message}, mode {mode.message} must be an object"
  | missingTypeOrValue theme mode token =>
    s!"Token {token.message} in {theme.message}/{mode.message} must have $type and $value properties"
  | invalidValue theme mode token =>
    s!"Token {token.message} in {theme.message}/{mode.message} must have a scalar $value"
  | unknownType theme mode token type =>
    s!"Token {token.message} in {theme.message}/{mode.message} has unknown type: {type}"
  | circularReference theme mode cycle =>
    let chain := String.intercalate " -> " cycle
    s!"Circular reference in {theme}/{mode}: {chain}"
  | danglingReference theme mode token reference =>
    s!"Token {token} in {theme}/{mode} references unknown token: \x7b{reference}\x7d"

/-- The place of a finding: the names of the theme, the mode and the token, as far as it has them. -/
def location : Finding → Option Scalar
  | notASequence | emptyInput => none
  | invalidThemeRecord index => some (.text s!"[{index}]")
  | missingModes theme => some theme
  | missingMode theme => some (.text s!"{theme.message}/modes")
  | invalidMode theme mode => some (.text s!"{theme.message}/{mode.message}")
  | missingTypeOrValue theme mode token | invalidValue theme mode token
  | unknownType theme mode token _ => some (.text s!"{theme.message}/{mode.message}/{token.message}")
  | circularReference theme mode cycle =>
    let first := cycle.headD ""
    some (.text s!"{theme}/{mode}/{first}")
  | danglingReference theme mode token _ => some (.text s!"{theme}/{mode}/{token}")

def issue (f : Finding) : Issue := ⟨f.severity, f.code, f.message, f.location⟩

def isError (f : Finding) : Bool := f.severity == .error

/-- The findings up to the first error, with it. -/
def upToError : List Finding → List Finding
  | [] => []
  | f :: rest => if f.isError then [f] else f :: upToError rest

end Finding

namespace Validation

/-- What is wrong with a token, if anything is. -/
def token? (theme mode name : Scalar) (d : Doc) : Option Finding :=
  match d with
  | .mapping entries =>
    match Doc.get? entries RecordKey.type, Doc.get? entries RecordKey.value with
    | some (.scalar (.text type)), some value =>
      if type = "" ∨ value.isNull then some (.missingTypeOrValue theme mode name)
      else match value with
        | .scalar s =>
          if (TokenValue.ofScalar? s).isNone then some (.invalidValue theme mode name)
          else if isSourceType type then none
          else some (.unknownType theme mode name type)
        | _ => some (.invalidValue theme mode name)
    | _, _ => some (.missingTypeOrValue theme mode name)
  | _ => some (.missingTypeOrValue theme mode name)

def mode (theme name : Scalar) : Doc → List Finding
  | .mapping tokens => tokens.filterMap fun p => token? theme name p.1 p.2
  | _ => [.invalidMode theme name]

/-- The findings in a theme; the presence of the required modes comes first. -/
def theme (name : Scalar) (content : Doc) : List Finding :=
  match content with
  | .mapping entries => match Doc.get? entries ExportKey.modes with
    | some (.mapping modes) =>
      if requiredModes.any fun m => ((Doc.get? modes m).getD .null).isNull then [.missingMode name]
      else modes.flatMap fun p => mode name p.1 p.2
    | _ => [.missingModes name]
  | _ => [.missingModes name]

/-- The findings in the theme records from a place on. -/
def records : (index : Nat) → List Doc → List Finding
  | _, [] => []
  | index, d :: rest =>
    (match d with
      | .mapping ((name, content) :: _) => theme name content
      | _ => [.invalidThemeRecord index]) ++ records (index + 1) rest

/-- All findings in a document, in order. -/
def documentFindings : Doc → List Finding
  | .list [] => [.emptyInput]
  | .list items => records 0 items
  | _ => [.notASequence]

def themeCount : Doc → Nat
  | .list items => items.length
  | _ => 0

/-- The report on a document: its findings up to the first error, and the number of its themes if there is
none. -/
def document (d : Doc) : Report :=
  let issues := (Finding.upToError (documentFindings d)).map Finding.issue
  ⟨issues, if (⟨issues, 0⟩ : Report).isValid then themeCount d else 0⟩

/-- The findings on the references of a mode: its first cycle, or what dangles. -/
def modeReferences (theme : String) (m : Mode) : List Finding :=
  match m.cycles with
  | cycle :: _ => [.circularReference theme m.name cycle]
  | [] => m.dangling.map fun p => .danglingReference theme m.name p.1 p.2

/-- The report on the references of a table, mode by mode up to the first cycle. -/
def references (t : Table) : Report :=
  let findings := t.modes.flatMap fun p => modeReferences p.1 p.2
  ⟨(Finding.upToError findings).map Finding.issue, t.themes.size⟩

/-- The records of a table as a document. -/
def tableRecords (t : Table) : Doc :=
  .list (t.themes.items.map fun theme =>
    .object [(theme.name, .object [(ExportKey.modes, theme.toDoc)])])

/-- The report on a table: its structure, and if that is valid its references. -/
def table (t : Table) : Report :=
  let structural := document (tableRecords t)
  if structural.isValid then structural.merge (references t) else structural

end Validation

namespace Report

def entries (r : Report) : List Entry :=
  r.warnings.map fun i => ⟨.validator, .warning, i.message⟩

/-- The failure of the first error. -/
def check (r : Report) : Except Failure Unit :=
  match r.errors with
  | [] => .ok ()
  | issue :: _ => .error (.rejected issue)

end Report

end StyleTokens

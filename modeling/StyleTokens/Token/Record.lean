import StyleTokens.Token
import StyleTokens.Violation

namespace StyleTokens

namespace RecordKey

def type : String := "$type"

def value : String := "$value"

/-- The key of the collection that a token was exported from. -/
def collection : String := "$collectionName"

end RecordKey

/-- Why a document is no token table. -/
inductive TableFault where
  /-- A theme or a mode is no mapping. -/
  | notAMapping
  /-- A token is no mapping. -/
  | notARecord
  | missingKey (key : String)
  | invalid (model : Model) (violations : List Violation)
  deriving DecidableEq

namespace TableFault

def message : TableFault → String
  | notAMapping => "bad shape"
  | notARecord => "bad shape"
  | missingKey key => s!"\x27{key}\x27"
  | invalid model _ => s!"invalid {model.title}"

/-- The broken rules, if the fault is that fields break some. -/
def violations? : TableFault → Option (List Violation)
  | invalid _ vs => some vs
  | _ => none

end TableFault

/-- The rules that a name breaks. -/
def nameViolations (mayBeEmpty : Bool) : Scalar → List Violation
  | .text s => if s = "" ∧ ¬ mayBeEmpty then [⟨"name", .notEmpty⟩] else []
  | _ => [⟨"name", .isText⟩]

namespace Token

/-- The record of a token; an empty collection is left out. -/
def toRecord (t : Token) : Doc :=
  .object ([(RecordKey.type, .text t.type), (RecordKey.value, .scalar t.value.toScalar)] ++
    match t.collection with
    | some c => if c = "" then [] else [(RecordKey.collection, .text c)]
    | none => [])

def checkType : Doc → Except (List Violation) String
  | .scalar (.text s) => .ok s
  | _ => .error [⟨"type", .isText⟩]

def checkValue (d : Doc) : Except (List Violation) TokenValue :=
  let refused : List Violation :=
    [⟨"value.bool", .isBool⟩, ⟨"value.int", .isInt⟩, ⟨"value.float", .isDouble⟩, ⟨"value.str", .isText⟩]
  match d with
  | .scalar s => match TokenValue.ofScalar? s with
    | some v => .ok v
    | none => .error refused
  | _ => .error refused

/-- The collection in a record; it may be absent or null. -/
def checkCollection : Option Doc → Except (List Violation) (Option String)
  | none => .ok none
  | some (.scalar .null) => .ok none
  | some (.scalar (.text s)) => .ok (some s)
  | some _ => .error [⟨"source_collection", .isText⟩]

def refusals {α : Type} : Except (List Violation) α → List Violation
  | .ok _ => []
  | .error vs => vs

/-- The token that a name and the parts of a record make, or all the rules they break. -/
def check (name : Scalar) (type value : Doc) (collection : Option Doc) :
    Except (List Violation) Token :=
  let type := checkType type
  let value := checkValue value
  let collection := checkCollection collection
  match name, type, value, collection with
  | .text s, .ok type, .ok value, .ok collection =>
    if h : s = "" then .error (nameViolations false name) else .ok ⟨s, type, value, collection, h⟩
  | _, _, _, _ =>
    .error (nameViolations false name ++ refusals type ++ refusals value ++ refusals collection)

def ofRecord (name : Scalar) (record : Doc) : Except TableFault Token :=
  match record with
  | .mapping entries =>
    match Doc.get? entries RecordKey.type with
    | none => .error (.missingKey RecordKey.type)
    | some type => match Doc.get? entries RecordKey.value with
      | none => .error (.missingKey RecordKey.value)
      | some value =>
        (check name type value (Doc.get? entries RecordKey.collection)).mapError (.invalid .token)
  | _ => .error .notARecord

end Token

namespace Mode

def toDoc (m : Mode) : Doc :=
  .object (m.tokens.items.map fun t => (t.name, t.toRecord))

/-- The mode of a name and records by name. -/
def ofDoc (name : Scalar) (d : Doc) : Except TableFault Mode :=
  match d with
  | .mapping entries => do
    let tokens ← entries.mapM fun p => Token.ofRecord p.1 p.2
    match name with
    | .text s => .ok ⟨s, .ofList tokens⟩
    | _ => .error (.invalid .mode (nameViolations true name))
  | _ => .error .notAMapping

end Mode

namespace Theme

def toDoc (t : Theme) : Doc :=
  .object (t.modes.items.map fun m => (m.name, m.toDoc))

/-- The theme of a name and modes by name. -/
def ofDoc (name : Scalar) (d : Doc) : Except TableFault Theme :=
  match d with
  | .mapping entries => do
    let modes ← entries.mapM fun p => Mode.ofDoc p.1 p.2
    match name with
    | .text s =>
      if h : s = "" then .error (.invalid .theme (nameViolations false name))
      else .ok ⟨s, .ofList modes, h⟩
    | _ => .error (.invalid .theme (nameViolations false name))
  | _ => .error .notAMapping

end Theme

namespace Table

def toDoc (t : Table) : Doc :=
  .object (t.themes.items.map fun theme => (theme.name, theme.toDoc))

/-- The table of themes by name. -/
def ofEntries (entries : List (Scalar × Doc)) : Except TableFault Table := do
  let themes ← entries.mapM fun p => Theme.ofDoc p.1 p.2
  .ok ⟨.ofList themes⟩

/-- The table that a document says. Parts are checked in the order in which they are built: the tokens of a
mode, the mode, and after all its modes the theme. -/
def ofDoc : Doc → Except TableFault Table
  | .mapping entries => ofEntries entries
  | _ => .error .notAMapping

end Table

end StyleTokens

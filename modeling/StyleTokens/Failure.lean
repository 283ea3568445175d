import StyleTokens.Json.Reader
import StyleTokens.Token.Record
import StyleTokens.Report
import StyleTokens.Text.Utf8
import StyleTokens.Text.Quoted

namespace StyleTokens

inductive FailureKind where
  | inputNotFound
  | malformedInput
  | schemaViolation
  deriving DecidableEq, Repr

def FailureKind.name : FailureKind → String
  | inputNotFound => "input_not_found"
  | malformedInput => "malformed_input"
  | schemaViolation => "schema_violation"

/-- The causes of failures. A failure is the run's own verdict on its input. -/
inductive Failure where
  | sourceNotFound (path : String)
  | invalidEncoding (path : String) (fault : Utf8.Fault)
  | invalidJson (path : String) (fault : Json.Fault)
  | invalidYaml (path : String)
  | tableNotAMapping (path : String)
  | invalidTableFile (path : String) (fault : TableFault)
  | unknownFormat (given : String)
  | notASequence
  | notAMapping
  | invalidCollection (index : Nat)
  | themeNameRequired
  | invalidTable (fault : TableFault)
  | rejected (issue : Issue)
  | outsideOutput (artifact output : String)
  | stated (kind : FailureKind) (text : String) (place : Option String)
  deriving DecidableEq

/-- The wordings that failures and issues share. -/
structure Wording where
  notASequence : String
  invalidCollection : Nat → String
  unknownFormat : String → String
  brandRequired : String

def wording : Wording where
  notASequence := "Collection-based export must be an array of collections"
  invalidCollection index := s!"Collection at index {index} must be an object with a single key"
  unknownFormat given :=
    s!"Unknown input format: \x27{given}\x27. Expected one of: figma, tokens-studio."
  brandRequired := "Brand name is required. Use --brand <brand-name> or set BRAND."

namespace Failure

def kind : Failure → FailureKind
  | sourceNotFound _ => .inputNotFound
  | invalidEncoding _ _ | invalidJson _ _ | invalidYaml _ | tableNotAMapping _ | invalidTableFile _ _
  | unknownFormat _ | notASequence | notAMapping | invalidCollection _ => .malformedInput
  | themeNameRequired | invalidTable _ | rejected _ | outsideOutput _ _ => .schemaViolation
  | stated kind _ _ => kind

def message : Failure → String
  | sourceNotFound path => s!"Token source not found: {path}"
  | invalidEncoding path fault => s!"Token source {path} is not valid UTF-8: {fault.message}"
  | invalidJson path fault => s!"Invalid JSON syntax in {path}: {fault.message}"
  | invalidYaml path => s!"Invalid YAML syntax in {path}"
  | tableNotAMapping path => s!"Flattened token table must be an object: {path}"
  | invalidTableFile path fault => s!"Invalid flattened token table {path}: {fault.message}"
  | unknownFormat given => wording.unknownFormat given
  | notASequence => wording.notASequence
  | notAMapping => "Nested export must be an object"
  | invalidCollection index => wording.invalidCollection index
  | themeNameRequired => "A theme name is required to assemble a nested export"
  | invalidTable fault => s!"Token table is invalid: {fault.message}"
  | rejected issue => issue.message
  | outsideOutput artifact output =>
    s!"Artifact path {artifact} resolves outside the output directory {output}"
  | stated _ text _ => text

/-- The place of a failure; one that says nothing counts as none. -/
def location? (f : Failure) : Option Scalar :=
  let place : Option Scalar := match f with
    | sourceNotFound path | invalidEncoding path _ | invalidJson path _ | invalidYaml path
    | tableNotAMapping path | invalidTableFile path _ => some (.text path)
    | rejected issue => issue.location
    | outsideOutput artifact _ => some (.text artifact)
    | stated _ _ place => place.map .text
    | _ => none
  place.filter fun s => !s.isBlankValue

/-- The broken rules behind a failure, if it is that fields break some. -/
def violations? : Failure → Option (List Violation)
  | invalidTableFile _ fault | invalidTable fault => fault.violations?
  | _ => none

def entries (f : Failure) : List (String × Doc) :=
  [("kind", .text f.kind.name), ("message", .text f.message)] ++
    (f.location?.map fun s => ("location", Doc.scalar s)).toList

def toDoc (f : Failure) : Doc := .object f.entries

end Failure

inductive SystemError where
  | noEntry
  | exists
  | notADirectory
  | isADirectory
  | nameTooLong
  deriving DecidableEq, Repr

namespace SystemError

def number : SystemError → Nat
  | noEntry => 2
  | «exists» => 17
  | notADirectory => 20
  | isADirectory => 21
  | nameTooLong => 36

def message : SystemError → String
  | noEntry => "No such file or directory"
  | «exists» => "File exists"
  | notADirectory => "Not a directory"
  | isADirectory => "Is a directory"
  | nameTooLong => "File name too long"

end SystemError

/-- What stops a computation other than a failure, such as an error of the file system. -/
inductive Fault where
  /-- A value is of the wrong shape. -/
  | badShape (text : String)
  /-- A part of a path, counted from zero, is no text but of the given kind. -/
  | unjoinable (position : Nat) (kind : String)
  | table (fault : TableFault)
  | missingMode (theme mode : String)
  | missingKey (key : String)
  | invalidConfig (violations : List Violation)
  | system (error : SystemError) (path : String)
  | brandRequired
  | unknownFormat (given : String)
  | nullCharacter
  | undecodable (fault : Utf8.Fault)
  | unreadable (text : String)
  deriving DecidableEq

def Fault.message : Fault → String
  | badShape text => text
  | unjoinable position kind => s!"sequence item {position}: expected str instance, {kind} found"
  | table fault => fault.message
  | missingMode theme mode => s!"Theme \x27{theme}\x27 has no mode \x27{mode}\x27"
  | missingKey key => Quoted.text key
  | invalidConfig _ => s!"invalid {Model.config.title}"
  | system error path =>
    let quoted := Quoted.text path
    s!"[Errno {error.number}] {error.message}: {quoted}"
  | brandRequired => wording.brandRequired
  | unknownFormat given => wording.unknownFormat given
  | nullCharacter => "embedded null byte"
  | undecodable fault => fault.message
  | unreadable text => text

/-- The fault is that a value is wrong, and not that something is missing or cannot be done. -/
def Fault.isWrongValue : Fault → Bool
  | invalidConfig _ | brandRequired | unknownFormat _ | nullCharacter | undecodable _ | unreadable _ => true
  | _ => false

inductive Stop where
  | failure (f : Failure)
  | fault (f : Fault)
  deriving DecidableEq

end StyleTokens

import StyleTokens.Doc

namespace StyleTokens

/-- Whether an issue stops the run. -/
inductive Severity where
  | error
  | warning
  deriving DecidableEq, Repr

namespace Severity

def name : Severity → String
  | error => "error"
  | warning => "warning"

def label : Severity → String
  | error => "ERROR"
  | warning => "WARNING"

end Severity

/-- One finding of a validation. -/
structure Issue where
  severity : Severity
  code : String
  message : String
  location : Option Scalar
  deriving DecidableEq

namespace Issue

/-- The text of a place, unless it says nothing. -/
def placeText? (location : Option Scalar) : Option String :=
  location.bind fun s => if s.isBlankValue then none else some s.message

/-- The severity, the code, the message and the place in one line. -/
def text (i : Issue) : String :=
  let place := match placeText? i.location with
    | some p => s!" at {p}"
    | none => ""
  s!"[{i.severity.label}] {i.code}: {i.message}{place}"

def toDoc (i : Issue) : Doc :=
  .object [("severity", .text i.severity.name), ("code", .text i.code), ("message", .text i.message),
    ("location", .scalar (i.location.getD .null))]

def isError (i : Issue) : Bool := i.severity == .error

/-- Two issues have the same code and the same place. -/
def sameSpot (i j : Issue) : Bool := i.code == j.code && i.location == j.location

end Issue

/-- The issues of a validation and the number of themes that it went through. -/
structure Report where
  issues : List Issue
  themes : Nat
  deriving DecidableEq

namespace Report

def empty : Report := ⟨[], 0⟩

def add (r : Report) (i : Issue) : Report := { r with issues := r.issues ++ [i] }

def errors (r : Report) : List Issue := r.issues.filter Issue.isError

def warnings (r : Report) : List Issue := r.issues.filter fun i => !i.isError

def isValid (r : Report) : Bool := r.issues.all fun i => !i.isError

/-- The issues of another report after its own. -/
def merge (r other : Report) : Report := { r with issues := r.issues ++ other.issues }

def text (r : Report) : String :=
  if r.issues.isEmpty then "Validation passed: no issues found"
  else String.intercalate "\n" (r.issues.map Issue.text)

end Report

end StyleTokens

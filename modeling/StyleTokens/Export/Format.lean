import StyleTokens.Failure

namespace StyleTokens

/-- The kinds of source documents: a list of collections, and a nested tree whose leaves are tokens. -/
inductive ExportFormat where
  | collections
  | nested
  deriving DecidableEq, Repr

namespace ExportFormat

def name : ExportFormat → String
  | collections => "figma"
  | nested => "tokens-studio"

def ofName? (s : String) : Option ExportFormat :=
  if s = collections.name then some collections
  else if s = nested.name then some nested
  else none

/-- The kind of a name, or the failure that there is none. -/
def ofName (s : String) : Except Failure ExportFormat :=
  match ofName? s with
  | some f => .ok f
  | none => .error (.unknownFormat s)

end ExportFormat

namespace ExportKey

def modes : String := "modes"

def type : String := "type"

def value : String := "value"

/-- Keys that are passed over at every depth of a tree. -/
def skipped : List String := ["$metadata", "$themes"]

end ExportKey

/-- The old name of a type that is read as a dimension. -/
def legacyFloat : String := "float"

/-- The type of a token as it is kept: the old name of a dimension is replaced. -/
def currentType : Doc → Doc
  | .scalar (.text s) => if s = legacyFloat then .text TokenType.dimension.name else .text s
  | d => d

/-- The types that a source may use without a warning. -/
def isSourceType (s : String) : Bool :=
  (TokenType.ofName? s).isSome || s == legacyFloat

end StyleTokens

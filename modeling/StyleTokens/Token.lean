import StyleTokens.Doc
import StyleTokens.Roster
import StyleTokens.Text.Placeholder

namespace StyleTokens

/-- The types of tokens that the generated files know. -/
inductive TokenType where
  | color
  | dimension
  | string
  | fontFamily
  | fontWeight
  deriving DecidableEq, Repr

namespace TokenType

def all : List TokenType := [color, dimension, string, fontFamily, fontWeight]

def name : TokenType → String
  | color => "color"
  | dimension => "dimension"
  | string => "string"
  | fontFamily => "fontFamily"
  | fontWeight => "fontWeight"

def ofName? (s : String) : Option TokenType :=
  all.find? fun t => t.name == s

end TokenType

/-- The value of a token: a literal, or a text that may hold placeholders. -/
inductive TokenValue where
  | bool (b : Bool)
  | int (n : Int)
  | double (x : Binary64)
  | text (s : String)
  deriving DecidableEq

namespace TokenValue

def toScalar : TokenValue → Scalar
  | bool b => .bool b
  | int n => .int n
  | double x => .double x
  | text s => .text s

/-- The value that a scalar is, unless it is null, a date or bytes. -/
def ofScalar? : Scalar → Option TokenValue
  | .bool b => some (bool b)
  | .int n => some (int n)
  | .double x => some (double x)
  | .text s => some (text s)
  | _ => none

/-- The bodies of the placeholders of a text; other values have none. -/
def references : TokenValue → List String
  | text s => Placeholder.names s
  | _ => []

end TokenValue

/-- A named value with a declared type. The type is any text; those not among the known types are kept. -/
structure Token where
  name : String
  type : String
  value : TokenValue
  collection : Option String
  named : name ≠ ""
  deriving DecidableEq

namespace Token

def knownType? (t : Token) : Option TokenType := TokenType.ofName? t.type

/-- The value holds a placeholder. -/
def isReference (t : Token) : Bool := !t.value.references.isEmpty

/-- A dimension given as a bare number. -/
def isNumericDimension (t : Token) : Bool :=
  t.type == TokenType.dimension.name && match t.value with
    | .int _ | .double _ => true
    | _ => false

end Token

/-- A variant of a theme. -/
structure Mode where
  name : String
  tokens : Roster Token Token.name
  deriving DecidableEq

/-- A named set of tokens in several modes. -/
structure Theme where
  name : String
  modes : Roster Mode Mode.name
  named : name ≠ ""
  deriving DecidableEq

/-- All themes of a source with their modes and tokens, in source order. Every generated file is made from such
a table. -/
structure Table where
  themes : Roster Theme Theme.name
  deriving DecidableEq

/-- The mode that is shown by day; every theme has it. -/
def lightMode : String := "light"

/-- The mode that is shown by night; every theme has it. -/
def darkMode : String := "dark"

def requiredModes : List String := [lightMode, darkMode]

namespace Theme

/-- What may stand before the proper name of a theme. -/
def label : String := "theme-"

def stripLabel (name : String) : String :=
  if label.toList.isPrefixOf name.toList then String.ofList (name.toList.drop label.length) else name

def cleanName (t : Theme) : String := stripLabel t.name

def mode? (t : Theme) (name : String) : Option Mode := t.modes.get? name

end Theme

namespace Table

def empty : Table := ⟨.empty⟩

def themeNames (t : Table) : List String := t.themes.names

def first? (t : Table) : Option Theme := t.themes.items.head?

/-- The number of tokens in all modes of all themes. -/
def tokenCount (t : Table) : Nat :=
  (t.themes.items.flatMap fun theme => theme.modes.items).foldr (fun m n => m.tokens.size + n) 0

/-- Every mode with the name of its theme, in order. -/
def modes (t : Table) : List (String × Mode) :=
  t.themes.items.flatMap fun theme => theme.modes.items.map fun m => (theme.name, m)

end Table

end StyleTokens

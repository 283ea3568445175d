import StyleTokens.Yaml.Number
import StyleTokens.Yaml.Timestamp

namespace StyleTokens

namespace Yaml

/-- What the names of the common types begin with. -/
def commonStart : String := "tag:yaml.org,2002:"

namespace Tag

def null : String := commonStart ++ "null"

def bool : String := commonStart ++ "bool"

def int : String := commonStart ++ "int"

def float : String := commonStart ++ "float"

def str : String := commonStart ++ "str"

/-- Bytes in base64. -/
def binary : String := commonStart ++ "binary"

def timestamp : String := commonStart ++ "timestamp"

def seq : String := commonStart ++ "seq"

def map : String := commonStart ++ "map"

/-- Sets: mappings whose values do not count. -/
def set : String := commonStart ++ "set"

def pairs : String := commonStart ++ "pairs"

/-- Lists of pairs with distinct keys. -/
def omap : String := commonStart ++ "omap"

/-- The key under which other mappings are taken in. -/
def merge : String := commonStart ++ "merge"

/-- The key of a mapping's own value. -/
def value : String := commonStart ++ "value"

/-- The marks of the format itself. -/
def marks : String := commonStart ++ "yaml"

end Tag

/-- The plain words for nothing. -/
def nullWords : List String := ["~", "null", "Null", "NULL", ""]

/-- The plain words for truth values. -/
def boolWords : List String :=
  ["yes", "Yes", "YES", "no", "No", "NO", "true", "True", "TRUE", "false", "False", "FALSE", "on", "On",
    "ON", "off", "Off", "OFF"]

/-- The truth values of words in small letters. -/
def boolValues : List (String × Bool) :=
  [("yes", true), ("no", false), ("true", true), ("false", false), ("on", true), ("off", false)]

/-- A text without one line feed at its end. -/
def trimFinalBreak (cs : List Char) : List Char :=
  match cs.reverse with
  | '\n' :: rest => rest.reverse
  | _ => cs

/-- The type that a plain text has by its form. -/
def implicitTag (text : String) : String :=
  let cs := trimFinalBreak text.toList
  let s := String.ofList cs
  if boolWords.contains s then Tag.bool
  else if isFloatForm cs then Tag.float
  else if isIntForm cs then Tag.int
  else if s = "<<" then Tag.merge
  else if nullWords.contains s then Tag.null
  else if isTimestampForm cs then Tag.timestamp
  else if s = "=" then Tag.value
  else if ["!", "&", "*"].contains s then Tag.marks
  else Tag.str

/-- The name of a type that stands for the form of its text. -/
def openTag : String := "!"

/-- The type of a scalar: the one that is named, or else the form of a plain text decides. -/
def scalarTag (named : Option String) (plain : Bool) (text : String) : String :=
  match named with
  | none => if plain then implicitTag text else Tag.str
  | some tag => if tag = openTag then implicitTag text else tag

/-- The type of a list or a mapping: the one that is named, or else the usual one. -/
def collectionTag (named : Option String) (usual : String) : String :=
  match named with
  | none => usual
  | some tag => if tag = openTag then usual else tag

end Yaml

end StyleTokens

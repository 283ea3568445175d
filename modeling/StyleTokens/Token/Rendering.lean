import StyleTokens.Token
import StyleTokens.Naming
import StyleTokens.Json.Printer

namespace StyleTokens

namespace TokenValue

/-- The value as it stands in a style sheet; a whole double is written as an integer. -/
def plain : TokenValue → List Char
  | bool b => if b then "true".toList else "false".toList
  | int n => Json.intText n
  | double x => match x.toInt? with
    | some n => Json.intText n
    | none => x.text Scalar.plainNames
  | text s => s.toList

/-- The value as a literal of a script, in printable ASCII. -/
def literal : TokenValue → List Char
  | double x => match x.toInt? with
    | some n => Json.intText n
    | none => x.text Json.specialNames
  | v => Json.scalarText true v.toScalar

end TokenValue

inductive ScriptType where
  | string
  | boolean
  | number
  deriving DecidableEq, Repr

def ScriptType.name : ScriptType → String
  | string => "string"
  | boolean => "boolean"
  | number => "number"

namespace Token

def unit : List Char := "px".toList

def cssValue (t : Token) : List Char :=
  if t.isNumericDimension then t.value.plain ++ unit else t.value.plain

def scriptLiteral (t : Token) : List Char :=
  if t.isNumericDimension then Json.quote true (t.value.plain ++ unit) else t.value.literal

def scriptType (t : Token) : ScriptType :=
  if t.isNumericDimension then .string
  else match t.value with
    | .text _ => .string
    | .bool _ => .boolean
    | _ => .number

/-- The name of the custom property of a token. -/
def variableName (name : String) : String := "--" ++ Naming.kebab name

/-- The declaration of the custom property of the token. -/
def cssDeclaration (t : Token) : String :=
  s!"{variableName t.name}: {String.ofList t.cssValue};"

end Token

end StyleTokens

namespace StyleTokens

/-- What a checked value describes. -/
inductive Model where
  | token
  | mode
  | theme
  | config
  deriving DecidableEq, Repr

def Model.title : Model → String
  | token => "Token"
  | mode => "Mode"
  | theme => "Theme"
  | config => "BuildConfig"

/-- What a field must be. -/
inductive Rule where
  | isText
  | notEmpty
  | isBool
  | isInt
  | isDouble
  | isPath
  | isChoice
  | isSequence
  deriving DecidableEq, Repr

def Rule.code : Rule → String
  | isText => "string_type"
  | notEmpty => "string_too_short"
  | isBool => "bool_type"
  | isInt => "int_type"
  | isDouble => "float_type"
  | isPath => "path_type"
  | isChoice => "enum"
  | isSequence => "tuple_type"

/-- A field and the rule that it breaks. A checked value is refused with all its violations, in the order of its
fields. -/
structure Violation where
  field : String
  rule : Rule
  deriving DecidableEq, Repr

end StyleTokens

import StyleTokens.Failure

namespace StyleTokens

/-- What goes wrong in reading YAML: the text is not YAML, or a value in it has a form that its type does not
allow. -/
inductive Yaml.Trouble where
  | invalid
  | noValue (fault : Fault)
  deriving DecidableEq

end StyleTokens

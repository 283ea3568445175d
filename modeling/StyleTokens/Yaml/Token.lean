namespace StyleTokens

namespace Yaml

/-- The name of a type as it is written: a handle that stands for the beginning of the name, if there is one,
and the rest. -/
structure TagText where
  handle : Option String
  suffix : String
  deriving DecidableEq, Repr

/-- The pieces that the structure of a text is made of. Blocks are begun and ended by their indent. -/
inductive Token where
  | version (major : Nat)
  | tagHandle (handle start : String)
  | otherDirective
  | documentStart
  | documentEnd
  | streamEnd
  | blockSequenceStart
  | blockMappingStart
  | blockEnd
  | flowSequenceStart
  | flowSequenceEnd
  | flowMappingStart
  | flowMappingEnd
  | blockEntry
  | flowEntry
  | key
  | value
  | alias (name : String)
  | anchor (name : String)
  | tag (text : TagText)
  | scalar (plain : Bool) (text : String)
  deriving DecidableEq, Repr

end Yaml

end StyleTokens

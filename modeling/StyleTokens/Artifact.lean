namespace StyleTokens

/-- A text and its path below the output directory, with slashes between the parts. -/
structure Artifact where
  path : String
  content : String
  deriving DecidableEq, Repr

/-- The size of the content in bytes. -/
def Artifact.size (a : Artifact) : Nat := a.content.utf8ByteSize

end StyleTokens

import StyleTokens.Pipeline

namespace StyleTokens

namespace Success

def valid (themes : Nat) : String := s!"Token structure is valid ({themes} theme(s))"

def flattened (format path : String) : String := s!"Flattened {format} tokens written to {path}"

def built (artifacts themes : Nat) (path : String) : String :=
  s!"Built {artifacts} artifact(s) for {themes} theme(s) in {path}"

end Success

end StyleTokens

import StyleTokens.Token

namespace StyleTokens

namespace Mode

def token? (m : Mode) (name : String) : Option Token := m.tokens.get? name

def tokenNames (m : Mode) : List String := m.tokens.names

/-- The placeholders of each token that name no token of the mode, in order. -/
def dangling (m : Mode) : List (String × String) :=
  m.tokens.items.flatMap fun t =>
    (t.value.references.filter fun r => !m.tokens.contains r).map fun r => (t.name, r)

/-- The tokens of the mode that a token refers to, once for each placeholder. -/
def edges (m : Mode) (t : Token) : List String :=
  t.value.references.filter fun r => m.tokens.contains r

def graph (m : Mode) : List (String × List String) :=
  m.tokens.items.map fun t => (t.name, m.edges t)

end Mode

/-- What a depth-first search has found: closed paths, and the tokens whose references are all followed. -/
structure Search where
  cycles : List (List String)
  done : List String

namespace Search

/-- Follows the references of the last token of `path`. A reference into the path closes a cycle; one to a
token that is not done yet is followed. A path never repeats a token, so `fuel` need not exceed the number
of tokens. -/
def visit (graph : List (String × List String)) :
    (fuel : Nat) → (path : List String) → (name : String) → Search → Search
  | 0, _, _, found => found
  | fuel + 1, path, name, found =>
    let followed := ((graph.lookup name).getD []).foldl (fun (found : Search) ref =>
      if path.contains ref then
        { found with cycles := found.cycles ++ [path.dropWhile (· != ref) ++ [ref]] }
      else if found.done.contains ref then found
      else visit graph fuel (path ++ [ref]) ref found) found
    { followed with done := name :: followed.done }

end Search

namespace Mode

/-- The cycles of references, each from a token back to itself, in the order in which the search from the
first token, then from the first one not reached yet, and so on, closes them. -/
def cycles (m : Mode) : List (List String) :=
  let graph := m.graph
  (graph.foldl (fun (found : Search) p =>
    if found.done.contains p.1 then found
    else Search.visit graph graph.length [p.1] p.1 found) ⟨[], []⟩).cycles

end Mode

end StyleTokens

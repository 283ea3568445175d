import StyleTokens.Text.Lowercase
import StyleTokens.Text.Titlecase
import StyleTokens.Text.CaseContext

namespace StyleTokens

/-- The first character that case does not pass over is cased. -/
def facesCased (cs : List Char) : Bool :=
  match cs.dropWhile (inRanges caseIgnorableRanges) with
  | [] => false
  | c :: _ => inRanges casedRanges c

/-- The small form of a character between the reversed text before it and the text after it. A capital sigma
takes its final form behind a cased character and before none, characters that case passes over left aside. -/
def smallFormAt (before : List Char) (c : Char) (after : List Char) : List Char :=
  if c = 'Σ' then [if facesCased before && !facesCased after then 'ς' else 'σ'] else smallForm c

/-- Every character in its small form; `before` is the reversed text that came already. -/
def lowerAfter : List Char → List Char → List Char
  | _, [] => []
  | before, c :: rest => smallFormAt before c rest ++ lowerAfter (c :: before) rest

def lower (cs : List Char) : List Char := lowerAfter [] cs

/-- The first character in its title form and the others in small letters. -/
def capitalize : List Char → List Char
  | [] => []
  | c :: rest => titleForm c ++ lowerAfter [c] rest

end StyleTokens

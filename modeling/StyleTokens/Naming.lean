import StyleTokens.Text.Ascii
import StyleTokens.Text.Case
import StyleTokens.Text.Blank

namespace StyleTokens

namespace Naming

/-- A hyphen between each small letter and a capital right after it. -/
def splitHumps : List Char → List Char
  | c :: d :: rest =>
    if isSmall c && isCapital d then c :: '-' :: splitHumps (d :: rest) else c :: splitHumps (d :: rest)
  | cs => cs

/-- Hyphens are put in between, so a text keeps its first character, and its last one as well. -/
theorem head?_splitHumps (cs : List Char) : (splitHumps cs).head? = cs.head? := by
  match cs with
  | [] => rfl
  | [_] => rfl
  | c :: d :: rest =>
    rw [splitHumps]
    split <;> rfl

theorem getLast?_splitHumps (cs : List Char) : (splitHumps cs).getLast? = cs.getLast? := by
  fun_induction splitHumps cs with
  | case1 c d rest here ih => simp [List.getLast?_cons, ih]
  | case2 c d rest other ih => simp [List.getLast?_cons, ih]
  | case3 => rfl

/-- White space or an underscore. -/
def isSeparator (c : Char) : Bool := isBlank c || c == '_'

/-- A hyphen for each run of separators; `inRun` says that the run has begun. -/
def joinSeparators (inRun : Bool) : List Char → List Char
  | [] => []
  | c :: rest =>
    if isSeparator c then
      if inRun then joinSeparators true rest else '-' :: joinSeparators true rest
    else c :: joinSeparators false rest

/-- Small letters, with hyphens at humps and in place of separators. -/
def kebab (name : String) : String :=
  String.ofList (lower (joinSeparators false (splitHumps name.toList)))

/-- Each hyphen before a small letter dropped and the letter made a capital. -/
def joinHyphens : List Char → List Char
  | c :: d :: rest =>
    if c == '-' && isSmall d then capitalOf d :: joinHyphens rest else c :: joinHyphens (d :: rest)
  | cs => cs

def camelize (name : String) : String :=
  String.ofList (joinHyphens name.toList)

def isWordTail (c : Char) : Bool := isSmall c || isDigit c

/-- The word at the start of a text and what follows it. A word is a run of small letters and digits, with a
capital before it or not, or a run of capitals that leaves its last one to a small letter after it. -/
def word? : List Char → Option (List Char × List Char)
  | [] => none
  | c :: rest =>
    if isWordTail c then some (c :: rest.takeWhile isWordTail, rest.dropWhile isWordTail)
    else if isCapital c then
      let tail := rest.takeWhile isWordTail
      let more := rest.takeWhile isCapital
      let after := rest.dropWhile isCapital
      if !tail.isEmpty then some (c :: tail, rest.dropWhile isWordTail)
      else if (after.head?.any isSmall) then
        some ((c :: more).dropLast, (c :: more).getLast?.toList ++ after)
      else some (c :: more, after)
    else none

/-- The words of a text; every call looks at one character or one word, so `fuel` counts characters. -/
def wordsWithin : Nat → List Char → List (List Char)
  | 0, _ => []
  | _, [] => []
  | fuel + 1, c :: rest =>
    match word? (c :: rest) with
    | some (w, after) => w :: wordsWithin fuel after
    | none => wordsWithin fuel rest

def words (cs : List Char) : List (List Char) := wordsWithin cs.length cs

def capitalizeWord : List Char → List Char
  | [] => []
  | c :: rest => capitalOf c :: rest

/-- The words of a name in small letters, all but the first with a capital; a name that would start with a
digit gets an underscore, and a name without words stays as it is. -/
def camel (name : String) : String :=
  match (words name.toList).map (·.map smallOf) with
  | [] => name
  | first :: rest =>
    let identifier := first ++ rest.flatMap capitalizeWord
    String.ofList (if identifier.head?.any isDigit then '_' :: identifier else identifier)

/-- The name with its first character in title form and the others in small letters. -/
def title (name : String) : String :=
  String.ofList (capitalize name.toList)

end Naming

end StyleTokens

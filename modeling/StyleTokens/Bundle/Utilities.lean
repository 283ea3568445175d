import StyleTokens.Token.Rendering
import StyleTokens.Text.Occurrence

namespace StyleTokens

/-- Gives a utility variable to tokens whose name contains a keyword. -/
structure UtilityRule where
  keywords : List String
  /-- The utility variable of a hyphenated name. -/
  target : String → String

def UtilityRule.applies (r : UtilityRule) (name : String) : Bool :=
  r.keywords.any fun k => occursIn k.toList name.toList

/-- Rules for the tokens that a group accepts. -/
structure UtilityGroup where
  accepts : Token → Bool
  rules : List UtilityRule

namespace Utilities

/-- A name without the first occurrence of a part. -/
def without (part name : String) : String :=
  String.ofList (removeFirst part.toList name.toList)

def colors : UtilityGroup where
  accepts t := t.type == TokenType.color.name
  rules :=
    [⟨["primary", "secondary", "error", "warning", "info", "success"], fun n => "--color-" ++ n⟩,
      ⟨["background"], fun n => "--color-bg-" ++ without "background-" n⟩,
      ⟨["text"], fun n => "--color-text-" ++ without "text-" n⟩]

/-- The rules for sizes; all radii share one variable. -/
def spacing : UtilityGroup where
  accepts t := t.type == TokenType.dimension.name || occursIn "spacing".toList t.name.toList
  rules :=
    [⟨["spacing"], fun n => "--spacing-" ++ without "spacing-" n⟩,
      ⟨["radius", "border-radius"], fun _ => "--radius-default"⟩]

def groups : List UtilityGroup := [colors, spacing]

/-- The utility variables that a group gives to a token, with the variable of the token. -/
def ofToken (g : UtilityGroup) (t : Token) : List (String × String) :=
  if g.accepts t then
    let hyphenated := Naming.kebab t.name
    (g.rules.filter fun r => r.applies t.name).map fun r => (r.target hyphenated, "--" ++ hyphenated)
  else []

/-- All that the groups give, in order. -/
def occurrences (gs : List UtilityGroup) (m : Mode) : List (String × String) :=
  gs.flatMap fun g => m.tokens.items.flatMap fun t => ofToken g t

/-- The utility variables of a mode with the variables that they stand for. A later token takes over the
variable of an earlier one, which keeps its place. -/
def mapping (gs : List UtilityGroup) (m : Mode) : List (String × String) :=
  Ordered.ofList (occurrences gs m)

end Utilities

end StyleTokens

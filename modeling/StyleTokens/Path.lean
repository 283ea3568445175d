namespace StyleTokens

/-- Where a path starts: at the working directory, at the root, or at the root written with two slashes. -/
inductive Anchor where
  | working
  | root
  | doubleRoot
  deriving DecidableEq, Repr

def Anchor.text : Anchor → String
  | working => ""
  | root => "/"
  | doubleRoot => "//"

/-- A path as it is written: a start and the parts that follow it. Empty parts and single points are dropped. A
part of two points stays, because what it leads to is only known where the path is followed. -/
structure Path where
  anchor : Anchor
  parts : List String
  deriving DecidableEq, Repr

/-- A directory or file by the names that lead to it from the root. -/
abbrev Place := List String

namespace Path

/-- The part that leads one directory up. -/
def up : String := ".."

def pieces : List Char → List (List Char)
  | [] => [[]]
  | c :: rest =>
    if c = '/' then [] :: pieces rest
    else match pieces rest with
      | [] => [[c]]
      | piece :: more => (c :: piece) :: more

/-- Exactly two slashes in front are kept; any other number counts as one. -/
def anchorOf (cs : List Char) : Anchor :=
  match (cs.takeWhile (· == '/')).length with
  | 0 => .working
  | 2 => .doubleRoot
  | _ => .root

/-- The path that a text writes. -/
def ofString (s : String) : Path :=
  ⟨anchorOf s.toList,
    ((pieces s.toList).filter fun piece => piece != [] && piece != ['.']).map String.ofList⟩

/-- The text of a path; the working directory is a point. -/
def text (p : Path) : String :=
  match p.anchor, p.parts with
  | .working, [] => "."
  | anchor, parts => anchor.text ++ String.intercalate "/" parts

/-- A path below another; one that starts at the root stands for itself. -/
def join (p q : Path) : Path :=
  match q.anchor with
  | .working => ⟨p.anchor, p.parts ++ q.parts⟩
  | _ => q

def child (p : Path) (s : String) : Path := p.join (ofString s)

def parent (p : Path) : Path := ⟨p.anchor, p.parts.dropLast⟩

def name (p : Path) : String := p.parts.getLast?.getD ""

/-- A name cut at its last point, if the point is neither its first nor its last character: what stands before
the point, and the rest with the point. -/
def cut (name : String) : String × String :=
  let back := name.toList.reverse
  let ending := back.takeWhile (· != '.')
  match back.drop ending.length with
  | _ :: before =>
    if ending.isEmpty || before.isEmpty then (name, "")
    else (String.ofList before.reverse, String.ofList ('.' :: ending.reverse))
  | [] => (name, "")

def stem (p : Path) : String := (cut p.name).1

/-- The ending of the last part, with its point. -/
def ending (p : Path) : String := (cut p.name).2

/-- One part followed without looking: two points lead up, but not above the root. -/
def follow (place : Place) (part : String) : Place :=
  if part = up then place.dropLast else place ++ [part]

/-- Where the parts are counted from. -/
def origin (working : Place) (p : Path) : Place :=
  match p.anchor with
  | .working => working
  | _ => []

/-- The place that a path leads to, by its text alone. -/
def resolve (working : Place) (p : Path) : Place :=
  p.parts.foldl follow (p.origin working)

/-- Some part has a null character; the file system knows no such names. -/
def hasNull (p : Path) : Bool := p.parts.any fun part => part.toList.contains '\x00'

end Path

end StyleTokens

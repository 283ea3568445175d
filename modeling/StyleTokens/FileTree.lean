import StyleTokens.Failure
import StyleTokens.Ordered
import StyleTokens.Path

namespace StyleTokens

/-- What can stand at a place. -/
inductive Node where
  | directory
  | file (content : ByteArray)

instance : DecidableEq Node
  | .directory, .directory => .isTrue rfl
  | .directory, .file _ | .file _, .directory => .isFalse nofun
  | .file a, .file b =>
    if h : a.data = b.data then .isTrue (congrArg Node.file (ByteArray.ext h))
    else .isFalse fun same => h (congrArg ByteArray.data (Node.file.inj same))

/-- The directories and files below the root, and the working directory. -/
structure FileTree where
  working : Place
  nodes : List (Place × Node)

namespace FileTree

/-- The places from the root down to a place. -/
def above : Place → List Place
  | [] => []
  | part :: rest => [part] :: (above rest).map (part :: ·)

/-- Nothing but the working directory and what it lies in. -/
def bare (working : Place) : FileTree := ⟨working, (above working).map fun place => (place, .directory)⟩

/-- What stands at a place; the root is a directory. -/
def node? (t : FileTree) (place : Place) : Option Node :=
  if place = [] then some .directory else Ordered.find? t.nodes place

def set (t : FileTree) (place : Place) (node : Node) : FileTree :=
  { t with nodes := Ordered.insert t.nodes place node }

theorem node?_set (t : FileTree) (place q : Place) (node : Node) :
    (t.set place node).node? q =
      if q = [] then some .directory else if place = q then some node else t.node? q := by
  by_cases h : q = []
  · simp [node?, h]
  · simp [node?, set, h, Ordered.find?_insert]

/-- Sets what stands at a place, and directories on the way to it. -/
def put (t : FileTree) (place : Place) (node : Node) : FileTree :=
  ((above place.dropLast).foldl (fun t place => t.set place .directory) t).set place node

/-- What a later tree has and an earlier one has not, in the order in which it was made. -/
def changes (before after : FileTree) : List (Place × Node) :=
  after.nodes.filter fun n => before.node? n.1 != some n.2

/-- The most bytes that a part of a path may have. -/
def partLimit : Nat := 255

/-- The most bytes that a path may have. -/
def pathLimit : Nat := 4095

/-- Follows one part from a directory. What the part names need not be there. -/
def enter (t : FileTree) (place : Place) (part : String) : Except SystemError Place :=
  match t.node? place with
  | none => .error .noEntry
  | some (.file _) => .error .notADirectory
  | some .directory =>
    if part = Path.up then .ok place.dropLast
    else if partLimit < part.utf8ByteSize then .error .nameTooLong
    else .ok (place ++ [part])

/-- Follows the parts of a path; all but the last have to be there. -/
def locate (t : FileTree) (p : Path) : Except SystemError Place :=
  if pathLimit < p.text.utf8ByteSize then .error .nameTooLong
  else p.parts.foldlM t.enter (p.origin t.working)

def status (t : FileTree) (p : Path) : Except SystemError Node := do
  match t.node? (← t.locate p) with
  | some node => .ok node
  | none => .error .noEntry

/-- Whether a path leads to something that passes a test. A path with a missing or wrong step leads to
nothing; a name that is too long is an error. -/
def leadsTo (test : Node → Bool) (t : FileTree) (p : Path) : Except SystemError Bool :=
  if p.hasNull then .ok false
  else match t.status p with
    | .ok node => .ok (test node)
    | .error .noEntry | .error .notADirectory => .ok false
    | .error e => .error e

def has (t : FileTree) (p : Path) : Except SystemError Bool := t.leadsTo (fun _ => true) p

def hasDirectory (t : FileTree) (p : Path) : Except SystemError Bool := t.leadsTo (· == .directory) p

def hasFile (t : FileTree) (p : Path) : Except SystemError Bool := t.leadsTo (· != .directory) p

def read (t : FileTree) (p : Path) : Except SystemError ByteArray := do
  match ← t.status p with
  | .file content => .ok content
  | .directory => .error .isADirectory

def names (t : FileTree) (p : Path) : Except SystemError (List String) := do
  let place ← t.locate p
  match t.node? place with
  | none => .error .noEntry
  | some (.file _) => .error .notADirectory
  | some .directory => .ok (t.nodes.filterMap fun n =>
      if n.1.dropLast = place then n.1.getLast? else none)

/-- Everything below a place: the names that lead to it from there, and what it is. -/
def below (t : FileTree) (place : Place) : List (Place × Node) :=
  t.nodes.filterMap fun n =>
    if place.isPrefixOf n.1 && n.1 != place then some (n.1.drop place.length, n.2) else none

/-- Writes a file, over an older one if there is one. -/
def write (t : FileTree) (p : Path) (content : ByteArray) : Except SystemError FileTree := do
  let place ← t.locate p
  match t.node? place with
  | some .directory => .error .isADirectory
  | _ => .ok (t.set place (.file content))

def makeDirectory (t : FileTree) (p : Path) : Except SystemError FileTree := do
  let place ← t.locate p
  match t.node? place with
  | some _ => .error .exists
  | none => .ok (t.set place .directory)

/-- Forgives an error if a directory is there all the same. -/
def settled (t : FileTree) (p : Path) (e : SystemError) : Except Fault Unit :=
  match t.hasDirectory p with
  | .ok true => .ok ()
  | .ok false => .error (.system e p.text)
  | .error other => .error (.system other p.text)

/-- Makes a directory and the missing ones above it; its parts are given from the last to the first. What
was made before an error stays. -/
def ensureParts (anchor : Anchor) : List String → FileTree → FileTree × Except Fault Unit
  | parts, t =>
    let p : Path := ⟨anchor, parts.reverse⟩
    match t.makeDirectory p with
    | .ok made => (made, .ok ())
    | .error .noEntry => match parts with
      | [] => (t, .error (.system .noEntry p.text))
      | _ :: rest => match ensureParts anchor rest t with
        | (t, .error fault) => (t, .error fault)
        | (t, .ok ()) => match t.makeDirectory p with
          | .ok made => (made, .ok ())
          | .error .noEntry => (t, .error (.system .noEntry p.text))
          | .error e => (t, t.settled p e)
    | .error e => (t, t.settled p e)

/-- Makes a directory, with the missing ones above it, unless it is there. -/
def ensureDirectory (t : FileTree) (p : Path) : FileTree × Except Fault Unit :=
  ensureParts p.anchor p.parts.reverse t

end FileTree

end StyleTokens

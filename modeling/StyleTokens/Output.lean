import StyleTokens.Artifact
import StyleTokens.FileTree
import StyleTokens.Log

namespace StyleTokens

namespace Output

/-- A place lies strictly below another. -/
def isBelow (place root : Place) : Bool := root.isPrefixOf place && place != root

/-- The path of an artifact. It has to lead below the output directory by its text alone. -/
def target (t : FileTree) (directory : Path) (artifact : String) : Except Stop Path :=
  let path := directory.child artifact
  if directory.hasNull || path.hasNull then .error (.fault .nullCharacter)
  else if isBelow (path.resolve t.working) (directory.resolve t.working) then .ok path
  else .error (.failure (.outsideOutput artifact directory.text))

/-- The artifacts with their paths, or the first that leads elsewhere. -/
def targets (t : FileTree) (directory : Path) (artifacts : List Artifact) :
    Except Stop (List (Path × Artifact)) :=
  artifacts.mapM fun a => (target t directory a.path).map fun path => (path, a)

/-- Writes one file and makes the directories that it needs. -/
def place (path : Path) (a : Artifact) (t : FileTree) : FileTree × Except Fault Unit :=
  match t.ensureDirectory path.parent with
  | (t, .error fault) => (t, .error fault)
  | (t, .ok ()) => match t.write path a.content.toUTF8 with
    | .ok written => (written, .ok ())
    | .error e => (t, .error (.system e path.text))

/-- Writes files in order, up to the first error, with a record for each. -/
def placeAll : List (Path × Artifact) → FileTree → FileTree × Traced Fault Unit
  | [], t => (t, pure ())
  | (path, a) :: rest, t => match place path a t with
    | (t, .error fault) => (t, .stop fault)
    | (t, .ok ()) =>
      let (t, later) := placeAll rest t
      (t, do
        .note .output .debug s!"Wrote {path.text}"
        later)

/-- Writes the artifacts, after all targets were checked. The answer is their paths; what was written before an
error stays. -/
def write (t : FileTree) (directory : Path) (artifacts : List Artifact) :
    FileTree × Traced Stop (List Path) :=
  match targets t directory artifacts with
  | .error stop => (t, .stop stop)
  | .ok found =>
    let (t, run) := placeAll found t
    (t, do
      run.mapError .fault
      pure (found.map Prod.fst))

end Output

end StyleTokens

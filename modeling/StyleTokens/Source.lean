import StyleTokens.FileTree
import StyleTokens.Log
import StyleTokens.Text.Case
import StyleTokens.Text.Occurrence
import StyleTokens.Yaml

namespace StyleTokens

namespace Source

/-- What the name of a brand's source ends in, before the ending of the file. -/
def label : String := "-tokens"

/-- The endings that sources may have, in the order in which they are looked for. -/
def endings : List String := [".json", ".yaml", ".yml"]

def endingOf (path : Path) : String := String.ofList (lower path.ending.toList)

/-- The file holds YAML; every other one holds JSON. -/
def isYaml (path : Path) : Bool := endingOf path == ".yaml" || endingOf path == ".yml"

def stripLabel (s : String) : String := String.ofList (dropEnding label.toList s.toList)

/-- The document that a text says; the path is named in failures. -/
def parse (path : Path) (text : String) : Except Stop Doc :=
  if isYaml path then
    match Yaml.load text with
    | .ok d => .ok d
    | .error .invalid => .error (.failure (.invalidYaml path.text))
    | .error (.noValue fault) => .error (.fault fault)
  else (Json.parse text).mapError fun fault => .failure (.invalidJson path.text fault)

def load (t : FileTree) (path : Path) : Except Stop Doc :=
  match t.hasFile path with
  | .error e => .error (.fault (.system e path.text))
  | .ok false => .error (.failure (.sourceNotFound path.text))
  | .ok true => match t.read path with
    | .error e => .error (.fault (.system e path.text))
    | .ok bytes => match Utf8.decode bytes with
      | .error fault => .error (.failure (.invalidEncoding path.text fault))
      | .ok text => parse path (String.ofList (unifyNewlines text.toList))

def loadTable (t : FileTree) (path : Path) : Except Stop Table := do
  match ← load t path with
  | .mapping entries =>
    (Table.ofEntries entries).mapError fun fault => .failure (.invalidTableFile path.text fault)
  | _ => .error (.failure (.tableNotAMapping path.text))

/-- The brand whose source has the given name. -/
def brandOf? (name : String) : Option String :=
  let (stem, ending) := Path.cut name
  if endings.contains (String.ofList (lower ending.toList)) && label.toList.isSuffixOf stem.toList then
    some (stripLabel stem)
  else none

/-- The brands with a source in a directory, in order; there are none if the directory is missing. -/
def brands (t : FileTree) (directory : Path) : Except Fault (List String) := do
  let system (e : SystemError) : Fault := .system e directory.text
  if ← (t.has directory).mapError system then
    let names ← (t.names directory).mapError system
    pure ((names.filterMap brandOf?).eraseDups.mergeSort fun a b => a ≤ b)
  else pure []

/-- The first path that leads to something. -/
def firstPresent (t : FileTree) : List Path → Except Fault (Option Path)
  | [] => .ok none
  | path :: rest => match t.has path with
    | .error e => .error (.system e path.text)
    | .ok true => .ok (some path)
    | .ok false => firstPresent t rest

def brandFile (directory : Path) (brand ending : String) : Path :=
  directory.child s!"{brand}{label}{ending}"

def candidates (directory : Path) (brand : String) : List Path := endings.map (brandFile directory brand)

/-- The path of the source of a brand: the first candidate that is there, or else the first of all. -/
def brandPath (t : FileTree) (directory : Path) (brand : String) : Except Fault Path := do
  let found ← firstPresent t (candidates directory brand)
  pure (found.getD (brandFile directory brand (endings.headD "")))

def loadBrand (t : FileTree) (directory : Path) (brand : String) : Traced Stop Doc := do
  let path ← .ofExcept ((brandPath t directory brand).mapError .fault)
  .note .source .debug s!"Loading brand \x27{brand}\x27 from {path.text}"
  .ofExcept (load t path)

end Source

end StyleTokens

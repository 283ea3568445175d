import StyleTokens.Export.Format
import StyleTokens.Log

namespace StyleTokens

/-- Records by name; a record has its keys in order. -/
abbrev Records := List (Scalar × List (Scalar × Doc))

/-- A token of a tree: the keys on the way to it, its own key, its type and its value. -/
structure Leaf where
  path : List Scalar
  key : Scalar
  type : Doc
  value : Doc

namespace Leaf

/-- The type and the value of a leaf, if a mapping is one: `type` and `value` are looked for first, `$type`
and `$value` second. -/
def parts? (entries : List (Scalar × Doc)) : Option (Doc × Doc) :=
  match Doc.get? entries ExportKey.value, Doc.get? entries ExportKey.type with
  | some value, some type => some (type, value)
  | _, _ => match Doc.get? entries RecordKey.value, Doc.get? entries RecordKey.type with
    | some value, some type => some (type, value)
    | _, _ => none

def recordOf (type value : Doc) : List (Scalar × Doc) :=
  [(.text RecordKey.type, currentType type), (.text RecordKey.value, value)]

def record (l : Leaf) : List (Scalar × Doc) := recordOf l.type l.value

/-- The record of a document that is a leaf. -/
def recordOf? : Doc → Option (List (Scalar × Doc))
  | .mapping entries => (parts? entries).map fun p => recordOf p.1 p.2
  | _ => none

/-- The keys from the root to the leaf. -/
def fullPath (l : Leaf) : List Scalar := l.path ++ [l.key]

end Leaf

def isSkipped : Scalar → Bool
  | .text s => ExportKey.skipped.contains s
  | _ => false

namespace Nested

/-- The keys of a path joined by points, or the place and the kind of the first one that is no text. -/
def joinPath : (position : Nat) → List Scalar → Except Fault (List String)
  | _, [] => .ok []
  | position, .text s :: rest => (joinPath (position + 1) rest).map (s :: ·)
  | position, key :: _ => .error (.unjoinable position key.kindName)

/-- Notes that a leaf replaces an earlier one. -/
def noteRepeated (l : Leaf) : Traced Fault Unit :=
  match joinPath 0 l.fullPath with
  | .error fault => .stop fault
  | .ok parts =>
    let path := String.intercalate "." parts
    .note .normalizer .debug s!"Token \x27{l.key.message}\x27 at {path} overrides earlier leaf"

/-- Puts in the record of a leaf. -/
def putLeaf (flat : Records) (l : Leaf) : Traced Fault Records := do
  if Ordered.contains flat l.key then
    noteRepeated l
  pure (Ordered.insert flat l.key l.record)

mutual

/-- Goes through a document that stands at a key: a leaf is put in, any other mapping is walked. -/
def walkAt (path : List Scalar) (key : Scalar) : Doc → Records → Traced Fault Records
  | .mapping entries, flat => match Leaf.parts? entries with
    | some (type, value) => putLeaf flat ⟨path, key, type, value⟩
    | none => walk (path ++ [key]) entries flat
  | _, flat => pure flat

/-- Goes through the entries of a mapping, depth first. -/
def walk (path : List Scalar) : List (Scalar × Doc) → Records → Traced Fault Records
  | [], flat => pure flat
  | (key, child) :: rest, flat => do
    let flat ← if isSkipped key then pure flat else walkAt path key child flat
    walk path rest flat

end

/-- The flat map of a tree: one record for each last key, at the place of its first leaf and with the content of
its last. Below a leaf nothing is looked at. -/
def flatten (d : Doc) : Traced Stop Records :=
  match d with
  | .mapping entries => (walk [] entries []).mapError .fault
  | _ => .stop (.failure .notAMapping)

/-- A text with its references shortened; any other document as it is. -/
def shortenReferences : Doc → Doc
  | .scalar (.text s) => .text (Placeholder.shorten s)
  | d => d

/-- The bodies of the placeholders of a text; other documents have none. -/
def referenceNames : Doc → List String
  | .scalar (.text s) => Placeholder.names s
  | _ => []

/-- The value under `key` of each record shortened; a record without one gets null. -/
def shortenRecords (key : String) (records : Records) : Records :=
  records.map fun p =>
    (p.1, Ordered.insert p.2 (.text key) (shortenReferences ((Doc.get? p.2 key).getD .null)))

def recordsDoc (records : Records) : Doc :=
  .mapping (records.map fun p => (p.1, .mapping p.2))

end Nested

end StyleTokens

import StyleTokens.Yaml.Binary
import StyleTokens.Yaml.Node

namespace StyleTokens

namespace Yaml

/-- The items of the list are pairs, which take nothing in. -/
def isPairsTag (tag : String) : Bool := tag == Tag.omap || tag == Tag.pairs

/-- A key of its own value is a text where it is the key of a mapping. -/
def plainKey : Node → Node
  | .scalar tag text => .scalar (if tag = Tag.value then Tag.str else tag) text
  | n => n

/-- The entries that a part gives to a mapping that takes it in: those of a mapping, or of the mappings in a
list, the last one first. -/
def mergeable : Node → Except Trouble (List (Node × Node))
  | .mapping _ entries => .ok entries
  | .sequence _ items => do
    let parts ← items.mapM fun
      | .mapping _ entries => Except.ok entries
      | _ => .error .invalid
    pure parts.reverse.flatten
  | .scalar _ _ => .error .invalid

namespace Node

mutual

/-- A part in which all mappings have taken in what they merge; a key of their own goes before one that was
taken in. -/
def merged : Node → Except Trouble Node
  | .scalar tag text => .ok (.scalar tag text)
  | .sequence tag items =>
    if isPairsTag tag then (mergedPairs items).map (.sequence tag ·)
    else (mergedItems items).map (.sequence tag ·)
  | .mapping tag entries => do
    let (taken, own) ← mergedEntries entries
    pure (.mapping tag (taken ++ own))

def mergedItems : List Node → Except Trouble (List Node)
  | [] => .ok []
  | n :: rest => do
    let n ← merged n
    let rest ← mergedItems rest
    pure (n :: rest)

/-- The items of a list of pairs: the mappings that stand for pairs take nothing in. -/
def mergedPairs : List Node → Except Trouble (List Node)
  | [] => .ok []
  | .mapping tag entries :: rest => do
    let entries ← mergedParts entries
    let rest ← mergedPairs rest
    pure (.mapping tag entries :: rest)
  | n :: rest => do
    let n ← merged n
    let rest ← mergedPairs rest
    pure (n :: rest)

def mergedParts : List (Node × Node) → Except Trouble (List (Node × Node))
  | [] => .ok []
  | (key, value) :: rest => do
    let key ← merged key
    let value ← merged value
    let rest ← mergedParts rest
    pure ((key, value) :: rest)

/-- The entries that a mapping takes in and those of its own. -/
def mergedEntries : List (Node × Node) → Except Trouble (List (Node × Node) × List (Node × Node))
  | [] => .ok ([], [])
  | (key, value) :: rest => do
    let key ← merged key
    let value ← merged value
    let (taken, own) ← mergedEntries rest
    if key.tag = Tag.merge then
      let more ← mergeable value
      pure (more ++ taken, own)
    else pure (taken, (plainKey key, value) :: own)

end

end Node

def scalarValue (tag text : String) : Except Trouble Scalar :=
  if tag = Tag.str then .ok (.text text)
  else if tag = Tag.null then .ok .null
  else if tag = Tag.bool then
    let word := String.ofList (lower text.toList)
    match boolValues.lookup word with
    | some b => .ok (.bool b)
    | none => .error (.noValue (.missingKey word))
  else if tag = Tag.int then (intValue text).map .int
  else if tag = Tag.float then (floatValue text).map .double
  else if tag = Tag.timestamp then timestampValue (trimFinalBreak text.toList)
  else if tag = Tag.binary then (binaryValue text).map .bytes
  else .error .invalid

/-- Troubles with the levels on which they are met. -/
abbrev Troubles := List (Nat × Trouble)

/-- The first trouble on the highest level. -/
def firstTrouble? : Troubles → Option (Nat × Trouble)
  | [] => none
  | t :: rest => match firstTrouble? rest with
    | some other => if other.1 < t.1 then some other else some t
    | none => some t

/-- The scalar that a key is; nothing else can be one. -/
def keyScalar? : Doc → Option Scalar
  | .scalar s => some s
  | _ => none

mutual

/-- The value of a part, and the troubles on the way. -/
def build (level : Nat) : Node → Doc × Troubles
  | .scalar tag text => match scalarValue tag text with
    | .ok s => (.scalar s, [])
    | .error t => (.null, [(level, t)])
  | .sequence tag items =>
    if tag = Tag.seq then
      let (docs, troubles) := buildItems (level + 1) items
      (.list docs, troubles)
    else if isPairsTag tag then
      let (docs, troubles) := buildPairs (level + 1) items
      (.list docs, troubles)
    else (.null, [(level, .invalid)])
  | .mapping tag entries =>
    if tag = Tag.map ∨ tag = Tag.set then
      let (pairs, troubles) := buildEntries (level + 1) entries
      let content := Ordered.ofList pairs
      (if tag = Tag.map then .mapping content else .set (Ordered.keys content), troubles)
    else (.null, [(level, .invalid)])

def buildItems (level : Nat) : List Node → List Doc × Troubles
  | [] => ([], [])
  | n :: rest =>
    let (d, troubles) := build level n
    let (docs, more) := buildItems level rest
    (d :: docs, troubles ++ more)

/-- The values of pairs: each is a mapping with one entry. -/
def buildPairs (level : Nat) : List Node → List Doc × Troubles
  | [] => ([], [])
  | .mapping _ [(key, value)] :: rest =>
    let (k, troubles) := build level key
    let (v, more) := build level value
    let (docs, others) := buildPairs level rest
    (.list [k, v] :: docs, troubles ++ more ++ others)
  | _ :: _ => ([], [(level, .invalid)])

def buildEntries (level : Nat) : List (Node × Node) → List (Scalar × Doc) × Troubles
  | [] => ([], [])
  | (key, value) :: rest =>
    let (k, troubles) := build level key
    let (v, more) := build level value
    let (pairs, others) := buildEntries level rest
    match keyScalar? k with
    | some s => ((s, v) :: pairs, troubles ++ more ++ others)
    | none => (pairs, troubles ++ (level, .invalid) :: more ++ others)

end

/-- The value of a document. It is made level by level, so that of several troubles the first one on the highest
level counts. -/
def value (n : Node) : Except Trouble Doc := do
  let (d, troubles) := build 0 (← n.merged)
  match firstTrouble? troubles with
  | some (_, t) => throw t
  | none => pure d

end Yaml

end StyleTokens

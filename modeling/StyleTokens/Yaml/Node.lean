import StyleTokens.Yaml.Tag
import StyleTokens.Yaml.Tokens

namespace StyleTokens

namespace Yaml

inductive Node where
  | scalar (tag : String) (text : String)
  | sequence (tag : String) (items : List Node)
  | mapping (tag : String) (entries : List (Node × Node))

namespace Node

def tag : Node → String
  | scalar t _ => t
  | sequence t _ => t
  | mapping t _ => t

/-- What stands where nothing is written. -/
def empty : Node := .scalar Tag.null ""

end Node

/-- A document on the way from tokens: what the handles of types stand for, the parts that have names, and
whether a part was named inside itself. A part that has a name but has not ended stands for nothing yet. -/
structure Reading where
  tokens : List Token
  handles : List (String × String)
  anchors : List (String × Option Node)
  circular : Bool

abbrev Reader := StateT Reading (Except Trouble)

namespace Reader

/-- What the handles of types stand for unless a document says otherwise. -/
def usualHandles : List (String × String) := [("!", "!"), ("!!", commonStart)]

def peek : Reader Token := do
  pure ((← get).tokens.headD .streamEnd)

def drop : Reader Unit :=
  modify fun r => { r with tokens := r.tokens.tail }

def dropIf (t : Token) : Reader Bool := do
  if (← peek) = t then
    drop
    pure true
  else pure false

def expect (t : Token) : Reader Unit := do
  unless ← dropIf t do throw .invalid

/-- The name of an anchor, if one comes. -/
def anchor? : Reader (Option String) := do
  match ← peek with
  | .anchor name =>
    drop
    pure (some name)
  | _ => pure none

/-- The name of a type, if one comes. Its handle has to be known. -/
def tag? : Reader (Option String) := do
  match ← peek with
  | .tag text =>
    drop
    match text.handle with
    | none => pure (some text.suffix)
    | some handle => match (← get).handles.lookup handle with
      | some start => pure (some (start ++ text.suffix))
      | none => throw .invalid
  | _ => pure none

/-- An anchor and the name of a type, in either order. -/
def properties : Reader (Option String × Option String) := do
  match ← anchor? with
  | some name => pure (some name, ← tag?)
  | none =>
    let tag ← tag?
    match tag with
    | some _ => pure (← anchor?, tag)
    | none => pure (none, none)

/-- The part that a name stands for. Inside that part it stands for nothing, and no document comes of the text. -/
def named (name : String) : Reader Node := do
  match (← get).anchors.lookup name with
  | some (some n) => pure n
  | some none =>
    modify fun r => { r with circular := true }
    pure .empty
  | none => throw .invalid

/-- Begins a part that may have a name; no name is given twice. -/
def openPart (name : Option String) : Reader Unit := do
  match name with
  | none => pure ()
  | some name =>
    if ((← get).anchors.lookup name).isSome then throw .invalid
    modify fun r => { r with anchors := (name, none) :: r.anchors }

/-- Ends a part that may have a name. -/
def closePart (name : Option String) (n : Node) : Reader Node := do
  match name with
  | none => pure n
  | some name =>
    modify fun r => { r with anchors := (name, some n) :: r.anchors }
    pure n

mutual

/-- A part. Blocks begin only where `block` says so, and a list without an indent of its own only where
`indentless` does. -/
def node : (fuel : Nat) → (block indentless : Bool) → Reader Node
  | 0, _, _ => throw .invalid
  | fuel + 1, block, indentless => do
    match ← peek with
    | .alias name =>
      drop
      named name
    | _ =>
      let (name, tag) ← properties
      openPart name
      let sequence (items : List Node) : Node := .sequence (collectionTag tag Tag.seq) items
      let mapping (entries : List (Node × Node)) : Node := .mapping (collectionTag tag Tag.map) entries
      let n ← match ← peek, block, indentless with
        | .blockEntry, _, true => do pure (sequence (← indentlessItems fuel))
        | .scalar plain text, _, _ => do
          drop
          pure (.scalar (scalarTag tag plain text) text)
        | .flowSequenceStart, _, _ => do
          drop
          pure (sequence (← flowItems fuel true))
        | .flowMappingStart, _, _ => do
          drop
          pure (mapping (← flowEntries fuel true))
        | .blockSequenceStart, true, _ => do
          drop
          pure (sequence (← blockItems fuel))
        | .blockMappingStart, true, _ => do
          drop
          pure (mapping (← blockEntries fuel))
        | _, _, _ =>
          if name.isSome || tag.isSome then pure (.scalar (scalarTag tag true "") "")
          else throw .invalid
      closePart name n

/-- A part of a block, or nothing if a token comes that ends it. -/
def blockPart : (fuel : Nat) → (indentless : Bool) → (ends : List Token) → Reader Node
  | 0, _, _ => throw .invalid
  | fuel + 1, indentless, ends => do
    if ends.contains (← peek) then pure .empty else node fuel true indentless

/-- A part between brackets, or nothing if a token comes that ends it. -/
def flowPart : (fuel : Nat) → (ends : List Token) → Reader Node
  | 0, _ => throw .invalid
  | fuel + 1, ends => do
    if ends.contains (← peek) then pure .empty else node fuel false false

def blockItems : (fuel : Nat) → Reader (List Node)
  | 0 => throw .invalid
  | fuel + 1 => do
    if ← dropIf .blockEntry then
      let item ← blockPart fuel false [.blockEntry, .blockEnd]
      let items ← blockItems fuel
      pure (item :: items)
    else
      expect .blockEnd
      pure []

/-- The items of a list that has no indent of its own. -/
def indentlessItems : (fuel : Nat) → Reader (List Node)
  | 0 => throw .invalid
  | fuel + 1 => do
    if ← dropIf .blockEntry then
      let item ← blockPart fuel false [.blockEntry, .key, .value, .blockEnd]
      let items ← indentlessItems fuel
      pure (item :: items)
    else pure []

def blockEntries : (fuel : Nat) → Reader (List (Node × Node))
  | 0 => throw .invalid
  | fuel + 1 => do
    if ← dropIf .key then
      let key ← blockPart fuel true [.key, .value, .blockEnd]
      let value ← if ← dropIf .value then blockPart fuel true [.key, .value, .blockEnd] else pure .empty
      let entries ← blockEntries fuel
      pure ((key, value) :: entries)
    else
      expect .blockEnd
      pure []

/-- The items between brackets. An item can be a single entry of a mapping. -/
def flowItems : (fuel : Nat) → (first : Bool) → Reader (List Node)
  | 0, _ => throw .invalid
  | fuel + 1, first => do
    if ← dropIf .flowSequenceEnd then pure []
    else
      unless first do expect .flowEntry
      if ← dropIf .key then
        let key ← flowPart fuel [.value, .flowEntry, .flowSequenceEnd]
        let value ← if ← dropIf .value then flowPart fuel [.flowEntry, .flowSequenceEnd] else pure .empty
        let items ← flowItems fuel false
        pure (.mapping Tag.map [(key, value)] :: items)
      else if ← dropIf .flowSequenceEnd then pure []
      else
        let item ← node fuel false false
        let items ← flowItems fuel false
        pure (item :: items)

/-- The entries between braces. An entry without a colon has no value. -/
def flowEntries : (fuel : Nat) → (first : Bool) → Reader (List (Node × Node))
  | 0, _ => throw .invalid
  | fuel + 1, first => do
    if ← dropIf .flowMappingEnd then pure []
    else
      unless first do expect .flowEntry
      if ← dropIf .key then
        let key ← flowPart fuel [.value, .flowEntry, .flowMappingEnd]
        let value ← if ← dropIf .value then flowPart fuel [.flowEntry, .flowMappingEnd] else pure .empty
        let entries ← flowEntries fuel false
        pure ((key, value) :: entries)
      else if ← dropIf .flowMappingEnd then pure []
      else
        let key ← node fuel false false
        let entries ← flowEntries fuel false
        pure ((key, .empty) :: entries)

end

/-- The directives before a document: one version at most, which has to be the first, and handles with what
they stand for. -/
def directives : (fuel : Nat) → (versioned : Bool) → (handles : List (String × String)) →
    Reader (List (String × String))
  | 0, _, handles => pure handles
  | fuel + 1, versioned, handles => do
    match ← peek with
    | .version major =>
      if versioned || major != 1 then throw .invalid
      drop
      directives fuel true handles
    | .tagHandle handle start =>
      if (handles.lookup handle).isSome then throw .invalid
      drop
      directives fuel versioned ((handle, start) :: handles)
    | .otherDirective =>
      drop
      directives fuel versioned handles
    | _ => pure handles

/-- A document that begins with its mark. -/
def markedDocument (fuel : Nat) : Reader Node := do
  let handles ← directives fuel false []
  modify fun r => { r with handles := handles ++ usualHandles }
  expect .documentStart
  match ← peek with
  | .version _ | .tagHandle _ _ | .otherDirective | .documentStart | .documentEnd | .streamEnd =>
    pure .empty
  | _ => node fuel true false

/-- The only document of a text, if there is one. -/
def document (fuel : Nat) : Reader (Option Node) := do
  match ← peek with
  | .streamEnd => pure none
  | .version _ | .tagHandle _ _ | .otherDirective | .documentStart => pure (some (← markedDocument fuel))
  | _ => pure (some (← node fuel true false))

/-- The only document, with nothing but marks of an end behind it. No part of it is named inside itself. -/
def stream (fuel : Nat) : Reader (Option Node) := do
  let d ← document fuel
  let rest := (← get).tokens.dropWhile (· == .documentEnd)
  unless rest == [.streamEnd] do throw .invalid
  if (← get).circular then throw (.noValue (.unreadable "Circular reference detected"))
  pure d

end Reader

/-- The tree of the only document of a text, if there is one. -/
def Node.ofTokens? (ts : List Token) : Except Trouble (Option Node) :=
  ((Reader.stream (4 * ts.length + 4)).run ⟨ts, Reader.usualHandles, [], false⟩).map Prod.fst

end Yaml

end StyleTokens

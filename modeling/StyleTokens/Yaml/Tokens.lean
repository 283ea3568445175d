import StyleTokens.Yaml.Property
import StyleTokens.Yaml.Scalar.Block
import StyleTokens.Yaml.Scalar.Plain

namespace StyleTokens

namespace Yaml

/-- A token that may be a key: how many tokens came before it, whether the indent asks for a key there, and its
place. Its colon has to come in the same line and soon. -/
structure PossibleKey where
  number : Nat
  required : Bool
  index : Nat
  line : Nat
  column : Nat
  deriving DecidableEq, Repr

/-- How far away a colon may be. -/
def keyLimit : Nat := 1024

/-- A text on the way to tokens. -/
structure Scan where
  /-- No loop over the text takes more steps. -/
  size : Nat
  cursor : Cursor
  /-- The tokens so far, the last one first. -/
  tokens : List Token
  count : Nat
  /-- The indent of the block, and those of the blocks around it. -/
  indent : Int
  outerIndents : List Int
  /-- A token that comes now may be a key. -/
  keyAllowed : Bool
  /-- The possible key inside the innermost brackets, and those outside of them. -/
  key : Option PossibleKey
  outerKeys : List (Option PossibleKey)

namespace Scan

def start (cs : List Char) : Scan :=
  let c := Cursor.start cs
  ⟨cs.length + 1, if c.peek = '\uFEFF' then c.advance else c, [], 0, -1, [], true, none, []⟩

def inFlow (s : Scan) : Bool := !s.outerKeys.isEmpty

def push (s : Scan) (t : Token) : Scan := { s with tokens := t :: s.tokens, count := s.count + 1 }

/-- Adds a token and goes on behind it. -/
def take (s : Scan) (t : Token) (length : Nat) : Scan :=
  { s.push t with cursor := s.cursor.skip length }

/-- Puts a token before those from a number on. -/
def put (s : Scan) (t : Token) (number : Nat) : Scan :=
  let later := s.count - number
  { s with tokens := s.tokens.take later ++ t :: s.tokens.drop later, count := s.count + 1 }

def allowKey (s : Scan) (allowed : Bool) : Scan := { s with keyAllowed := allowed }

/-- The blocks that end at a column: the indent after that, those around it, and the number of the ended. -/
def endedBlocks (column : Int) : Int → List Int → Int × List Int × Nat
  | indent, [] => (indent, [], 0)
  | indent, outer :: more =>
    if column < indent then
      let (left, around, n) := endedBlocks column outer more
      (left, around, n + 1)
    else (indent, outer :: more, 0)

/-- Ends the blocks that are indented further than a column. -/
def endBlocks (s : Scan) (column : Int) : Scan :=
  if s.inFlow then s
  else
    let (indent, around, n) := endedBlocks column s.indent s.outerIndents
    { s with
      tokens := List.replicate n .blockEnd ++ s.tokens
      count := s.count + n
      indent := indent
      outerIndents := around }

/-- Begins a block if a column is indented further than the one around it; its first token goes before those
from a number on. -/
def beginBlock (s : Scan) (column : Nat) (t : Token) (number : Nat) : Scan :=
  if s.indent < column then
    { s.put t number with indent := column, outerIndents := s.indent :: s.outerIndents }
  else s

/-- A key that came too early, or none. -/
def freshKey (c : Cursor) : Option PossibleKey → Except Trouble (Option PossibleKey)
  | none => .ok none
  | some k =>
    if k.line ≠ c.line ∨ keyLimit < c.index - k.index then
      if k.required then .error .invalid else .ok none
    else .ok (some k)

/-- Forgets the possible keys that are too far away. -/
def refreshKeys (s : Scan) : Except Trouble Scan := do
  let outerKeys ← s.outerKeys.mapM (freshKey s.cursor)
  let key ← freshKey s.cursor s.key
  pure { s with key, outerKeys }

/-- Forgets the possible key; one that is required must not be lost. -/
def dropKey (s : Scan) : Except Trouble Scan :=
  match s.key with
  | some k => if k.required then .error .invalid else .ok { s with key := none }
  | none => .ok s

/-- Remembers the next token as a possible key, if it may be one. -/
def saveKey (s : Scan) : Except Trouble Scan :=
  if s.keyAllowed then do
    let s ← s.dropKey
    let c := s.cursor
    pure { s with
      key := some ⟨s.count, !s.inFlow && s.indent == (c.column : Int), c.index, c.line, c.column⟩ }
  else .ok s

/-- Passes white space, comments and line ends. Outside brackets a key may follow a line end. -/
def skipBlanks (inFlow : Bool) : (fuel : Nat) → Cursor → Bool → Cursor × Bool
  | 0, c, allowed => (c, allowed)
  | fuel + 1, c, allowed =>
    let c := c.skipWhile (· == ' ')
    let c := if c.peek = '#' then c.skipWhile (!isBreak ·) else c
    match c.lineBreak? with
    | some (_, c) => skipBlanks inFlow fuel c (allowed || !inFlow)
    | none => (c, allowed)

def toToken (s : Scan) : Except Trouble Scan := do
  let (cursor, keyAllowed) := skipBlanks s.inFlow s.size s.cursor s.keyAllowed
  let s ← { s with cursor, keyAllowed }.refreshKeys
  pure (s.endBlocks s.cursor.column)

/-- The mark of a document, or the end of the text: all blocks end. -/
def endAll (s : Scan) : Except Trouble Scan := do
  let s ← (s.endBlocks (-1)).dropKey
  pure (s.allowKey false)

def openFlow (s : Scan) (t : Token) : Except Trouble Scan := do
  let s ← s.saveKey
  pure ({ s with key := none, outerKeys := s.key :: s.outerKeys, keyAllowed := true }.take t 1)

def closeFlow (s : Scan) (t : Token) : Except Trouble Scan := do
  let s ← s.dropKey
  match s.outerKeys with
  | [] => throw .invalid
  | key :: outerKeys => pure ({ s with key, outerKeys, keyAllowed := false }.take t 1)

/-- A comma inside brackets. -/
def flowEntry (s : Scan) : Except Trouble Scan := do
  let s ← s.dropKey
  pure ((s.allowKey true).take .flowEntry 1)

/-- Begins a block of the given kind at this place, if one may begin here. -/
def blockHere (s : Scan) (t : Token) : Except Trouble Scan :=
  if s.inFlow then .ok s
  else if s.keyAllowed then .ok (s.beginBlock s.cursor.column t s.count)
  else .error .invalid

/-- A hyphen that begins an entry. -/
def blockEntry (s : Scan) : Except Trouble Scan := do
  let s ← (← s.blockHere .blockSequenceStart).dropKey
  pure ((s.allowKey true).take .blockEntry 1)

/-- A question mark that begins a key. -/
def explicitKey (s : Scan) : Except Trouble Scan := do
  let s ← (← s.blockHere .blockMappingStart).dropKey
  pure ((s.allowKey !s.inFlow).take .key 1)

/-- A colon: the possible key before it is one, or it belongs to a key that was marked. -/
def colon (s : Scan) : Except Trouble Scan := do
  match s.key with
  | some k =>
    let s := { s with key := none }.put .key k.number
    let s := if s.inFlow then s else s.beginBlock k.column .blockMappingStart k.number
    pure ((s.allowKey false).take .value 1)
  | none =>
    let s ← s.blockHere .blockMappingStart
    pure ((s.allowKey !s.inFlow).take .value 1)

/-- A token that may be a key and after which none may follow, read from the text. -/
def keyLike (s : Scan) (read : Cursor → Except Trouble (Token × Cursor)) : Except Trouble Scan := do
  let s ← s.saveKey
  let (t, cursor) ← read s.cursor
  pure { (s.allowKey false).push t with cursor }

/-- A text in quotes. -/
def quoted (s : Scan) : Except Trouble Scan :=
  s.keyLike fun c => (quotedText s.size c).map fun p => (.scalar false (String.ofList p.1), p.2)

/-- A plain text. If it ends behind a line end, a key may follow. -/
def plain (s : Scan) : Except Trouble Scan := do
  let s ← s.saveKey
  let (text, cursor, broken) := plainText s.inFlow s.indent s.size s.cursor
  pure { (s.allowKey broken).push (.scalar true (String.ofList text)) with cursor }

def block (s : Scan) (folded : Bool) : Except Trouble Scan := do
  let s ← s.dropKey
  let (text, cursor) ← blockText folded s.indent s.size s.cursor.advance
  pure { (s.allowKey true).push (.scalar false (String.ofList text)) with cursor }

/-- Marks that begin no plain text, except for three of them when something follows. -/
def marks : List Char := "-?:,[]\x7b\x7d#&*!|>\x27\"%@`".toList

/-- A plain text begins with the character, with another one after it. -/
def beginsPlain (inFlow : Bool) (ch next : Char) : Bool :=
  (!isWhiteOrEnd ch && !marks.contains ch) ||
    (!isWhiteOrEnd next && (ch == '-' || (!inFlow && (ch == '?' || ch == ':'))))

/-- Reads the next token, and the tokens for blocks that it begins or ends. -/
def step (s : Scan) : Except Trouble Scan := do
  let s ← s.toToken
  let c := s.cursor
  let ch := c.peek
  let next := c.peekAt 1
  let named (f : String → Token) (c : Cursor) : Except Trouble (Token × Cursor) :=
    (anchorName c.advance).map fun p => (f p.1, p.2)
  if c.rest.isEmpty then pure ((← s.endAll).push .streamEnd)
  else if ch = '%' ∧ c.column = 0 then do
    let s ← s.endAll
    let (t, cursor) ← directive s.size s.cursor
    pure { s.push t with cursor }
  else if c.column = 0 ∧ c.atTriple '-' then pure ((← s.endAll).take .documentStart 3)
  else if c.column = 0 ∧ c.atTriple '.' then pure ((← s.endAll).take .documentEnd 3)
  else if ch = '[' then s.openFlow .flowSequenceStart
  else if ch = '{' then s.openFlow .flowMappingStart
  else if ch = ']' then s.closeFlow .flowSequenceEnd
  else if ch = '}' then s.closeFlow .flowMappingEnd
  else if ch = ',' then s.flowEntry
  else if ch = '-' ∧ isWhiteOrEnd next then s.blockEntry
  else if ch = '?' ∧ (s.inFlow ∨ isWhiteOrEnd next) then s.explicitKey
  else if ch = ':' ∧ (s.inFlow ∨ isWhiteOrEnd next) then s.colon
  else if ch = '*' then s.keyLike (named .alias)
  else if ch = '&' then s.keyLike (named .anchor)
  else if ch = '!' then s.keyLike fun c => (tagText s.size c).map fun p => (.tag p.1, p.2)
  else if ch = '|' ∧ !s.inFlow then s.block false
  else if ch = '>' ∧ !s.inFlow then s.block true
  else if ch = '\x27' ∨ ch = '"' then s.quoted
  else if beginsPlain s.inFlow ch next then s.plain
  else throw .invalid

def isDone (s : Scan) : Bool := s.tokens.head? == some .streamEnd

/-- Reads tokens until the text ends. -/
def run : (fuel : Nat) → Scan → Except Trouble Scan
  | 0, _ => .error .invalid
  | fuel + 1, s => do
    let s ← s.step
    if s.isDone then pure s else run fuel s

end Scan

def tokens (cs : List Char) : Except Trouble (List Token) :=
  if cs.all isAllowed then
    (Scan.run (cs.length + 1) (.start cs)).map fun s => s.tokens.reverse
  else .error .invalid

end Yaml

end StyleTokens

import StyleTokens.Text.Utf8
import StyleTokens.Yaml.Scalar.Quoted
import StyleTokens.Yaml.Token

namespace StyleTokens

namespace Yaml

/-- An ASCII letter or digit, a hyphen or an underscore. -/
def isWordChar (c : Char) : Bool := c.isAlphanum || c == '-' || c == '_'

/-- The character may stand in the name of a type. -/
def isTagChar (c : Char) : Bool := c.isAlphanum || "-;/?:@&=+$,_.!~*\x27()[]%".toList.contains c

/-- What may follow the name of an anchor. -/
def endsAnchor (c : Char) : Bool := isWhiteOrEnd c || "?:,]\x7d%@`".toList.contains c

/-- The name of an anchor; the place is behind its mark. -/
def anchorName (c : Cursor) : Except Trouble (String × Cursor) :=
  let name := c.run isWordChar
  let c := c.skip name.length
  if name.isEmpty || !endsAnchor c.peek then .error .invalid else .ok (String.ofList name, c)

/-- The bytes of escapes of a percent sign and two digits to base sixteen. -/
def percentBytes : (fuel : Nat) → Cursor → Except Trouble (List UInt8 × Cursor)
  | 0, c => .ok ([], c)
  | fuel + 1, c =>
    if c.peek = '%' then
      match Json.hexValue? (c.peekAt 1), Json.hexValue? (c.peekAt 2) with
      | some a, some b => (percentBytes fuel (c.skip 3)).map fun p => (UInt8.ofNat (a * 16 + b) :: p.1, p.2)
      | _, _ => .error .invalid
    else .ok ([], c)

/-- The characters of the name of a type; escaped bytes have to be characters. -/
def tagChars : (fuel : Nat) → Cursor → Except Trouble (List Char × Cursor)
  | 0, c => .ok ([], c)
  | fuel + 1, c =>
    if c.peek = '%' then do
      let (bytes, c) ← percentBytes fuel c
      match Utf8.decode ⟨bytes.toArray⟩ with
      | .error _ => .error .invalid
      | .ok s => (tagChars fuel c).map fun p => (s.toList ++ p.1, p.2)
    else if isTagChar c.peek then (tagChars fuel c.advance).map fun p => (c.peek :: p.1, p.2)
    else .ok ([], c)

/-- The name of a type or its end; it is not empty. -/
def tagName (fuel : Nat) (c : Cursor) : Except Trouble (String × Cursor) := do
  let start := c.index
  let (cs, c) ← tagChars fuel c
  if c.index = start then .error .invalid else .ok (String.ofList cs, c)

/-- A handle: an exclamation mark alone, or a word between two of them. -/
def tagHandle (c : Cursor) : Except Trouble (String × Cursor) :=
  if c.peek ≠ '!' then .error .invalid
  else
    let c := c.advance
    if c.peek = ' ' then .ok ("!", c)
    else
      let word := c.run isWordChar
      let c := c.skip word.length
      if c.peek = '!' then .ok (String.ofList ('!' :: word ++ ['!']), c.advance) else .error .invalid

/-- The name of a type as it is written; the place is at its mark. -/
def tagText (fuel : Nat) (c : Cursor) : Except Trouble (TagText × Cursor) := do
  let next := c.peekAt 1
  let (text, c) ←
    if next = '<' then do
      let (name, c) ← tagName fuel (c.skip 2)
      if c.peek = '>' then pure (TagText.mk none name, c.advance) else throw Trouble.invalid
    else if isWhiteOrEnd next then pure (⟨none, "!"⟩, c.advance)
    else if (c.advance.run (!isSpaceOrEnd ·)).contains '!' then do
      let (handle, c) ← tagHandle c
      let (name, c) ← tagName fuel c
      pure (⟨some handle, name⟩, c)
    else do
      let (name, c) ← tagName fuel c.advance
      pure (⟨some "!", name⟩, c)
  if isSpaceOrEnd c.peek then pure (text, c) else throw .invalid

/-- The number that a run of digits says. -/
def directiveNumber (c : Cursor) : Except Trouble (Nat × Cursor) :=
  let digits := c.run isDigit
  if digits.isEmpty then .error .invalid
  else .ok (Json.digitsValue digits, c.skip digits.length)

/-- The version in a directive: two numbers and a point between them. -/
def versionText (c : Cursor) : Except Trouble (Token × Cursor) := do
  let (major, c) ← directiveNumber (c.skipWhile (· == ' '))
  if c.peek ≠ '.' then throw .invalid
  let (_, c) ← directiveNumber c.advance
  if isSpaceOrEnd c.peek then pure (.version major, c) else throw .invalid

/-- The handle in a directive and what it stands for. -/
def handleText (fuel : Nat) (c : Cursor) : Except Trouble (Token × Cursor) := do
  let (handle, c) ← tagHandle (c.skipWhile (· == ' '))
  if c.peek ≠ ' ' then throw .invalid
  let (start, c) ← tagName fuel (c.skipWhile (· == ' '))
  if isSpaceOrEnd c.peek then pure (.tagHandle handle start, c) else throw .invalid

/-- A directive, up to the end of its line; the place is at its mark. -/
def directive (fuel : Nat) (c : Cursor) : Except Trouble (Token × Cursor) := do
  let c := c.advance
  let name := c.run isWordChar
  let c := c.skip name.length
  if name.isEmpty || !isSpaceOrEnd c.peek then throw .invalid
  let (token, c) ←
    if name = "YAML".toList then versionText c
    else if name = "TAG".toList then handleText fuel c
    else pure (.otherDirective, c.skipWhile (!isBreak ·))
  match c.restOfLine? with
  | some c => pure (token, c)
  | none => throw .invalid

end Yaml

end StyleTokens

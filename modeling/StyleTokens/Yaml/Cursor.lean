namespace StyleTokens

namespace Yaml

/-- Stands for the end of the text where a character is looked at. -/
def finish : Char := '\x00'

def isBreak (c : Char) : Bool := c == '\n' || c == '\u0085' || c == '\u2028' || c == '\u2029'

/-- A line end or the end of the text. -/
def isBreakOrEnd (c : Char) : Bool := c == finish || isBreak c

/-- A space, a line end or the end of the text. -/
def isSpaceOrEnd (c : Char) : Bool := c == ' ' || isBreakOrEnd c

def isWhite (c : Char) : Bool := c == ' ' || c == '\t'

/-- A space, a tab, a line end or the end of the text. -/
def isWhiteOrEnd (c : Char) : Bool := isWhite c || isBreakOrEnd c

/-- The character may stand in a YAML text. -/
def isAllowed (c : Char) : Bool :=
  let n := c.toNat
  n == 0x09 || n == 0x0A || n == 0x0D || (0x20 ≤ n && n ≤ 0x7E) || n == 0x85 ||
    (0xA0 ≤ n && n ≤ 0xD7FF) || (0xE000 ≤ n && n ≤ 0xFFFD) || 0x10000 ≤ n

/-- A place in a text: what is left, and the characters, the lines and the characters of the line before
it. -/
structure Cursor where
  rest : List Char
  index : Nat
  line : Nat
  column : Nat
  deriving DecidableEq, Repr

namespace Cursor

def start (cs : List Char) : Cursor := ⟨cs, 0, 0, 0⟩

def peek (c : Cursor) : Char := c.rest.headD finish

/-- The character after as many others. -/
def peekAt (c : Cursor) (n : Nat) : Char := c.rest.getD n finish

/-- Passes one character; the mark of the byte order takes no room in its line. -/
def advance (c : Cursor) : Cursor :=
  match c.rest with
  | [] => c
  | ch :: rest =>
    if isBreak ch then ⟨rest, c.index + 1, c.line + 1, 0⟩
    else if ch = '\uFEFF' then ⟨rest, c.index + 1, c.line, c.column⟩
    else ⟨rest, c.index + 1, c.line, c.column + 1⟩

def skip : Nat → Cursor → Cursor
  | 0, c => c
  | n + 1, c => skip n c.advance

/-- The next characters that pass a test. -/
def run (p : Char → Bool) (c : Cursor) : List Char := c.rest.takeWhile p

/-- Passes the next characters that pass a test. -/
def skipWhile (p : Char → Bool) (c : Cursor) : Cursor := c.skip (c.run p).length

/-- Passes a line end. Most line ends are read as line feeds. -/
def lineBreak? (c : Cursor) : Option (Char × Cursor) :=
  let ch := c.peek
  if isBreak ch then
    some (if ch = '\u2028' ∨ ch = '\u2029' then ch else '\n', c.advance)
  else none

/-- Three times the character, and white space or the end after them. -/
def atTriple (mark : Char) (c : Cursor) : Bool :=
  match c.rest with
  | x :: y :: z :: rest => x == mark && y == mark && z == mark && isWhiteOrEnd (rest.headD finish)
  | _ => false

/-- The mark of the beginning or of the end of a document. -/
def atMarker (c : Cursor) : Bool := c.atTriple '-' || c.atTriple '.'

/-- Passes spaces, a comment and the line end after them; nothing else may be left in the line. -/
def restOfLine? (c : Cursor) : Option Cursor :=
  let c := c.skipWhile (· == ' ')
  let c := if c.peek = '#' then c.skipWhile (!isBreak ·) else c
  match c.rest with
  | [] => some c
  | _ => c.lineBreak?.map Prod.snd

end Cursor

end Yaml

end StyleTokens

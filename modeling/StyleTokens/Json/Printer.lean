import StyleTokens.Doc

namespace StyleTokens

namespace Json

/-- How a document is laid out and which characters are escaped. -/
structure Style where
  /-- The spaces by which each level is indented; nothing for one line. -/
  indent : Option Nat
  /-- Everything outside the printable ASCII characters is escaped. -/
  ascii : Bool

/-- One line, only quotes, backslashes and control characters escaped. -/
def compact : Style := ⟨none, false⟩

/-- One line of printable ASCII characters. -/
def compactAscii : Style := ⟨none, true⟩

/-- Two spaces for each level. -/
def indented : Style := ⟨some 2, false⟩

/-- Numbers that JSON proper cannot say have names. -/
def specialNames : SpecialNames := ⟨"NaN", "Infinity"⟩

/-- The code units of a character in UTF-16. -/
def codeUnits (c : Char) : List Nat :=
  let n := c.toNat
  if n < 0x10000 then [n]
  else [0xD800 + (n - 0x10000) / 0x400, 0xDC00 + (n - 0x10000) % 0x400]

/-- A code unit as an escape of four hexadecimal digits. -/
def unitEscape (n : Nat) : List Char :=
  ['\\', 'u', Nat.digitChar (n / 0x1000), Nat.digitChar (n / 0x100 % 16), Nat.digitChar (n / 16 % 16),
    Nat.digitChar (n % 16)]

/-- A character inside quotes. -/
def escapeChar (ascii : Bool) (c : Char) : List Char :=
  if c = '"' then ['\\', '"']
  else if c = '\\' then ['\\', '\\']
  else if c = '\n' then ['\\', 'n']
  else if c = '\r' then ['\\', 'r']
  else if c = '\t' then ['\\', 't']
  else if c = '\x08' then ['\\', 'b']
  else if c = '\x0c' then ['\\', 'f']
  else if c.toNat < 0x20 ∨ (ascii ∧ 0x7E < c.toNat) then (codeUnits c).flatMap unitEscape
  else [c]

def quote (ascii : Bool) (cs : List Char) : List Char :=
  '"' :: cs.flatMap (escapeChar ascii) ++ ['"']

/-- The decimal digits of an integer after its sign. -/
def intText (n : Int) : List Char :=
  if n < 0 then '-' :: Binary64.digitsOf n.natAbs else Binary64.digitsOf n.natAbs

def scalarText (ascii : Bool) : Scalar → List Char
  | .null => "null".toList
  | .bool b => if b then "true".toList else "false".toList
  | .int n => intText n
  | .double x => x.text specialNames
  | .text s => quote ascii s.toList
  | .date d => quote ascii d.text
  | .time d t => quote ascii (d.text ++ 'T' :: t.text)
  | .bytes data => quote ascii (data.map fun b => Char.ofNat b.toNat)

def keyText (ascii : Bool) : Scalar → List Char
  | .null => quote ascii "null".toList
  | .bool b => quote ascii (if b then "true".toList else "false".toList)
  | .int n => quote ascii (intText n)
  | .double x => quote ascii (x.text specialNames)
  | s => scalarText ascii s

namespace Style

/-- A new line with the indentation of a level. -/
def newline (style : Style) (depth : Nat) : List Char :=
  match style.indent with
  | none => []
  | some width => '\n' :: List.replicate (width * depth) ' '

/-- What stands between two parts of a list or a mapping. -/
def separator (style : Style) (depth : Nat) : List Char :=
  match style.indent with
  | none => [',', ' ']
  | some _ => ',' :: style.newline depth

/-- The parts of a list or a mapping between brackets. -/
def enclose (style : Style) (depth : Nat) (left right : Char) (parts : List Char) : List Char :=
  if parts.isEmpty then [left, right] else left :: parts ++ style.newline depth ++ [right]

end Style

mutual

/-- A document whose parts stand one level below `depth`. -/
def render (style : Style) (depth : Nat) : Doc → List Char
  | .scalar s => scalarText style.ascii s
  | .list items =>
    style.enclose depth '[' ']' (renderItems style (depth + 1) (style.newline (depth + 1)) items)
  | .mapping entries =>
    style.enclose depth '{' '}' (renderEntries style (depth + 1) (style.newline (depth + 1)) entries)
  | .set members =>
    style.enclose depth '[' ']' (((members.map (scalarText style.ascii)).intersperse [',', ' ']).flatten)

/-- The items of a list, the first one after `lead`. -/
def renderItems (style : Style) (depth : Nat) (lead : List Char) : List Doc → List Char
  | [] => []
  | d :: rest => lead ++ render style depth d ++ renderItems style depth (style.separator depth) rest

/-- The entries of a mapping, the first one after `lead`. -/
def renderEntries (style : Style) (depth : Nat) (lead : List Char) : List (Scalar × Doc) → List Char
  | [] => []
  | (key, d) :: rest =>
    lead ++ keyText style.ascii key ++ ':' :: ' ' :: render style depth d ++
      renderEntries style depth (style.separator depth) rest

end

/-- The JSON text of a document. Dates are written as texts, and a key that is no text as the text of its value.
-/
def print (style : Style) (d : Doc) : String :=
  String.ofList (render style 0 d)

/-- A scalar that can be a key of a JSON text. -/
def keyWritable : Scalar → Bool
  | .date _ | .time _ _ | .bytes _ => false
  | _ => true

mutual

/-- The document has a JSON text: it holds no bytes, no sets and no dates as keys. -/
def writable : Doc → Bool
  | .scalar (.bytes _) => false
  | .scalar _ => true
  | .list items => allWritable items
  | .mapping entries => entriesWritable entries
  | .set _ => false

def allWritable : List Doc → Bool
  | [] => true
  | d :: rest => writable d && allWritable rest

def entriesWritable : List (Scalar × Doc) → Bool
  | [] => true
  | (key, d) :: rest => keyWritable key && writable d && entriesWritable rest

end

end Json

end StyleTokens

import StyleTokens.Json.Reader
import StyleTokens.Yaml.Cursor
import StyleTokens.Yaml.Trouble

namespace StyleTokens

namespace Yaml

/-- The line ends from a place on, with the white space before and after them dropped. -/
def breaksAfter : (fuel : Nat) → Cursor → Except Trouble (List Char × Cursor)
  | 0, c => .ok ([], c)
  | fuel + 1, c =>
    if c.atMarker then .error .invalid
    else
      let c := c.skipWhile isWhite
      match c.lineBreak? with
      | none => .ok ([], c)
      | some (b, c) => (breaksAfter fuel c).map fun p => (b :: p.1, p.2)

/-- What a line end and those after it count as. -/
def foldBreaks (b : Char) (more : List Char) : List Char :=
  (if b != '\n' then [b] else if more.isEmpty then [' '] else []) ++ more

/-- What a single character after a backslash stands for. -/
def escapes : List (Char × Char) :=
  [('0', '\x00'), ('a', '\x07'), ('b', '\x08'), ('t', '\t'), ('\t', '\t'), ('n', '\n'), ('v', '\x0B'),
    ('f', '\x0C'), ('r', '\r'), ('e', '\x1B'), (' ', ' '), ('"', '"'), ('\\', '\\'), ('/', '/'),
    ('N', '\u0085'), ('_', '\u00A0'), ('L', '\u2028'), ('P', '\u2029')]

/-- How many digits to base sixteen follow a letter. -/
def escapeDigits : List (Char × Nat) := [('x', 2), ('u', 4), ('U', 8)]

/-- The number that digits to base sixteen say. -/
def hexNumber? : List Char → Option Nat
  | cs => cs.foldlM (fun n c => (Json.hexValue? c).map (n * 16 + ·)) 0

/-- The character of a number. Half a surrogate pair becomes the replacement character, also if the other half comes
next. A number above the last character is refused in the same words whatever its size. -/
def charOfNumber (n : Nat) : Except Trouble Char :=
  if 0x10FFFF < n then .error (.noValue (.unreadable "chr() arg not in range(0x110000)"))
  else .ok (if 0xD800 ≤ n ∧ n ≤ 0xDFFF then Char.ofNat 0xFFFD else Char.ofNat n)

/-- What an escape stands for; the place is after the backslash. -/
def escape (fuel : Nat) (c : Cursor) : Except Trouble (List Char × Cursor) :=
  match escapes.lookup c.peek, escapeDigits.lookup c.peek, c.lineBreak? with
  | some d, _, _ => .ok ([d], c.advance)
  | none, some count, _ =>
    let digits := c.advance.rest.take count
    match hexNumber? digits with
    | some n =>
      if digits.length = count then
        (charOfNumber n).map fun d => ([d], c.skip (count + 1))
      else .error .invalid
    | none => .error .invalid
  | none, none, some (_, c) => breaksAfter fuel c
  | none, none, none => .error .invalid

/-- The characters up to the closing quote. Those that came already are given in reverse. -/
def quotedFrom (quote : Char) : (fuel : Nat) → (before : List Char) → Cursor →
    Except Trouble (List Char × Cursor)
  | 0, _, _ => .error .invalid
  | fuel + 1, before, c =>
    match c.rest with
    | [] => .error .invalid
    | ch :: rest =>
      if ch = quote then
        if quote = '\x27' ∧ rest.head? = some quote then quotedFrom quote fuel (ch :: before) (c.skip 2)
        else .ok (before.reverse, c.advance)
      else if ch = '\\' ∧ quote = '"' then do
        let (meant, c) ← escape fuel c.advance
        quotedFrom quote fuel (meant.reverse ++ before) c
      else if isWhite ch || isBreak ch then
        let white := c.run isWhite
        let c := c.skip white.length
        match c.lineBreak? with
        | none => quotedFrom quote fuel (white.reverse ++ before) c
        | some (b, c) => do
          let (more, c) ← breaksAfter fuel c
          quotedFrom quote fuel ((foldBreaks b more).reverse ++ before) c
      else quotedFrom quote fuel (ch :: before) c.advance

/-- A text in quotes; the place is at the opening one. -/
def quotedText (fuel : Nat) (c : Cursor) : Except Trouble (List Char × Cursor) :=
  quotedFrom c.peek fuel [] c.advance

end Yaml

end StyleTokens

import StyleTokens.Yaml.Scalar.Quoted

namespace StyleTokens

namespace Yaml

def flowMarks : List Char := [',', '?', '[', ']', '{', '}']

/-- A colon before the character ends a plain text. -/
def endsKey (inFlow : Bool) (next : Char) : Bool :=
  isWhiteOrEnd next || (inFlow && [',', '[', ']', '{', '}'].contains next)

/-- The longest run of characters that white space does not interrupt. -/
def plainRun (inFlow : Bool) : List Char → List Char
  | [] => []
  | c :: rest =>
    if isWhiteOrEnd c || (c == ':' && endsKey inFlow (rest.headD finish)) ||
        (inFlow && flowMarks.contains c) then []
    else c :: plainRun inFlow rest

/-- The line ends after a first one, with the spaces around them dropped, and whether the mark of a document
stopped them. -/
def plainBreaks : (fuel : Nat) → Cursor → List Char × Cursor × Bool
  | 0, c => ([], c, true)
  | fuel + 1, c =>
    if c.atMarker then ([], c, true)
    else
      let c := c.skipWhile (· == ' ')
      match c.lineBreak? with
      | none => ([], c, false)
      | some (b, c) =>
        let (more, c, stopped) := plainBreaks fuel c
        (b :: more, c, stopped)

/-- What the spaces and line ends between two runs count as, and whether there was a line end. Nothing is
between them before the mark of a document. -/
def plainGap (fuel : Nat) (c : Cursor) : List Char × Cursor × Bool :=
  let spaces := c.run (· == ' ')
  let c := c.skip spaces.length
  match c.lineBreak? with
  | none => (spaces, c, false)
  | some (b, c) =>
    let (more, c, stopped) := plainBreaks fuel c
    (if stopped then [] else foldBreaks b more, c, true)

/-- A plain text as far as it is read: its characters in reverse, the place after it and the gap behind it,
and whether that gap holds a line end. -/
structure PlainText where
  before : List Char
  cursor : Cursor
  broken : Bool

/-- Adds runs, with the gaps before them, as long as the text goes on. -/
def plainFrom (inFlow : Bool) (indent : Int) : (fuel : Nat) → (gap : List Char) → PlainText → PlainText
  | 0, _, t => t
  | fuel + 1, gap, t =>
    let run := plainRun inFlow t.cursor.rest
    if run.isEmpty || t.cursor.peek = '#' then t
    else
      let (next, c, broken) := plainGap fuel (t.cursor.skip run.length)
      let t := ⟨run.reverse ++ gap.reverse ++ t.before, c, broken⟩
      if next.isEmpty || (!inFlow && (c.column : Int) < indent) then t
      else plainFrom inFlow indent fuel next t

/-- A plain text in a block of the given indent: its characters, the place behind it, and whether a line end
stands before that place. -/
def plainText (inFlow : Bool) (indent : Int) (fuel : Nat) (c : Cursor) : List Char × Cursor × Bool :=
  let t := plainFrom inFlow (indent + 1) fuel [] ⟨[], c, false⟩
  (t.before.reverse, t.cursor, t.broken)

end Yaml

end StyleTokens

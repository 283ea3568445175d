import StyleTokens.Yaml.Cursor
import StyleTokens.Yaml.Trouble

namespace StyleTokens

namespace Yaml

/-- What happens to the line ends at the end of a block text. -/
inductive Chomping where
  | strip
  | clip
  | keep
  deriving DecidableEq, Repr

/-- The treatment that a sign asks for. -/
def chomping? (c : Char) : Option Chomping :=
  if c = '+' then some .keep else if c = '-' then some .strip else none

/-- The indent that a digit asks for; it must not be zero. -/
def indentDigit? (c : Char) : Except Trouble (Option Nat) :=
  if c = '0' then .error .invalid
  else if isDigit c then .ok (some (c.toNat - 48))
  else .ok none

/-- What stands behind the mark of a block text: in either order, how the line ends at its end are treated and
how far it is indented. -/
def blockHeader (c : Cursor) : Except Trouble (Chomping × Option Nat × Cursor) := do
  let (chomping, digit, c) ← match chomping? c.peek with
    | some chomping => do
      let c := c.advance
      let digit ← indentDigit? c.peek
      pure (chomping, digit, if digit.isSome then c.advance else c)
    | none => do
      match ← indentDigit? c.peek with
      | none => pure (Chomping.clip, none, c)
      | some digit =>
        let c := c.advance
        match chomping? c.peek with
        | some chomping => pure (chomping, some digit, c.advance)
        | none => pure (.clip, some digit, c)
  if isSpaceOrEnd c.peek then .ok (chomping, digit, c) else .error .invalid

/-- The line ends before the first line that is not empty, and the greatest indent up to there. -/
def firstIndent : (fuel : Nat) → (indent : Nat) → Cursor → List Char × Nat × Cursor
  | 0, indent, c => ([], indent, c)
  | fuel + 1, indent, c =>
    let c := c.skipWhile (· == ' ')
    let indent := max indent c.column
    match c.lineBreak? with
    | none => ([], indent, c)
    | some (b, c) =>
      let (more, indent, c) := firstIndent fuel indent c
      (b :: more, indent, c)

/-- Passes spaces, but none beyond the indent. -/
def skipIndent (indent : Nat) (c : Cursor) : Cursor :=
  c.skip (min (c.run (· == ' ')).length (indent - c.column))

/-- Line ends with no more than the indent before them. -/
def blockBreaks (indent : Nat) : (fuel : Nat) → Cursor → List Char × Cursor
  | 0, c => ([], c)
  | fuel + 1, c =>
    let c := skipIndent indent c
    match c.lineBreak? with
    | none => ([], c)
    | some (b, c) =>
      let (more, c) := blockBreaks indent fuel c
      (b :: more, c)

/-- A block text as far as it is read: its characters in reverse, the end of its last line, the line ends
after that, and the place behind them. -/
structure BlockText where
  before : List Char
  lineEnd : List Char
  breaks : List Char
  cursor : Cursor

/-- What stands between two lines. In a folded text a line end between two lines that begin without white space
counts as a space. -/
def lineJoint (folded : Bool) (lineEnd breaks : List Char) (startsText nextStartsText : Bool) : List Char :=
  if folded && lineEnd == ['\n'] && startsText && nextStartsText then
    if breaks.isEmpty then [' '] else []
  else lineEnd

def blockLines (folded : Bool) (indent : Nat) : (fuel : Nat) → BlockText → BlockText
  | 0, t => t
  | fuel + 1, t =>
    let c := t.cursor
    if c.column = indent ∧ c.rest ≠ [] then
      let line := c.run (!isBreak ·)
      let after := c.skip line.length
      let (lineEnd, after) : List Char × Cursor := match after.lineBreak? with
        | some (b, after) => ([b], after)
        | none => ([], after)
      let (breaks, after) := blockBreaks indent fuel after
      let before := line.reverse ++ t.breaks.reverse ++ t.before
      if after.column = indent ∧ after.rest ≠ [] then
        let joint := lineJoint folded lineEnd breaks (!isWhite c.peek) (!isWhite after.peek)
        blockLines folded indent fuel ⟨joint.reverse ++ before, lineEnd, breaks, after⟩
      else ⟨before, lineEnd, breaks, after⟩
    else t

/-- The characters of a block text with the line ends at its end treated. -/
def BlockText.chars (t : BlockText) : Chomping → List Char
  | .strip => t.before.reverse
  | .clip => t.before.reverse ++ t.lineEnd
  | .keep => t.before.reverse ++ t.lineEnd ++ t.breaks

/-- A block text in a block of the given indent; the place is behind its mark. -/
def blockText (folded : Bool) (outer : Int) (fuel : Nat) (c : Cursor) :
    Except Trouble (List Char × Cursor) := do
  let (chomping, digit, c) ← blockHeader c
  match c.restOfLine? with
  | none => .error .invalid
  | some c =>
    let least := max 1 (outer + 1).toNat
    let (indent, breaks, c) : Nat × List Char × Cursor := match digit with
      | some n =>
        let (breaks, c) := blockBreaks (least + n - 1) fuel c
        (least + n - 1, breaks, c)
      | none =>
        let (breaks, indent, c) := firstIndent fuel 0 c
        (max least indent, breaks, c)
    let t := blockLines folded indent fuel ⟨[], [], breaks, c⟩
    .ok (t.chars chomping, t.cursor)

end Yaml

end StyleTokens

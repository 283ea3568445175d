namespace StyleTokens

namespace Placeholder

inductive Piece where
  | char (c : Char)
  | hole (body : List Char)
  deriving DecidableEq, Repr

/-- The body of the placeholder whose opening brace stands right before the text, and what follows it. A body
has at least one character and ends at the first closing brace. -/
def body? (cs : List Char) : Option (List Char × List Char) :=
  match cs.takeWhile (· ≠ '}'), cs.dropWhile (· ≠ '}') with
  | b :: bs, _ :: rest => some (b :: bs, rest)
  | _, _ => none

theorem append_of_body? {cs body rest : List Char} (h : body? cs = some (body, rest)) :
    cs = body ++ '}' :: rest := by
  unfold body? at h
  split at h
  next b bs e rest' ht hd =>
    obtain ⟨rfl, rfl⟩ := Prod.mk.inj (Option.some.inj h)
    have he : e = '}' := by
      have hh := List.head?_dropWhile_not (fun c => decide (c ≠ '}')) cs
      rw [hd] at hh
      simpa using hh
    rw [← he, ← ht, ← hd]
    exact (List.takeWhile_append_dropWhile).symm
  next => cases h

theorem length_lt_of_body? {cs body rest : List Char} (h : body? cs = some (body, rest)) :
    rest.length < cs.length := by
  rw [append_of_body? h]
  simp
  omega

/-- The text cut into placeholders and single characters. -/
def pieces : List Char → List Piece
  | [] => []
  | c :: cs =>
    if c = '{' then
      match _h : body? cs with
      | some (body, rest) => .hole body :: pieces rest
      | none => .char c :: pieces cs
    else .char c :: pieces cs
termination_by cs => cs.length
decreasing_by
  all_goals simp only [List.length_cons]
  · have := length_lt_of_body? _h; omega
  · omega
  · omega

def Piece.text : Piece → List Char
  | .char c => [c]
  | .hole body => '{' :: body ++ ['}']

/-- The pieces of a text make up the text. -/
theorem flatMap_text_pieces (cs : List Char) : (pieces cs).flatMap Piece.text = cs := by
  fun_induction pieces cs with
  | case1 => rfl
  | case2 cs body rest hb ih =>
    rw [append_of_body? hb]
    simp [Piece.text, ih]
  | case3 cs hb ih => simp [Piece.text, ih]
  | case4 c cs hc ih => simp [Piece.text, ih]

/-- The bodies of the placeholders among the pieces. -/
def holes (ps : List Piece) : List (List Char) :=
  ps.filterMap fun
    | .char _ => none
    | .hole body => some body

/-- The part after the last point. -/
def lastSegment (cs : List Char) : List Char :=
  (cs.reverse.takeWhile (· ≠ '.')).reverse

/-- A placeholder shortened to the part after its last point. -/
def Piece.shorten : Piece → Piece
  | .char c => .char c
  | .hole body => .hole (lastSegment body)

/-- The bodies of the placeholders of a text, in order. -/
def names (s : String) : List String :=
  (holes (pieces s.toList)).map String.ofList

/-- The text with every placeholder shortened to the part after its last point. -/
def shorten (s : String) : String :=
  String.ofList ((pieces s.toList).flatMap fun p => p.shorten.text)

end Placeholder

end StyleTokens

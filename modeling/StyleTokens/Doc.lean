import StyleTokens.Ordered
import StyleTokens.Moment
import StyleTokens.Binary64.Text

namespace StyleTokens

/-- A value without parts. -/
inductive Scalar where
  | null
  | bool (b : Bool)
  | int (n : Int)
  | double (x : Binary64)
  | text (s : String)
  | date (d : Date)
  | time (d : Date) (t : Clock)
  | bytes (data : List UInt8)
  deriving DecidableEq

namespace Scalar

/-- Booleans as the numbers zero and one, and whole doubles as integers: two scalars are the same key when
these forms agree. All nans are one key. -/
def keyForm : Scalar → Scalar
  | .bool b => .int (if b then 1 else 0)
  | .double x => match x.toInt? with
    | some n => .int n
    | none => .double x
  | s => s

instance : BEq Scalar := ⟨fun a b => a.keyForm = b.keyForm⟩

theorem beq_iff {a b : Scalar} : (a == b) = true ↔ a.keyForm = b.keyForm :=
  decide_eq_true_iff

instance : EquivBEq Scalar where
  rfl := beq_iff.mpr rfl
  symm h := beq_iff.mpr (beq_iff.mp h).symm
  trans h h' := beq_iff.mpr ((beq_iff.mp h).trans (beq_iff.mp h'))

/-- Texts are the same key only when they are equal. -/
theorem text_beq {s t : String} : (Scalar.text s == Scalar.text t) = (s == t) := by
  rw [Bool.eq_iff_iff, beq_iff]
  simp [keyForm]

/-- Only a text is the same key as a text. -/
theorem eq_text_of_beq {a : Scalar} {s : String} (h : (a == .text s) = true) : a = .text s := by
  have same : a.keyForm = .text s := beq_iff.mp h
  cases a with
  | text t => exact same
  | double x =>
    simp only [keyForm] at same
    split at same
    next => cases same
    next => cases same
  | _ => cases same

/-- How texts that run over many scalars spell the doubles that are no numbers. -/
def plainNames : SpecialNames := ⟨"nan", "inf"⟩

/-- One byte between quotes. -/
def byteText (b : UInt8) : List Char :=
  let n := b.toNat
  if n = 0x5C then ['\\', '\\']
  else if n = 0x27 then ['\\', '\x27']
  else if n = 0x09 then ['\\', 't']
  else if n = 0x0A then ['\\', 'n']
  else if n = 0x0D then ['\\', 'r']
  else if 0x20 ≤ n ∧ n < 0x7F then [Char.ofNat n]
  else '\\' :: 'x' :: [Nat.digitChar (n / 16), Nat.digitChar (n % 16)]

/-- The scalar as it stands in a message. -/
def message : Scalar → String
  | .null => "None"
  | .bool b => if b then "True" else "False"
  | .int n => toString n
  | .double x => String.ofList (x.text plainNames)
  | .text s => s
  | .date d => String.ofList d.text
  | .time d t => String.ofList (d.text ++ ' ' :: t.text)
  | .bytes data => String.ofList ('b' :: '\x27' :: data.flatMap byteText ++ ['\x27'])

/-- The name of the kind of a scalar in a message. -/
def kindName : Scalar → String
  | .null => "NoneType"
  | .bool _ => "bool"
  | .int _ => "int"
  | .double _ => "float"
  | .text _ => "str"
  | .date _ => "datetime.date"
  | .time _ _ => "datetime.datetime"
  | .bytes _ => "bytes"

/-- Null, false, zero and the empty text say nothing. -/
def isBlankValue : Scalar → Bool
  | .null => true
  | .bool b => !b
  | .int n => n == 0
  | .double x => x.toInt? == some 0
  | .text s => s == ""
  | .bytes data => data.isEmpty
  | _ => false

end Scalar

/-- A document: what a source file holds once it is read. A mapping keeps its entries in order, and its keys are
scalars; in a document that was read from JSON every key is a text. -/
inductive Doc where
  | scalar (s : Scalar)
  | list (items : List Doc)
  | mapping (entries : List (Scalar × Doc))
  | set (members : List Scalar)

namespace Doc

abbrev text (s : String) : Doc := .scalar (.text s)

abbrev null : Doc := .scalar .null

/-- A mapping with texts as keys. -/
def object (entries : List (String × Doc)) : Doc :=
  .mapping (entries.map fun p => (.text p.1, p.2))

def get? (entries : List (Scalar × Doc)) (key : String) : Option Doc :=
  Ordered.find? entries (.text key)

def entries? : Doc → Option (List (Scalar × Doc))
  | .mapping entries => some entries
  | _ => none

def isNull : Doc → Bool
  | .scalar .null => true
  | _ => false

mutual

/-- Every key in the document is a text, no mapping has a key twice, and every scalar is null, a boolean, a
number or a text: what a JSON text can say. -/
def IsJson : Doc → Prop
  | .scalar s => match s with
    | .date _ | .time _ _ | .bytes _ => False
    | _ => True
  | .list items => AllJson items
  | .mapping entries => EntriesJson entries
  | .set _ => False

def AllJson : List Doc → Prop
  | [] => True
  | d :: rest => IsJson d ∧ AllJson rest

/-- All entries have a text as key that comes once, and JSON as value. -/
def EntriesJson : List (Scalar × Doc) → Prop
  | [] => True
  | (key, d) :: rest =>
    (∃ s, key = .text s) ∧ Ordered.contains rest key = false ∧ IsJson d ∧ EntriesJson rest

end

end Doc

end StyleTokens

import StyleTokens.Binary64
import StyleTokens.Json.Reader
import StyleTokens.Text.Case
import StyleTokens.Text.Decimal
import StyleTokens.Text.Quoted
import StyleTokens.Yaml.Trouble

namespace StyleTokens

namespace Yaml

def isDigitOrLine (c : Char) : Bool := isDigit c || c == '_'

def withoutSign : List Char → List Char
  | '-' :: rest | '+' :: rest => rest
  | cs => cs

def colonPieces : List Char → List (List Char)
  | [] => [[]]
  | c :: rest =>
    if c = ':' then [] :: colonPieces rest
    else match colonPieces rest with
      | [] => [[c]]
      | piece :: more => (c :: piece) :: more

/-- A part to base sixty: a digit, perhaps with one below six before it. -/
def isSixtieth : List Char → Bool
  | [a] => isDigit a
  | [a, b] => '0' ≤ a && a ≤ '5' && isDigit b
  | _ => false

/-- A digit other than zero, and digits. -/
def isPositiveForm : List Char → Bool
  | c :: rest => isDigit c && c != '0' && rest.all isDigitOrLine
  | [] => false

/-- A plain text that is a whole number: to base two, eight, ten, sixteen or sixty. -/
def isIntForm (cs : List Char) : Bool :=
  let cs := withoutSign cs
  match cs with
  | ['0'] => true
  | '0' :: 'b' :: rest => !rest.isEmpty && rest.all fun c => c == '0' || c == '1' || c == '_'
  | '0' :: 'x' :: rest => !rest.isEmpty && rest.all fun c => (Json.hexValue? c).isSome || c == '_'
  | '0' :: rest => !rest.isEmpty && rest.all fun c => ('0' ≤ c && c ≤ '7') || c == '_'
  | cs => match colonPieces cs with
    | first :: more => isPositiveForm first && more.all isSixtieth
    | [] => false

def isExponentForm : List Char → Bool
  | [] => true
  | e :: sign :: digits =>
    (e == 'e' || e == 'E') && (sign == '+' || sign == '-') && !digits.isEmpty && digits.all isDigit
  | _ => false

/-- Digits, a point, digits and perhaps an exponent. -/
def isDecimalForm (cs : List Char) : Bool :=
  match cs with
  | c :: _ =>
    let whole := cs.takeWhile isDigitOrLine
    match cs.drop whole.length with
    | '.' :: rest => isDigit c && isExponentForm (rest.dropWhile isDigitOrLine)
    | _ => false
  | [] => false

/-- A point, digits and perhaps an exponent. -/
def isFractionForm : List Char → Bool
  | '.' :: c :: rest => isDigit c && isExponentForm (rest.dropWhile isDigitOrLine)
  | _ => false

/-- Parts to base sixty, the last one with a point. -/
def isSixtiethsForm (cs : List Char) : Bool :=
  match colonPieces cs with
  | (c :: first) :: more@(_ :: _) =>
    let last := more.getLastD []
    let whole := last.takeWhile isDigit
    isDigit c && first.all isDigitOrLine && more.dropLast.all isSixtieth && isSixtieth whole &&
      match last.drop whole.length with
      | '.' :: places => places.all isDigitOrLine
      | _ => false
  | _ => false

def infinityWords : List (List Char) := [".inf".toList, ".Inf".toList, ".INF".toList]

/-- The spellings of what is no number. -/
def nanWords : List (List Char) := [".nan".toList, ".NaN".toList, ".NAN".toList]

/-- A plain text that is a number with a point. -/
def isFloatForm (cs : List Char) : Bool :=
  isDecimalForm (withoutSign cs) || isFractionForm cs || isSixtiethsForm (withoutSign cs) ||
    infinityWords.contains (withoutSign cs) || nanWords.contains cs

/-- The value of a digit to some base. -/
def digitValue? (base : Nat) (c : Char) : Option Nat :=
  let n := if isDigit c then c.toNat - 48
    else if c.isLower then c.toNat - 87
    else if c.isUpper then c.toNat - 55
    else base
  if n < base then some n else none

/-- The number of digits to some base. -/
def digitsNumber? (base : Nat) : List Char → Option Nat
  | [] => none
  | cs => cs.foldlM (fun n c => (digitValue? base c).map (n * base + ·)) 0

/-- The letter that announces a base. -/
def baseLetter? : Nat → Option Char
  | 2 => some 'b'
  | 8 => some 'o'
  | 16 => some 'x'
  | _ => none

/-- Digits without the announcement of their base. -/
def withoutBase (base : Nat) (cs : List Char) : List Char :=
  match cs with
  | '0' :: letter :: rest => if baseLetter? base = some letter.toLower then rest else cs
  | _ => cs

/-- The whole number of a text to some base, perhaps with a sign and white space around it. -/
def wholeNumber (base : Nat) (cs : List Char) : Except Trouble Int :=
  let signed := numeral cs
  match digitsNumber? base (withoutBase base (withoutSign signed)) with
  | some n => .ok (if signed.head? = some '-' then -n else n)
  | none =>
    let quoted := String.ofList ((Quoted.text (String.ofList cs)).toList.take 200)
    .error (.noValue (.unreadable s!"invalid literal for int() with base {base}: {quoted}"))

/-- Parts to base sixty put together. -/
def sixtieths (parts : List Int) : Int := parts.foldl (fun n part => n * 60 + part) 0

/-- The whole number of a text. Underscores are passed over; colons separate parts to base sixty. -/
def intValue (text : String) : Except Trouble Int :=
  let cs := text.toList.filter (· != '_')
  let unsigned := withoutSign cs
  let sign : Int := if cs.head? = some '-' then -1 else 1
  match cs, unsigned with
  | [], _ | _, [] => .error (.noValue (.badShape "string index out of range"))
  | _, '0' :: 'b' :: digits => (wholeNumber 2 digits).map (sign * ·)
  | _, '0' :: 'x' :: digits => (wholeNumber 16 digits).map (sign * ·)
  | _, '0' :: rest => if rest.isEmpty then .ok 0 else (wholeNumber 8 unsigned).map (sign * ·)
  | _, _ =>
    if unsigned.contains ':' then
      ((colonPieces unsigned).mapM (wholeNumber 10)).map fun parts => sign * sixtieths parts
    else (wholeNumber 10 unsigned).map (sign * ·)

/-- A decimal number without a sign: digits with at most one point, and perhaps an exponent. -/
def decimal? (negative : Bool) (cs : List Char) : Option Binary64 :=
  let whole := cs.takeWhile isDigit
  let rest := cs.drop whole.length
  let (places, rest) : List Char × List Char := match rest with
    | '.' :: rest => (rest.takeWhile isDigit, rest.dropWhile isDigit)
    | rest => ([], rest)
  if whole.isEmpty && places.isEmpty then none
  else
    let digits := Json.digitsValue (whole ++ places)
    match rest with
    | [] => some (.ofDecimal negative digits (-places.length))
    | rest => match Json.exponent? rest with
      | some (e, []) => some (.ofDecimal negative digits (e - places.length))
      | _ => none

/-- The double of a text, which may be a word for one that is no decimal. -/
def doubleOf (cs : List Char) : Except Trouble Binary64 :=
  let signed := numeral cs
  let negative := signed.head? = some '-'
  let unsigned := lower (withoutSign signed)
  let found : Option Binary64 :=
    if unsigned = "inf".toList ∨ unsigned = "infinity".toList then some (.infinity negative)
    else if unsigned = "nan".toList then some .nan
    else decimal? negative unsigned
  match found with
  | some x => .ok x
  | none =>
    let quoted := Quoted.text (String.ofList cs)
    .error (.noValue (.unreadable s!"could not convert string to float: {quoted}"))

/-- Parts to base sixty put together, from the last one on. -/
def sixtiethsDouble (parts : List Binary64) : Binary64 :=
  (parts.reverse.foldl (fun (acc : Binary64 × Nat) part => (acc.1.add (part.mulNat acc.2), acc.2 * 60))
    (.ofInt 0, 1)).1

def floatValue (text : String) : Except Trouble Binary64 :=
  let cs := lower (text.toList.filter (· != '_'))
  let unsigned := withoutSign cs
  let signed (x : Binary64) : Binary64 := if cs.head? = some '-' then x.neg else x
  if cs.isEmpty then .error (.noValue (.badShape "string index out of range"))
  else if unsigned = ".inf".toList then .ok (signed (.infinity false))
  else if unsigned = ".nan".toList then .ok .nan
  else if unsigned.contains ':' then
    ((colonPieces unsigned).mapM doubleOf).map fun parts => signed (sixtiethsDouble parts)
  else (doubleOf unsigned).map signed

end Yaml

end StyleTokens

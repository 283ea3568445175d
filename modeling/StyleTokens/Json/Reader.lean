import StyleTokens.Doc
import StyleTokens.Text.Ascii

namespace StyleTokens

namespace Json

/-- What is wrong at the place of a fault. -/
inductive Reason where
  | expectingValue
  | expectingPropertyName
  | expectingColon
  | expectingComma
  | unterminatedString
  | invalidControlCharacter
  | invalidEscape
  | invalidUnicodeEscape
  | extraData
  | byteOrderMark
  deriving DecidableEq, Repr

def Reason.message : Reason → String
  | expectingValue => "Expecting value"
  | expectingPropertyName => "Expecting property name enclosed in double quotes"
  | expectingColon => "Expecting \x27:\x27 delimiter"
  | expectingComma => "Expecting \x27,\x27 delimiter"
  | unterminatedString => "Unterminated string starting at"
  | invalidControlCharacter => "Invalid control character at"
  | invalidEscape => "Invalid \\escape"
  | invalidUnicodeEscape => "Invalid \\uXXXX escape"
  | extraData => "Extra data"
  | byteOrderMark => "Unexpected UTF-8 BOM (decode using utf-8-sig)"

/-- A reason and the characters from the faulty place to the end of the text. -/
structure Stop where
  reason : Reason
  left : List Char
  deriving DecidableEq, Repr

/-- The value of a hexadecimal digit. -/
def hexValue? (c : Char) : Option Nat :=
  if '0' ≤ c ∧ c ≤ '9' then some (c.toNat - 48)
  else if 'a' ≤ c ∧ c ≤ 'f' then some (c.toNat - 87)
  else if 'A' ≤ c ∧ c ≤ 'F' then some (c.toNat - 55)
  else none

/-- Four hexadecimal digits with something after them. -/
def codeUnit? : List Char → Option (Nat × List Char)
  | a :: b :: c :: d :: e :: rest =>
    match hexValue? a, hexValue? b, hexValue? c, hexValue? d with
    | some a, some b, some c, some d => some (((a * 16 + b) * 16 + c) * 16 + d, e :: rest)
    | _, _, _, _ => none
  | _ => none

/-- The first half of a surrogate pair. -/
def isHighSurrogate (n : Nat) : Bool := 0xD800 ≤ n && n ≤ 0xDBFF

/-- The second half of a surrogate pair. -/
def isLowSurrogate (n : Nat) : Bool := 0xDC00 ≤ n && n ≤ 0xDFFF

/-- The character of a code unit. Half a pair is no character and becomes the replacement character, so texts that
differ only in such halves are one text here, and one key of an object. -/
def unitChar (n : Nat) : Char :=
  if isHighSurrogate n || isLowSurrogate n then Char.ofNat 0xFFFD else Char.ofNat n

/-- The character of a code unit, or of a pair if the second half is escaped right after the first. -/
def joinPair (n : Nat) (rest : List Char) : Except Stop (Char × List Char) :=
  match isHighSurrogate n, rest with
  | true, '\\' :: 'u' :: more =>
    if more.length < 5 then .ok (unitChar n, rest)
    else match codeUnit? more with
      | none => .error ⟨.invalidUnicodeEscape, 'u' :: more⟩
      | some (low, after) =>
        if isLowSurrogate low then
          .ok (Char.ofNat (0x10000 + (n - 0xD800) * 0x400 + (low - 0xDC00)), after)
        else .ok (unitChar n, rest)
  | _, _ => .ok (unitChar n, rest)

/-- The character that an escape stands for; the text begins after the backslash. -/
def readEscape : List Char → Except Stop (Char × List Char)
  | [] => .error ⟨.invalidEscape, ['\\']⟩
  | c :: rest =>
    if c = 'u' then
      match codeUnit? rest with
      | none => .error ⟨.invalidUnicodeEscape, 'u' :: rest⟩
      | some (n, after) => joinPair n after
    else if c = '"' ∨ c = '\\' ∨ c = '/' then .ok (c, rest)
    else if c = 'b' then .ok ('\x08', rest)
    else if c = 'f' then .ok ('\x0c', rest)
    else if c = 'n' then .ok ('\n', rest)
    else if c = 'r' then .ok ('\r', rest)
    else if c = 't' then .ok ('\t', rest)
    else .error ⟨.invalidEscape, '\\' :: c :: rest⟩

theorem length_lt_of_codeUnit? {cs rest : List Char} {n : Nat} (h : codeUnit? cs = some (n, rest)) :
    rest.length < cs.length := by
  unfold codeUnit? at h
  split at h
  · split at h
    · obtain ⟨-, rfl⟩ := Prod.mk.inj (Option.some.inj h)
      simp only [List.length_cons]
      omega
    · cases h
  · cases h

theorem length_le_of_joinPair {cs rest : List Char} {n : Nat} {c : Char}
    (h : joinPair n cs = .ok (c, rest)) : rest.length ≤ cs.length := by
  unfold joinPair at h
  split at h
  · split at h
    · obtain ⟨-, rfl⟩ := Prod.mk.inj (Except.ok.inj h)
      exact Nat.le_refl _
    · split at h
      · cases h
      next low after hu =>
        have := length_lt_of_codeUnit? hu
        split at h
        · obtain ⟨-, rfl⟩ := Prod.mk.inj (Except.ok.inj h)
          simp only [List.length_cons]
          omega
        · obtain ⟨-, rfl⟩ := Prod.mk.inj (Except.ok.inj h)
          exact Nat.le_refl _
  · obtain ⟨-, rfl⟩ := Prod.mk.inj (Except.ok.inj h)
    exact Nat.le_refl _

theorem length_lt_of_readEscape {cs rest : List Char} {c : Char}
    (h : readEscape cs = .ok (c, rest)) : rest.length < cs.length := by
  unfold readEscape at h
  split at h
  · cases h
  · repeat' split at h
    all_goals try cases h
    all_goals try simp
    next n after hu =>
      have := length_lt_of_codeUnit? hu
      have := length_le_of_joinPair h
      omega

/-- The characters up to the closing quote; `start` is the text from the opening quote on. -/
def readChars (start : List Char) : List Char → Except Stop (List Char × List Char)
  | [] => .error ⟨.unterminatedString, start⟩
  | c :: rest =>
    if c = '"' then .ok ([], rest)
    else if c = '\\' then
      if rest.isEmpty then .error ⟨.unterminatedString, start⟩
      else match _h : readEscape rest with
        | .error stop => .error stop
        | .ok (d, after) => (readChars start after).map fun p => (d :: p.1, p.2)
    else if c.toNat < 0x20 then .error ⟨.invalidControlCharacter, c :: rest⟩
    else (readChars start rest).map fun p => (c :: p.1, p.2)
termination_by cs => cs.length
decreasing_by
  · have := length_lt_of_readEscape _h
    simp only [List.length_cons]
    omega
  · simp

/-- A text; the characters begin after the opening quote. -/
def readString (rest : List Char) : Except Stop (String × List Char) :=
  (readChars ('"' :: rest) rest).map fun p => (String.ofList p.1, p.2)

def isSpace (c : Char) : Bool := c == ' ' || c == '\t' || c == '\n' || c == '\r'

def skipSpace (cs : List Char) : List Char := cs.dropWhile isSpace

/-- The number that decimal digits say. -/
def digitsValue (cs : List Char) : Nat := cs.foldl (fun n c => n * 10 + (c.toNat - 48)) 0

/-- The digits before the point: a zero, or digits that start with another one. -/
def wholePart? : List Char → Option (List Char × List Char)
  | '0' :: rest => some (['0'], rest)
  | c :: rest =>
    if isDigit c then some (c :: rest.takeWhile isDigit, rest.dropWhile isDigit) else none
  | [] => none

/-- The digits after a point, if there are any. -/
def fraction? : List Char → Option (List Char × List Char)
  | '.' :: c :: rest =>
    if isDigit c then some (c :: rest.takeWhile isDigit, rest.dropWhile isDigit) else none
  | _ => none

/-- An exponent with at least one digit. -/
def exponent? : List Char → Option (Int × List Char)
  | e :: rest =>
    if e = 'e' ∨ e = 'E' then
      let (negative, digits) : Bool × List Char := match rest with
        | '-' :: more => (true, more)
        | '+' :: more => (false, more)
        | more => (false, more)
      match digits.takeWhile isDigit with
      | [] => none
      | ds =>
        let n : Int := digitsValue ds
        some (if negative then -n else n, digits.dropWhile isDigit)
    else none
  | [] => none

/-- A number: an integer if it has neither a fraction nor an exponent, a double otherwise. -/
def number? (cs : List Char) : Option (Scalar × List Char) :=
  let (negative, unsigned) : Bool × List Char := match cs with
    | '-' :: rest => (true, rest)
    | rest => (false, rest)
  match wholePart? unsigned with
  | none => none
  | some (whole, rest) =>
    let (places, rest) := (fraction? rest).getD ([], rest)
    match exponent? rest with
    | some (e, rest) =>
      some (.double (.ofDecimal negative (digitsValue (whole ++ places)) (e - places.length)), rest)
    | none =>
      if places.isEmpty then
        let n : Int := digitsValue whole
        some (.int (if negative then -n else n), rest)
      else some (.double (.ofDecimal negative (digitsValue (whole ++ places)) (-places.length)), rest)

/-- The words that stand for values. -/
def literals : List (List Char × Scalar) :=
  [("null".toList, .null), ("true".toList, .bool true), ("false".toList, .bool false),
    ("NaN".toList, .double .nan), ("Infinity".toList, .double (.infinity false)),
    ("-Infinity".toList, .double (.infinity true))]

def readScalar (cs : List Char) : Except Stop (Doc × List Char) :=
  match literals.find? fun l => l.1.isPrefixOf cs with
  | some (word, s) => .ok (.scalar s, cs.drop word.length)
  | none => match number? cs with
    | some (s, rest) => .ok (.scalar s, rest)
    | none => .error ⟨.expectingValue, cs⟩

/-- The name of a member and what follows its colon. -/
def readName : List Char → Except Stop (String × List Char)
  | '"' :: rest => do
    let (name, rest) ← readString rest
    match skipSpace rest with
    | ':' :: rest => .ok (name, skipSpace rest)
    | rest => .error ⟨.expectingColon, rest⟩
  | cs => .error ⟨.expectingPropertyName, cs⟩

mutual

/-- A value and the characters after it. Every call for a part has less fuel; no character takes more than two
calls, so that a text of `n` characters needs at most `2 * n + 2`. -/
def readValue : Nat → List Char → Except Stop (Doc × List Char)
  | 0, cs => .error ⟨.expectingValue, cs⟩
  | fuel + 1, cs => match cs with
    | '"' :: rest => do
      let (s, rest) ← readString rest
      .ok (.text s, rest)
    | '{' :: rest => match skipSpace rest with
      | '}' :: rest => .ok (.mapping [], rest)
      | rest => do
        let (entries, rest) ← readMembers fuel rest
        .ok (.mapping (Ordered.ofList entries), rest)
    | '[' :: rest => match skipSpace rest with
      | ']' :: rest => .ok (.list [], rest)
      | rest => do
        let (items, rest) ← readItems fuel rest
        .ok (.list items, rest)
    | cs => readScalar cs

/-- The members of an object up to its closing brace. -/
def readMembers : Nat → List Char → Except Stop (List (Scalar × Doc) × List Char)
  | 0, cs => .error ⟨.expectingPropertyName, cs⟩
  | fuel + 1, cs => do
    let (name, rest) ← readName cs
    let (d, rest) ← readValue fuel rest
    match skipSpace rest with
    | '}' :: rest => .ok ([(.text name, d)], rest)
    | ',' :: rest => do
      let (entries, rest) ← readMembers fuel (skipSpace rest)
      .ok ((.text name, d) :: entries, rest)
    | rest => .error ⟨.expectingComma, rest⟩

/-- The items of an array up to its closing bracket. -/
def readItems : Nat → List Char → Except Stop (List Doc × List Char)
  | 0, cs => .error ⟨.expectingValue, cs⟩
  | fuel + 1, cs => do
    let (d, rest) ← readValue fuel cs
    match skipSpace rest with
    | ']' :: rest => .ok ([d], rest)
    | ',' :: rest => do
      let (items, rest) ← readItems fuel (skipSpace rest)
      .ok (d :: items, rest)
    | rest => .error ⟨.expectingComma, rest⟩

end

def readText (cs : List Char) : Except Stop Doc :=
  match cs with
  | c :: _ =>
    if c = Char.ofNat 0xFEFF then .error ⟨.byteOrderMark, cs⟩ else readDocument cs
  | [] => readDocument cs
where
  /-- A value with nothing but white space around it. -/
  readDocument (cs : List Char) : Except Stop Doc := do
    let (d, rest) ← readValue (2 * cs.length + 2) (skipSpace cs)
    match skipSpace rest with
    | [] => .ok d
    | rest => .error ⟨.extraData, rest⟩

/-- A fault and its place in the text: characters from the start, and line and column from one. -/
structure Fault where
  reason : Reason
  line : Nat
  column : Nat
  position : Nat
  deriving DecidableEq, Repr

/-- The place where the characters that are left begin. -/
def Stop.locate (cs : List Char) (stop : Stop) : Fault :=
  let before := cs.take (cs.length - stop.left.length)
  { reason := stop.reason
    line := before.count '\n' + 1
    column := (before.reverse.takeWhile (· ≠ '\n')).length + 1
    position := before.length }

def Fault.message (f : Fault) : String :=
  s!"{f.reason.message}: line {f.line} column {f.column} (char {f.position})"

/-- The document that a JSON text says. Of a repeated key the last value counts. Integers may have any number of
digits, and parts may be nested to any depth. -/
def parse (s : String) : Except Fault Doc :=
  (readText s.toList).mapError (Stop.locate s.toList)

end Json

end StyleTokens

import StyleTokens.Json.Reader
import StyleTokens.Json.Printer
import StyleTokens.Naming
import Mathlib.Data.List.Basic

namespace StyleTokens

namespace Script

/-- The code units of a text in UTF-16, which are what the strings of a script are made of. -/
def units (cs : List Char) : List Nat := cs.flatMap Json.codeUnits

/-- The code units of a code point, which may be half of a surrogate pair. -/
def pointUnits (n : Nat) : List Nat :=
  if n < 0x10000 then [n] else [0xD800 + (n - 0x10000) / 0x400, 0xDC00 + (n - 0x10000) % 0x400]

/-- The number that hexadecimal digits write. -/
def hexNumber? (digits : List Char) : Option Nat :=
  if digits.isEmpty then none
  else digits.foldlM (fun n c => (Json.hexValue? c).map (n * 16 + ·)) 0

/-- The code point of a Unicode escape and what follows it; the text begins after the `u`. -/
def unicodeEscape? : List Char → Option (Nat × List Char)
  | '{' :: rest =>
    match rest.dropWhile (· ≠ '}'), hexNumber? (rest.takeWhile (· ≠ '}')) with
    | _ :: after, some n => if n ≤ 0x10FFFF then some (n, after) else none
    | _, _ => none
  | a :: b :: c :: d :: after => (hexNumber? [a, b, c, d]).map fun n => (n, after)
  | _ => none

/-- The letters that stand for control characters after a backslash. -/
def controlEscapes : List (Char × Nat) := [('b', 8), ('t', 9), ('n', 10), ('v', 11), ('f', 12), ('r', 13)]

/-- The line ends of scripts. -/
def isLineEnd (c : Char) : Bool := c == '\n' || c == '\r' || c == '\u2028' || c == '\u2029'

/-- The code units of an escape and what follows it; the text begins after the backslash. A line end is left
out, and digits that look like octal escapes are no escapes. -/
def escape? : List Char → Option (List Nat × List Char)
  | [] => none
  | c :: rest =>
    if c = 'u' then (unicodeEscape? rest).map fun p => (pointUnits p.1, p.2)
    else if c = 'x' then
      match rest with
      | a :: b :: after => (hexNumber? [a, b]).map fun n => ([n], after)
      | _ => none
    else if c = '\r' ∧ rest.head? = some '\n' then some ([], rest.tail)
    else if isLineEnd c then some ([], rest)
    else if c = '0' ∧ ¬ rest.head?.any isDigit then some ([0], rest)
    else if isDigit c then none
    else some ((controlEscapes.lookup c).elim (Json.codeUnits c) ([·]), rest)

theorem units_cons (c : Char) (cs : List Char) : units (c :: cs) = Json.codeUnits c ++ units cs := rfl

theorem units_append (cs ds : List Char) : units (cs ++ ds) = units cs ++ units ds := List.flatMap_append

theorem length_codeUnits_pos (c : Char) : 0 < (Json.codeUnits c).length := by
  unfold Json.codeUnits
  dsimp only
  split <;> simp

theorem length_le_units (cs : List Char) : cs.length ≤ (units cs).length := by
  induction cs with
  | nil => simp
  | cons c rest ih =>
    have one := length_codeUnits_pos c
    rw [units_cons, List.length_append, List.length_cons]
    omega

theorem length_pointUnits (n : Nat) : (pointUnits n).length ≤ 2 := by
  unfold pointUnits
  split <;> simp

/-- A Unicode escape takes at least three characters. -/
theorem exists_used_of_unicodeEscape? {cs after : List Char} {n : Nat} (h : unicodeEscape? cs = some (n, after)) :
    ∃ used, cs = used ++ after ∧ 3 ≤ used.length := by
  unfold unicodeEscape? at h
  split at h
  next rest =>
    split at h
    next mark after' m hd hn =>
      split at h
      · obtain ⟨rfl, rfl⟩ := Prod.mk.inj (Option.some.inj h)
        have whole := List.takeWhile_append_dropWhile (l := rest) (p := (· ≠ '}'))
        have digits : rest.takeWhile (· ≠ '}') ≠ [] := by
          intro none
          rw [none] at hn
          cases hn
        have some_digit := List.length_pos_iff.mpr digits
        refine ⟨'{' :: rest.takeWhile (· ≠ '}') ++ [mark], ?_, ?_⟩
        · rw [hd] at whole
          simpa using whole.symm
        · simp only [List.cons_append, List.length_cons, List.length_append, List.length_nil]
          omega
      · cases h
    next => cases h
  next a b c d after' _ =>
    obtain ⟨m, _, same⟩ := Option.map_eq_some_iff.mp h
    cases same
    exact ⟨[a, b, c, d], rfl, by simp⟩
  next => cases h

/-- An escape has no more code units after the backslash than it stands for. -/
theorem exists_used_of_escape? {cs after : List Char} {us : List Nat} (h : escape? cs = some (us, after)) :
    ∃ used, cs = used ++ after ∧ used ≠ [] ∧ us.length ≤ (units used).length := by
  unfold escape? at h
  split at h
  next => cases h
  next c rest =>
    split at h
    next hc =>
      obtain ⟨⟨n, after'⟩, hu, same⟩ := Option.map_eq_some_iff.mp h
      cases same
      obtain ⟨used, rfl, long⟩ := exists_used_of_unicodeEscape? hu
      have enough := length_le_units (c :: used)
      refine ⟨c :: used, rfl, by simp, Nat.le_trans (length_pointUnits n) ?_⟩
      simp only [List.length_cons] at enough
      omega
    split at h
    next =>
      split at h
      next a b after' =>
        obtain ⟨n, _, same⟩ := Option.map_eq_some_iff.mp h
        cases same
        have enough := length_le_units [c, a, b]
        exact ⟨[c, a, b], rfl, by simp, by simp only [List.length_cons, List.length_nil] at enough ⊢; omega⟩
      next => cases h
    split at h
    next crlf =>
      cases h
      obtain ⟨_, second⟩ := crlf
      obtain ⟨more, rfl⟩ := List.head?_eq_some_iff.mp second
      exact ⟨[c, '\n'], rfl, by simp, by simp⟩
    split at h
    next =>
      cases h
      exact ⟨[c], rfl, by simp, by simp⟩
    split at h
    next =>
      cases h
      exact ⟨[c], rfl, by simp, length_le_units [c]⟩
    split at h
    next => cases h
    next =>
      cases h
      refine ⟨[c], rfl, by simp, ?_⟩
      cases controlEscapes.lookup c with
      | none => simp [units]
      | some n => exact length_le_units [c]

theorem length_lt_of_escape? {cs after : List Char} {us : List Nat} (h : escape? cs = some (us, after)) :
    after.length < cs.length := by
  obtain ⟨used, rfl, filled, -⟩ := exists_used_of_escape? h
  have some_char := List.length_pos_iff.mpr filled
  rw [List.length_append]
  omega

/-- The code units of a string literal; the text begins after the opening quote, and ends with the closing one. -/
def literalUnits? (quote : Char) : List Char → Option (List Nat)
  | [] => none
  | c :: rest =>
    if c = quote then if rest.isEmpty then some [] else none
    else if c = '\\' then
      match _h : escape? rest with
      | some (us, after) => (literalUnits? quote after).map (us ++ ·)
      | none => none
    else if c = '\n' ∨ c = '\r' then none
    else (literalUnits? quote rest).map (Json.codeUnits c ++ ·)
termination_by cs => cs.length
decreasing_by
  · have shorter := length_lt_of_escape? _h
    simp only [List.length_cons]
    omega
  · simp

/-- The literal with a text between its quotes stands for another text. -/
def Denotes (quote : Char) (inside s : String) : Prop :=
  literalUnits? quote (inside.toList ++ [quote]) = some (units s.toList)

/-- A character that stands for itself in a literal. -/
def Literal (quote c : Char) : Prop := c ≠ quote ∧ c ≠ '\\' ∧ c ≠ '\n' ∧ c ≠ '\r'

instance (quote c : Char) : Decidable (Literal quote c) := inferInstanceAs (Decidable (_ ∧ _))

section Literals

variable {quote : Char}

theorem literalUnits?_cons_of_literal {c : Char} (h : Literal quote c) (rest : List Char) :
    literalUnits? quote (c :: rest) = (literalUnits? quote rest).map (Json.codeUnits c ++ ·) := by
  obtain ⟨noQuote, noEscape, noLine⟩ := h
  rw [literalUnits?, if_neg noQuote, if_neg noEscape, if_neg (by tauto)]

theorem literalUnits?_self (cs : List Char) (plain : ∀ c ∈ cs, Literal quote c) :
    literalUnits? quote (cs ++ [quote]) = some (units cs) := by
  induction cs with
  | nil => simp [literalUnits?, units]
  | cons c rest ih =>
    obtain ⟨first, later⟩ := List.forall_mem_cons.mp plain
    rw [List.cons_append, literalUnits?_cons_of_literal first, ih later]
    rfl

/-- A literal stands for fewer code units than it has after its opening quote. -/
theorem length_lt_of_literalUnits? {cs : List Char} {us : List Nat} (h : literalUnits? quote cs = some us) :
    us.length < (units cs).length := by
  fun_induction literalUnits? quote cs generalizing us with
  | case1 => cases h
  | case2 rest ended =>
    cases h
    exact Nat.lt_of_lt_of_le (by simp) (length_le_units _)
  | case3 => cases h
  | case4 rest es after he _ ih =>
    obtain ⟨vs, hv, rfl⟩ := Option.map_eq_some_iff.mp h
    obtain ⟨used, rfl, _, short⟩ := exists_used_of_escape? he
    have tail := ih hv
    simp only [units_cons, units_append, List.length_append]
    omega
  | case5 => cases h
  | case6 => cases h
  | case7 c rest _ _ _ ih =>
    obtain ⟨vs, hv, rfl⟩ := Option.map_eq_some_iff.mp h
    have tail := ih hv
    simp only [units_cons, List.length_append]
    omega

/-- A literal stands for as many code units as it has between its quotes only if all its characters stand for
themselves. -/
theorem literal_of_length_le {cs : List Char} {us : List Nat} (single : (Json.codeUnits quote).length = 1)
    (h : literalUnits? quote (cs ++ [quote]) = some us) (long : (units cs).length ≤ us.length) :
    ∀ c ∈ cs, Literal quote c := by
  induction cs generalizing us with
  | nil => simp
  | cons c rest ih =>
    rw [List.cons_append, literalUnits?] at h
    rw [units_cons, List.length_append] at long
    split at h
    next => simp at h
    next noQuote =>
    split at h
    next =>
      split at h
      next es after he =>
        -- an escape is longer than what it stands for, and the rest is no shorter
        obtain ⟨vs, hv, rfl⟩ := Option.map_eq_some_iff.mp h
        obtain ⟨used, cut, _, short⟩ := exists_used_of_escape? he
        have tail := length_lt_of_literalUnits? hv
        have whole : (units (rest ++ [quote])).length = (units (used ++ after)).length := by rw [cut]
        have one := length_codeUnits_pos c
        simp only [units_append, units_cons, List.length_append, single] at whole long
        have none : (units []).length = 0 := rfl
        omega
      next => cases h
    next noEscape =>
    split at h
    next => cases h
    next noLine =>
      obtain ⟨vs, hv, rfl⟩ := Option.map_eq_some_iff.mp h
      refine List.forall_mem_cons.mpr ⟨⟨noQuote, noEscape, by tauto⟩, ih hv ?_⟩
      rw [List.length_append] at long
      omega

/-- A text stands for itself between quotes exactly if it has no quote, no backslash and no line end. -/
theorem denotes_self_iff (single : (Json.codeUnits quote).length = 1) {s : String} :
    Denotes quote s s ↔ ∀ c ∈ s.toList, Literal quote c :=
  ⟨fun h => literal_of_length_le single h (Nat.le_refl _), literalUnits?_self s.toList⟩

end Literals

/-- A letter or a digit of ASCII. -/
def isAlphanumeric (c : Char) : Bool := isSmall c || isCapital c || isDigit c

/-- The characters with the Unicode properties `ID_Start` and `ID_Continue`. Of ASCII the first are the letters,
and the others these with the digits and the underscore. -/
structure IdentifierClasses where
  starts : Char → Bool
  continues : Char → Bool
  starts_ascii : ∀ c, c.toNat < 128 → starts c = (isSmall c || isCapital c)
  continues_ascii : ∀ c, c.toNat < 128 → continues c = (isSmall c || isCapital c || isDigit c || c == '_')
  continues_of_starts : ∀ c, starts c = true → continues c = true

/-- The words that a module cannot bind. -/
def reservedWords : List String :=
  ["await", "break", "case", "catch", "class", "const", "continue", "debugger", "default", "delete", "do", "else",
    "enum", "export", "extends", "false", "finally", "for", "function", "if", "import", "in", "instanceof", "new",
    "null", "return", "super", "switch", "this", "throw", "true", "try", "typeof", "var", "void", "while", "with",
    "yield", "let", "static", "implements", "interface", "package", "private", "protected", "public", "arguments",
    "eval"]

/-- The characters of an identifier with its Unicode escapes resolved. -/
def identifierChars? : List Char → Option (List Char)
  | [] => some []
  | c :: rest =>
    if c = '\\' then
      match rest with
      | 'u' :: escaped =>
        match _h : unicodeEscape? escaped with
        | some (n, after) =>
          if n.isValidChar then (identifierChars? after).map (Char.ofNat n :: ·) else none
        | none => none
      | _ => none
    else (identifierChars? rest).map (c :: ·)
termination_by cs => cs.length
decreasing_by
  · obtain ⟨used, rfl, long⟩ := exists_used_of_unicodeEscape? _h
    simp only [List.length_cons, List.length_append]
    omega
  · simp

theorem identifierChars?_of_no_escape {cs : List Char} (h : '\\' ∉ cs) : identifierChars? cs = some cs := by
  induction cs with
  | nil => simp [identifierChars?]
  | cons c rest ih =>
    obtain ⟨first, later⟩ := not_or.mp (mt List.mem_cons.mpr h)
    rw [identifierChars?.eq_def]
    simp only [if_neg (Ne.symm first), ih later, Option.map_some]

/-- An escape in an identifier has a letter. -/
theorem identifierChars?_of_escape {cs : List Char} (escape : '\\' ∈ cs) (letter : 'u' ∉ cs) :
    identifierChars? cs = none := by
  induction cs with
  | nil => cases escape
  | cons c rest ih =>
    rw [identifierChars?.eq_def]
    by_cases here : c = '\\'
    · simp only [if_pos here]
      split
      · simp at letter
      · rfl
    · have later : '\\' ∈ rest := (List.mem_cons.mp escape).resolve_left (Ne.symm here)
      simp only [if_neg here, ih later fun h => letter (List.mem_cons_of_mem c h), Option.map_none]

namespace IdentifierClasses

/-- The letters and digits of ASCII alone. -/
def ascii : IdentifierClasses where
  starts c := isSmall c || isCapital c
  continues c := isSmall c || isCapital c || isDigit c || c == '_'
  starts_ascii _ _ := rfl
  continues_ascii _ _ := rfl
  continues_of_starts c h := by simp [h]

variable (K : IdentifierClasses)

/-- A character with which an identifier can start. -/
def opens (c : Char) : Bool := K.starts c || c == '$' || c == '_'

/-- A character with which an identifier can go on; among them are the two that join and separate letters. -/
def follows (c : Char) : Bool := K.continues c || c == '$' || c == '\u200c' || c == '\u200d'

/-- The characters are those of an identifier. -/
def Spells (cs : List Char) : Prop := ∃ c rest, cs = c :: rest ∧ K.opens c = true ∧ ∀ d ∈ rest, K.follows d = true

/-- The text is an identifier that a module can bind. -/
def IsBinding (s : String) : Prop :=
  ∃ cs, identifierChars? s.toList = some cs ∧ K.Spells cs ∧ String.ofList cs ∉ reservedWords

variable {K}

theorem opens_ascii {c : Char} (h : c.toNat < 128) :
    K.opens c = (isSmall c || isCapital c || c == '$' || c == '_') := by
  rw [opens, K.starts_ascii c h]

theorem follows_ascii {c : Char} (h : c.toNat < 128) :
    K.follows c = (isSmall c || isCapital c || isDigit c || c == '_' || c == '$') := by
  have joiners : (c == '\u200c') = false ∧ (c == '\u200d') = false := by
    constructor <;>
    · refine beq_eq_false_iff_ne.mpr ?_
      rintro rfl
      revert h
      decide
  simp only [follows, K.continues_ascii c h, joiners.1, joiners.2, Bool.or_false]

theorem ascii_of_alphanumeric {c : Char} (h : isAlphanumeric c = true) : c.toNat < 128 := by
  simp only [isAlphanumeric, isSmall, isCapital, isDigit, Bool.or_eq_true, Bool.and_eq_true, decide_eq_true_eq,
    Char.le_def, UInt32.le_iff_toNat_le] at h
  have bounds : (97 ≤ c.toNat ∧ c.toNat ≤ 122 ∨ 65 ≤ c.toNat ∧ c.toNat ≤ 90) ∨ 48 ≤ c.toNat ∧ c.toNat ≤ 57 := h
  omega

theorem follows_of_alphanumeric {c : Char} (h : isAlphanumeric c = true) : K.follows c = true := by
  have letter : (isSmall c || isCapital c || isDigit c) = true := h
  rw [follows_ascii (ascii_of_alphanumeric h), letter]
  rfl

theorem follows_of_letter {c : Char} (h : (isSmall c || isCapital c) = true) : K.follows c = true :=
  follows_of_alphanumeric (by simp [isAlphanumeric, h])

theorem opens_of_alphanumeric {c : Char} (h : isAlphanumeric c = true) (digit : isDigit c = false) :
    K.opens c = true := by
  have letter : (isSmall c || isCapital c || isDigit c) = true := h
  rw [digit, Bool.or_false] at letter
  rw [opens_ascii (ascii_of_alphanumeric h), letter]
  rfl

theorem follows_of_opens {c : Char} (h : K.opens c = true) : K.follows c = true := by
  simp only [opens, Bool.or_eq_true, beq_iff_eq] at h
  rcases h with (starts | rfl) | rfl
  · simp [follows, K.continues_of_starts c starts]
  · simp [follows]
  · rw [follows_ascii (by decide)]
    decide

theorem Spells.follows {cs : List Char} (h : K.Spells cs) : ∀ c ∈ cs, K.follows c = true := by
  obtain ⟨c, rest, rfl, first, later⟩ := h
  exact List.forall_mem_cons.mpr ⟨follows_of_opens first, later⟩

theorem spells_append_iff {cs ds : List Char} (filled : cs ≠ []) (tail : ∀ d ∈ ds, K.follows d = true) :
    K.Spells (cs ++ ds) ↔ K.Spells cs := by
  obtain ⟨c, rest, rfl⟩ := List.exists_cons_of_ne_nil filled
  constructor
  · rintro ⟨_, _, same, first, later⟩
    obtain ⟨rfl, rfl⟩ := List.cons.inj same
    exact ⟨c, rest, rfl, first, fun d hd => later d (List.mem_append_left _ hd)⟩
  · rintro ⟨_, _, same, first, later⟩
    obtain ⟨rfl, rfl⟩ := List.cons.inj same
    exact ⟨c, rest ++ ds, rfl, first, List.forall_mem_append.mpr ⟨later, tail⟩⟩

theorem isBinding_iff {s : String} (plain : '\\' ∉ s.toList) :
    K.IsBinding s ↔ K.Spells s.toList ∧ s ∉ reservedWords := by
  simp [IsBinding, identifierChars?_of_no_escape plain]

/-- No character of an identifier ends a string or has another meaning in it. -/
theorem literal_of_follows {c : Char} (h : K.follows c = true) : Literal '\x27' c := by
  refine ⟨?_, ?_, ?_, ?_⟩ <;>
  · rintro rfl
    rw [follows_ascii (by decide)] at h
    revert h
    decide

theorem Spells.escapeless {cs : List Char} (h : K.Spells cs) : '\\' ∉ cs := by
  intro escape
  have literal := literal_of_follows (h.follows '\\' escape)
  exact literal.2.1 rfl

end IdentifierClasses

end Script

end StyleTokens

import StyleTokens.Proofs.JsonCharacters
import StyleTokens.Proofs.JsonDocuments

namespace StyleTokens

namespace Json

theorem hexValue?_digitChar : ∀ n < 16, hexValue? (Nat.digitChar n) = some n := by decide

theorem codeUnit?_unitEscape {n : Nat} (hn : n < 0x10000) {more : List Char} (hm : more ≠ []) :
    codeUnit? ((unitEscape n).drop 2 ++ more) = some (n, more) := by
  cases more with
  | nil => exact absurd rfl hm
  | cons c rest =>
    have first := hexValue?_digitChar (n / 0x1000) (by omega)
    have second := hexValue?_digitChar (n / 0x100 % 16) (by omega)
    have third := hexValue?_digitChar (n / 16 % 16) (by omega)
    have last := hexValue?_digitChar (n % 16) (by omega)
    have value : ((n / 0x1000 * 16 + n / 0x100 % 16) * 16 + n / 16 % 16) * 16 + n % 16 = n := by omega
    simp only [unitEscape, List.drop, List.cons_append, List.nil_append, codeUnit?, first, second, third, last,
      value]

theorem readEscape_unitEscape {n : Nat} (hn : n < 0x10000) {more : List Char} (hm : more ≠ []) :
    readEscape ((unitEscape n).drop 1 ++ more) = joinPair n more := by
  have unit := codeUnit?_unitEscape hn hm
  show readEscape ('u' :: ((unitEscape n).drop 2 ++ more)) = _
  simp [readEscape, unit]

theorem not_surrogate (c : Char) : isHighSurrogate c.toNat = false ∧ isLowSurrogate c.toNat = false := by
  have valid : c.toNat < 0xD800 ∨ 0xDFFF < c.toNat ∧ c.toNat < 0x110000 := c.valid
  simp only [isHighSurrogate, isLowSurrogate, Bool.and_eq_false_iff, decide_eq_false_iff_not]
  omega

theorem unitChar_toNat (c : Char) : unitChar c.toNat = c := by
  obtain ⟨high, low⟩ := not_surrogate c
  simp [unitChar, high, low]

variable {start more rest : List Char}

theorem readChars_escape {escape : List Char} {c : Char} (he : readEscape escape = .ok (c, more)) :
    readChars start ('\\' :: escape) = (readChars start more).map fun p => (c :: p.1, p.2) := by
  have nonempty : escape.isEmpty = false := by
    cases escape with
    | nil => cases he
    | cons => rfl
  rw [readChars]
  simp only [show ¬ '\\' = '"' by decide, if_false, if_true, nonempty, Bool.false_eq_true]
  split
  next stop failed => rw [he] at failed; cases failed
  next d after read =>
    obtain ⟨rfl, rfl⟩ := Prod.mk.inj (Except.ok.inj (he.symm.trans read))
    rfl

theorem readChars_plain {c : Char} (hq : c ≠ '"') (hb : c ≠ '\\') (hc : ¬ c.toNat < 0x20) :
    readChars start (c :: more) = (readChars start more).map fun p => (c :: p.1, p.2) := by
  rw [readChars]
  simp [hq, hb, hc]

theorem readChars_codeUnits (c : Char) (hm : more ≠ []) :
    readChars start ((codeUnits c).flatMap unitEscape ++ more)
      = (readChars start more).map fun p => (c :: p.1, p.2) := by
  rcases codeUnits_spec c with ⟨units, single⟩ | ⟨high, low, units, first, second, value⟩
  · have read := readEscape_unitEscape single hm
    have joined : joinPair c.toNat more = .ok (c, more) := by
      simp [joinPair, not_surrogate c, unitChar_toNat]
    rw [units]
    simpa [unitEscape] using readChars_escape (read.trans joined)
  · have small : high < 0x10000 ∧ low < 0x10000 := by
      simp only [isHighSurrogate, isLowSurrogate, Bool.and_eq_true, decide_eq_true_eq] at first second
      omega
    have escaped : unitEscape low ++ more ≠ [] := by simp [unitEscape]
    have read := readEscape_unitEscape small.1 escaped
    have unit := codeUnit?_unitEscape small.2 hm
    have long : ¬ ((unitEscape low).drop 2 ++ more).length < 5 := by
      have := List.length_pos_iff.mpr hm
      simp [unitEscape]
      omega
    have joined : joinPair high (unitEscape low ++ more) = .ok (c, more) := by
      show joinPair high ('\\' :: 'u' :: ((unitEscape low).drop 2 ++ more)) = _
      simp only [joinPair, first, long, if_false, unit, second, if_true, value, Char.ofNat_toNat]
    rw [units]
    simpa [unitEscape] using readChars_escape (read.trans joined)

/-- A character reads back from its escape, whichever it has. -/
theorem readChars_escapeChar (ascii : Bool) (c : Char) (hm : more ≠ []) :
    readChars start (escapeChar ascii c ++ more) = (readChars start more).map fun p => (c :: p.1, p.2) := by
  have read : ∀ text, Escaped ascii c text →
      readChars start (text ++ more) = (readChars start more).map fun p => (c :: p.1, p.2) := by
    intro text form
    cases form with
    | short letter reads printable => exact readChars_escape (reads more)
    | units => exact readChars_codeUnits c hm
    | plain quote backslash shows => exact readChars_plain quote backslash (Nat.not_lt.mpr shows.1)
  exact read _ (escaped_escapeChar ascii c)

theorem readChars_quoted (ascii : Bool) (cs : List Char) :
    readChars start (cs.flatMap (escapeChar ascii) ++ '"' :: rest) = .ok (cs, rest) := by
  induction cs with
  | nil =>
    rw [List.flatMap_nil, List.nil_append, readChars]
    simp
  | cons c cs ih =>
    rw [List.flatMap_cons, List.append_assoc, readChars_escapeChar ascii c (by simp), ih]
    rfl

theorem readString_quoted (ascii : Bool) (cs : List Char) :
    readString (cs.flatMap (escapeChar ascii) ++ '"' :: rest) = .ok (String.ofList cs, rest) := by
  rw [readString, readChars_quoted]
  rfl

theorem exists_digit_of_number? {cs : List Char} {s : Scalar} (h : number? cs = some (s, rest)) :
    ∃ negative c more, isDigit c = true ∧ cs = sign negative ++ c :: more := by
  have leading : ∀ unsigned r, wholePart? unsigned = some r → ∃ c more, isDigit c = true ∧ unsigned = c :: more := by
    intro unsigned r hw
    unfold wholePart? at hw
    split at hw
    · exact ⟨_, _, rfl, rfl⟩
    · split at hw
      · exact ⟨_, _, ‹_›, rfl⟩
      · cases hw
    · cases hw
  unfold number? at h
  split at h
  next negative unsigned parts =>
    split at h
    · cases h
    next whole after hw =>
      obtain ⟨c, more, digit, rfl⟩ := leading unsigned _ hw
      refine ⟨negative, c, more, digit, ?_⟩
      split at parts <;> obtain ⟨rfl, rfl⟩ := Prod.mk.inj parts <;> rfl

theorem ne_of_isDigit {c d : Char} (digit : isDigit c = true) (nondigit : isDigit d = false) : c ≠ d := by
  rintro rfl
  rw [digit] at nondigit
  cases nondigit

theorem readScalar_of_number? {cs : List Char} {s : Scalar} (h : number? cs = some (s, rest)) :
    readScalar cs = .ok (.scalar s, rest) := by
  obtain ⟨negative, c, more, digit, rfl⟩ := exists_digit_of_number? h
  have other : ∀ d, isDigit d = false → d ≠ c := fun d nondigit => (ne_of_isDigit digit nondigit).symm
  have noWord : literals.find? (fun l => l.1.isPrefixOf (sign negative ++ c :: more)) = none := by
    cases negative <;>
      simp [literals, sign, List.isPrefixOf, other 'n' rfl, other 't' rfl, other 'f' rfl,
        other 'N' rfl, other 'I' rfl, other '-' rfl]
  rw [readScalar, noWord, h]

theorem readValue_of_number? {cs : List Char} {s : Scalar} (h : number? cs = some (s, rest)) (fuel : Nat) :
    readValue (fuel + 1) cs = .ok (.scalar s, rest) := by
  have scalar := readScalar_of_number? h
  obtain ⟨negative, c, more, digit, rfl⟩ := exists_digit_of_number? h
  have other : ∀ d, isDigit d = false → c ≠ d := fun d => ne_of_isDigit digit
  cases negative with
  | true => exact scalar
  | false =>
    rw [← scalar]
    simp [readValue, sign, other '"' rfl, other '{' rfl, other '[' rfl]

/-- A scalar of a JSON document reads back, unless the text goes on with a part of a number. -/
theorem readValue_scalarText (ascii : Bool) {s : Scalar} (hs : (Doc.scalar s).IsJson) (hr : EndsNumber rest)
    (fuel : Nat) : readValue (fuel + 1) (scalarText ascii s ++ rest) = .ok (.scalar s, rest) := by
  cases s with
  | null => rfl
  | bool b => cases b <;> rfl
  | int n => exact readValue_of_number? (number?_intText n hr) fuel
  | double x =>
    cases x with
    | nan => rfl
    | infinity negative => cases negative <;> rfl
    | finite negative word =>
      have read := number?_wordText negative word hr
      rw [Binary64.ofWord_val, ← List.append_assoc] at read
      exact readValue_of_number? read fuel
  | text s =>
    have text : scalarText ascii (.text s) ++ rest
        = '"' :: (s.toList.flatMap (escapeChar ascii) ++ '"' :: rest) := by
      simp [scalarText, quote]
    rw [text, readValue, readString_quoted, String.ofList_toList]
    rfl
  | date => exact hs.elim
  | time => exact hs.elim
  | bytes => exact hs.elim

theorem skipSpace_append {space cs : List Char} (hs : ∀ c ∈ space, isSpace c = true)
    (hc : ∀ c ∈ cs.head?, isSpace c = false) : skipSpace (space ++ cs) = cs := by
  rw [skipSpace, List.dropWhile_append_of_pos hs]
  cases cs with
  | nil => rfl
  | cons c more => simp [hc c rfl]

theorem skipSpace_cons {c : Char} (hc : isSpace c = false) : skipSpace (c :: more) = c :: more := by
  simp [skipSpace, hc]

theorem isSpace_newline (style : Style) (depth : Nat) : ∀ c ∈ style.newline depth, isSpace c = true := by
  intro c hc
  unfold Style.newline at hc
  split at hc
  · cases hc
  · rcases List.mem_cons.mp hc with rfl | hc
    · rfl
    · rw [List.eq_of_mem_replicate hc]
      rfl

theorem isSpace_blank : ∀ c ∈ [' '], isSpace c = true := List.forall_mem_singleton.mpr rfl

theorem exists_separator (style : Style) (depth : Nat) :
    ∃ space, style.separator depth = ',' :: space ∧ ∀ c ∈ space, isSpace c = true := by
  unfold Style.separator
  split
  · exact ⟨[' '], rfl, isSpace_blank⟩
  · exact ⟨_, rfl, isSpace_newline style depth⟩

theorem endsNumber_nil : EndsNumber [] := by simp [EndsNumber]

theorem endsNumber_cons {c : Char} (h : isDigit c = false ∧ c ≠ '.' ∧ c ≠ 'e' ∧ c ≠ 'E') :
    EndsNumber (c :: more) := by
  intro c' hc'
  obtain rfl : c = c' := by simpa using hc'
  exact h

theorem endsNumber_space {space : List Char} (hs : ∀ c ∈ space, isSpace c = true) (hr : EndsNumber rest) :
    EndsNumber (space ++ rest) := by
  cases space with
  | nil => exact hr
  | cons c more =>
    have kinds := hs c (by simp)
    simp only [isSpace, Bool.or_eq_true, beq_iff_eq] at kinds
    rcases kinds with ((rfl | rfl) | rfl) | rfl <;> exact endsNumber_cons (by decide)

/-- The text begins with a character that is no space, closes nothing and is no byte order mark. -/
def Starts (cs : List Char) : Prop :=
  ∃ c more, cs = c :: more ∧ isSpace c = false ∧ c ≠ ']' ∧ c ≠ '}' ∧ c ≠ Char.ofNat 0xFEFF

namespace Starts

variable {cs : List Char}

theorem append (h : Starts cs) (rest : List Char) : Starts (cs ++ rest) := by
  obtain ⟨c, more, rfl, plain⟩ := h
  exact ⟨c, more ++ rest, rfl, plain⟩

theorem skipSpace (h : Starts cs) {space : List Char} (hs : ∀ c ∈ space, isSpace c = true) :
    Json.skipSpace (space ++ cs) = cs := by
  obtain ⟨c, more, rfl, solid, -⟩ := h
  exact skipSpace_append hs (by simpa using solid)

theorem length_pos (h : Starts cs) : 0 < cs.length := by
  obtain ⟨c, more, rfl, -⟩ := h
  exact Nat.succ_pos _

end Starts

theorem starts_quote (ascii : Bool) (cs : List Char) : Starts (quote ascii cs) :=
  ⟨'"', _, rfl, by decide⟩

theorem starts_of_number? {cs : List Char} {s : Scalar} (h : number? cs = some (s, rest)) : Starts cs := by
  obtain ⟨negative, c, more, digit, rfl⟩ := exists_digit_of_number? h
  have other : ∀ d, isDigit d = false → c ≠ d := fun d => ne_of_isDigit digit
  cases negative with
  | true => exact ⟨'-', c :: more, rfl, by decide⟩
  | false =>
    refine ⟨c, more, rfl, ?_, other ']' rfl, other '}' rfl, other _ rfl⟩
    simp [isSpace, other ' ' rfl, other '\t' rfl, other '\n' rfl, other '\r' rfl]

theorem starts_enclose (style : Style) (depth : Nat) {left : Char} (right : Char) (parts : List Char)
    (hl : left = '[' ∨ left = '{') : Starts (style.enclose depth left right parts) := by
  have begins : ∀ more, Starts (left :: more) := by
    intro more
    rcases hl with rfl | rfl
    · exact ⟨'[', more, rfl, by decide⟩
    · exact ⟨'{', more, rfl, by decide⟩
  unfold Style.enclose
  split
  · exact begins _
  · exact begins _

theorem starts_render (style : Style) (depth : Nat) (d : Doc) (hd : d.IsJson) : Starts (render style depth d) := by
  cases d with
  | scalar s =>
    rw [render]
    cases s with
    | null => exact ⟨'n', _, rfl, by decide⟩
    | bool b =>
      cases b
      · exact ⟨'f', _, rfl, by decide⟩
      · exact ⟨'t', _, rfl, by decide⟩
    | int n =>
      have read := number?_intText n endsNumber_nil
      rw [List.append_nil] at read
      exact starts_of_number? read
    | double x =>
      cases x with
      | nan => exact ⟨'N', _, rfl, by decide⟩
      | infinity negative =>
        cases negative
        · exact ⟨'I', _, rfl, by decide⟩
        · exact ⟨'-', _, rfl, by decide⟩
      | finite negative word =>
        have read := number?_wordText negative word endsNumber_nil
        rw [List.append_nil] at read
        exact starts_of_number? read
    | text s => exact starts_quote style.ascii s.toList
    | date => exact hd.elim
    | time => exact hd.elim
    | bytes => exact hd.elim
  | list items => rw [render]; exact starts_enclose style depth ']' _ (.inl rfl)
  | mapping entries => rw [render]; exact starts_enclose style depth '}' _ (.inr rfl)
  | set => exact hd.elim

theorem enclose_of_starts (style : Style) (depth : Nat) (left right : Char) {space parts : List Char}
    (h : Starts parts) : style.enclose depth left right (space ++ parts)
      = left :: (space ++ (parts ++ (style.newline depth ++ [right]))) := by
  have nonempty : (space ++ parts).isEmpty = false := by
    have := h.length_pos
    simp [List.ne_nil_of_length_pos this]
  rw [Style.enclose, nonempty]
  simp

theorem renderItems_lead (style : Style) (depth : Nat) (lead : List Char) (d : Doc) (more : List Doc) :
    renderItems style depth lead (d :: more) = lead ++ renderItems style depth [] (d :: more) := by
  simp [renderItems]

theorem renderEntries_lead (style : Style) (depth : Nat) (lead : List Char) (p : Scalar × Doc)
    (more : List (Scalar × Doc)) :
    renderEntries style depth lead (p :: more) = lead ++ renderEntries style depth [] (p :: more) := by
  simp [renderEntries]

theorem starts_renderItems (style : Style) (depth : Nat) {d : Doc} (hd : d.IsJson) (more : List Doc) :
    Starts (renderItems style depth [] (d :: more)) := by
  rw [renderItems, List.nil_append]
  exact (starts_render style depth d hd).append _

theorem starts_renderEntries (style : Style) (depth : Nat) (key : String) (d : Doc)
    (more : List (Scalar × Doc)) : Starts (renderEntries style depth [] ((.text key, d) :: more)) := by
  rw [renderEntries, List.nil_append, List.append_assoc]
  exact (starts_quote style.ascii key.toList).append _

section Steps

variable {fuel : Nat} {cs after rest : List Char} {d : Doc}

theorem readName_eq {name : String} (hn : readString cs = .ok (name, after)) (hc : skipSpace after = ':' :: rest) :
    readName ('"' :: cs) = .ok (name, skipSpace rest) := by
  simp [readName, hn, hc, bind, Except.bind]

theorem readItems_last (hv : readValue fuel cs = .ok (d, after)) (hc : skipSpace after = ']' :: rest) :
    readItems (fuel + 1) cs = .ok ([d], rest) := by
  simp [readItems, hv, hc, bind, Except.bind]

theorem readItems_next {items : List Doc} (hv : readValue fuel cs = .ok (d, after))
    (hc : skipSpace after = ',' :: more) (hi : readItems fuel (skipSpace more) = .ok (items, rest)) :
    readItems (fuel + 1) cs = .ok (d :: items, rest) := by
  simp [readItems, hv, hc, hi, bind, Except.bind]

theorem readMembers_last {name : String} {value : List Char} (hn : readName cs = .ok (name, value))
    (hv : readValue fuel value = .ok (d, after)) (hc : skipSpace after = '}' :: rest) :
    readMembers (fuel + 1) cs = .ok ([(.text name, d)], rest) := by
  simp [readMembers, hn, hv, hc, bind, Except.bind]

theorem readMembers_next {name : String} {value : List Char} {entries : List (Scalar × Doc)}
    (hn : readName cs = .ok (name, value)) (hv : readValue fuel value = .ok (d, after))
    (hc : skipSpace after = ',' :: more) (he : readMembers fuel (skipSpace more) = .ok (entries, rest)) :
    readMembers (fuel + 1) cs = .ok ((.text name, d) :: entries, rest) := by
  simp [readMembers, hn, hv, hc, he, bind, Except.bind]

theorem readValue_list {items : List Doc} (hs : Starts cs) {space : List Char}
    (hc : ∀ c ∈ space, isSpace c = true) (hi : readItems fuel cs = .ok (items, rest)) :
    readValue (fuel + 1) ('[' :: (space ++ cs)) = .ok (.list items, rest) := by
  have skipped := hs.skipSpace hc
  obtain ⟨c, more, rfl, -, bracket, -⟩ := hs
  simp [readValue, skipped, hi, bracket, bind, Except.bind]

theorem readValue_mapping {entries : List (Scalar × Doc)} (hs : Starts cs) {space : List Char}
    (hc : ∀ c ∈ space, isSpace c = true) (he : readMembers fuel cs = .ok (entries, rest)) :
    readValue (fuel + 1) ('{' :: (space ++ cs)) = .ok (.mapping (Ordered.ofList entries), rest) := by
  have skipped := hs.skipSpace hc
  obtain ⟨c, more, rfl, -, -, brace, -⟩ := hs
  simp [readValue, skipped, he, brace, bind, Except.bind]

theorem readName_keyText (ascii : Bool) (key : String) (hs : Starts cs) :
    readName (keyText ascii (.text key) ++ ':' :: ' ' :: cs) = .ok (key, cs) := by
  have text : keyText ascii (.text key) ++ ':' :: ' ' :: cs
      = '"' :: (key.toList.flatMap (escapeChar ascii) ++ '"' :: ':' :: ' ' :: cs) := by
    simp [keyText, scalarText, quote]
  have name : readString (key.toList.flatMap (escapeChar ascii) ++ '"' :: ':' :: ' ' :: cs)
      = .ok (String.ofList key.toList, ':' :: ' ' :: cs) := readString_quoted ascii key.toList
  rw [String.ofList_toList] at name
  have after : skipSpace (' ' :: cs) = cs := hs.skipSpace isSpace_blank
  rw [text, readName_eq name (skipSpace_cons (by decide)), after]

end Steps

mutual

/-- A JSON document reads back from its text, and the reader stops where the text ends. -/
theorem readValue_render (style : Style) (depth : Nat) (d : Doc) (hd : d.IsJson) {fuel : Nat} {rest : List Char}
    (hf : (render style depth d).length ≤ fuel) (hr : EndsNumber rest) :
    readValue fuel (render style depth d ++ rest) = .ok (d, rest) := by
  -- the fuel is bounded by the length of the text, of which every part of the document takes at least one character
  have long := (starts_render style depth d hd).length_pos
  obtain ⟨fuel, rfl⟩ : ∃ n, fuel = n + 1 := ⟨fuel - 1, by omega⟩
  cases d with
  | scalar s =>
    rw [render]
    exact readValue_scalarText style.ascii hd hr fuel
  | list items =>
    cases items with
    | nil => rfl
    | cons d more =>
      have starts := starts_renderItems style (depth + 1) hd.1 more
      rw [render, renderItems_lead, enclose_of_starts style depth '[' ']' starts] at hf ⊢
      have enough : (renderItems style (depth + 1) [] (d :: more)).length < fuel := by
        simp only [List.length_cons, List.length_append] at hf
        omega
      have read := readItems_render style (depth + 1) (d :: more) hd (by simp) enough
        (isSpace_newline style depth) rest
      simpa using readValue_list (starts.append _) (isSpace_newline style (depth + 1)) read
  | mapping entries =>
    have same : Ordered.ofList entries = entries := Ordered.ofList_of_distinct (Doc.EntriesJson.distinct hd)
    cases entries with
    | nil => rfl
    | cons p more =>
      obtain ⟨key, d⟩ := p
      obtain ⟨⟨key, rfl⟩, -⟩ := id hd
      have starts := starts_renderEntries style (depth + 1) key d more
      rw [render, renderEntries_lead, enclose_of_starts style depth '{' '}' starts] at hf ⊢
      have enough : (renderEntries style (depth + 1) [] ((.text key, d) :: more)).length < fuel := by
        simp only [List.length_cons, List.length_append] at hf
        omega
      have read := readMembers_render style (depth + 1) ((.text key, d) :: more) hd (by simp) enough
        (isSpace_newline style depth) rest
      simpa [same] using readValue_mapping (starts.append _) (isSpace_newline style (depth + 1)) read
  | set => exact hd.elim

theorem readItems_render (style : Style) (depth : Nat) (items : List Doc) (hi : Doc.AllJson items)
    (hn : items ≠ []) {fuel : Nat} {close : List Char} (hf : (renderItems style depth [] items).length < fuel)
    (hc : ∀ c ∈ close, isSpace c = true) (rest : List Char) :
    readItems fuel (renderItems style depth [] items ++ (close ++ ']' :: rest)) = .ok (items, rest) := by
  obtain ⟨fuel, rfl⟩ : ∃ n, fuel = n + 1 := ⟨fuel - 1, by omega⟩
  cases items with
  | nil => exact absurd rfl hn
  | cons d more =>
    obtain ⟨hd, hm⟩ := hi
    have long := (starts_render style depth d hd).length_pos
    rw [renderItems, List.nil_append] at hf ⊢
    rw [List.length_append] at hf
    rw [List.append_assoc]
    cases more with
    | nil =>
      have ends : EndsNumber (close ++ ']' :: rest) :=
        endsNumber_space hc (endsNumber_cons (by decide))
      exact readItems_last (readValue_render style depth d hd (by omega) ends)
        (skipSpace_append hc (by simp [isSpace]))
    | cons d' more =>
      obtain ⟨space, separator, hs⟩ := exists_separator style depth
      have starts := starts_renderItems style depth hm.1 more
      rw [renderItems_lead, separator, List.cons_append, List.length_cons, List.length_append] at hf
      rw [renderItems_lead, separator, List.cons_append, List.cons_append, List.append_assoc]
      have ends : EndsNumber (',' :: (space ++ (renderItems style depth [] (d' :: more) ++ (close ++ ']' :: rest)))) :=
        endsNumber_cons (by decide)
      refine readItems_next (readValue_render style depth d hd (by omega) ends) (skipSpace_cons (by decide)) ?_
      rw [(starts.append _).skipSpace hs]
      exact readItems_render style depth (d' :: more) hm (by simp) (by omega) hc rest

theorem readMembers_render (style : Style) (depth : Nat) (entries : List (Scalar × Doc))
    (he : Doc.EntriesJson entries) (hn : entries ≠ []) {fuel : Nat} {close : List Char}
    (hf : (renderEntries style depth [] entries).length < fuel) (hc : ∀ c ∈ close, isSpace c = true)
    (rest : List Char) :
    readMembers fuel (renderEntries style depth [] entries ++ (close ++ '}' :: rest)) = .ok (entries, rest) := by
  obtain ⟨fuel, rfl⟩ : ∃ n, fuel = n + 1 := ⟨fuel - 1, by omega⟩
  cases entries with
  | nil => exact absurd rfl hn
  | cons p more =>
    obtain ⟨key, d⟩ := p
    obtain ⟨⟨key, rfl⟩, -, hd, hm⟩ := he
    have starts := starts_render style depth d hd
    have long := starts.length_pos
    rw [renderEntries, List.nil_append] at hf ⊢
    simp only [List.length_append, List.length_cons] at hf
    simp only [List.append_assoc, List.cons_append]
    have name (rest : List Char) := readName_keyText style.ascii key (starts.append rest)
    cases more with
    | nil =>
      have ends : EndsNumber (close ++ '}' :: rest) :=
        endsNumber_space hc (endsNumber_cons (by decide))
      exact readMembers_last (name _) (readValue_render style depth d hd (by omega) ends)
        (skipSpace_append hc (by simp [isSpace]))
    | cons p' more =>
      obtain ⟨key', d'⟩ := p'
      obtain ⟨⟨key', rfl⟩, -⟩ := id hm
      obtain ⟨space, separator, hs⟩ := exists_separator style depth
      have starts' := starts_renderEntries style depth key' d' more
      rw [renderEntries_lead, separator, List.length_append, List.length_cons] at hf
      rw [renderEntries_lead, separator, List.cons_append, List.cons_append, List.append_assoc]
      have ends : EndsNumber (',' :: (space ++ (renderEntries style depth [] ((.text key', d') :: more)
          ++ (close ++ '}' :: rest)))) :=
        endsNumber_cons (by decide)
      refine readMembers_next (name _) (readValue_render style depth d hd (by omega) ends)
        (skipSpace_cons (by decide)) ?_
      rw [(starts'.append _).skipSpace hs]
      exact readMembers_render style depth ((.text key', d') :: more) hm (by simp) (by omega) hc rest

end

/-- What is printed says the document that it was printed from. -/
theorem parse_print (style : Style) {d : Doc} (hd : d.IsJson) : parse (print style d) = .ok d := by
  obtain ⟨text, ht⟩ : ∃ text, text = render style 0 d := ⟨_, rfl⟩
  have starts : Starts text := ht ▸ starts_render style 0 d hd
  have none : ∀ c ∈ ([] : List Char), isSpace c = true := by simp
  have skipped : skipSpace text = text := starts.skipSpace none
  have enough : (render style 0 d).length ≤ 2 * text.length + 2 := by
    rw [← ht]
    omega
  have value := readValue_render style 0 d hd enough endsNumber_nil
  rw [List.append_nil, ← ht] at value
  have document : readText.readDocument text = .ok d := by
    rw [readText.readDocument, show skipSpace text = text from skipped, value]
    rfl
  have read : readText text = .ok d := by
    obtain ⟨c, more, rfl, -, -, -, mark⟩ := starts
    simpa [readText, mark] using document
  rw [parse, print, ← ht, String.toList_ofList, read]
  rfl

end Json

end StyleTokens

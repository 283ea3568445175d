import StyleTokens.Proofs.DecimalTexts
import StyleTokens.Text.Utf8

namespace StyleTokens

namespace Json

/-- A character that shows; one of ASCII if only those are wanted. -/
def Shows (ascii : Bool) (c : Char) : Prop :=
  0x20 ≤ c.toNat ∧ (ascii = true → c.toNat ≤ 0x7E)

variable {ascii : Bool} {c : Char}

theorem shows_of_printable (h : 0x20 ≤ c.toNat ∧ c.toNat ≤ 0x7E) : Shows ascii c := ⟨h.1, fun _ => h.2⟩

/-- The three forms in which a character stands between quotes. -/
inductive Escaped (ascii : Bool) (c : Char) : List Char → Prop where
  | short (letter : Char) (reads : ∀ more, readEscape (letter :: more) = .ok (c, more))
      (printable : 0x20 ≤ letter.toNat ∧ letter.toNat ≤ 0x7E) : Escaped ascii c ['\\', letter]
  | units : Escaped ascii c ((codeUnits c).flatMap unitEscape)
  | plain (quote : c ≠ '"') (backslash : c ≠ '\\') (shows : Shows ascii c) : Escaped ascii c [c]

theorem escaped_escapeChar (ascii : Bool) (c : Char) : Escaped ascii c (escapeChar ascii c) := by
  unfold escapeChar
  split
  next h => subst h; exact .short '"' (fun _ => rfl) (by decide)
  split
  next h => subst h; exact .short '\\' (fun _ => rfl) (by decide)
  split
  next h => subst h; exact .short 'n' (fun _ => rfl) (by decide)
  split
  next h => subst h; exact .short 'r' (fun _ => rfl) (by decide)
  split
  next h => subst h; exact .short 't' (fun _ => rfl) (by decide)
  split
  next h => subst h; exact .short 'b' (fun _ => rfl) (by decide)
  split
  next h => subst h; exact .short 'f' (fun _ => rfl) (by decide)
  split
  next => exact .units
  next quote backslash _ _ _ _ _ shown =>
    refine .plain quote backslash ⟨by omega, fun only => ?_⟩
    by_contra high
    exact shown (.inr ⟨only, by omega⟩)

theorem shows_unitEscape {n : Nat} (hn : n < 0x10000) (hc : c ∈ unitEscape n) : Shows ascii c := by
  have digit : ∀ k < 16, 0x20 ≤ (Nat.digitChar k).toNat ∧ (Nat.digitChar k).toNat ≤ 0x7E := by decide
  simp only [unitEscape, List.mem_cons, List.not_mem_nil, or_false] at hc
  rcases hc with rfl | rfl | rfl | rfl | rfl | rfl
  · exact shows_of_printable (by decide)
  · exact shows_of_printable (by decide)
  · exact shows_of_printable (digit _ (by omega))
  · exact shows_of_printable (digit _ (by omega))
  · exact shows_of_printable (digit _ (by omega))
  · exact shows_of_printable (digit _ (by omega))

/-- The code units of a character have four hexadecimal digits, and no single one is half of a pair. -/
theorem codeUnits_spec (d : Char) :
    (codeUnits d = [d.toNat] ∧ d.toNat < 0x10000) ∨
      ∃ high low, codeUnits d = [high, low] ∧ isHighSurrogate high = true ∧ isLowSurrogate low = true ∧
        0x10000 + (high - 0xD800) * 0x400 + (low - 0xDC00) = d.toNat := by
  have valid : d.toNat < 0xD800 ∨ 0xDFFF < d.toNat ∧ d.toNat < 0x110000 := d.valid
  unfold codeUnits
  dsimp only
  split
  next single => exact .inl ⟨rfl, single⟩
  next pair =>
    refine .inr ⟨_, _, rfl, ?_, ?_, by omega⟩
    · simp [isHighSurrogate]
      omega
    · simp [isLowSurrogate]
      omega

theorem codeUnits_lt (d : Char) : ∀ n ∈ codeUnits d, n < 0x10000 := by
  intro n hn
  rcases codeUnits_spec d with ⟨units, single⟩ | ⟨high, low, units, first, second, -⟩
  · rw [units, List.mem_singleton] at hn
    omega
  · simp only [isHighSurrogate, isLowSurrogate, Bool.and_eq_true, decide_eq_true_eq] at first second
    simp only [units, List.mem_cons, List.not_mem_nil, or_false] at hn
    omega

theorem shows_escapeChar {d : Char} (hc : c ∈ escapeChar ascii d) : Shows ascii c := by
  obtain ⟨text, ht⟩ : ∃ text, text = escapeChar ascii d := ⟨_, rfl⟩
  have form : Escaped ascii d text := ht ▸ escaped_escapeChar ascii d
  rw [← ht] at hc
  clear ht
  cases form with
  | short letter reads printable =>
    simp only [List.mem_cons, List.not_mem_nil, or_false] at hc
    rcases hc with rfl | rfl
    · exact shows_of_printable (by decide)
    · exact shows_of_printable printable
  | units =>
    obtain ⟨n, hn, hm⟩ := List.mem_flatMap.mp hc
    exact shows_unitEscape (codeUnits_lt d n hn) hm
  | plain quote backslash shows =>
    rw [List.mem_singleton] at hc
    exact hc ▸ shows

theorem shows_quote {cs : List Char} (hc : c ∈ quote ascii cs) : Shows ascii c := by
  have mark : Shows ascii '"' := shows_of_printable (by decide)
  simp only [quote, List.cons_append, List.mem_cons, List.mem_append, List.mem_flatMap, List.not_mem_nil,
    or_false] at hc
  rcases hc with rfl | ⟨d, -, hd⟩ | rfl
  · exact mark
  · exact shows_escapeChar hd
  · exact mark

def InNumber (c : Char) : Prop := isDigit c = true ∨ c ∈ ['.', 'e', '+', '-']

theorem InNumber.shows (h : InNumber c) : Shows ascii c := by
  rcases h with digit | mark
  · simp only [isDigit, Bool.and_eq_true, decide_eq_true_eq, Char.le_def, UInt32.le_iff_toNat_le] at digit
    have low : 48 ≤ c.toNat := digit.1
    have high : c.toNat ≤ 57 := digit.2
    exact ⟨by omega, fun _ => by omega⟩
  · simp only [List.mem_cons, List.not_mem_nil, or_false] at mark
    rcases mark with rfl | rfl | rfl | rfl <;> exact shows_of_printable (by decide)

theorem inNumber_digitsOf {n : Nat} (hc : c ∈ Binary64.digitsOf n) : InNumber c :=
  .inl ((digits_digitsOf n).digits c hc)

theorem inNumber_zeros {n : Nat} (hc : c ∈ List.replicate n '0') : InNumber c :=
  .inl (digits_zeros n c hc)

theorem inNumber_intText {n : Int} (hc : c ∈ intText n) : InNumber c := by
  unfold intText at hc
  split at hc
  · rcases List.mem_cons.mp hc with rfl | hc
    · exact .inr (by decide)
    · exact inNumber_digitsOf hc
  · exact inNumber_digitsOf hc

theorem inNumber_exponentText {e : Int} (hc : c ∈ Binary64.exponentText e) : InNumber c := by
  obtain ⟨ds, digits, -, text⟩ := exponentDigits e
  rw [text] at hc
  rcases List.mem_cons.mp hc with rfl | hc
  · exact .inr (by split <;> decide)
  · exact .inl (digits.digits c hc)

theorem inNumber_positional {ds : List Char} (hd : ∀ c ∈ ds, InNumber c) {place : Int}
    (hc : c ∈ Binary64.positional ds place) : InNumber c := by
  have point : InNumber '.' := .inr (by decide)
  have zero : InNumber '0' := .inl (by decide)
  unfold Binary64.positional at hc
  split at hc
  · simp only [List.mem_cons, List.mem_append] at hc
    rcases hc with rfl | rfl | hc | hc
    · exact zero
    · exact point
    · exact inNumber_zeros hc
    · exact hd c hc
  · split at hc
    · simp only [List.mem_append, List.mem_cons, List.not_mem_nil, or_false] at hc
      rcases hc with (hc | hc) | rfl | rfl
      · exact hd c hc
      · exact inNumber_zeros hc
      · exact point
      · exact zero
    · simp only [List.mem_append, List.mem_cons] at hc
      rcases hc with hc | rfl | hc
      · exact hd c (List.mem_of_mem_take hc)
      · exact point
      · exact hd c (List.mem_of_mem_drop hc)

theorem inNumber_scientific {ds : List Char} (hd : ∀ c ∈ ds, InNumber c) {place : Int}
    (hc : c ∈ Binary64.scientific ds place) : InNumber c := by
  have tail : ∀ c ∈ 'e' :: Binary64.exponentText (place - 1), InNumber c := by
    intro c hc
    rcases List.mem_cons.mp hc with rfl | hc
    · exact .inr (by decide)
    · exact inNumber_exponentText hc
  unfold Binary64.scientific at hc
  rcases List.mem_append.mp hc with hc | hc
  · split at hc
    next first second rest _ =>
      rcases List.mem_cons.mp hc with rfl | hc
      · exact hd _ (by simp)
      · rcases List.mem_cons.mp hc with rfl | hc
        · exact .inr (by decide)
        · exact hd c (List.mem_cons_of_mem first hc)
    next => exact hd c hc
  · exact tail c hc

theorem inNumber_wordText {word : Nat} (hc : c ∈ Binary64.wordText word) : InNumber c := by
  unfold Binary64.wordText at hc
  split at hc
  · have zero : ∀ c ∈ ['0', '.', '0'], InNumber c := by simp [InNumber, isDigit]
    exact zero c hc
  · dsimp only at hc
    split at hc
    · exact inNumber_positional (fun _ => inNumber_digitsOf) hc
    · exact inNumber_scientific (fun _ => inNumber_digitsOf) hc

theorem shows_special (name : String) (h : name ∈ ["null", "true", "false", "NaN", "Infinity"])
    (hc : c ∈ name.toList) : Shows ascii c := by
  have all : ∀ name ∈ ["null", "true", "false", "NaN", "Infinity"], ∀ c ∈ name.toList,
      0x20 ≤ c.toNat ∧ c.toNat ≤ 0x7E := by simp
  exact shows_of_printable (all name h c hc)

theorem shows_scalarText {s : Scalar} (hs : (Doc.scalar s).IsJson) (hc : c ∈ scalarText ascii s) :
    Shows ascii c := by
  have signed : ∀ (negative : Bool) (cs : List Char), (∀ c ∈ cs, Shows ascii c) →
      ∀ c ∈ (if negative then ['-'] else []) ++ cs, Shows ascii c := by
    intro negative cs hcs c hc
    rcases List.mem_append.mp hc with hc | hc
    · cases negative with
      | true => exact List.mem_singleton.mp hc ▸ shows_of_printable (by decide)
      | false => cases hc
    · exact hcs c hc
  cases s with
  | null => exact shows_special "null" (by decide) hc
  | bool b =>
    cases b with
    | true => exact shows_special "true" (by decide) hc
    | false => exact shows_special "false" (by decide) hc
  | int n => exact (inNumber_intText hc).shows
  | double x =>
    cases x with
    | nan => exact shows_special "NaN" (by decide) hc
    | infinity negative => exact signed negative _ (fun c => shows_special "Infinity" (by decide)) c hc
    | finite negative word => exact signed negative _ (fun c hc => (inNumber_wordText hc).shows) c hc
  | text s => exact shows_quote hc
  | date => exact hs.elim
  | time => exact hs.elim
  | bytes => exact hs.elim

variable {style : Style} {depth : Nat}

/-- A character of a rendered document: a line end of the layout, or one that shows. -/
def InLayout (style : Style) (c : Char) : Prop := c = '\n' ∨ Shows style.ascii c

theorem inLayout_newline (hc : c ∈ style.newline depth) : InLayout style c := by
  unfold Style.newline at hc
  split at hc
  · cases hc
  · rcases List.mem_cons.mp hc with rfl | hc
    · exact .inl rfl
    · exact .inr (List.eq_of_mem_replicate hc ▸ shows_of_printable (by decide))

theorem inLayout_separator (hc : c ∈ style.separator depth) : InLayout style c := by
  have comma : InLayout style ',' := .inr (shows_of_printable (by decide))
  unfold Style.separator at hc
  split at hc
  · have space : InLayout style ' ' := .inr (shows_of_printable (by decide))
    simp only [List.mem_cons, List.not_mem_nil, or_false] at hc
    rcases hc with rfl | rfl
    · exact comma
    · exact space
  · rcases List.mem_cons.mp hc with rfl | hc
    · exact comma
    · exact inLayout_newline hc

theorem inLayout_enclose {left right : Char} {parts : List Char} (hl : InLayout style left)
    (hr : InLayout style right) (hp : ∀ c ∈ parts, InLayout style c)
    (hc : c ∈ style.enclose depth left right parts) : InLayout style c := by
  unfold Style.enclose at hc
  split at hc
  · simp only [List.mem_cons, List.not_mem_nil, or_false] at hc
    rcases hc with rfl | rfl
    · exact hl
    · exact hr
  · simp only [List.cons_append, List.mem_cons, List.mem_append, List.not_mem_nil, or_false] at hc
    rcases hc with rfl | (hc | hc) | rfl
    · exact hl
    · exact hp c hc
    · exact inLayout_newline hc
    · exact hr

mutual

theorem inLayout_render (style : Style) (depth : Nat) (d : Doc) (hd : d.IsJson) :
    ∀ c ∈ render style depth d, InLayout style c := by
  intro c hc
  cases d with
  | scalar s => exact .inr (shows_scalarText hd hc)
  | list items =>
    exact inLayout_enclose (.inr (shows_of_printable (by decide))) (.inr (shows_of_printable (by decide)))
      (inLayout_renderItems style (depth + 1) _ (fun _ => inLayout_newline) items hd) hc
  | mapping entries =>
    exact inLayout_enclose (.inr (shows_of_printable (by decide))) (.inr (shows_of_printable (by decide)))
      (inLayout_renderEntries style (depth + 1) _ (fun _ => inLayout_newline) entries hd) hc
  | set => exact hd.elim

theorem inLayout_renderItems (style : Style) (depth : Nat) (lead : List Char)
    (hl : ∀ c ∈ lead, InLayout style c) (items : List Doc) (hi : Doc.AllJson items) :
    ∀ c ∈ renderItems style depth lead items, InLayout style c := by
  intro c hc
  cases items with
  | nil => cases hc
  | cons d more =>
    simp only [renderItems, List.mem_append] at hc
    rcases hc with (hc | hc) | hc
    · exact hl c hc
    · exact inLayout_render style depth d hi.1 c hc
    · exact inLayout_renderItems style depth _ (fun _ => inLayout_separator) more hi.2 c hc

theorem inLayout_renderEntries (style : Style) (depth : Nat) (lead : List Char)
    (hl : ∀ c ∈ lead, InLayout style c) (entries : List (Scalar × Doc)) (he : Doc.EntriesJson entries) :
    ∀ c ∈ renderEntries style depth lead entries, InLayout style c := by
  intro c hc
  cases entries with
  | nil => cases hc
  | cons p more =>
    obtain ⟨key, d⟩ := p
    obtain ⟨⟨key, rfl⟩, -, hd, hm⟩ := he
    simp only [renderEntries, List.mem_append, List.mem_cons] at hc
    rcases hc with ((hc | hc) | rfl | rfl | hc) | hc
    · exact hl c hc
    · exact .inr (shows_quote hc)
    · exact .inr (shows_of_printable (by decide))
    · exact .inr (shows_of_printable (by decide))
    · exact inLayout_render style depth d hd c hc
    · exact inLayout_renderEntries style depth _ (fun _ => inLayout_separator) more hm c hc

end

end Json

theorem unifyNewlines_of_not_mem {cs : List Char} (h : '\r' ∉ cs) : unifyNewlines cs = cs := by
  induction cs with
  | nil => rfl
  | cons c more ih =>
    have other : c ≠ '\r' := fun hc => h (by simp [hc])
    have rest : '\r' ∉ more := fun hc => h (List.mem_cons_of_mem c hc)
    rw [unifyNewlines]
    · rw [ih rest]
    · rintro rest' rfl
      exact absurd rfl other
    · rintro rfl
      exact absurd rfl other

/-- A printed document has only line feeds as line ends. -/
theorem Json.unifyNewlines_print (style : Style) {d : Doc} (hd : d.IsJson) :
    String.ofList (unifyNewlines (print style d).toList) = print style d := by
  have none : '\r' ∉ render style 0 d := by
    intro hc
    rcases inLayout_render style 0 d hd _ hc with feed | ⟨low, -⟩
    · exact absurd feed (by decide)
    · exact absurd low (by decide)
  rw [print, String.toList_ofList, unifyNewlines_of_not_mem none]

end StyleTokens

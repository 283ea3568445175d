import StyleTokens.Proofs.IndexedNames
import StyleTokens.Proofs.TokenExports

namespace StyleTokens

namespace Naming

open Script

theorem isAlphanumeric_eq (c : Char) : isAlphanumeric c = (isWordTail c || isCapital c) := by
  rw [isAlphanumeric, isWordTail, Bool.or_right_comm]

theorem isAlphanumeric_of_isWordTail {c : Char} (h : isWordTail c = true) : isAlphanumeric c = true := by
  simp [isAlphanumeric_eq, h]

theorem isAlphanumeric_of_isCapital {c : Char} (h : isCapital c = true) : isAlphanumeric c = true := by
  simp [isAlphanumeric_eq, h]

theorem isAlphanumeric_smallOf {c : Char} : isAlphanumeric (smallOf c) = isAlphanumeric c := by
  cases h : isCapital c with
  | true => simp [isAlphanumeric, h, (smallOf_spec h).2.1]
  | false => simp [smallOf, h]

theorem isAlphanumeric_capitalOf {c : Char} : isAlphanumeric (capitalOf c) = isAlphanumeric c := by
  cases h : isSmall c with
  | true => simp [isAlphanumeric, h, (capitalOf_spec h).2.1]
  | false => simp [capitalOf, h]

/-- What a word is of a text. -/
structure Splits (cs w after : List Char) : Prop where
  whole : w ++ after = cs
  filled : w ≠ []
  letters : ∀ c ∈ w, isAlphanumeric c = true

theorem splits_takeWhile {p : Char → Bool} {c : Char} {rest : List Char} (first : isAlphanumeric c = true)
    (kept : ∀ d, p d = true → isAlphanumeric d = true) :
    Splits (c :: rest) (c :: rest.takeWhile p) (rest.dropWhile p) where
  whole := by rw [List.cons_append, List.takeWhile_append_dropWhile]
  filled := List.cons_ne_nil _ _
  letters := List.forall_mem_cons.mpr ⟨first, fun d hd => kept d (List.all_eq_true.mp List.all_takeWhile d hd)⟩

theorem Splits.dropLast {cs w after : List Char} (h : Splits cs w after) (several : 1 < w.length) :
    Splits cs w.dropLast (w.getLast?.toList ++ after) where
  whole := by
    rw [← List.append_assoc, List.getLast?_eq_some_getLast h.filled, Option.toList_some,
      List.dropLast_append_getLast h.filled, h.whole]
  filled := List.ne_nil_of_length_pos (by rw [List.length_dropLast]; omega)
  letters := fun c hc => h.letters c (List.mem_of_mem_dropLast hc)

/-- A small letter that ends a run of capitals stands after one of them. -/
theorem length_takeWhile_pos {rest : List Char} (noTail : ¬ (!(rest.takeWhile isWordTail).isEmpty) = true)
    (small : (rest.dropWhile isCapital).head?.any isSmall = true) : 0 < (rest.takeWhile isCapital).length := by
  cases rest with
  | nil => simp at small
  | cons d rest =>
    cases capital : isCapital d with
    | true => simp [capital]
    | false =>
      have tail : isWordTail d = true := by
        have first : isSmall d = true := by simpa [capital] using small
        simp [isWordTail, first]
      simp [tail] at noTail

theorem splits_of_word? {cs w after : List Char} (h : word? cs = some (w, after)) : Splits cs w after := by
  cases cs with
  | nil => cases h
  | cons c rest =>
    rw [word?] at h
    split at h
    next tail =>
      cases h
      exact splits_takeWhile (isAlphanumeric_of_isWordTail tail) fun _ => isAlphanumeric_of_isWordTail
    next =>
      split at h
      next capital =>
        have first := isAlphanumeric_of_isCapital capital
        have capitals : Splits (c :: rest) (c :: rest.takeWhile isCapital) (rest.dropWhile isCapital) :=
          splits_takeWhile first fun _ => isAlphanumeric_of_isCapital
        dsimp only at h
        split at h
        next =>
          cases h
          exact splits_takeWhile first fun _ => isAlphanumeric_of_isWordTail
        next noTail =>
          split at h
          next small =>
            cases h
            -- the small letter takes the last capital along as the first of its own word
            exact capitals.dropLast (Nat.succ_lt_succ (length_takeWhile_pos noTail small))
          next =>
            cases h
            exact capitals
      next => cases h

theorem word?_eq_none {c : Char} {rest : List Char} (h : word? (c :: rest) = none) : isAlphanumeric c = false := by
  rw [isAlphanumeric_eq]
  rw [word?] at h
  grind

/-- The words of a text have all its letters and digits in order. -/
theorem flatten_words (cs : List Char) : (words cs).flatten = cs.filter isAlphanumeric := by
  have within : ∀ fuel (cs : List Char), cs.length ≤ fuel →
      (wordsWithin fuel cs).flatten = cs.filter isAlphanumeric := by
    intro fuel
    induction fuel with
    | zero =>
      intro cs short
      rw [List.length_eq_zero_iff.mp (Nat.le_zero.mp short)]
      rfl
    | succ fuel ih =>
      -- a call takes a word, which is not empty, or drops a character, so the rest is within the fuel again
      intro cs short
      cases cs with
      | nil => rfl
      | cons c rest =>
        rw [wordsWithin]
        split
        next w after found =>
          obtain ⟨whole, filled, letters⟩ := splits_of_word? found
          have fewer : after.length ≤ fuel := by
            have lengths := congrArg List.length whole
            have one := List.length_pos_of_ne_nil filled
            simp only [List.length_append, List.length_cons] at lengths short
            omega
          rw [List.flatten_cons, ih after fewer, ← whole, List.filter_append, List.filter_eq_self.mpr letters]
        next none =>
          rw [ih rest (Nat.le_of_succ_le_succ short), List.filter_cons_of_neg (by simp [word?_eq_none none])]
  exact within cs.length cs (Nat.le_refl _)

theorem filled_of_mem_words {cs w : List Char} (h : w ∈ words cs) : w ≠ [] := by
  have within : ∀ fuel (cs : List Char), ∀ w ∈ wordsWithin fuel cs, w ≠ [] := by
    intro fuel cs
    fun_induction wordsWithin fuel cs with
    | case1 => simp
    | case2 => simp
    | case3 fuel c rest w after found ih => exact List.forall_mem_cons.mpr ⟨(splits_of_word? found).filled, ih⟩
    | case4 fuel c rest none ih => exact ih
  exact within cs.length cs w h

theorem words_eq_nil_iff {cs : List Char} : words cs = [] ↔ cs.any isAlphanumeric = false := by
  have all := flatten_words cs
  rw [List.any_eq_false]
  constructor
  · intro none c hc letter
    rw [none] at all
    have kept : c ∈ cs.filter isAlphanumeric := List.mem_filter.mpr ⟨hc, letter⟩
    rw [← all] at kept
    cases kept
  · intro none
    rw [List.filter_eq_nil_iff.mpr none, List.flatten_eq_nil_iff] at all
    exact List.eq_nil_iff_forall_not_mem.mpr fun w hw => filled_of_mem_words hw (all w hw)

/-- A name without letters and digits is its own identifier. -/
theorem camel_of_wordless {name : String} (h : name.toList.any isAlphanumeric = false) : camel name = name := by
  rw [camel, words_eq_nil_iff.mpr h]
  rfl

theorem alphanumeric_capitalizeWord {w : List Char} (h : ∀ c ∈ w, isAlphanumeric c = true) :
    ∀ c ∈ capitalizeWord w, isAlphanumeric c = true := by
  cases w with
  | nil => exact h
  | cons c rest =>
    obtain ⟨first, later⟩ := List.forall_mem_cons.mp h
    exact List.forall_mem_cons.mpr ⟨isAlphanumeric_capitalOf.trans first, later⟩

theorem alphanumeric_of_mem_words {cs w : List Char} (h : w ∈ words cs) : ∀ c ∈ w, isAlphanumeric c = true := by
  intro c hc
  have kept : c ∈ (words cs).flatten := List.mem_flatten.mpr ⟨w, h, hc⟩
  rw [flatten_words] at kept
  exact (List.mem_filter.mp kept).2

/-- Words keep their letters up to case when they are put together. -/
theorem map_smallOf_flatMap_capitalizeWord (ws : List (List Char)) :
    (ws.flatMap capitalizeWord).map smallOf = ws.flatten.map smallOf := by
  rw [List.map_flatMap, List.map_flatten, ← List.flatMap_def]
  refine List.flatMap_congr fun w _ => ?_
  cases w with
  | nil => rfl
  | cons c rest => rw [capitalizeWord, List.map_cons, List.map_cons, smallOf_capitalOf]

/-- The identifier of a name with words has their letters and digits up to case, after an underscore if the first is a
digit. -/
theorem exists_camel {name : String} (h : name.toList.any isAlphanumeric = true) :
    ∃ c rest, (∀ d ∈ c :: rest, isAlphanumeric d = true) ∧
      (c :: rest).map smallOf = (name.toList.filter isAlphanumeric).map smallOf ∧
      camel name = String.ofList (if isDigit c then '_' :: c :: rest else c :: rest) := by
  have small : ∀ w ∈ (words name.toList).map (·.map smallOf), w ≠ [] ∧ ∀ c ∈ w, isAlphanumeric c = true := by
    simp only [List.forall_mem_map]
    intro w hw
    refine ⟨by simpa using filled_of_mem_words hw, fun c hc => ?_⟩
    rw [isAlphanumeric_smallOf]
    exact alphanumeric_of_mem_words hw c hc
  cases split : (words name.toList).map (·.map smallOf) with
  | nil =>
    rw [List.map_eq_nil_iff, words_eq_nil_iff, h] at split
    cases split
  | cons first later =>
    rw [split] at small
    obtain ⟨⟨filled, letters⟩, others⟩ := List.forall_mem_cons.mp small
    obtain ⟨c, rest, rfl⟩ := List.exists_cons_of_ne_nil filled
    refine ⟨c, rest ++ later.flatMap capitalizeWord, ?_, ?_, ?_⟩
    · rw [← List.cons_append, List.forall_mem_append]
      refine ⟨letters, List.forall_mem_flatMap.mpr fun w hw => ?_⟩
      exact alphanumeric_capitalizeWord (others w hw).2
    · have together : ((c :: rest) :: later).flatten = (words name.toList).flatten.map smallOf := by
        rw [← split, List.map_flatten]
      calc (c :: (rest ++ later.flatMap capitalizeWord)).map smallOf = ((c :: rest) :: later).flatten.map smallOf := by
            rw [← List.cons_append, List.map_append, map_smallOf_flatMap_capitalizeWord, ← List.map_append]
            rfl
        _ = ((name.toList.filter isAlphanumeric).map smallOf).map smallOf := by rw [together, flatten_words]
        _ = (name.toList.filter isAlphanumeric).map smallOf := by
            rw [List.map_map]
            exact List.map_congr_left fun d _ => smallOf_smallOf d
    · rw [camel, split]
      rfl

end Naming

namespace Script.IdentifierClasses

variable {K : IdentifierClasses}

/-- The words of a name make an identifier. -/
theorem spells_camel {name : String} (h : name.toList.any isAlphanumeric = true) :
    K.Spells (Naming.camel name).toList := by
  obtain ⟨c, rest, letters, -, camel⟩ := Naming.exists_camel h
  obtain ⟨first, later⟩ := List.forall_mem_cons.mp letters
  rw [camel, String.toList_ofList]
  cases digit : isDigit c with
  | true => exact ⟨'_', c :: rest, rfl, by simp [opens], fun d hd => follows_of_alphanumeric (letters d hd)⟩
  | false => exact ⟨c, rest, rfl, opens_of_alphanumeric first digit, fun d hd => follows_of_alphanumeric (later d hd)⟩

/-- A name without letters and digits can be bound exactly if other characters make it an identifier. -/
theorem isBinding_iff_of_wordless {name : String} (h : name.toList.any isAlphanumeric = false) :
    K.IsBinding name ↔ K.Spells name.toList := by
  have unreserved : name ∉ reservedWords := by
    have letters : ∀ w ∈ reservedWords, w.toList.any isAlphanumeric = true := by decide
    intro reserved
    cases h.symm.trans (letters name reserved)
  by_cases escape : '\\' ∈ name.toList
  · have letter : 'u' ∉ name.toList := fun u => List.any_eq_false.mp h 'u' u (by decide)
    refine iff_of_false ?_ fun spells => spells.escapeless escape
    rintro ⟨cs, read, -⟩
    cases (identifierChars?_of_escape escape letter).symm.trans read
  · rw [isBinding_iff escape, and_iff_left unreserved]

theorem isBinding_camel_iff {name : String} : K.IsBinding (Naming.camel name) ↔
    if name.toList.any isAlphanumeric then Naming.camel name ∉ reservedWords else K.Spells name.toList := by
  cases h : name.toList.any isAlphanumeric with
  | true =>
    have spells : K.Spells (Naming.camel name).toList := spells_camel h
    rw [isBinding_iff spells.escapeless, and_iff_right spells, if_pos rfl]
  | false =>
    rw [Naming.camel_of_wordless h, isBinding_iff_of_wordless h]
    rfl

end Script.IdentifierClasses

namespace Scripts

open Script

variable {m : Mode} {ts : List Token}

theorem Exported.forall_identifiers_iff (h : Exported m ts) {p : String → Prop} :
    (∀ t ∈ ts, p t.identifier) ↔ ∀ t ∈ m.tokens.items, p t.identifier := by
  have exported : (∀ n ∈ ts.map Token.identifier, p n) ↔ ∀ t ∈ ts, p t.identifier := List.forall_mem_map
  have all : (∀ n ∈ m.tokens.items.map Token.identifier, p n) ↔ ∀ t ∈ m.tokens.items, p t.identifier :=
    List.forall_mem_map
  rw [← exported, ← all, h.identifiers]
  simp only [List.mem_eraseDups]

/-- Every module of a successful run binds legal names exactly if no name of a token with letters or digits becomes
a reserved word and those without are identifiers already. -/
theorem exports_legal_iff {selector : String} {d : Doc} {request : Request} {generate log : Bool} {o : Outcome}
    (run : (Pipeline.run selector d request generate log).result = .ok o) (ok : o.ok = true) :
    ∃ t, o.table? = some t ∧ ∀ p ∈ t.modes, ∃ ts, Exported p.2 ts ∧
      tokenModule p.2 = header ++ "\n" ++ String.join (ts.map Token.exportLine) ∧
      ∀ K : IdentifierClasses, (∀ x ∈ ts, K.IsBinding x.identifier) ↔
        ∀ x ∈ p.2.tokens.items, if x.name.toList.any isAlphanumeric then x.identifier ∉ reservedWords
          else K.Spells x.name.toList := by
  obtain ⟨_, t, _, table, -⟩ := Pipeline.built_of_run run ok
  refine ⟨t, table, fun p _ => ?_⟩
  obtain ⟨ts, exported, rows⟩ := exists_exported p.2
  refine ⟨ts, exported, tokenModule_eq rows, fun K => ?_⟩
  rw [exported.forall_identifiers_iff]
  exact forall₂_congr fun x _ => IdentifierClasses.isBinding_camel_iff

/-- A collection with white tokens of the given names. -/
def namedTokens (names : List String) : Doc :=
  let white : Doc := .object [("$type", .text "color"), ("$value", .text "#fff")]
  let light : Doc := .object (names.map fun name => (name, white))
  .list [.object [("brand", .object [("modes", .object [("light", light), ("dark", .object [])])])]]

theorem legal_backgroundPrimary : ∃ o t,
    (Pipeline.run ":root" (namedTokens ["background-primary", "500", "$"]) ⟨"figma", none, []⟩ true true).result =
      .ok o ∧ o.ok = true ∧ o.table? = some t ∧
      ∀ p ∈ t.modes, ∃ ts, Exported p.2 ts ∧
        tokenModule p.2 = header ++ "\n" ++ String.join (ts.map Token.exportLine) ∧
        ∀ K : IdentifierClasses, ∀ x ∈ ts, K.IsBinding x.identifier := by
  have ran : (Pipeline.run ":root" (namedTokens ["background-primary", "500", "$"]) ⟨"figma", none, []⟩ true
      true).result.toOption.any (fun o => o.ok && o.table?.any fun t => t.modes.all fun p =>
        p.2.tokens.items.all fun x => decide (x.identifier ∉ reservedWords) &&
          (x.name.toList.any isAlphanumeric || x.name == "$")) = true := by decide +kernel
  obtain ⟨o, run, both⟩ := exists_ok_of_any ran
  obtain ⟨ok, named⟩ := Bool.and_eq_true_iff.mp both
  obtain ⟨t, table, legal⟩ := exports_legal_iff run ok
  rw [table, Option.any_some] at named
  refine ⟨o, t, run, ok, table, fun p hp => ?_⟩
  obtain ⟨ts, exported, text, legal_iff⟩ := legal p hp
  refine ⟨ts, exported, text, fun K => (legal_iff K).mpr fun x hx => ?_⟩
  obtain ⟨unreserved, name⟩ := Bool.and_eq_true_iff.mp (List.all_eq_true.mp (List.all_eq_true.mp named p hp) x hx)
  split
  next => exact of_decide_eq_true unreserved
  next wordless =>
    have dollar : x.name = "$" := by simpa [wordless] using name
    rw [dollar]
    exact ⟨'$', [], rfl, by simp [IdentifierClasses.opens], by simp⟩

/-- A module binds the reserved word that is the name of a token. -/
theorem illegal_default : ∃ o t,
    (Pipeline.run ":root" (namedTokens ["default"]) ⟨"figma", none, []⟩ true true).result = .ok o ∧ o.ok = true ∧
      o.table? = some t ∧
      (∃ p ∈ t.modes, tokenModule p.2 = header ++ "\nexport const default = \"#fff\";\n") ∧
      ∀ K : IdentifierClasses, ¬ K.IsBinding "default" := by
  have ran : (Pipeline.run ":root" (namedTokens ["default"]) ⟨"figma", none, []⟩ true
      true).result.toOption.any (fun o => o.ok && o.table?.any fun t => t.modes.any fun p =>
        tokenModule p.2 == header ++ "\nexport const default = \"#fff\";\n") = true := by decide +kernel
  obtain ⟨o, run, both⟩ := exists_ok_of_any ran
  obtain ⟨ok, bound⟩ := Bool.and_eq_true_iff.mp both
  obtain ⟨t, table, bound⟩ := (Option.any_eq_true _ _).mp bound
  obtain ⟨p, hp, text⟩ := List.any_eq_true.mp bound
  refine ⟨o, t, run, ok, table, ⟨p, hp, beq_iff_eq.mp text⟩, fun K legal => ?_⟩
  have unreserved := ((IdentifierClasses.isBinding_iff (by decide)).mp legal).2
  exact unreserved (by decide)

end Scripts

end StyleTokens

import StyleTokens.Proofs.GeneratedTexts
import StyleTokens.Proofs.LosslessCollections
import StyleTokens.Proofs.ScriptLexemes
import StyleTokens.Proofs.SmallLetters

namespace StyleTokens

namespace Naming

/-- Each capital as a hyphen and the small letter. -/
def spreadChars (cs : List Char) : List Char := cs.flatMap fun c => if isCapital c then ['-', smallOf c] else [c]

/-- A name with each capital as a hyphen and the small letter. -/
def spread (name : String) : String := String.ofList (spreadChars name.toList)

theorem joinHyphens_hyphen {d : Char} (h : isSmall d = true) (rest : List Char) :
    joinHyphens ('-' :: d :: rest) = capitalOf d :: joinHyphens rest := by
  simp [joinHyphens, h]

theorem joinHyphens_cons {c : Char} {cs : List Char} (h : ¬ (c = '-' ∧ cs.head?.any isSmall = true)) :
    joinHyphens (c :: cs) = c :: joinHyphens cs := by
  cases cs with
  | nil => rfl
  | cons d rest =>
    have other : ¬ (c == '-' && isSmall d) = true := by simpa using h
    rw [joinHyphens, if_neg other]

theorem spreadChars_cons_of_capital {c : Char} (h : isCapital c = true) (cs : List Char) :
    spreadChars (c :: cs) = '-' :: smallOf c :: spreadChars cs := by
  simp [spreadChars, h]

theorem spreadChars_cons_of_not_capital {c : Char} (h : isCapital c = false) (cs : List Char) :
    spreadChars (c :: cs) = c :: spreadChars cs := by
  simp [spreadChars, h]

theorem head?_spreadChars (cs : List Char) : (spreadChars cs).head?.any isSmall = cs.head?.any isSmall := by
  cases cs with
  | nil => rfl
  | cons c rest =>
    cases h : isCapital c with
    | true =>
      rw [spreadChars_cons_of_capital h, List.head?_cons, List.head?_cons, Option.any_some, Option.any_some,
        (smallOf_spec h).1]
      decide
    | false => rw [spreadChars_cons_of_not_capital h]; rfl

theorem joinHyphens_spreadChars (cs : List Char) : joinHyphens (spreadChars cs) = joinHyphens cs := by
  have step : ∀ (c : Char) (cs : List Char), ¬ (c = '-' ∧ cs.head?.any isSmall = true) →
      joinHyphens (spreadChars cs) = joinHyphens cs →
      joinHyphens (spreadChars (c :: cs)) = c :: joinHyphens cs := by
    intro c cs other ih
    cases h : isCapital c with
    | true =>
      obtain ⟨-, small, back⟩ := smallOf_spec h
      rw [spreadChars_cons_of_capital h, joinHyphens_hyphen small, back, ih]
    | false => rw [spreadChars_cons_of_not_capital h, joinHyphens_cons (by rwa [head?_spreadChars]), ih]
  fun_induction joinHyphens cs with
  | case1 c d rest hyphen ih =>
    obtain ⟨rfl, small⟩ : c = '-' ∧ isSmall d = true := by simpa using hyphen
    rw [spreadChars_cons_of_not_capital (by decide), spreadChars_cons_of_not_capital (capitalOf_spec small).1,
      joinHyphens_hyphen small, ih]
  | case2 c d rest other ih => exact step c (d :: rest) (by simpa using other) ih
  | case3 cs short =>
    match cs, short with
    | [], _ => rfl
    | [c], _ => exact step c [] (by simp) rfl
    | c :: d :: rest, short => exact absurd rfl (short c d rest)

theorem spreadChars_joinHyphens (cs : List Char) : spreadChars (joinHyphens cs) = spreadChars cs := by
  fun_induction joinHyphens cs with
  | case1 c d rest hyphen ih =>
    obtain ⟨rfl, small⟩ : c = '-' ∧ isSmall d = true := by simpa using hyphen
    obtain ⟨low, capital, back⟩ := capitalOf_spec small
    rw [spreadChars_cons_of_capital capital, back, ih, spreadChars_cons_of_not_capital (by decide),
      spreadChars_cons_of_not_capital low]
  | case2 c d rest other ih =>
    rw [spreadChars, List.flatMap_cons, spreadChars, List.flatMap_cons]
    exact congrArg _ ih
  | case3 => rfl

/-- Two names have one identifier exactly if they differ only in capitals for hyphens with small letters. -/
theorem camelize_eq_iff {a b : String} : camelize a = camelize b ↔ spread a = spread b := by
  have same : ∀ {cs ds : List Char}, joinHyphens cs = joinHyphens ds ↔ spreadChars cs = spreadChars ds := by
    intro cs ds
    constructor
    · intro h
      rw [← spreadChars_joinHyphens, h, spreadChars_joinHyphens]
    · intro h
      rw [← joinHyphens_spreadChars, h, joinHyphens_spreadChars]
  rw [camelize, camelize, spread, spread, String.ofList_inj, String.ofList_inj, same]

theorem toList_camelize (name : String) : (camelize name).toList = joinHyphens name.toList := String.toList_ofList

theorem joinHyphens_ne_nil {cs : List Char} (h : cs ≠ []) : joinHyphens cs ≠ [] := by
  fun_cases joinHyphens cs <;> simp_all

/-- What is neither a hyphen nor a letter is kept. -/
theorem mem_joinHyphens_iff {cs : List Char} {x : Char} (hyphen : x ≠ '-') (small : isSmall x = false)
    (capital : isCapital x = false) : x ∈ joinHyphens cs ↔ x ∈ cs := by
  fun_induction joinHyphens cs with
  | case1 c d rest here ih =>
    obtain ⟨rfl, letter⟩ : c = '-' ∧ isSmall d = true := by simpa using here
    have noLetter : x ≠ d := by
      rintro rfl
      rw [letter] at small
      cases small
    have noCapital : x ≠ capitalOf d := by
      rintro rfl
      rw [(capitalOf_spec letter).2.1] at capital
      cases capital
    simp [hyphen, noLetter, noCapital, ih]
  | case2 c d rest other ih => rw [List.mem_cons, ih, ← List.mem_cons]
  | case3 => rfl

end Naming

namespace Scripts

open Script

theorem binding_light (theme : String) : binding theme lightMode = Naming.camelize theme ++ "Light" := by
  have title : Naming.title lightMode = "Light" := by decide +kernel
  rw [binding, title]

theorem binding_dark (theme : String) : binding theme darkMode = Naming.camelize theme ++ "Dark" := by
  have title : Naming.title darkMode = "Dark" := by decide +kernel
  rw [binding, title]

/-- An index of themes is in order: the names that it binds are different identifiers, and its literals stand for
the names of the themes and the paths of their modules. -/
structure Index.WellFormed (K : IdentifierClasses) (themes : List String) (i : Index) : Prop where
  distinct : (i.imports.map Import.binding).Nodup
  identifiers : ∀ j ∈ i.imports, K.IsBinding j.binding
  keys : List.Forall₂ (fun e theme => Denotes '\x27' e.key theme) i.entries themes
  specifiers : List.Forall₂ (fun j p => Denotes '\x27' j.specifier ("./" ++ modulePath p.1 p.2)) i.imports
    (themes.flatMap fun theme => requiredModes.map fun mode => (theme, mode))

section Names

variable {K : IdentifierClasses} {themes : List String}

theorem nodup_bindings_iff :
    ((Index.ofThemes themes).imports.map Import.binding).Nodup ↔ (themes.map Naming.spread).Nodup := by
  have bindings : (Index.ofThemes themes).imports.map Import.binding =
      themes.flatMap fun n => [Naming.camelize n ++ "Light", Naming.camelize n ++ "Dark"] := by
    simp [Index.ofThemes, List.map_flatMap, requiredModes, binding_light, binding_dark]
  have apart : ∀ a b : String, a ++ "Light" ≠ b ++ "Dark" := by
    intro a b same
    have last := congrArg (fun s => s.toList.getLast?) same
    simp [List.getLast?_append] at last
  have inner : ∀ n ∈ themes, [Naming.camelize n ++ "Light", Naming.camelize n ++ "Dark"].Nodup := by
    intro n _
    simp [apart]
  have outer : ∀ m n : String, List.Disjoint [Naming.camelize m ++ "Light", Naming.camelize m ++ "Dark"]
      [Naming.camelize n ++ "Light", Naming.camelize n ++ "Dark"] ↔ Naming.spread m ≠ Naming.spread n := by
    intro m n
    rw [ne_eq, ← Naming.camelize_eq_iff]
    simp [apart, (apart _ _).symm, eq_comm]
  rw [bindings, List.nodup_flatMap, and_iff_right inner, List.Nodup, List.pairwise_map]
  exact List.Pairwise.iff fun {m n} => outer m n

theorem isBinding_append_iff {name title : String} (filled : name ≠ "") (plain : '\\' ∉ name.toList)
    (ht : title = "Light" ∨ title = "Dark") :
    K.IsBinding (Naming.camelize name ++ title) ↔ K.Spells (Naming.camelize name).toList := by
  have escapeless : '\\' ∉ (Naming.camelize name ++ title).toList := by
    rw [String.toList_append, Naming.toList_camelize, List.mem_append,
      Naming.mem_joinHyphens_iff (by decide) (by decide) (by decide)]
    rcases ht with rfl | rfl <;> simpa using plain
  have tail : ∀ d ∈ title.toList, K.follows d = true := by
    have letters : title.toList.all (fun d => isSmall d || isCapital d) = true := by
      rcases ht with rfl | rfl <;> decide
    exact fun d hd => IdentifierClasses.follows_of_letter (List.all_eq_true.mp letters d hd)
  have unreserved : Naming.camelize name ++ title ∉ reservedWords := by
    have none : ∀ w ∈ reservedWords, ¬ title.toList <:+ w.toList := by
      rcases ht with rfl | rfl <;> decide
    intro reserved
    exact none _ reserved ⟨_, String.toList_append.symm⟩
  have kept : (Naming.camelize name).toList ≠ [] := by
    rw [Naming.toList_camelize]
    exact Naming.joinHyphens_ne_nil (by simpa using filled)
  rw [IdentifierClasses.isBinding_iff escapeless, String.toList_append,
    IdentifierClasses.spells_append_iff kept tail, and_iff_left unreserved]

/-- A name that makes an identifier has no character that ends a literal or has another meaning in it. -/
theorem literal_of_spells {name : String} (h : K.Spells (Naming.camelize name).toList) :
    ∀ c ∈ name.toList, Literal '\x27' c := by
  intro c hc
  rw [Naming.toList_camelize] at h
  have kept : c ≠ '-' → isSmall c = false → isCapital c = false → Literal '\x27' c := by
    intro hyphen small capital
    have there := (Naming.mem_joinHyphens_iff hyphen small capital).mpr hc
    exact IdentifierClasses.literal_of_follows (h.follows c there)
  refine ⟨?_, ?_, ?_, ?_⟩ <;>
  · rintro rfl
    exact absurd (kept (by decide) (by decide) (by decide)) (by decide)

theorem denotes_modulePath {theme mode : String} (hm : mode ∈ requiredModes)
    (plain : ∀ c ∈ theme.toList, Literal '\x27' c) :
    Denotes '\x27' ("./" ++ modulePath theme mode) ("./" ++ modulePath theme mode) := by
  have fixed : ("./".toList ++ ("/".toList ++ mode.toList ++ "/ts/tokens".toList ++ ".js".toList)).all
      (Literal '\x27' ·) = true := by
    simp only [requiredModes, List.mem_cons, List.not_mem_nil, or_false] at hm
    rcases hm with rfl | rfl <;> decide
  simp only [List.all_eq_true, decide_eq_true_eq] at fixed
  refine (denotes_self_iff rfl).mpr ?_
  intro c hc
  simp only [modulePath, modulePathStem, toString, String.toList_append, List.mem_append] at hc fixed
  grind

theorem imports_ofThemes (themes : List String) : (Index.ofThemes themes).imports =
    (themes.flatMap fun theme => requiredModes.map fun mode => (theme, mode)).map fun p =>
      ⟨binding p.1 p.2, "./" ++ modulePath p.1 p.2⟩ := by
  simp [Index.ofThemes, List.map_flatMap, Function.comp_def]

theorem isBinding_imports_iff : (∀ j ∈ (Index.ofThemes themes).imports, K.IsBinding j.binding) ↔
    ∀ n ∈ themes, K.IsBinding (Naming.camelize n ++ "Light") ∧ K.IsBinding (Naming.camelize n ++ "Dark") := by
  rw [Index.ofThemes, List.forall_mem_flatMap]
  simp [requiredModes, binding_light, binding_dark]

theorem denotes_keys_iff : List.Forall₂ (fun (e : Entry) theme => Denotes '\x27' e.key theme)
    (Index.ofThemes themes).entries themes ↔ ∀ n ∈ themes, Denotes '\x27' n n := by
  rw [Index.ofThemes, List.forall₂_map_left_iff, List.forall₂_same]

/-- The index of themes is in order exactly if their names are still different with hyphens and small letters in
place of capitals, and make identifiers. -/
theorem wellFormed_ofThemes_iff (filled : ∀ n ∈ themes, n ≠ "") :
    (Index.ofThemes themes).WellFormed K themes ↔
      (themes.map Naming.spread).Nodup ∧ ∀ n ∈ themes, K.Spells (Naming.camelize n).toList := by
  have bound_iff : ∀ n ∈ themes, (∀ c ∈ n.toList, Literal '\x27' c) → ∀ title, title = "Light" ∨ title = "Dark" →
      (K.IsBinding (Naming.camelize n ++ title) ↔ K.Spells (Naming.camelize n).toList) :=
    fun n hn plain _ ht => isBinding_append_iff (filled n hn) (fun escape => (plain _ escape).2.1 rfl) ht
  constructor
  · rintro ⟨distinct, identifiers, named, -⟩
    refine ⟨nodup_bindings_iff.mp distinct, ?_⟩
    intro n hn
    have plain := (denotes_self_iff rfl).mp (denotes_keys_iff.mp named n hn)
    exact (bound_iff n hn plain "Light" (.inl rfl)).mp (isBinding_imports_iff.mp identifiers n hn).1
  · rintro ⟨distinct, spelled⟩
    have plain : ∀ n ∈ themes, ∀ c ∈ n.toList, Literal '\x27' c := fun n hn => literal_of_spells (spelled n hn)
    refine ⟨nodup_bindings_iff.mpr distinct, isBinding_imports_iff.mpr fun n hn => ?_,
      denotes_keys_iff.mpr fun n hn => (denotes_self_iff rfl).mpr (plain n hn), ?_⟩
    · have bound := bound_iff n hn (plain n hn)
      exact ⟨(bound "Light" (.inl rfl)).mpr (spelled n hn), (bound "Dark" (.inr rfl)).mpr (spelled n hn)⟩
    · rw [imports_ofThemes, List.forall₂_map_left_iff, List.forall₂_same]
      intro p hp
      obtain ⟨n, hn, hp⟩ := List.mem_flatMap.mp hp
      obtain ⟨mode, hm, rfl⟩ := List.mem_map.mp hp
      exact denotes_modulePath hm (plain n hn)

end Names

/-- The index that is made of the table of a successful run is in order exactly if the names of the themes are
still different with hyphens and small letters in place of capitals, and make identifiers. -/
theorem index_wellFormed_iff {selector : String} {d : Doc} {request : Request} {generate log : Bool} {o : Outcome}
    (run : (Pipeline.run selector d request generate log).result = .ok o) (ok : o.ok = true) :
    ∃ t, o.table? = some t ∧ index t.themeNames = (Index.ofThemes t.themeNames).text ∧
      ∀ K : IdentifierClasses, (Index.ofThemes t.themeNames).WellFormed K t.themeNames ↔
        (t.themeNames.map Naming.spread).Nodup ∧
          ∀ name ∈ t.themeNames, K.Spells (Naming.camelize name).toList := by
  obtain ⟨_, t, _, table, -⟩ := Pipeline.built_of_run run ok
  refine ⟨t, table, index_eq t.themeNames, fun K => wellFormed_ofThemes_iff ?_⟩
  intro n hn
  obtain ⟨theme, _, rfl⟩ := List.mem_map.mp hn
  exact theme.named

/-- Collections of the given names without tokens. -/
def bareCollections (names : List String) : Doc :=
  .list (names.map fun name => .object [(name, Collections.bareContent)])

theorem wellFormed_designSystem : ∃ o t,
    (Pipeline.run ":root" (bareCollections ["design-system", "brand"]) ⟨"figma", none, []⟩ false true).result =
      .ok o ∧ o.ok = true ∧ o.table? = some t ∧
    (Index.ofThemes t.themeNames).WellFormed .ascii t.themeNames := by
  have ran : (Pipeline.run ":root" (bareCollections ["design-system", "brand"]) ⟨"figma", none, []⟩ false
      true).result.toOption.any (fun o => o.ok && o.table?.any fun t =>
        t.themeNames = ["design-system", "brand"]) = true := by decide +kernel
  obtain ⟨o, run, both⟩ := exists_ok_of_any ran
  obtain ⟨ok, names⟩ := Bool.and_eq_true_iff.mp both
  obtain ⟨t, table, _, inOrder⟩ := index_wellFormed_iff run ok
  rw [table, Option.any_some] at names
  have named : t.themeNames = ["design-system", "brand"] := of_decide_eq_true names
  refine ⟨o, t, run, ok, table, (inOrder .ascii).mpr ?_⟩
  rw [named]
  refine ⟨by decide, ?_⟩
  intro name hname
  simp only [List.mem_cons, List.not_mem_nil, or_false] at hname
  rcases hname with rfl | rfl
  · exact ⟨'d', "esignSystem".toList, by decide, by decide, List.all_eq_true.mp (by decide)⟩
  · exact ⟨'b', "rand".toList, by decide, by decide, List.all_eq_true.mp (by decide)⟩

/-- The index of a theme whose name begins with a digit is not in order. -/
theorem malformed_digits : ∃ o t,
    (Pipeline.run ":root" (bareCollections ["500"]) ⟨"figma", none, []⟩ true true).result = .ok o ∧ o.ok = true ∧
      o.table? = some t ∧ index t.themeNames = (Index.ofThemes t.themeNames).text ∧
      ∀ K, ¬ (Index.ofThemes t.themeNames).WellFormed K t.themeNames := by
  have ran : (Pipeline.run ":root" (bareCollections ["500"]) ⟨"figma", none, []⟩ true
      true).result.toOption.any (fun o => o.ok && o.table?.any fun t => t.themeNames = ["500"]) = true := by
    decide +kernel
  obtain ⟨o, run, both⟩ := exists_ok_of_any ran
  obtain ⟨ok, names⟩ := Bool.and_eq_true_iff.mp both
  obtain ⟨t, table, named⟩ := (Option.any_eq_true _ _).mp names
  refine ⟨o, t, run, ok, table, index_eq _, fun K inOrder => ?_⟩
  rw [of_decide_eq_true named, wellFormed_ofThemes_iff (by simp)] at inOrder
  obtain ⟨c, rest, chars, first, _⟩ := inOrder.2 "500" (by simp)
  have five : (Naming.camelize "500").toList = ['5', '0', '0'] := by decide
  obtain ⟨rfl, rfl⟩ := List.cons.inj (five.symm.trans chars)
  rw [IdentifierClasses.opens_ascii (by decide)] at first
  revert first
  decide

end Scripts

end StyleTokens

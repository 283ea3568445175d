import StyleTokens.Proofs.ClosedBundles
import StyleTokens.Proofs.IndexedNames

namespace StyleTokens

namespace Theme

/-- The second name is the first with the label in front, and the first has no label. -/
def Labelled (a b : String) : Prop := b = label ++ a ∧ ¬ label.toList <+: a.toList

instance (a b : String) : Decidable (Labelled a b) := inferInstanceAs (Decidable (_ ∧ ¬ _))

theorem stripLabel_append (a : String) : stripLabel (label ++ a) = a := by
  have front : label.toList.isPrefixOf (label ++ a).toList = true := by simp
  rw [stripLabel, if_pos front]
  apply String.toList_inj.mp
  rw [String.toList_ofList, String.toList_append]
  exact List.drop_left

theorem stripLabel_of_bare {a : String} (h : ¬ label.toList <+: a.toList) : stripLabel a = a :=
  if_neg fun front => h (List.isPrefixOf_iff_prefix.mp front)

theorem exists_of_prefix {a : String} (h : label.toList <+: a.toList) : ∃ rest, a = label ++ rest := by
  obtain ⟨rest, whole⟩ := h
  exact ⟨String.ofList rest, String.toList_inj.mp (by simp [whole])⟩

/-- Names that are the same without the label are the same, or one is the other with the label. -/
theorem stripLabel_eq_iff {a b : String} : stripLabel a = stripLabel b ↔ a = b ∨ Labelled a b ∨ Labelled b a := by
  constructor
  · intro same
    by_cases ha : label.toList <+: a.toList <;> by_cases hb : label.toList <+: b.toList
    · obtain ⟨_, rfl⟩ := exists_of_prefix ha
      obtain ⟨_, rfl⟩ := exists_of_prefix hb
      rw [stripLabel_append, stripLabel_append] at same
      exact .inl (congrArg _ same)
    · obtain ⟨_, rfl⟩ := exists_of_prefix ha
      rw [stripLabel_append, stripLabel_of_bare hb] at same
      exact .inr (.inr ⟨congrArg _ same, hb⟩)
    · obtain ⟨_, rfl⟩ := exists_of_prefix hb
      rw [stripLabel_append, stripLabel_of_bare ha] at same
      exact .inr (.inl ⟨congrArg _ same.symm, ha⟩)
    · rw [stripLabel_of_bare ha, stripLabel_of_bare hb] at same
      exact .inl same
  · rintro (rfl | ⟨rfl, bare⟩ | ⟨rfl, bare⟩)
    · rfl
    · rw [stripLabel_append, stripLabel_of_bare bare]
    · rw [stripLabel_append, stripLabel_of_bare bare]

theorem not_labelled_self (a : String) : ¬ Labelled a a := by
  rintro ⟨whole, bare⟩
  refine bare ⟨a.toList, ?_⟩
  rw [← String.toList_append, ← whole]

/-- The class that the sheet of a theme is for. -/
def className (t : Theme) : String := "theme-" ++ t.cleanName

theorem className_eq_iff {t u : Theme} :
    t.className = u.className ↔ t.name = u.name ∨ Labelled t.name u.name ∨ Labelled u.name t.name := by
  rw [className, className, String.append_right_inj, cleanName, cleanName, stripLabel_eq_iff]

end Theme

namespace ThemeSheets

/-- A character of a name in a selector that stands for itself. -/
def isNameChar (c : Char) : Bool := c.isAlphanum || c == '-' || c == '_' || 128 ≤ c.toNat

/-- A character that a name can begin with. -/
def isNameStart (c : Char) : Bool := c.isAlpha || c == '_' || 128 ≤ c.toNat

/-- The characters are the name of a class as a selector writes it, without escapes. -/
def isClassName : List Char → Bool
  | '-' :: '-' :: rest => rest.all isNameChar
  | '-' :: c :: rest | c :: rest => isNameStart c && rest.all isNameChar
  | [] => false

/-- The selector of the elements that have all of the classes. -/
def compound (classes : List String) : String := String.join (classes.map fun c => "." ++ c)

/-- A selector and the declarations for what it selects. -/
structure Rule where
  selector : String
  declarations : List Declaration

def Rule.text (r : Rule) : String := s!"{r.selector} \x7b\n{blockText r.declarations}\n\x7d\n"

/-- A rule whose selector is a compound of classes applies to the elements that have them all. -/
def Rule.Applies (r : Rule) (element : List String) : Prop :=
  ∃ classes, classes ≠ [] ∧ (∀ c ∈ classes, isClassName c.toList = true) ∧ r.selector = compound classes ∧
    classes ⊆ element

namespace Sheet

def comment (s : Sheet) : String :=
  s!"/**\n * Tailwind CSS v4 Theme: {s.name}\n * Auto-generated from design tokens\n */\n\n"

def lightRule (s : Sheet) : Rule := ⟨".theme-" ++ s.name, s.light⟩

def darkRule (s : Sheet) : Rule := ⟨".theme-" ++ s.name ++ ".dark", s.dark⟩

theorem text_eq_rules (s : Sheet) : s.text = s.comment ++ s.lightRule.text ++ "\n" ++ s.darkRule.text := by
  have dark : ".dark \x7b\n" = ".dark" ++ " \x7b\n" := rfl
  have between : "\n\x7d\n\n.theme-" = "\n\x7d\n" ++ ("\n" ++ ".theme-") := rfl
  unfold Sheet.text comment Rule.text lightRule darkRule
  simp only [dark, between, toString, String.append_assoc]

end Sheet

theorem isNameChar_of_isNameStart {c : Char} (h : isNameStart c = true) : isNameChar c = true := by
  simp only [isNameStart, isNameChar, Char.isAlphanum, Bool.or_eq_true] at h ⊢
  tauto

theorem all_of_isClassName {cs : List Char} (h : isClassName cs = true) : ∀ c ∈ cs, isNameChar c = true := by
  have hyphen : isNameChar '-' = true := by decide
  unfold isClassName at h
  split at h
  next rest =>
    rw [List.all_eq_true] at h
    exact List.forall_mem_cons.mpr ⟨hyphen, List.forall_mem_cons.mpr ⟨hyphen, h⟩⟩
  next c rest _ =>
    rw [Bool.and_eq_true, List.all_eq_true] at h
    exact List.forall_mem_cons.mpr ⟨hyphen, List.forall_mem_cons.mpr ⟨isNameChar_of_isNameStart h.1, h.2⟩⟩
  next c rest _ _ =>
    rw [Bool.and_eq_true, List.all_eq_true] at h
    exact List.forall_mem_cons.mpr ⟨isNameChar_of_isNameStart h.1, h.2⟩
  next => cases h

theorem not_mem_of_isClassName {cs : List Char} (h : isClassName cs = true) : '.' ∉ cs := fun point =>
  absurd (all_of_isClassName h '.' point) (by decide)

theorem takeWhile_points {x : List Char} (h : '.' ∉ x) (xs : List (List Char)) :
    (x ++ xs.flatMap (List.cons '.')).takeWhile (· != '.') = x := by
  have kept : ∀ c ∈ x, (c != '.') = true := fun c hc => bne_iff_ne.mpr fun point => h (point ▸ hc)
  rw [List.takeWhile_append_of_pos kept]
  cases xs <;> simp

/-- Names without points can be told apart when each has a point in front. -/
theorem flatMap_points_inj {xs ys : List (List Char)} (hx : ∀ x ∈ xs, '.' ∉ x) (hy : ∀ y ∈ ys, '.' ∉ y)
    (h : xs.flatMap (List.cons '.') = ys.flatMap (List.cons '.')) : xs = ys := by
  induction xs generalizing ys with
  | nil =>
    cases ys with
    | nil => rfl
    | cons y ys => cases h
  | cons x xs ih =>
    cases ys with
    | nil => cases h
    | cons y ys =>
      obtain ⟨headX, restX⟩ := List.forall_mem_cons.mp hx
      obtain ⟨headY, restY⟩ := List.forall_mem_cons.mp hy
      have tails : x ++ xs.flatMap (List.cons '.') = y ++ ys.flatMap (List.cons '.') := (List.cons.inj h).2
      have same := congrArg (List.takeWhile (· != '.')) tails
      rw [takeWhile_points headX, takeWhile_points headY] at same
      rw [same, ih restX restY (List.append_cancel_left (same ▸ tails))]

theorem toList_compound (classes : List String) :
    (compound classes).toList = (classes.map String.toList).flatMap (List.cons '.') := by
  induction classes with
  | nil => rfl
  | cons c rest ih =>
    rw [compound, List.map_cons, String.join_cons, String.toList_append, String.toList_append, List.map_cons,
      List.flatMap_cons, ← ih]
    rfl

theorem compound_inj {classes others : List String} (hc : ∀ c ∈ classes, isClassName c.toList = true)
    (ho : ∀ c ∈ others, isClassName c.toList = true) (h : compound classes = compound others) : classes = others := by
  have chars := congrArg String.toList h
  rw [toList_compound, toList_compound] at chars
  have plain : ∀ {names : List String}, (∀ c ∈ names, isClassName c.toList = true) →
      ∀ x ∈ names.map String.toList, '.' ∉ x := by
    intro names all x hx
    obtain ⟨c, hc, rfl⟩ := List.mem_map.mp hx
    exact not_mem_of_isClassName (all c hc)
  have same := flatMap_points_inj (plain hc) (plain ho) chars
  exact List.map_injective_iff.mpr (fun _ _ => String.toList_inj.mp) same

theorem Rule.applies_iff {r : Rule} {classes element : List String} (filled : classes ≠ [])
    (named : ∀ c ∈ classes, isClassName c.toList = true) (selects : r.selector = compound classes) :
    r.Applies element ↔ classes ⊆ element := by
  constructor
  · rintro ⟨others, _, named', selects', inside⟩
    rwa [compound_inj named named' (selects.symm.trans selects')]
  · exact fun inside => ⟨classes, filled, named, selects, inside⟩

theorem isClassName_theme {name : String} (plain : ∀ c ∈ name.toList, isNameChar c = true) :
    isClassName ("theme-" ++ name).toList = true := by
  have rest : ("theme-" ++ name).toList = 't' :: ("heme-".toList ++ name.toList) := by
    rw [String.toList_append]
    rfl
  have begins : isNameStart 't' = true := by decide
  have front : "heme-".toList.all isNameChar = true := by decide
  rw [rest, isClassName, begins, Bool.true_and, List.all_append, front, Bool.true_and, List.all_eq_true]
  · exact plain
  · exact fun _ hyphen => absurd hyphen (by decide)
  · exact fun _ _ hyphen => absurd hyphen (by decide)

section Sheet

variable {s : Sheet} {element : List String} (plain : ∀ c ∈ s.name.toList, isNameChar c = true)
include plain

theorem applies_lightRule : s.lightRule.Applies element ↔ "theme-" ++ s.name ∈ element := by
  have selects : s.lightRule.selector = compound ["theme-" ++ s.name] := by
    have front : ".theme-" = "." ++ "theme-" := rfl
    simp only [Sheet.lightRule, compound, List.map_cons, List.map_nil, String.join_cons, String.join_nil, front,
      String.append_empty, String.append_assoc]
  rw [Rule.applies_iff (by simp) (List.forall_mem_singleton.mpr (isClassName_theme plain)) selects]
  simp

theorem applies_darkRule : s.darkRule.Applies element ↔ "theme-" ++ s.name ∈ element ∧ "dark" ∈ element := by
  have selects : s.darkRule.selector = compound ["theme-" ++ s.name, "dark"] := by
    have front : ".theme-" = "." ++ "theme-" := rfl
    have back : ".dark" = "." ++ "dark" := rfl
    simp only [Sheet.darkRule, compound, List.map_cons, List.map_nil, String.join_cons, String.join_nil, front, back,
      String.append_empty, String.append_assoc]
  have dark : isClassName "dark".toList = true := by decide
  have named : ∀ c ∈ ["theme-" ++ s.name, "dark"], isClassName c.toList = true :=
    List.forall_mem_cons.mpr ⟨isClassName_theme plain, List.forall_mem_singleton.mpr dark⟩
  rw [Rule.applies_iff (by simp) named selects]
  simp

end Sheet

/-- On an element of the class of one theme and of no other, the rules of this theme apply, the dark one if the
element is dark, and none of another theme. The rules are taken as the sheets lay them out: nothing is said of what
is read where the name or the value of a token breaks out of its declaration. -/
def Scoped (t : Table) : Prop :=
  ∀ theme ∈ t.themes.items, ∀ element : List String, theme.className ∈ element →
    (∀ other ∈ t.themes.items, other.className ∈ element → other.className = theme.className) →
    ∀ other ∈ t.themes.items, ∀ s, Sheet.ofTheme other = .ok s →
      (s.lightRule.Applies element ↔ other = theme) ∧ (s.darkRule.Applies element ↔ other = theme ∧ "dark" ∈ element)

/-- The app sheet takes in the sheet of every theme, and each consists of a rule for the class of the theme and one
for where that is dark. -/
structure Themed (t : Table) (artifacts : List Artifact) (app : AppSheet) : Prop where
  made : AppSheet.ofTable t = .ok app
  written : ⟨s!"{directory}/app.css", app.text⟩ ∈ artifacts
  imports : app.imports = t.themes.items.map fun theme => "./" ++ filename theme.name
  sheets : ∀ theme ∈ t.themes.items, ∃ s, Sheet.ofTheme theme = .ok s ∧
    ⟨s!"{directory}/{filename theme.name}", s.comment ++ s.lightRule.text ++ "\n" ++ s.darkRule.text⟩ ∈ artifacts ∧
    s.lightRule.selector = "." ++ theme.className ∧ s.darkRule.selector = "." ++ theme.className ++ ".dark"

theorem name_of_ofTheme {theme : Theme} {s : Sheet} (h : Sheet.ofTheme theme = .ok s) : s.name = theme.cleanName := by
  obtain ⟨_, _, h⟩ := except_bind_ok_iff.mp h
  obtain ⟨_, _, h⟩ := except_bind_ok_iff.mp h
  cases h
  rfl

theorem selectors_of_ofTheme {theme : Theme} {s : Sheet} (h : Sheet.ofTheme theme = .ok s) :
    s.lightRule.selector = "." ++ theme.className ∧ s.darkRule.selector = "." ++ theme.className ++ ".dark" := by
  have front : ".theme-" = "." ++ "theme-" := rfl
  simp only [Sheet.lightRule, Sheet.darkRule, name_of_ofTheme h, Theme.className, front, String.append_assoc,
    and_self]

theorem exists_themed {t : Table} {sheets : List Artifact} (h : artifacts t = .ok sheets) :
    ∃ app, Themed t sheets app := by
  obtain ⟨app, made, written⟩ := exists_appSheet_of_artifacts h
  refine ⟨app, made, written, ?_, ?_⟩
  · obtain ⟨pairs, _, rfl⟩ := except_map_ok_iff.mp made
    exact List.map_map
  · intro theme ht
    obtain ⟨s, hs, there⟩ := exists_sheet_of_artifacts h ht
    exact ⟨s, hs, Sheet.text_eq_rules s ▸ there, selectors_of_ofTheme hs⟩

theorem Themed.mono {t : Table} {sheets artifacts : List Artifact} {app : AppSheet} (h : Themed t sheets app)
    (inside : sheets ⊆ artifacts) : Themed t artifacts app := by
  refine ⟨h.made, inside h.written, h.imports, ?_⟩
  intro theme ht
  obtain ⟨s, hs, there, selectors⟩ := h.sheets theme ht
  exact ⟨s, hs, inside there, selectors⟩

section Scoped

variable {t : Table}

theorem map_className (t : Table) :
    t.themes.items.map Theme.className = t.themeNames.map fun n => "theme-" ++ Theme.stripLabel n := by
  rw [Table.themeNames, Roster.names, List.map_map]
  rfl

/-- Themes have classes of their own unless one is named like another with the label. -/
theorem inj_on_className_iff :
    (∀ theme ∈ t.themes.items, ∀ other ∈ t.themes.items, theme.className = other.className → theme = other) ↔
      ∀ a ∈ t.themeNames, ∀ b ∈ t.themeNames, ¬ Theme.Labelled a b := by
  constructor
  · intro apart a ha b hb labelled
    obtain ⟨theme, ht, rfl⟩ := List.mem_map.mp ha
    obtain ⟨other, ho, rfl⟩ := List.mem_map.mp hb
    obtain rfl := apart theme ht other ho (Theme.className_eq_iff.mpr (.inr (.inl labelled)))
    exact Theme.not_labelled_self _ labelled
  · intro apart theme ht other ho same
    have ha : theme.name ∈ t.themeNames := List.mem_map_of_mem ht
    have hb : other.name ∈ t.themeNames := List.mem_map_of_mem ho
    rcases Theme.className_eq_iff.mp same with named | labelled | labelled
    · exact Roster.eq_of_name ht ho named
    · exact absurd labelled (apart _ ha _ hb)
    · exact absurd labelled (apart _ hb _ ha)

theorem scoped_iff (complete : ∀ theme ∈ t.themes.items, ∃ s, Sheet.ofTheme theme = .ok s)
    (plain : ∀ theme ∈ t.themes.items, ∀ c ∈ theme.cleanName.toList, isNameChar c = true) :
    Scoped t ↔
      ∀ theme ∈ t.themes.items, ∀ other ∈ t.themes.items, theme.className = other.className → theme = other := by
  have light : ∀ theme ∈ t.themes.items, ∀ s, Sheet.ofTheme theme = .ok s → ∀ element,
      s.lightRule.Applies element ↔ theme.className ∈ element := by
    intro theme ht s hs element
    have named := name_of_ofTheme hs
    rw [applies_lightRule (named ▸ plain theme ht), named]
    rfl
  have dark : ∀ theme ∈ t.themes.items, ∀ s, Sheet.ofTheme theme = .ok s → ∀ element,
      s.darkRule.Applies element ↔ theme.className ∈ element ∧ "dark" ∈ element := by
    intro theme ht s hs element
    have named := name_of_ofTheme hs
    rw [applies_darkRule (named ▸ plain theme ht), named]
    rfl
  constructor
  · intro alone theme ht other ho same
    -- On an element with nothing but the shared class, the rules of both themes apply.
    obtain ⟨s, hs⟩ := complete theme ht
    refine (alone other ho [other.className] (List.mem_singleton_self _) (fun _ _ => List.mem_singleton.mp) theme ht s
      hs).1.mp ?_
    exact (light theme ht s hs _).mpr (by simp [same])
  · intro apart theme ht element own others other ho s hs
    have only : other.className ∈ element ↔ other = theme :=
      ⟨fun inside => apart other ho theme ht (others other ho inside), fun same => same ▸ own⟩
    rw [light other ho s hs, dark other ho s hs, only]
    exact ⟨Iff.rfl, Iff.rfl⟩

/-- If the sheet of one theme selects elements of another, then the two do not have elements for themselves. -/
theorem not_scoped_of_names (complete : ∀ theme ∈ t.themes.items, ∃ s, Sheet.ofTheme theme = .ok s) {a b : String}
    (ha : a ∈ t.themeNames) (hb : b ∈ t.themeNames) (differ : b ≠ a) {classes : List String}
    (named : ∀ c ∈ classes, isClassName c.toList = true)
    (selects : ".theme-" ++ Theme.stripLabel b = compound classes) (own : "theme-" ++ Theme.stripLabel a ∈ classes)
    (alone : ∀ c ∈ t.themeNames, "theme-" ++ Theme.stripLabel c ∈ classes →
      "theme-" ++ Theme.stripLabel c = "theme-" ++ Theme.stripLabel a) : ¬ Scoped t := by
  obtain ⟨theme, ht, rfl⟩ := List.mem_map.mp ha
  obtain ⟨other, ho, rfl⟩ := List.mem_map.mp hb
  obtain ⟨s, hs⟩ := complete other ho
  have applies : s.lightRule.Applies classes :=
    ⟨classes, List.ne_nil_of_mem own, named, by rw [Sheet.lightRule, name_of_ofTheme hs]; exact selects, fun _ => id⟩
  intro all
  have same := (all theme ht classes own (fun third h => alone third.name (List.mem_map_of_mem h)) other ho s hs).1
  exact differ (congrArg Theme.name (same.mp applies))

end Scoped

theorem exists_themed_of_run {selector : String} {d : Doc} {request : Request} {log : Bool} {o : Outcome}
    (run : (Pipeline.run selector d request true log).result = .ok o) (ok : o.ok = true) :
    ∃ t app, o.table? = some t ∧ Themed t o.artifacts app := by
  obtain ⟨_, t, _, table, -, generated⟩ := Pipeline.built_of_run run ok
  obtain ⟨sheets, made, whole⟩ := Bundle.exists_sheets_of_all (generated rfl)
  obtain ⟨app, themed⟩ := exists_themed made
  have inside : sheets ⊆ o.artifacts := by
    rw [whole]
    intro a ha
    simp [ha]
  exact ⟨t, app, table, themed.mono inside⟩

theorem Themed.complete {t : Table} {artifacts : List Artifact} {app : AppSheet} (h : Themed t artifacts app) :
    ∀ theme ∈ t.themes.items, ∃ s, Sheet.ofTheme theme = .ok s := by
  intro theme ht
  obtain ⟨s, hs, _⟩ := h.sheets theme ht
  exact ⟨s, hs⟩

/-- The sheets of two themes of a successful run are for different classes, unless one theme is named like the
other with the label. Where no theme is, and the names are plain, each theme has the elements of its class for
itself. -/
theorem classes_distinct_iff {selector : String} {d : Doc} {request : Request} {log : Bool} {o : Outcome}
    (run : (Pipeline.run selector d request true log).result = .ok o) (ok : o.ok = true) :
    ∃ t app, o.table? = some t ∧ Themed t o.artifacts app ∧
      (∀ theme ∈ t.themes.items, ∀ other ∈ t.themes.items, theme ≠ other →
        (theme.className = other.className ↔
          Theme.Labelled theme.name other.name ∨ Theme.Labelled other.name theme.name)) ∧
      ((∀ theme ∈ t.themes.items, ∀ c ∈ theme.cleanName.toList, isNameChar c = true) →
        (Scoped t ↔ ∀ a ∈ t.themeNames, ∀ b ∈ t.themeNames, ¬ Theme.Labelled a b)) := by
  obtain ⟨t, app, table, themed⟩ := exists_themed_of_run run ok
  refine ⟨t, app, table, themed, ?_, ?_⟩
  · intro theme ht other ho differ
    have named : theme.name ≠ other.name := fun same =>
      differ (Roster.eq_of_name ht ho same)
    rw [Theme.className_eq_iff, or_iff_right named]
  · intro plain
    rw [scoped_iff themed.complete plain, inj_on_className_iff]

theorem exists_run_of_names (names : List String)
    (h : (Pipeline.run ":root" (Scripts.bareCollections names) ⟨"figma", none, []⟩ true true).result.toOption.any
      (fun o => o.ok && o.table?.any fun t => t.themeNames = names) = true) :
    ∃ o t, (Pipeline.run ":root" (Scripts.bareCollections names) ⟨"figma", none, []⟩ true true).result = .ok o ∧
      o.ok = true ∧ o.table? = some t ∧ t.themeNames = names := by
  obtain ⟨o, run, both⟩ := exists_ok_of_any h
  obtain ⟨ok, table⟩ := Bool.and_eq_true_iff.mp both
  obtain ⟨t, table, named⟩ := (Option.any_eq_true _ _).mp table
  exact ⟨o, t, run, ok, table, of_decide_eq_true named⟩

theorem scoped_brands : ∃ o t app,
    (Pipeline.run ":root" (Scripts.bareCollections ["brand", "theme-other"]) ⟨"figma", none, []⟩ true true).result =
      .ok o ∧ o.ok = true ∧ o.table? = some t ∧ Themed t o.artifacts app ∧
    (t.themes.items.map Theme.className).Nodup ∧ Scoped t := by
  obtain ⟨o, t, run, ok, table, named⟩ := exists_run_of_names ["brand", "theme-other"] (by decide +kernel)
  obtain ⟨t', app, table', themed, _, own⟩ := classes_distinct_iff run ok
  obtain rfl : t = t' := Option.some.inj (table.symm.trans table')
  refine ⟨o, t, app, run, ok, table, themed, ?_, (own ?_).mpr ?_⟩
  · rw [map_className, named]
    decide +kernel
  · have plain : ∀ n ∈ t.themeNames, (Theme.stripLabel n).toList.all isNameChar = true := by
      rw [named]
      decide +kernel
    exact fun theme ht => List.all_eq_true.mp (plain theme.name (List.mem_map_of_mem ht))
  · rw [named]
    decide +kernel

/-- A run over collections of which one selects elements of another. -/
theorem exists_unscoped_run (names : List String) (a b : String) (classes : List String)
    (h : (Pipeline.run ":root" (Scripts.bareCollections names) ⟨"figma", none, []⟩ true true).result.toOption.any
      (fun o => o.ok && o.table?.any fun t => t.themeNames = names) = true)
    (ha : a ∈ names) (hb : b ∈ names) (differ : b ≠ a) (named : ∀ c ∈ classes, isClassName c.toList = true)
    (selects : ".theme-" ++ Theme.stripLabel b = compound classes) (own : "theme-" ++ Theme.stripLabel a ∈ classes)
    (alone : ∀ c ∈ names, "theme-" ++ Theme.stripLabel c ∈ classes →
      "theme-" ++ Theme.stripLabel c = "theme-" ++ Theme.stripLabel a) :
    ∃ o t, (Pipeline.run ":root" (Scripts.bareCollections names) ⟨"figma", none, []⟩ true true).result = .ok o ∧
      o.ok = true ∧ o.table? = some t ∧
      t.themes.items.map Theme.className = names.map (fun n => "theme-" ++ Theme.stripLabel n) ∧ ¬ Scoped t := by
  obtain ⟨o, t, run, ok, table, rfl⟩ := exists_run_of_names names h
  obtain ⟨t', app, table', themed⟩ := exists_themed_of_run run ok
  obtain rfl : t = t' := Option.some.inj (table.symm.trans table')
  exact ⟨o, t, run, ok, table, map_className t,
    not_scoped_of_names themed.complete ha hb differ named selects own alone⟩

/-- Two themes of a run share a class if one is named like the other with the label, and a theme selects elements
of another if it is named like the dark class of that. -/
theorem unscoped_collections :
    (∃ o t, (Pipeline.run ":root" (Scripts.bareCollections ["a", "theme-a"]) ⟨"figma", none, []⟩ true true).result =
        .ok o ∧ o.ok = true ∧ o.table? = some t ∧ ¬ (t.themes.items.map Theme.className).Nodup ∧ ¬ Scoped t) ∧
      ∃ o t, (Pipeline.run ":root" (Scripts.bareCollections ["a", "a.dark"]) ⟨"figma", none, []⟩ true true).result =
        .ok o ∧ o.ok = true ∧ o.table? = some t ∧ (t.themes.items.map Theme.className).Nodup ∧ ¬ Scoped t := by
  constructor
  · obtain ⟨o, t, run, ok, table, classes, shared⟩ := exists_unscoped_run ["a", "theme-a"] "a" "theme-a" ["theme-a"]
      (by decide +kernel) (by decide) (by decide) (by decide) (by decide) (by decide) (by decide) (by decide)
    exact ⟨o, t, run, ok, table, by rw [classes]; decide +kernel, shared⟩
  · obtain ⟨o, t, run, ok, table, classes, shared⟩ := exists_unscoped_run ["a", "a.dark"] "a" "a.dark"
      ["theme-a", "dark"] (by decide +kernel) (by decide) (by decide) (by decide) (by decide) (by decide) (by decide)
      (by decide)
    exact ⟨o, t, run, ok, table, by rw [classes]; decide +kernel, shared⟩

end ThemeSheets

end StyleTokens

import StyleTokens.Proofs.ClosedBundles
import StyleTokens.Proofs.LosslessCollections

namespace StyleTokens

/-- The light mode of the first theme. -/
def Table.firstLight? (t : Table) : Option Mode := t.first?.bind fun theme => theme.mode? lightMode

namespace Collections

/-- The content of the last collection of a name. -/
def LastNamed (d : Doc) (name : String) (content : Doc) : Prop :=
  ∃ before rest after, d = .list (before ++ .mapping ((.text name, content) :: rest) :: after) ∧
    ∀ item ∈ after, ¬ NamedBy item name

theorem survives_of_lastNamed {items : List Doc} {records : ThemeRecords} (kept : List.Forall₂ KeptFrom items records)
    {name : String} {content : Doc} (last : LastNamed (.list items) name content) :
    Survives Prod.fst records (.text name, keepCollection (.text name) content) := by
  obtain ⟨before, rest, after, he, others⟩ := last
  cases he
  have tail := List.forall₂_drop_append records before _ kept.flip
  obtain ⟨⟨key, held⟩, later, ⟨_, _, he, hr⟩, hlater, dropped⟩ := List.forall₂_cons_right_iff.mp tail
  cases he
  obtain rfl : held = keepCollection (.text name) content := hr
  refine ⟨records.take before.length, later, by rw [← dropped, List.take_append_drop], ?_⟩
  intro r' hr'
  obtain ⟨item, hi, content', rest', he, _⟩ := exists_of_forall₂_left hlater hr'
  refine Bool.eq_false_iff.mpr fun same => others item hi ⟨content', rest', ?_⟩
  rw [he, Scalar.eq_text_of_beq same]

/-- The theme of a name is made of the last collection of that name, whatever the others are. -/
theorem theme_of_lastNamed {d : Doc} {theme : Option String} {modes : List String} {records : ThemeRecords} {t : Table}
    (builds : Pipeline.Builds d ⟨"figma", theme, modes⟩ records t) {name : String} {content : Doc}
    (last : LastNamed d name content) :
    ∃ th, t.themes.get? name = some th ∧
      Theme.ofDoc (.text name) (keepCollection (.text name) content).modesIn = .ok th := by
  have normal := assemble_ok_iff.mp builds.assembled
  have shapes := (ThemeRecords.isValid_iff.mp builds.valid).2
  have made := builds.made
  rw [Table.ofRecords_of_shapes shapes, except_mapError_ok_iff,
    Table.ofEntries_ok_iff (Ordered.distinct_ofList _)] at made
  cases d with
  | list items =>
    have survives := survives_of_lastNamed (keepItems_ok_iff.mp normal) last
    obtain ⟨key, entry, same⟩ : ∃ key, (key, (keepCollection (.text name) content).modesIn) ∈
        Ordered.ofList (records.map fun r => (r.1, r.2.modesIn)) ∧ (key == .text name) = true :=
      Ordered.exists_mem_ofList_of_survives survives
    obtain rfl : key = .text name := Scalar.eq_text_of_beq same
    obtain ⟨th, hth, ho⟩ := exists_of_forall₂_left made entry
    obtain rfl : name = th.name := Scalar.text.inj (Theme.name_of_ofDoc ho)
    exact ⟨th, Roster.get?_of_mem hth, ho⟩
  | _ => cases normal

end Collections

namespace Bundle

/-- The sheets of the modes of a theme. -/
def settingsOf (selector : String) (theme : Theme) : List Artifact :=
  theme.modes.items.map fun m => ⟨Variables.path theme.name m.name, Variables.sheet selector m⟩

/-- The modules of the modes of a theme, with their declarations. -/
def scriptsOf (theme : Theme) : List Artifact :=
  theme.modes.items.flatMap fun m =>
    [⟨Scripts.modulePath theme.name m.name, Scripts.tokenModule m⟩,
      ⟨Scripts.declarationPath theme.name m.name, Scripts.tokenDeclarations m⟩]

/-- The file of the sheet of a theme. -/
def sheetOf (theme : Theme) : Except Fault Artifact := do
  .ok ⟨s!"{ThemeSheets.directory}/{ThemeSheets.filename theme.name}", ← ThemeSheets.sheet theme⟩

/-- The files that are made of one theme. -/
structure ThemePart where
  settings : List Artifact
  sheet : Artifact
  scripts : List Artifact

def ThemePart.ofTheme (selector : String) (theme : Theme) : Except Fault ThemePart :=
  (sheetOf theme).map fun sheet => ⟨settingsOf selector theme, sheet, scriptsOf theme⟩

/-- The files of a bundle by what they are made of: those of each theme stand under its name. -/
structure Contents where
  table : Artifact
  themes : List (String × ThemePart)
  app : Artifact
  index : Artifact
  declarations : Artifact

namespace Contents

def ofTable (selector : String) (t : Table) : Except Fault Contents := do
  let themes ← t.themes.items.mapM fun theme => (ThemePart.ofTheme selector theme).map (Prod.mk theme.name)
  let app ← ThemeSheets.appSheet t
  .ok {
    table := tableArtifact tableFilename t
    themes := themes
    app := ⟨s!"{ThemeSheets.directory}/app.css", app⟩
    index := ⟨Scripts.indexPath, Scripts.index t.themeNames⟩
    declarations := ⟨Scripts.indexDeclarationPath, Scripts.indexDeclarations t.themeNames⟩ }

/-- The files in the order in which they are written. -/
def artifacts (c : Contents) : List Artifact :=
  c.table :: (c.themes.flatMap (fun p => p.2.settings) ++ (c.themes.map (fun p => p.2.sheet) ++ [c.app]) ++
    (c.themes.flatMap (fun p => p.2.scripts) ++ [c.index, c.declarations]))

end Contents

section Contents

variable {selector : String} {t : Table}

theorem settings_eq : Variables.artifacts selector t = t.themes.items.flatMap (settingsOf selector) := by
  simp only [Variables.artifacts, Table.modes, List.map_flatMap, List.map_map]
  rfl

theorem scripts_eq : Scripts.artifacts t = t.themes.items.flatMap scriptsOf ++
    [⟨Scripts.indexPath, Scripts.index t.themeNames⟩,
      ⟨Scripts.indexDeclarationPath, Scripts.indexDeclarations t.themeNames⟩] := by
  simp only [Scripts.artifacts, Table.modes, List.flatMap_assoc, List.flatMap_map]
  rfl

/-- Themes whose sheets can be written make the parts of a bundle. -/
theorem exists_parts (selector : String) {themes : List Theme} {sheets : List Artifact}
    (h : List.Forall₂ (fun theme a => sheetOf theme = .ok a) themes sheets) :
    ∃ parts, List.Forall₂ (fun theme p => (ThemePart.ofTheme selector theme).map (Prod.mk theme.name) = .ok p)
        themes parts ∧
      parts.flatMap (fun p => p.2.settings) = themes.flatMap (settingsOf selector) ∧
      parts.map (fun p => p.2.sheet) = sheets ∧
      parts.flatMap (fun p => p.2.scripts) = themes.flatMap scriptsOf := by
  induction h with
  | nil => exact ⟨[], .nil, rfl, rfl, rfl⟩
  | @cons theme sheet themes sheets written _ ih =>
    obtain ⟨parts, all, settings, made, scripts⟩ := ih
    have part : ThemePart.ofTheme selector theme = .ok ⟨settingsOf selector theme, sheet, scriptsOf theme⟩ :=
      except_map_ok_iff.mpr ⟨sheet, written, rfl⟩
    refine ⟨_, .cons (except_map_ok_iff.mpr ⟨_, part, rfl⟩) all, ?_, ?_, ?_⟩
    · rw [List.flatMap_cons, List.flatMap_cons, settings]
    · rw [List.map_cons, made]
    · rw [List.flatMap_cons, List.flatMap_cons, scripts]

/-- What is generated from a table are the files of its contents. -/
theorem contents_of_all {artifacts : List Artifact} (h : (all selector t).result = .ok artifacts) :
    ∃ c, Contents.ofTable selector t = .ok c ∧ c.artifacts = artifacts := by
  obtain ⟨sheets, made, rfl⟩ := exists_sheets_of_all h
  obtain ⟨written, hw, made⟩ := except_bind_ok_iff.mp made
  obtain ⟨app, happ, made⟩ := except_bind_ok_iff.mp made
  cases made
  obtain ⟨parts, all, settings, sheets, scripts⟩ := exists_parts selector (mapM_ok_iff.mp hw)
  refine ⟨_, except_bind_ok_iff.mpr ⟨parts, mapM_ok_iff.mpr all, except_bind_ok_iff.mpr ⟨app, happ, rfl⟩⟩, ?_⟩
  simp only [Contents.artifacts, settings, sheets, scripts, settings_eq, scripts_eq]

theorem lookup_parts {themes : List Theme} {parts : List (String × ThemePart)}
    (h : List.Forall₂ (fun theme p => (ThemePart.ofTheme selector theme).map (Prod.mk theme.name) = .ok p) themes parts)
    {name : String} {theme : Theme} (found : themes.find? (fun th => th.name == name) = some theme) :
    ∃ part, ThemePart.ofTheme selector theme = .ok part ∧ parts.lookup name = some part := by
  induction h with
  | nil => cases found
  | @cons first p themes parts made _ ih =>
    obtain ⟨part, hpart, rfl⟩ := except_map_ok_iff.mp made
    by_cases same : first.name = name
    · rw [List.find?_cons_of_pos (by simpa using same)] at found
      cases found
      exact ⟨part, hpart, by simp [← same]⟩
    · rw [List.find?_cons_of_neg (by simpa using same)] at found
      have apart : (name == first.name) = false := beq_eq_false_iff_ne.mpr (Ne.symm same)
      simpa [List.lookup_cons, apart] using ih found

/-- The part of a theme in a bundle is made of the theme alone. -/
theorem exists_part {c : Contents} (h : Contents.ofTable selector t = .ok c) {name : String} {theme : Theme}
    (found : t.themes.get? name = some theme) :
    ∃ part, ThemePart.ofTheme selector theme = .ok part ∧ c.themes.lookup name = some part := by
  obtain ⟨parts, made, h⟩ := except_bind_ok_iff.mp h
  obtain ⟨app, _, h⟩ := except_bind_ok_iff.mp h
  cases h
  exact lookup_parts (mapM_ok_iff.mp made) found

theorem utilities_congr {t' : Table} (names : t.themeNames = t'.themeNames)
    (day : t.firstLight? = t'.firstLight?) :
    ThemeSheets.utilities t = ThemeSheets.utilities t' := by
  have heads : t.first?.map Theme.name = t'.first?.map Theme.name := by
    rw [Table.first?, Table.first?, ← List.head?_map, ← List.head?_map]
    exact congrArg List.head? names
  unfold ThemeSheets.utilities
  cases first : t.first? with
  | none =>
    cases first' : t'.first? with
    | none => rfl
    | some theme' => simp [first, first'] at heads
  | some theme =>
    cases first' : t'.first? with
    | none => simp [first, first'] at heads
    | some theme' =>
      have named : theme.name = theme'.name := by simpa [first, first'] using heads
      have same : theme.mode? lightMode = theme'.mode? lightMode := by
        simpa [Table.firstLight?, first, first'] using day
      simp only [Theme.getMode, same, named]

theorem app_congr {t' : Table} {c c' : Contents} (h : Contents.ofTable selector t = .ok c)
    (h' : Contents.ofTable selector t' = .ok c') (names : t.themeNames = t'.themeNames)
    (day : t.firstLight? = t'.firstLight?) :
    c.app = c'.app := by
  obtain ⟨_, _, h⟩ := except_bind_ok_iff.mp h
  obtain ⟨app, written, h⟩ := except_bind_ok_iff.mp h
  obtain ⟨_, _, h'⟩ := except_bind_ok_iff.mp h'
  obtain ⟨app', written', h'⟩ := except_bind_ok_iff.mp h'
  cases h
  cases h'
  have same : ThemeSheets.appSheet t = ThemeSheets.appSheet t' := by
    rw [ThemeSheets.appSheet, ThemeSheets.appSheet, utilities_congr names day, names]
  cases written.symm.trans (same.trans written')
  rfl

theorem index_congr {t' : Table} {c c' : Contents} (h : Contents.ofTable selector t = .ok c)
    (h' : Contents.ofTable selector t' = .ok c') (names : t.themeNames = t'.themeNames) :
    c.index = c'.index ∧ c.declarations = c'.declarations := by
  obtain ⟨_, _, h⟩ := except_bind_ok_iff.mp h
  obtain ⟨_, _, h⟩ := except_bind_ok_iff.mp h
  obtain ⟨_, _, h'⟩ := except_bind_ok_iff.mp h'
  obtain ⟨_, _, h'⟩ := except_bind_ok_iff.mp h'
  cases h
  cases h'
  rw [names]
  exact ⟨rfl, rfl⟩

end Contents

/-- A run has a table, and the files of its contents. -/
structure Generated (selector : String) (o : Outcome) (t : Table) (c : Contents) : Prop where
  table : o.table? = some t
  contents : Contents.ofTable selector t = .ok c
  artifacts : c.artifacts = o.artifacts

theorem exists_generated {selector : String} {d : Doc} {request : Request} {log : Bool} {o : Outcome}
    (run : (Pipeline.run selector d request true log).result = .ok o) (ok : o.ok = true) :
    ∃ records t c, Pipeline.Builds d request records t ∧ Generated selector o t c := by
  obtain ⟨records, t, builds, table, -, generated⟩ := Pipeline.built_of_run run ok
  obtain ⟨c, made, same⟩ := contents_of_all (generated rfl)
  exact ⟨records, t, c, builds, table, made, same⟩

/-- Two runs over collections make the same files for a theme whose last collection is the same in both. The index
is the same if the names of the themes are, and so is the sheet that takes in all theme sheets if the light mode of
the first theme is the same as well. -/
theorem themes_independent {selector : String} {d d' : Doc} {theme theme' : Option String} {modes modes' : List String}
    {log log' : Bool} {o o' : Outcome}
    (run : (Pipeline.run selector d ⟨"figma", theme, modes⟩ true log).result = .ok o) (ok : o.ok = true)
    (run' : (Pipeline.run selector d' ⟨"figma", theme', modes'⟩ true log').result = .ok o') (ok' : o'.ok = true) :
    ∃ t t' c c', Generated selector o t c ∧ Generated selector o' t' c' ∧
      (∀ name content, Collections.LastNamed d name content → Collections.LastNamed d' name content →
        ∃ part, c.themes.lookup name = some part ∧ c'.themes.lookup name = some part) ∧
      (t.themeNames = t'.themeNames → c.index = c'.index ∧ c.declarations = c'.declarations ∧
        (t.firstLight? = t'.firstLight? → c.app = c'.app)) := by
  obtain ⟨records, t, c, builds, generated⟩ := exists_generated run ok
  obtain ⟨records', t', c', builds', generated'⟩ := exists_generated run' ok'
  refine ⟨t, t', c, c', generated, generated', ?_, ?_⟩
  · intro name content last last'
    obtain ⟨th, found, made⟩ := Collections.theme_of_lastNamed builds last
    obtain ⟨th', found', made'⟩ := Collections.theme_of_lastNamed builds' last'
    cases made.symm.trans made'
    obtain ⟨part, hpart, here⟩ := exists_part generated.contents found
    obtain ⟨part', hpart', there⟩ := exists_part generated'.contents found'
    cases hpart.symm.trans hpart'
    exact ⟨part, here, there⟩
  · intro names
    obtain ⟨index, declarations⟩ := index_congr generated.contents generated'.contents names
    exact ⟨index, declarations, app_congr generated.contents generated'.contents names⟩

/-- Modes with one token, a color. -/
def inkedContent (light dark : String) : Doc :=
  let ink (value : String) : Doc := .object [("ink", .object [("$type", .text "color"), ("$value", .text value)])]
  .object [("modes", .object [("light", ink light), ("dark", ink dark)])]

def brandFirst : Doc :=
  .list [.object [("brand", inkedContent "#000" "#fff")], .object [("other", Collections.bareContent)]]

/-- The collection of the other export comes last, and an earlier one has its name. -/
def brandLast : Doc :=
  .list [.object [("brand", Collections.bareContent)], .object [("other", inkedContent "#111" "#eee")],
    .object [("brand", inkedContent "#000" "#fff")]]

theorem lastNamed_brandFirst : Collections.LastNamed brandFirst "brand" (inkedContent "#000" "#fff") := by
  refine ⟨[], [], [.object [("other", Collections.bareContent)]], rfl, ?_⟩
  rintro item hi ⟨content, rest, he⟩
  rw [List.mem_singleton.mp hi] at he
  simp [Doc.object] at he

theorem lastNamed_brandLast : Collections.LastNamed brandLast "brand" (inkedContent "#000" "#fff") :=
  ⟨[.object [("brand", Collections.bareContent)], .object [("other", inkedContent "#111" "#eee")]], [], [], rfl,
    fun _ hi => absurd hi List.not_mem_nil⟩

theorem themes_independent_brand : ∃ o o' t t' c c',
    (Pipeline.run ":root" brandFirst ⟨"figma", none, []⟩ true true).result = .ok o ∧ o.ok = true ∧
      (Pipeline.run ":root" brandLast ⟨"figma", none, []⟩ true true).result = .ok o' ∧ o'.ok = true ∧
      Generated ":root" o t c ∧ Generated ":root" o' t' c' ∧
      (∃ part, c.themes.lookup "brand" = some part ∧ c'.themes.lookup "brand" = some part) ∧
      c.index = c'.index ∧ c.declarations = c'.declarations ∧ c.app = c'.app := by
  have ran : (Pipeline.run ":root" brandFirst ⟨"figma", none, []⟩ true true).result.toOption.any
      (fun o => o.ok && (Pipeline.run ":root" brandLast ⟨"figma", none, []⟩ true true).result.toOption.any
        fun o' => o'.ok && o.table?.any fun t => o'.table?.any fun t' =>
          t.themeNames = t'.themeNames && t.firstLight? = t'.firstLight?) = true := by decide +kernel
  obtain ⟨o, run, ran⟩ := exists_ok_of_any ran
  obtain ⟨ok, ran⟩ := Bool.and_eq_true_iff.mp ran
  obtain ⟨o', run', ran⟩ := exists_ok_of_any ran
  obtain ⟨ok', ran⟩ := Bool.and_eq_true_iff.mp ran
  obtain ⟨t, t', c, c', generated, generated', themes, index⟩ := themes_independent run ok run' ok'
  rw [generated.table, generated'.table, Option.any_some, Option.any_some] at ran
  obtain ⟨names, day⟩ := Bool.and_eq_true_iff.mp ran
  obtain ⟨index, declarations, app⟩ := index (of_decide_eq_true names)
  exact ⟨o, o', t, t', c, c', run, ok, run', ok', generated, generated',
    themes "brand" _ lastNamed_brandFirst lastNamed_brandLast, index, declarations, app (of_decide_eq_true day)⟩

end Bundle

end StyleTokens

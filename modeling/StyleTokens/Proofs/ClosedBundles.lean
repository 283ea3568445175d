import StyleTokens.Proofs.BundlePaths
import StyleTokens.Proofs.GeneratedTexts
import StyleTokens.Proofs.MappedUtilities

namespace StyleTokens

namespace ThemeSheets

variable {t : Table} {sheets : List Artifact}

theorem light_of_ofTheme {theme : Theme} {s : Sheet} {light : Mode} (h : Sheet.ofTheme theme = .ok s)
    (hl : theme.getMode lightMode = .ok light) : s.light = light.declarations := by
  obtain ⟨light', hl', h⟩ := except_bind_ok_iff.mp h
  obtain ⟨dark, _, h⟩ := except_bind_ok_iff.mp h
  cases hl.symm.trans hl'
  cases h
  rfl

theorem exists_sheet_of_artifacts (h : artifacts t = .ok sheets) {theme : Theme} (ht : theme ∈ t.themes.items) :
    ∃ s, Sheet.ofTheme theme = .ok s ∧ ⟨s!"{directory}/{filename theme.name}", s.text⟩ ∈ sheets := by
  obtain ⟨made, hm, h⟩ := except_bind_ok_iff.mp h
  obtain ⟨app, _, h⟩ := except_bind_ok_iff.mp h
  cases h
  obtain ⟨a, ha, made⟩ := exists_of_forall₂_left (mapM_ok_iff.mp hm) ht
  obtain ⟨text, written, made⟩ := except_bind_ok_iff.mp made
  cases made
  rw [sheet_eq] at written
  obtain ⟨s, hs, rfl⟩ := except_map_ok_iff.mp written
  exact ⟨s, hs, List.mem_append_left _ ha⟩

theorem exists_appSheet_of_artifacts (h : artifacts t = .ok sheets) :
    ∃ s, AppSheet.ofTable t = .ok s ∧ ⟨s!"{directory}/app.css", s.text⟩ ∈ sheets := by
  obtain ⟨made, hm, h⟩ := except_bind_ok_iff.mp h
  obtain ⟨text, written, h⟩ := except_bind_ok_iff.mp h
  cases h
  rw [appSheet_eq] at written
  obtain ⟨s, hs, rfl⟩ := except_map_ok_iff.mp written
  exact ⟨s, hs, List.mem_append_right _ (List.mem_singleton_self _)⟩

end ThemeSheets

namespace Bundle

/-- A property is declared in the light block of the sheet of the first theme, and in the sheet of its light
mode. -/
def DeclaredByDay (t : Table) (selector : String) (artifacts : List Artifact) (property : String) : Prop :=
  ∃ theme light sheet, t.first? = some theme ∧ theme.mode? lightMode = some light ∧
    ThemeSheets.Sheet.ofTheme theme = .ok sheet ∧
    ⟨s!"{ThemeSheets.directory}/{ThemeSheets.filename theme.name}", sheet.text⟩ ∈ artifacts ∧
    (∃ d ∈ sheet.light, d.property = property) ∧
    ⟨Variables.path theme.name lightMode, (Variables.Sheet.mk selector light.declarations).text⟩ ∈ artifacts ∧
    ∃ d ∈ light.declarations, d.property = property

/-- The files of a bundle refer to nothing outside of it. -/
structure Closed (t : Table) (selector : String) (artifacts : List Artifact) : Prop where
  index : ⟨Scripts.indexPath, (Scripts.Index.ofThemes t.themeNames).text⟩ ∈ artifacts
  declarations : ⟨Scripts.indexDeclarationPath, (Scripts.Index.ofThemes t.themeNames).declarationText⟩ ∈ artifacts
  modules : ∀ i ∈ (Scripts.Index.ofThemes t.themeNames).imports, ∃ a ∈ artifacts, i.specifier = "./" ++ a.path
  app : ∃ app, ThemeSheets.AppSheet.ofTable t = .ok app ∧
    ⟨s!"{ThemeSheets.directory}/app.css", app.text⟩ ∈ artifacts ∧
    (∀ i ∈ app.imports, ∃ file, i = "./" ++ file ∧ ∃ a ∈ artifacts, a.path = s!"{ThemeSheets.directory}/{file}") ∧
    ∀ u ∈ app.utilities, DeclaredByDay t selector artifacts u.2

section Parts

variable {selector : String} {t : Table} {sheets artifacts : List Artifact}

/-- Every module that the index imports is one of the scripts, if all themes are complete. -/
theorem exists_module (complete : ∀ theme ∈ t.themes.items, theme.Complete) {i : Scripts.Import}
    (hi : i ∈ (Scripts.Index.ofThemes t.themeNames).imports) :
    ∃ a ∈ Scripts.artifacts t, i.specifier = "./" ++ a.path := by
  obtain ⟨name, hname, hi⟩ := List.mem_flatMap.mp hi
  obtain ⟨mode, hmode, rfl⟩ := List.mem_map.mp hi
  obtain ⟨theme, ht, rfl⟩ := List.mem_map.mp hname
  obtain ⟨m, hm⟩ := complete theme ht mode hmode
  obtain ⟨here, rfl⟩ := Roster.mem_of_get? hm
  refine ⟨⟨Scripts.modulePath theme.name m.name, Scripts.tokenModule m⟩, ?_, rfl⟩
  exact List.mem_append_left _ (List.mem_flatMap.mpr ⟨_, Table.mem_modes ht here, by simp⟩)

/-- Every utility variable stands for a variable that is declared by day. -/
theorem declaredByDay (settings : Variables.artifacts selector t ⊆ artifacts) (inside : sheets ⊆ artifacts)
    (made : ThemeSheets.artifacts t = .ok sheets) {pairs : List (String × String)}
    (utilities : ThemeSheets.utilities t = .ok pairs) {u : String × String} (hu : u ∈ pairs) :
    DeclaredByDay t selector artifacts u.2 := by
  unfold ThemeSheets.utilities at utilities
  split at utilities
  next =>
    cases utilities
    cases hu
  next theme first =>
    obtain ⟨light, hl, rfl⟩ := except_map_ok_iff.mp utilities
    obtain ⟨token, ht, same⟩ := Utilities.exists_token_of_mem hu
    have day := Theme.getMode_ok_iff.mp hl
    have member : theme ∈ t.themes.items := List.mem_of_mem_head? first
    obtain ⟨sheet, hs, written⟩ := ThemeSheets.exists_sheet_of_artifacts made member
    have declared : token.declaration ∈ light.declarations := List.mem_map_of_mem ht
    have block : sheet.light = light.declarations := ThemeSheets.light_of_ofTheme hs hl
    have setting : ⟨Variables.path theme.name lightMode, (Variables.Sheet.mk selector light.declarations).text⟩ ∈
        Variables.artifacts selector t := by
      obtain ⟨here, named⟩ := Roster.mem_of_get? day
      rw [← Variables.sheet_eq, ← named]
      exact List.mem_map.mpr ⟨(theme.name, light), Table.mem_modes member here, rfl⟩
    exact ⟨theme, light, sheet, first, day, hs, inside written, ⟨_, block ▸ declared, same.symm⟩, settings setting,
      _, declared, same.symm⟩

end Parts

/-- The bundle of a successful run is closed. -/
theorem closed_of_run {selector : String} {d : Doc} {request : Request} {log : Bool} {o : Outcome}
    (run : (Pipeline.run selector d request true log).result = .ok o) (ok : o.ok = true) :
    ∃ t, o.table? = some t ∧ Closed t selector o.artifacts := by
  obtain ⟨records, t, builds, table, -, generated⟩ := Pipeline.built_of_run run ok
  have complete := Table.complete_of_ofRecords (ThemeRecords.isValid_iff.mp builds.valid).2 builds.made
  obtain ⟨sheets, made, whole⟩ := exists_sheets_of_all (generated rfl)
  have settings : Variables.artifacts selector t ⊆ o.artifacts := by
    rw [whole]
    intro a ha
    simp [ha]
  have inside : sheets ⊆ o.artifacts := by
    rw [whole]
    intro a ha
    simp [ha]
  have scripts : Scripts.artifacts t ⊆ o.artifacts := by
    rw [whole]
    intro a ha
    simp [ha]
  refine ⟨t, table, ?_, ?_, ?_, ?_⟩
  · rw [← Scripts.index_eq]
    exact scripts (List.mem_append_right _ (by simp))
  · rw [← Scripts.indexDeclarations_eq]
    exact scripts (List.mem_append_right _ (by simp))
  · intro i hi
    obtain ⟨a, ha, same⟩ := exists_module complete hi
    exact ⟨a, scripts ha, same⟩
  · obtain ⟨app, happ, written⟩ := ThemeSheets.exists_appSheet_of_artifacts made
    obtain ⟨pairs, utilities, rfl⟩ := except_map_ok_iff.mp happ
    refine ⟨_, happ, inside written, ?_, fun u hu => declaredByDay settings inside made utilities hu⟩
    intro i hi
    obtain ⟨name, hname, rfl⟩ := List.mem_map.mp hi
    obtain ⟨theme, ht, rfl⟩ := List.mem_map.mp hname
    obtain ⟨sheet, _, written⟩ := ThemeSheets.exists_sheet_of_artifacts made ht
    exact ⟨_, rfl, _, inside written, rfl⟩

/-- A collection with a color that has utility variables. -/
def primaryCollection : Doc :=
  .list [.object [("brand", .object [("modes", .object [
    ("light", .object [("textPrimary", .object [("$type", .text "color"), ("$value", .text "#000")])]),
    ("dark", .object [])])])]]

/-- The app sheet maps the color to a utility variable, and the variable that it stands for is declared. -/
theorem closed_primaryCollection : ∃ o t app,
    (Pipeline.run ":root" primaryCollection ⟨"figma", none, []⟩ true true).result = .ok o ∧ o.ok = true ∧
      o.table? = some t ∧ Closed t ":root" o.artifacts ∧ ThemeSheets.AppSheet.ofTable t = .ok app ∧
      app.utilities = [("--color-text-primary", "--text-primary")] ∧
      DeclaredByDay t ":root" o.artifacts "--text-primary" := by
  have ran : (Pipeline.run ":root" primaryCollection ⟨"figma", none, []⟩ true true).result.toOption.any (fun o =>
      o.ok && o.table?.all fun t => (ThemeSheets.AppSheet.ofTable t).toOption.all fun app =>
        app.utilities == [("--color-text-primary", "--text-primary")]) = true := by decide +kernel
  obtain ⟨o, run, holds⟩ := exists_ok_of_any ran
  obtain ⟨ok, mapped⟩ := Bool.and_eq_true_iff.mp holds
  obtain ⟨t, table, closed⟩ := closed_of_run run ok
  obtain ⟨app, made, -, -, declared⟩ := closed.app
  have line : app.utilities = [("--color-text-primary", "--text-primary")] := by
    simpa [table, made, Except.toOption] using mapped
  exact ⟨o, t, app, run, ok, table, closed, made, line,
    declared ("--color-text-primary", "--text-primary") (by rw [line]; exact List.mem_singleton_self _)⟩

end Bundle

end StyleTokens

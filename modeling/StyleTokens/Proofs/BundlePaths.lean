import StyleTokens.Proofs.BuiltTables
import Mathlib.Data.List.Nodup
import Mathlib.Data.List.Infix

namespace StyleTokens

theorem intercalate_append {α : Type} (between : List α) {ls ms : List (List α)} (hl : ls ≠ [])
    (hm : ms ≠ []) :
    between.intercalate (ls ++ ms) = between.intercalate ls ++ between ++ between.intercalate ms := by
  induction ls with
  | nil => exact absurd rfl hl
  | cons l ls ih =>
    cases ls with
    | nil => rw [List.singleton_append, List.intercalate_cons_of_ne_nil hm, List.intercalate_singleton]
    | cons l' ls =>
      have step := ih (List.cons_ne_nil l' ls)
      rw [List.cons_append] at step
      rw [List.cons_append, List.cons_append, List.intercalate_cons_cons, step, List.intercalate_cons_cons]
      simp only [List.append_assoc]

/-- The pieces of one path begin those of another exactly if the paths are equal or the one is a directory on
the other. -/
theorem splitOn_prefix_iff {p q : List Char} :
    p.splitOn '/' <+: q.splitOn '/' ↔ p = q ∨ p ++ ['/'] <+: q := by
  constructor
  · rintro ⟨more, h⟩
    have whole : ['/'].intercalate (p.splitOn '/' ++ more) = q := by
      rw [h, List.intercalate_splitOn]
    cases more with
    | nil => exact .inl (by rwa [List.append_nil, List.intercalate_splitOn] at whole)
    | cons piece more =>
      rw [intercalate_append _ (List.splitOn_ne_nil '/' p) (List.cons_ne_nil piece more),
        List.intercalate_splitOn] at whole
      exact .inr ⟨_, whole⟩
  · rintro (rfl | ⟨rest, rfl⟩)
    · exact List.prefix_rfl
    · rw [List.append_assoc, List.singleton_append, List.splitOn_append_cons_self]
      exact List.prefix_append _ _

namespace Bundle

/-- No path comes twice, and none is a directory on another. The paths are compared as they are written and not
followed, so a part of two points counts as a name: two paths that lead to one file may pass. -/
structure Realisable (paths : List String) : Prop where
  distinct : paths.Nodup
  unblocked : ∀ p ∈ paths, ∀ q ∈ paths, ¬ (p ++ "/").toList <+: q.toList

inductive ModeFile where
  | sheet
  | script
  | declaration
  deriving DecidableEq

/-- The files of a bundle by where they stand: at the top, among the theme sheets, or below a theme and a mode. -/
inductive File where
  | single (name : String)
  | themeSheet (theme : String)
  | ofMode (kind : ModeFile) (names : String × String)
  deriving DecidableEq

def ModeFile.parts : ModeFile → List String
  | sheet => ["css", "tokens.css"]
  | script => ["ts", "tokens.js"]
  | declaration => ["ts", "tokens.d.ts"]

def singleNames : List String := [tableFilename, Scripts.indexPath, Scripts.indexDeclarationPath]

/-- The sheet that takes in all theme sheets has the path of a sheet of this theme. -/
def appName : String := "app"

namespace File

def path : File → String
  | single name => name
  | themeSheet theme => s!"{ThemeSheets.directory}/{ThemeSheets.filename theme}"
  | ofMode .sheet names => Variables.path names.1 names.2
  | ofMode .script names => Scripts.modulePath names.1 names.2
  | ofMode .declaration names => Scripts.declarationPath names.1 names.2

/-- What stands between the slashes of a path, if the names in it have none. -/
def parts : File → List String
  | single name => [name]
  | themeSheet theme => [ThemeSheets.directory, ThemeSheets.filename theme]
  | ofMode kind names => names.1 :: names.2 :: kind.parts

def Plain : File → Prop
  | single name | themeSheet name => '/' ∉ name.toList
  | ofMode _ names => '/' ∉ names.1.toList ∧ '/' ∉ names.2.toList

theorem path_eq (f : File) : f.path.toList = ['/'].intercalate (f.parts.map String.toList) := by
  rcases f with name | theme | ⟨_ | _ | _, names⟩ <;>
    simp [path, parts, ModeFile.parts, toString, Variables.path, ThemeSheets.directory, Scripts.modulePath,
      Scripts.declarationPath, Scripts.modulePathStem]

theorem slashless_parts {f : File} (plain : f.Plain) : ∀ part ∈ f.parts, '/' ∉ part.toList := by
  rcases f with name | theme | ⟨_ | _ | _, names⟩ <;>
    simp_all [Plain, parts, ModeFile.parts, ThemeSheets.directory, ThemeSheets.filename]

theorem splitOn_path {f : File} (plain : f.Plain) : f.path.toList.splitOn '/' = f.parts.map String.toList := by
  have filled : f.parts.map String.toList ≠ [] := by
    cases f <;> simp [parts]
  have slashless : ∀ cs ∈ f.parts.map String.toList, '/' ∉ cs := by
    intro cs hcs
    obtain ⟨part, hp, rfl⟩ := List.mem_map.mp hcs
    exact slashless_parts plain part hp
  rw [path_eq, List.splitOn_intercalate '/' slashless filled]

theorem prefix_iff {f g : File} (hf : f.Plain) (hg : g.Plain) :
    f.parts <+: g.parts ↔ f.path = g.path ∨ (f.path ++ "/").toList <+: g.path.toList := by
  have texts : f.parts <+: g.parts ↔ f.parts.map String.toList <+: g.parts.map String.toList :=
    (List.prefix_map_iff_of_injective (fun _ _ => String.toList_inj.mp)).symm
  rw [texts, ← splitOn_path hf, ← splitOn_path hg, splitOn_prefix_iff, String.toList_inj, String.toList_append]
  rfl

end File

/-- Paths are apart exactly if no file comes twice and the parts of none begin those of another. -/
theorem realisable_iff_of_plain {files : List File} (plain : ∀ f ∈ files, f.Plain) :
    Realisable (files.map File.path) ↔
      files.Nodup ∧ ∀ f ∈ files, ∀ g ∈ files, f.parts <+: g.parts → f = g := by
  constructor
  · intro realisable
    refine ⟨realisable.distinct.of_map, ?_⟩
    intro f hf g hg before
    rcases (File.prefix_iff (plain f hf) (plain g hg)).mp before with same | blocked
    · exact List.inj_on_of_nodup_map realisable.distinct hf hg same
    · exact absurd blocked
        (realisable.unblocked _ (List.mem_map_of_mem hf) _ (List.mem_map_of_mem hg))
  · rintro ⟨distinct, apart⟩
    refine ⟨?_, ?_⟩
    · refine distinct.map_on ?_
      intro f hf g hg same
      exact apart f hf g hg ((File.prefix_iff (plain f hf) (plain g hg)).mpr (.inl same))
    · intro p hp q hq blocked
      obtain ⟨f, hf, rfl⟩ := List.mem_map.mp hp
      obtain ⟨g, hg, rfl⟩ := List.mem_map.mp hq
      have same := apart f hf g hg ((File.prefix_iff (plain f hf) (plain g hg)).mpr (.inr blocked))
      rw [same] at blocked
      have long := blocked.length_le
      have slash : "/".toList.length = 1 := rfl
      rw [String.toList_append, List.length_append] at long
      omega

end Bundle

namespace Table

def modeNames (t : Table) : List (String × String) := t.modes.map fun p => (p.1, p.2.name)

structure Plain (t : Table) : Prop where
  themes : ∀ theme ∈ t.themeNames, '/' ∉ theme.toList
  modes : ∀ p ∈ t.modeNames, '/' ∉ p.2.toList

/-- No theme has a name that the bundle gives to a file of its own, and no mode has the name of a theme sheet
in the directory of these. -/
structure Clear (t : Table) : Prop where
  app : Bundle.appName ∉ t.themeNames
  single : ∀ name ∈ Bundle.singleNames, name ∉ t.themeNames
  directory : ∀ theme ∈ t.themeNames ++ [Bundle.appName],
    (ThemeSheets.directory, ThemeSheets.filename theme) ∉ t.modeNames

theorem mem_modeNames {t : Table} {p : String × String} :
    p ∈ t.modeNames ↔ ∃ theme ∈ t.themes.items, theme.name = p.1 ∧ p.2 ∈ theme.modes.names := by
  constructor
  · intro h
    obtain ⟨q, hq, rfl⟩ := List.mem_map.mp h
    obtain ⟨theme, ht, hq⟩ := List.mem_flatMap.mp hq
    obtain ⟨m, hm, rfl⟩ := List.mem_map.mp hq
    exact ⟨theme, ht, rfl, List.mem_map_of_mem hm⟩
  · rintro ⟨theme, ht, hn, hm⟩
    obtain ⟨m, hm, he⟩ := List.mem_map.mp hm
    refine List.mem_map.mpr ⟨(theme.name, m), List.mem_flatMap.mpr ⟨theme, ht, List.mem_map_of_mem hm⟩, ?_⟩
    exact Prod.ext hn he

theorem theme_of_mem_modeNames {t : Table} {p : String × String} (h : p ∈ t.modeNames) : p.1 ∈ t.themeNames := by
  obtain ⟨theme, ht, hn, _⟩ := mem_modeNames.mp h
  exact hn ▸ List.mem_map_of_mem ht

theorem exists_mode_of_complete {t : Table} (complete : ∀ theme ∈ t.themes.items, theme.Complete) {name : String}
    (h : name ∈ t.themeNames) : ∃ mode, (name, mode) ∈ t.modeNames := by
  obtain ⟨theme, ht, rfl⟩ := List.mem_map.mp h
  obtain ⟨m, hm⟩ := complete theme ht lightMode light_required
  exact ⟨m.name, mem_modeNames.mpr ⟨theme, ht, rfl, List.mem_map_of_mem (Roster.mem_of_get? hm).1⟩⟩

theorem nodup_modeNames (t : Table) : t.modeNames.Nodup := by
  have same : t.modeNames = t.themes.items.flatMap fun theme => theme.modes.names.map (Prod.mk theme.name) := by
    simp [modeNames, modes, Roster.names, List.map_flatMap, Function.comp_def]
  rw [same, List.nodup_flatMap]
  refine ⟨?_, ?_⟩
  · intro theme _
    exact theme.modes.distinct.map fun _ _ he => (Prod.mk.inj he).2
  · refine (List.pairwise_map.mp t.themes.distinct).imp ?_
    intro theme theme' apart p hp hp'
    obtain ⟨_, _, rfl⟩ := List.mem_map.mp hp
    obtain ⟨_, _, he⟩ := List.mem_map.mp hp'
    exact apart (Prod.mk.inj he).1.symm

end Table

namespace Bundle

/-- The theme sheets of a table, with the one that takes them in. -/
def themeFiles (t : Table) : List File := (t.themeNames ++ [appName]).map .themeSheet

def scriptFiles (t : Table) : List File := t.modeNames.flatMap fun p => [.ofMode .script p, .ofMode .declaration p]

/-- The files of the bundle of a table, in the order in which they are written. -/
def files (t : Table) : List File :=
  .single tableFilename :: t.modeNames.map (.ofMode .sheet) ++ themeFiles t ++ scriptFiles t ++
    [.single Scripts.indexPath, .single Scripts.indexDeclarationPath]

def Holds (t : Table) : File → Prop
  | .single name => name ∈ singleNames
  | .themeSheet theme => theme ∈ t.themeNames ++ [appName]
  | .ofMode _ names => names ∈ t.modeNames

theorem mem_files {t : Table} {f : File} : f ∈ files t ↔ Holds t f := by
  rcases f with name | theme | ⟨_ | _ | _, names⟩ <;>
    simp [files, themeFiles, scriptFiles, Holds, singleNames]

theorem plain_of_mem_files {t : Table} (plain : t.Plain) : ∀ f ∈ files t, f.Plain := by
  intro f hf
  have held := mem_files.mp hf
  cases f with
  | single name =>
    have none : ∀ name ∈ singleNames, '/' ∉ name.toList := by decide
    exact none name held
  | themeSheet theme =>
    rcases List.mem_append.mp held with known | app
    · exact plain.themes theme known
    · rw [List.mem_singleton.mp app]
      show '/' ∉ appName.toList
      decide
  | ofMode kind names => exact ⟨plain.themes _ (Table.theme_of_mem_modeNames held), plain.modes names held⟩

theorem nodup_themeFiles_iff {t : Table} : (themeFiles t).Nodup ↔ appName ∉ t.themeNames := by
  have injective : Function.Injective File.themeSheet := fun _ _ => File.themeSheet.inj
  rw [themeFiles, List.nodup_map_iff injective]
  constructor
  · intro distinct named
    exact (List.nodup_append.mp distinct).2.2 appName named appName (by simp) rfl
  · intro fresh
    refine List.nodup_append.mpr ⟨t.themes.distinct, List.nodup_singleton appName, ?_⟩
    intro theme known name app same
    rw [List.mem_singleton.mp app] at same
    exact fresh (same ▸ known)

theorem nodup_scriptFiles (t : Table) : (scriptFiles t).Nodup := by
  refine List.nodup_flatMap.mpr ⟨fun p _ => by simp, t.nodup_modeNames.imp ?_⟩
  intro p q apart f hp hq
  have named : ∀ r : String × String, f ∈ [File.ofMode .script r, .ofMode .declaration r] →
      ∃ kind, f = .ofMode kind r := by
    intro r hr
    simp only [List.mem_cons, List.not_mem_nil, or_false] at hr
    exact hr.elim (fun he => ⟨_, he⟩) fun he => ⟨_, he⟩
  obtain ⟨kind, rfl⟩ := named p hp
  obtain ⟨kind', he⟩ := named q hq
  exact apart (File.ofMode.inj he).2

/-- A file comes twice in a bundle exactly if there is a theme with the name of the sheet that takes in all. -/
theorem nodup_files_iff {t : Table} : (files t).Nodup ↔ appName ∉ t.themeNames := by
  rw [← nodup_themeFiles_iff]
  constructor
  · intro distinct
    have inside : (themeFiles t).Sublist (files t) := by
      unfold files
      exact (((List.sublist_append_right _ _).trans (List.sublist_append_left _ _)).trans
        (List.sublist_append_left _ _))
    exact distinct.sublist inside
  · intro themes
    have sheets : (t.modeNames.map (File.ofMode .sheet)).Nodup :=
      t.nodup_modeNames.map fun _ _ he => (File.ofMode.inj he).2
    have indexes : [File.single Scripts.indexPath, .single Scripts.indexDeclarationPath].Nodup := by decide
    have scripts := nodup_scriptFiles t
    -- files of different kinds are different
    have theme : ∀ f ∈ themeFiles t, ∃ theme, f = .themeSheet theme := by
      intro f hf
      obtain ⟨theme, _, rfl⟩ := List.mem_map.mp hf
      exact ⟨theme, rfl⟩
    have script : ∀ f ∈ scriptFiles t, ∃ p, f = .ofMode .script p ∨ f = .ofMode .declaration p := by
      intro f hf
      obtain ⟨p, _, hp⟩ := List.mem_flatMap.mp hf
      exact ⟨p, by simpa using hp⟩
    have apart : tableFilename ≠ Scripts.indexPath ∧ tableFilename ≠ Scripts.indexDeclarationPath := by decide
    have front : (File.single tableFilename :: t.modeNames.map (File.ofMode .sheet)).Nodup :=
      List.nodup_cons.mpr ⟨by simp, sheets⟩
    refine List.nodup_append.mpr ⟨List.nodup_append.mpr ⟨List.nodup_append.mpr ⟨front, themes, ?_⟩, scripts, ?_⟩,
      indexes, ?_⟩
    · grind
    · grind
    · grind

/-- The path of one file begins that of another only where a theme has the name of a file at the top, or a mode
that of a theme sheet in the directory of these. -/
theorem apart_iff {t : Table} (complete : ∀ theme ∈ t.themes.items, theme.Complete) :
    (∀ f ∈ files t, ∀ g ∈ files t, f.parts <+: g.parts → f = g) ↔
      (∀ name ∈ singleNames, name ∉ t.themeNames) ∧
        ∀ theme ∈ t.themeNames ++ [appName], (ThemeSheets.directory, ThemeSheets.filename theme) ∉ t.modeNames := by
  simp only [mem_files]
  constructor
  · intro apart
    refine ⟨?_, ?_⟩
    · intro name fixed named
      obtain ⟨mode, held⟩ := Table.exists_mode_of_complete complete named
      have begins : (File.single name).parts <+: (File.ofMode .sheet (name, mode)).parts := ⟨_, rfl⟩
      cases apart (.single name) fixed (.ofMode .sheet (name, mode)) held begins
    · intro theme known held
      have begins : (File.themeSheet theme).parts <+:
          (File.ofMode .sheet (ThemeSheets.directory, ThemeSheets.filename theme)).parts := ⟨_, rfl⟩
      cases apart (.themeSheet theme) known (.ofMode .sheet (_, _)) held begins
  · -- the first part decides, and where both stand among the theme sheets or below a mode the later ones do
    rintro ⟨single, directory⟩ f hf g hg before
    have top : ThemeSheets.directory ∉ singleNames := by decide
    cases f with
    | single name =>
      cases g with
      | single name' =>
        obtain ⟨rfl, _⟩ := List.cons_prefix_cons.mp before
        rfl
      | themeSheet theme =>
        obtain ⟨rfl, _⟩ := List.cons_prefix_cons.mp before
        exact absurd hf top
      | ofMode kind names =>
        obtain ⟨rfl, _⟩ := List.cons_prefix_cons.mp before
        exact absurd (Table.theme_of_mem_modeNames hg) (single names.1 hf)
    | themeSheet theme =>
      cases g with
      | single name =>
        have short := before.length_le
        simp [File.parts] at short
      | themeSheet theme' =>
        obtain ⟨same, _⟩ := List.cons_prefix_cons.mp (List.cons_prefix_cons.mp before).2
        have theme_eq : theme = theme' := by simpa [ThemeSheets.filename] using same
        rw [theme_eq]
      | ofMode kind names =>
        obtain ⟨first, rest⟩ := List.cons_prefix_cons.mp before
        obtain ⟨second, _⟩ := List.cons_prefix_cons.mp rest
        have here : names = (ThemeSheets.directory, ThemeSheets.filename theme) := Prod.ext first.symm second.symm
        exact absurd (here ▸ hg) (directory theme hf)
    | ofMode kind names =>
      have long : (File.ofMode kind names).parts.length = 4 := by cases kind <;> rfl
      have enough := before.length_le
      rw [long] at enough
      cases g with
      | single name => simp [File.parts] at enough
      | themeSheet theme => simp [File.parts] at enough
      | ofMode kind' names' =>
        obtain ⟨first, rest⟩ := List.cons_prefix_cons.mp before
        obtain ⟨second, rest⟩ := List.cons_prefix_cons.mp rest
        have same : kind = kind' := by
          cases kind <;> cases kind' <;> first | rfl | simp [ModeFile.parts] at rest
        rw [same, Prod.ext first second]

theorem paths_themeSheets {t : Table} {sheets : List Artifact} (h : ThemeSheets.artifacts t = .ok sheets) :
    sheets.map Artifact.path = (themeFiles t).map File.path := by
  obtain ⟨made, hm, h⟩ := except_bind_ok_iff.mp h
  obtain ⟨app, _, h⟩ := except_bind_ok_iff.mp h
  cases h
  have same : t.themes.items.map (fun theme => (File.themeSheet theme.name).path) = made.map Artifact.path := by
    rw [← List.forall₂_eq_eq_eq, List.forall₂_map_left_iff, List.forall₂_map_right_iff]
    refine (mapM_ok_iff.mp hm).imp ?_
    intro theme a ha
    obtain ⟨text, _, he⟩ := except_bind_ok_iff.mp ha
    cases he
    rfl
  rw [List.map_append, ← same, themeFiles, List.map_append, List.map_append, List.map_map, Table.themeNames,
    Roster.names, List.map_map]
  rfl

theorem exists_sheets_of_all {selector : String} {t : Table} {artifacts : List Artifact}
    (h : (all selector t).result = .ok artifacts) :
    ∃ sheets, ThemeSheets.artifacts t = .ok sheets ∧ artifacts = tableArtifact tableFilename t ::
      (Variables.artifacts selector t ++ sheets ++ Scripts.artifacts t) := by
  cases hs : ThemeSheets.artifacts t with
  | error fault =>
    simp [all, generated, themeSheets, hs, Except.bind] at h
  | ok sheets =>
    refine ⟨sheets, rfl, ?_⟩
    simp only [all, generated, themeSheets, hs] at h
    exact (Except.ok.inj h).symm

theorem paths_of_all {selector : String} {t : Table} {artifacts : List Artifact}
    (h : (all selector t).result = .ok artifacts) :
    artifacts.map Artifact.path = (files t).map File.path := by
  obtain ⟨sheets, hs, made⟩ := exists_sheets_of_all h
  have settings : (Variables.artifacts selector t).map Artifact.path =
      (t.modeNames.map (File.ofMode .sheet)).map File.path := by
    simp [Variables.artifacts, Table.modeNames, File.path, Function.comp_def]
  have scripts : (Scripts.artifacts t).map Artifact.path =
      (scriptFiles t ++ [File.single Scripts.indexPath, .single Scripts.indexDeclarationPath]).map File.path := by
    simp [Scripts.artifacts, scriptFiles, Table.modeNames, File.path, List.flatMap_map, List.map_flatMap]
  rw [made, List.map_cons, List.map_append, List.map_append, settings, paths_themeSheets hs, scripts]
  simp only [files, List.map_append, List.map_cons, List.append_assoc, List.cons_append]
  rfl

/-- The bundle of a table that a run builds can always be generated. If no name has a slash, its paths are apart
as they are written exactly if the names are clear of the fixed ones. -/
theorem realisable_iff {selector : String} {d : Doc} {request : Request} {generate log : Bool} {o : Outcome}
    {t : Table} (run : (Pipeline.run selector d request generate log).result = .ok o) (built : o.table? = some t)
    (plain : t.Plain) :
    ∃ artifacts, (all selector t).result = .ok artifacts ∧
      (Realisable (artifacts.map Artifact.path) ↔ t.Clear) := by
  obtain ⟨records, _, valid, made, _⟩ := Pipeline.exists_builds_of_table? run built
  have complete := Table.complete_of_ofRecords (ThemeRecords.isValid_iff.mp valid).2 made
  obtain ⟨artifacts, ha⟩ := exists_all selector complete
  refine ⟨artifacts, ha, ?_⟩
  rw [paths_of_all ha, realisable_iff_of_plain (plain_of_mem_files plain), nodup_files_iff, apart_iff complete]
  constructor
  · intro h
    exact ⟨h.1, h.2.1, h.2.2⟩
  · intro clear
    exact ⟨clear.app, clear.single, clear.directory⟩

/-- A document with one collection of the given name and modes, all without tokens. -/
def bareCollection (name : String) (modes : List String) : Doc :=
  .list [.object [(name, .object [("modes", .object (modes.map fun m => (m, .object [])))])]]

theorem realisable_brand : ∃ o t artifacts,
    (Pipeline.run ":root" (bareCollection "brand" requiredModes) ⟨"figma", none, []⟩ true true).result = .ok o ∧
      o.table? = some t ∧ t.Plain ∧ (all ":root" t).result = .ok artifacts ∧
      Realisable (artifacts.map Artifact.path) := by
  have ran : (Pipeline.run ":root" (bareCollection "brand" requiredModes) ⟨"figma", none, []⟩ true
      true).result.toOption.any (fun o => o.table?.any fun t =>
        t.themeNames = ["brand"] ∧ t.modeNames = [("brand", lightMode), ("brand", darkMode)]) = true := by
    decide +kernel
  obtain ⟨o, ho, table⟩ := exists_ok_of_any ran
  obtain ⟨t, ht, names⟩ := (Option.any_eq_true _ _).mp table
  obtain ⟨themes, modes⟩ := of_decide_eq_true names
  have plain : t.Plain := ⟨by rw [themes]; decide, by rw [modes]; decide⟩
  have clear : t.Clear := ⟨by rw [themes]; decide, by rw [themes]; decide, by rw [themes, modes]; decide⟩
  obtain ⟨artifacts, ha, realisable⟩ := realisable_iff ho ht plain
  exact ⟨o, t, artifacts, ho, ht, plain, ha, realisable.mpr clear⟩

/-- A theme can have the path of the sheet that takes in all theme sheets. -/
theorem unrealisable_app : ∃ o t artifacts,
    (Pipeline.run ":root" (bareCollection "app" requiredModes) ⟨"figma", none, []⟩ true true).result = .ok o ∧
      o.table? = some t ∧ (all ":root" t).result = .ok artifacts ∧
      ¬ Realisable (artifacts.map Artifact.path) := by
  have clashes : (Pipeline.run ":root" (bareCollection "app" requiredModes) ⟨"figma", none, []⟩ true
      true).result.toOption.any (fun o => o.table?.any fun t => (all ":root" t).result.toOption.any fun artifacts =>
        ¬ (artifacts.map Artifact.path).Nodup) = true := by decide +kernel
  obtain ⟨o, ho, table⟩ := exists_ok_of_any clashes
  obtain ⟨t, ht, generated⟩ := (Option.any_eq_true _ _).mp table
  obtain ⟨artifacts, ha, clash⟩ := exists_ok_of_any generated
  refine ⟨o, t, artifacts, ho, ht, ha, ?_⟩
  intro realisable
  exact of_decide_eq_true clash realisable.distinct

end Bundle

end StyleTokens

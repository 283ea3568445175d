import StyleTokens.Pipeline
import StyleTokens.Proofs.ValidRecords

namespace StyleTokens

theorem Roster.mem_names_foldl_put {α : Type} {name : α → String} {xs : List α} {r : Roster α name}
    {n : String} : n ∈ (xs.foldl Roster.put r).names ↔ n ∈ r.names ∨ n ∈ xs.map name := by
  induction xs generalizing r with
  | nil => simp
  | cons x rest ih =>
    have put : n ∈ (r.put x).names ↔ n ∈ r.names ∨ n = name x := mem_names_putByName
    rw [List.foldl_cons, ih, put, List.map_cons, List.mem_cons, or_assoc]

theorem Roster.exists_get?_of_mem_names {α : Type} {name : α → String} {r : Roster α name}
    {n : String} (h : n ∈ r.names) : ∃ x, r.get? n = some x := by
  obtain ⟨x, hx, he⟩ := List.mem_map.mp h
  cases hg : r.get? n with
  | some y => exact ⟨y, rfl⟩
  | none =>
    have apart := List.find?_eq_none.mp hg x hx
    simp [he] at apart

theorem Roster.mem_of_get? {α : Type} {name : α → String} {r : Roster α name} {n : String} {x : α}
    (h : r.get? n = some x) : x ∈ r.items ∧ name x = n :=
  ⟨List.mem_of_find?_eq_some h, by simpa using List.find?_some h⟩

theorem Roster.eq_of_name {α : Type} {name : α → String} {r : Roster α name} {x y : α} (hx : x ∈ r.items)
    (hy : y ∈ r.items) (same : name x = name y) : x = y :=
  List.inj_on_of_nodup_map r.distinct hx hy same

theorem Roster.get?_of_mem {α : Type} {name : α → String} {r : Roster α name} {x : α} (h : x ∈ r.items) :
    r.get? (name x) = some x := by
  obtain ⟨y, found⟩ : ∃ y, r.get? (name x) = some y := Roster.exists_get?_of_mem_names (List.mem_map_of_mem h)
  obtain ⟨hy, same⟩ := Roster.mem_of_get? found
  rw [found, Roster.eq_of_name hy h same]

theorem Table.mem_modes {t : Table} {theme : Theme} {m : Mode} (ht : theme ∈ t.themes.items)
    (hm : m ∈ theme.modes.items) : (theme.name, m) ∈ t.modes :=
  List.mem_flatMap.mpr ⟨theme, ht, List.mem_map_of_mem hm⟩

theorem Table.recordParts_of_modesIn {name : Scalar} {content : Doc} {modes : List (Scalar × Doc)}
    (h : content.modesIn = .mapping modes) :
    Table.recordParts (.mapping [(name, content)]) = .ok (name, content.modesIn) := by
  unfold Doc.modesIn at h ⊢
  split at h
  next entries =>
    cases hg : Doc.get? entries ExportKey.modes with
    | none =>
      rw [hg] at h
      cases h
    | some d => simp [Table.recordParts, hg]
  next => cases h

/-- The table of theme records is made of the modes of each theme, as its last record has them. -/
theorem Table.ofRecords_eq {records : ThemeRecords}
    (h : ∀ r ∈ records, ∃ modes, r.2.modesIn = .mapping modes) :
    Table.ofRecords records.toDocs =
      (Table.ofEntries (Ordered.ofList (records.map fun r => (r.1, r.2.modesIn)))).mapError
        Table.stopOf := by
  have parts : records.toDocs.mapM Table.recordParts =
      .ok (records.map fun r => (r.1, r.2.modesIn)) := by
    apply mapM_ok_iff.mpr
    rw [ThemeRecords.toDocs, List.forall₂_map_left_iff, List.forall₂_map_right_iff]
    apply List.forall₂_same.mpr
    intro r hr
    obtain ⟨modes, hm⟩ := h r hr
    exact Table.recordParts_of_modesIn hm
  simp only [Table.ofRecords, parts]

theorem Table.ofRecords_of_shapes {records : ThemeRecords}
    (shapes : ∀ r ∈ records, ∃ modes, ThemeShape r.2 modes) : Table.ofRecords records.toDocs =
      (Table.ofEntries (Ordered.ofList (records.map fun r => (r.1, r.2.modesIn)))).mapError Table.stopOf :=
  Table.ofRecords_eq fun r hr => (shapes r hr).imp fun _ shape => shape.held

/-- A theme has all modes that it must have. -/
def Theme.Complete (t : Theme) : Prop := ∀ m ∈ requiredModes, ∃ mode, t.mode? m = some mode

theorem Theme.complete_of_shape {name : Scalar} {content : Doc} {modes : List (Scalar × Doc)}
    {t : Theme} (shape : ThemeShape content modes)
    (ht : Theme.ofDoc name (.mapping modes) = .ok t) : t.Complete := by
  intro m hm
  obtain ⟨_, made, he, _, all, hr⟩ := Theme.ofDoc_ok ht
  cases he
  obtain ⟨c, hc, _⟩ := shape.required m hm
  obtain ⟨key, hk, same⟩ := Ordered.mem_of_find? hc
  obtain ⟨mode, hmode, ho⟩ := exists_of_forall₂_left all hk
  have named : mode.name = m := by
    have hn : key = .text mode.name := Mode.name_of_ofDoc ho
    rw [hn, Scalar.text_beq] at same
    exact beq_iff_eq.mp same
  apply Roster.exists_get?_of_mem_names
  rw [hr]
  apply Roster.mem_names_foldl_put.mpr
  exact Or.inr (List.mem_map.mpr ⟨mode, hmode, named⟩)

theorem Table.complete_of_ofRecords {records : ThemeRecords} {t : Table}
    (valid : ∀ r ∈ records, ∃ modes, ThemeShape r.2 modes)
    (ht : Table.ofRecords records.toDocs = .ok t) : ∀ theme ∈ t.themes.items, theme.Complete := by
  intro theme hm
  rw [Table.ofRecords_of_shapes valid, except_mapError_ok_iff,
    Table.ofEntries_ok_iff (Ordered.distinct_ofList _)] at ht
  obtain ⟨p, hp, ho⟩ := exists_of_forall₂_right ht hm
  obtain ⟨r, hr, _, hv⟩ := Ordered.exists_survives_of_mem_ofList hp
  obtain ⟨modes, shape⟩ := valid r hr.mem
  rw [← hv, shape.held] at ho
  exact Theme.complete_of_shape shape ho

theorem Theme.getMode_ok_iff {t : Theme} {name : String} {m : Mode} :
    t.getMode name = .ok m ↔ t.mode? name = some m := by
  unfold getMode
  split <;> simp_all

theorem Theme.exists_getMode {t : Theme} (h : t.Complete) {m : String} (hm : m ∈ requiredModes) :
    ∃ mode, t.getMode m = .ok mode :=
  (h m hm).imp fun _ => getMode_ok_iff.mpr

theorem light_required : lightMode ∈ requiredModes := by simp [requiredModes]

theorem dark_required : darkMode ∈ requiredModes := by simp [requiredModes]

theorem ThemeSheets.exists_sheet {t : Theme} (h : t.Complete) : ∃ text, ThemeSheets.sheet t = .ok text := by
  obtain ⟨light, hl⟩ := Theme.exists_getMode h light_required
  obtain ⟨dark, hd⟩ := Theme.exists_getMode h dark_required
  simp [ThemeSheets.sheet, hl, hd, bind, Except.bind]

theorem ThemeSheets.exists_appSheet {t : Table} (h : ∀ theme ∈ t.themes.items, theme.Complete) :
    ∃ text, ThemeSheets.appSheet t = .ok text := by
  have utilities : ∃ pairs, ThemeSheets.utilities t = .ok pairs := by
    unfold ThemeSheets.utilities
    split
    next => exact ⟨[], rfl⟩
    next theme hf =>
      have hm : theme ∈ t.themes.items := List.mem_of_mem_head? hf
      obtain ⟨light, hl⟩ := Theme.exists_getMode (h theme hm) light_required
      exact ⟨_, by rw [hl]; rfl⟩
  obtain ⟨pairs, hp⟩ := utilities
  simp [ThemeSheets.appSheet, hp, bind, Except.bind]

/-- All files of a table are generated if every theme has the modes that it must have. -/
theorem Bundle.exists_all {t : Table} (selector : String)
    (h : ∀ theme ∈ t.themes.items, theme.Complete) :
    ∃ artifacts, (Bundle.all selector t).result = .ok artifacts := by
  have sheets : ∃ artifacts, t.themes.items.mapM (fun theme => do
      Except.ok (⟨s!"{ThemeSheets.directory}/{ThemeSheets.filename theme.name}",
        ← ThemeSheets.sheet theme⟩ : Artifact)) = .ok artifacts := by
    apply exists_mapM_ok_iff.mpr
    intro theme hm
    obtain ⟨text, ht⟩ := ThemeSheets.exists_sheet (h theme hm)
    simp [ht, bind, Except.bind]
  obtain ⟨artifacts, ha⟩ := sheets
  obtain ⟨app, happ⟩ := ThemeSheets.exists_appSheet h
  have all : ∃ sheets, ThemeSheets.artifacts t = .ok sheets := by
    unfold ThemeSheets.artifacts
    rw [ha]
    simp [happ, bind, Except.bind]
  obtain ⟨sheets, hs⟩ := all
  simp [Bundle.all, Bundle.generated, Bundle.themeSheets, hs, Except.bind]

theorem Pipeline.result_buildTable (d : Doc) (request : Request) (log : Bool) :
    (Pipeline.buildTable d request log).result =
      (ThemeRecords.assemble d request.format request.theme request.modes).result.bind
        fun records =>
          ((Validation.document (ThemeRecords.toDoc records)).check.mapError Stop.failure).bind fun _ =>
            (Table.ofRecords (ThemeRecords.toDocs records)).bind fun t =>
              ((Validation.references t).check.mapError Stop.failure).bind fun _ =>
                .ok (t, (Validation.document (ThemeRecords.toDoc records)).merge
                  (Validation.references t)) := by
  simp only [Pipeline.buildTable, Pipeline.noteWarnings, Traced.result_bind]
  rfl

/-- A table comes of a document exactly if its records are in order, make the table, and the references
of the table are in order. -/
theorem Pipeline.buildTable_ok_iff {d : Doc} {request : Request} {log : Bool} {t : Table}
    {report : Report} :
    (Pipeline.buildTable d request log).result = .ok (t, report) ↔
      ∃ records : ThemeRecords,
        (ThemeRecords.assemble d request.format request.theme request.modes).result = .ok records ∧
        (Validation.document records.toDoc).isValid = true ∧
        Table.ofRecords records.toDocs = .ok t ∧ (Validation.references t).isValid = true ∧
        report = (Validation.document records.toDoc).merge (Validation.references t) := by
  rw [Pipeline.result_buildTable, except_bind_ok_iff]
  apply exists_congr
  intro records
  apply and_congr_right'
  have passed : ∀ r : Report, (∃ u, r.check.mapError Stop.failure = .ok u) ↔ r.isValid = true := by
    intro r
    rw [← Report.check_ok_iff]
    simp only [except_mapError_ok_iff]
    exact ⟨fun h => h.choose_spec, fun h => ⟨(), h⟩⟩
  constructor
  · intro h
    obtain ⟨_, hv, h⟩ := except_bind_ok_iff.mp h
    obtain ⟨u, ht, h⟩ := except_bind_ok_iff.mp h
    obtain ⟨_, hr, h⟩ := except_bind_ok_iff.mp h
    cases h
    exact ⟨(passed _).mp ⟨_, hv⟩, ht, (passed _).mp ⟨_, hr⟩, rfl⟩
  · intro h
    obtain ⟨hv, ht, hr, he⟩ := h
    obtain ⟨_, hv⟩ := (passed _).mpr hv
    obtain ⟨_, hr⟩ := (passed _).mpr hr
    rw [hv, he]
    simp [Except.bind, ht, hr]

/-- A run ends as the making of its table does: no generated file can fail. -/
theorem Pipeline.run_cases (selector : String) (d : Doc) (request : Request) (generate log : Bool) :
    (∃ t report artifacts, (Pipeline.buildTable d request log).result = .ok (t, report) ∧
      (Pipeline.run selector d request generate log).result =
        .ok (.built t artifacts report.warnings [])) ∨
    (∃ f, (Pipeline.buildTable d request log).result = .error (.failure f) ∧
      (Pipeline.run selector d request generate log).result = .ok (.failed f)) ∨
    ∃ f, (Pipeline.buildTable d request log).result = .error (.fault f) ∧
      (Pipeline.run selector d request generate log).result = .error f := by
  cases h : (Pipeline.buildTable d request log).result with
  | error stop =>
    cases stop with
    | failure f =>
      refine Or.inr (Or.inl ⟨f, rfl, ?_⟩)
      simp [Pipeline.run, Traced.recover, Pipeline.settle, h, Except.bind]
    | fault f =>
      refine Or.inr (Or.inr ⟨f, rfl, ?_⟩)
      simp [Pipeline.run, Traced.recover, Pipeline.settle, h, Except.bind]
  | ok made =>
    obtain ⟨t, report⟩ := made
    obtain ⟨records, _, hv, ht, _, _⟩ := Pipeline.buildTable_ok_iff.mp h
    have complete := Table.complete_of_ofRecords (ThemeRecords.isValid_iff.mp hv).2 ht
    obtain ⟨all, ha⟩ := Bundle.exists_all selector complete
    refine Or.inl ⟨t, report, if generate then all else
      [Bundle.tableArtifact Bundle.tableFilename t], rfl, ?_⟩
    cases generate with
    | true => simp [Pipeline.run, Traced.recover, h, ha, Except.bind, Except.mapError]
    | false => simp [Pipeline.run, Traced.recover, h, Except.bind]

/-- The stages in which a document becomes a table. -/
structure Pipeline.Builds (d : Doc) (request : Request) (records : ThemeRecords) (t : Table) : Prop where
  assembled : (ThemeRecords.assemble d request.format request.theme request.modes).result = .ok records
  valid : (Validation.document records.toDoc).isValid = true
  made : Table.ofRecords records.toDocs = .ok t
  references : (Validation.references t).isValid = true

theorem Pipeline.exists_buildTable_iff {d : Doc} {request : Request} {log : Bool} {t : Table} :
    (∃ report, (Pipeline.buildTable d request log).result = .ok (t, report)) ↔
      ∃ records, Pipeline.Builds d request records t := by
  constructor
  · intro h
    obtain ⟨report, hb⟩ := h
    obtain ⟨records, ha, hv, ht, hr, _⟩ := Pipeline.buildTable_ok_iff.mp hb
    exact ⟨records, ha, hv, ht, hr⟩
  · intro h
    obtain ⟨records, ha, hv, ht, hr⟩ := h
    exact ⟨_, Pipeline.buildTable_ok_iff.mpr ⟨records, ha, hv, ht, hr, rfl⟩⟩

/-- A run succeeds exactly if a table is built. -/
theorem Pipeline.exists_ok_run_iff {selector : String} {d : Doc} {request : Request}
    {generate log : Bool} :
    (∃ o, (Pipeline.run selector d request generate log).result = .ok o ∧ o.ok = true) ↔
      ∃ records t, Pipeline.Builds d request records t := by
  have tables : (∃ records t, Pipeline.Builds d request records t) ↔
      ∃ t report, (Pipeline.buildTable d request log).result = .ok (t, report) := by
    rw [exists_comm]
    exact exists_congr fun t => Pipeline.exists_buildTable_iff.symm
  rw [tables]
  rcases Pipeline.run_cases selector d request generate log with
    ⟨t, report, artifacts, hb, hr⟩ | ⟨f, hb, hr⟩ | ⟨f, hb, hr⟩
  · exact iff_of_true ⟨_, hr, rfl⟩ ⟨t, report, hb⟩
  · simp [hb, hr, Outcome.ok, Outcome.failure?]
  · simp [hb, hr]

theorem Pipeline.exists_builds_of_run {selector : String} {d : Doc} {request : Request}
    {generate log : Bool} {o : Outcome}
    (h : (Pipeline.run selector d request generate log).result = .ok o) (ho : o.ok = true) :
    ∃ records t, Pipeline.Builds d request records t ∧ o.table? = some t := by
  rcases Pipeline.run_cases selector d request generate log with
    ⟨t, report, artifacts, hb, hr⟩ | ⟨f, hb, hr⟩ | ⟨f, hb, hr⟩
  · cases h.symm.trans hr
    obtain ⟨records, built⟩ := Pipeline.exists_buildTable_iff.mp ⟨report, hb⟩
    exact ⟨records, t, built, rfl⟩
  · cases h.symm.trans hr
    cases ho
  · cases h.symm.trans hr

theorem Pipeline.exists_builds_of_table? {selector : String} {d : Doc} {request : Request}
    {generate log : Bool} {o : Outcome} {t : Table}
    (h : (Pipeline.run selector d request generate log).result = .ok o) (ht : o.table? = some t) :
    ∃ records, Pipeline.Builds d request records t := by
  have ok : o.ok = true := by
    rcases Pipeline.run_cases selector d request generate log with
      ⟨_, _, _, _, hr⟩ | ⟨_, _, hr⟩ | ⟨_, _, hr⟩
    · cases h.symm.trans hr
      rfl
    · cases h.symm.trans hr
      cases ht
    · cases h.symm.trans hr
  obtain ⟨records, t', builds, ht'⟩ := Pipeline.exists_builds_of_run h ok
  obtain rfl : t' = t := Option.some.inj (ht'.symm.trans ht)
  exact ⟨records, builds⟩

/-- A run that succeeds has the table that is built, the issues of both checks for its warnings, and the bundle
of the table if all is to be generated. -/
theorem Pipeline.built_of_run {selector : String} {d : Doc} {request : Request} {generate log : Bool}
    {o : Outcome} (h : (Pipeline.run selector d request generate log).result = .ok o) (ho : o.ok = true) :
    ∃ records t, Pipeline.Builds d request records t ∧ o.table? = some t ∧
      o.warnings = (Validation.document records.toDoc).issues ++ (Validation.references t).issues ∧
      (generate = true → (Bundle.all selector t).result = .ok o.artifacts) := by
  rcases Pipeline.run_cases selector d request generate log with
    ⟨t, report, artifacts, hb, hr⟩ | ⟨f, hb, hr⟩ | ⟨f, hb, hr⟩
  · obtain ⟨records, ha, hv, ht, hc, rfl⟩ := Pipeline.buildTable_ok_iff.mp hb
    obtain ⟨all, bundle⟩ := Bundle.exists_all selector
      (Table.complete_of_ofRecords (ThemeRecords.isValid_iff.mp hv).2 ht)
    have both : ((Validation.document records.toDoc).merge (Validation.references t)).isValid = true := by
      simpa [Report.isValid, Report.merge, List.all_append] using And.intro hv hc
    cases h.symm.trans hr
    refine ⟨records, t, ⟨ha, hv, ht, hc⟩, rfl, Report.warnings_of_isValid both, ?_⟩
    rintro rfl
    simp only [Pipeline.run, Traced.recover, Traced.result_bind, hb, Except.bind, if_true,
      Traced.result_mapError, bundle, Except.mapError] at hr
    cases hr
    exact bundle
  · cases h.symm.trans hr
    cases ho
  · cases h.symm.trans hr

theorem exists_ok_of_any {ε α : Type} {r : Except ε α} {p : α → Bool} (h : r.toOption.any p = true) :
    ∃ a, r = .ok a ∧ p a = true := by
  cases r with
  | error e => cases h
  | ok a => exact ⟨a, rfl, h⟩

theorem Pipeline.buildTable_of_failed_run {selector : String} {d : Doc} {request : Request}
    {generate log : Bool} {o : Outcome} {f : Failure}
    (h : (Pipeline.run selector d request generate log).result = .ok o) (hf : o.failure? = some f) :
    (Pipeline.buildTable d request log).result = .error (.failure f) := by
  rcases Pipeline.run_cases selector d request generate log with
    ⟨t, report, artifacts, hb, hr⟩ | ⟨g, hb, hr⟩ | ⟨g, hb, hr⟩
  · cases h.symm.trans hr
    cases hf
  · cases h.symm.trans hr
    cases hf
    exact hb
  · cases h.symm.trans hr

theorem Table.ofRecords_ne_rejected (ds : List Doc) (issue : Issue) :
    Table.ofRecords ds ≠ .error (.failure (.rejected issue)) := by
  intro h
  unfold Table.ofRecords at h
  split at h
  next => cases h
  next parts _ =>
    cases hp : Table.ofEntries (Ordered.ofList parts) with
    | ok t =>
      rw [hp] at h
      cases h
    | error fault =>
      rw [hp] at h
      cases fault <;> cases h

theorem Validation.code_ne_of_check {d : Doc} {issue : Issue}
    (h : (Validation.document d).check = .error (.rejected issue)) : issue.code ≠ "CIRCULAR_REFERENCE" := by
  obtain ⟨found, hm, -, he⟩ := Report.check_error h
  cases he
  obtain ⟨f, hf, rfl⟩ := List.mem_map.mp hm
  have plain := Validation.aboutReferences_documentFindings f (Finding.mem_of_mem_upToError hf)
  exact (Finding.code_ne_of_aboutReferences (g := .circularReference "" "" []) plain rfl).symm

theorem except_mapError_error {ε δ α : Type} {x : Except ε α} {f : ε → δ} {e : δ}
    (h : x.mapError f = .error e) : ∃ e', x = .error e' ∧ f e' = e := by
  cases x with
  | ok a => cases h
  | error e' => exact ⟨e', rfl, Except.error.inj h⟩

/-- A table that is refused for a circle of references has a mode with one. -/
theorem Pipeline.exists_cyclic_of_refused {d : Doc} {request : Request} {log : Bool} {issue : Issue}
    {records : ThemeRecords}
    (ha : (ThemeRecords.assemble d request.format request.theme request.modes).result = .ok records)
    (h : (Pipeline.buildTable d request log).result = .error (.failure (.rejected issue)))
    (circle : issue.code = "CIRCULAR_REFERENCE") :
    ∃ t, Table.ofRecords records.toDocs = .ok t ∧
      ∃ theme ∈ t.themes.items, ∃ m ∈ theme.modes.items, ¬ m.Acyclic := by
  rw [Pipeline.result_buildTable, ha] at h
  simp only [Except.bind] at h
  split at h
  next stop hv =>
    cases h
    obtain ⟨f, hc, he⟩ := except_mapError_error hv
    cases he
    exact absurd circle (Validation.code_ne_of_check hc)
  next =>
    split at h
    next stop ht =>
      cases h
      exact absurd ht (Table.ofRecords_ne_rejected _ _)
    next t ht =>
      split at h
      next stop hr =>
        refine ⟨t, ht, ?_⟩
        by_contra none
        have acyclic : ∀ theme ∈ t.themes.items, ∀ m ∈ theme.modes.items, m.Acyclic := by
          intro theme htheme m hm
          by_contra cyclic
          exact none ⟨theme, htheme, m, hm, cyclic⟩
        rw [Report.check_ok_iff.mpr (Validation.isValid_references_iff.mpr acyclic)] at hr
        cases hr
      next => cases h

end StyleTokens

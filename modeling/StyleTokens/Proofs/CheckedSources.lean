import StyleTokens.Build
import StyleTokens.Proofs.KeptFindings
import StyleTokens.Proofs.LoadedFiles

namespace StyleTokens

namespace Traced

variable {ε δ α β : Type}

def Unalarmed (x : Traced ε α) : Prop := ∀ e ∈ x.log, e.level ≠ .warning

theorem unalarmed_of_empty {x : Traced ε α} (h : x.log = []) : x.Unalarmed := by
  intro e he
  rw [h] at he
  cases he

theorem unalarmed_note {channel : Channel} {level : Level} {text : String} (h : level ≠ .warning) :
    (note channel level text : Traced ε Unit).Unalarmed := by
  intro e he
  rw [List.mem_singleton.mp he]
  exact h

theorem Unalarmed.bind {x : Traced ε α} {f : α → Traced ε β} (hx : x.Unalarmed)
    (hf : ∀ a, (f a).Unalarmed) : (x >>= f).Unalarmed := by
  cases h : x.result with
  | error e =>
    rw [bind_error h]
    exact hx
  | ok a =>
    rw [bind_ok h]
    exact List.forall_mem_append.mpr ⟨hx, hf a⟩

theorem Unalarmed.recover {x : Traced ε α} {f : ε → Traced δ α} (hx : x.Unalarmed)
    (hf : ∀ e, (f e).Unalarmed) : (x.recover f).Unalarmed := by
  unfold Traced.recover
  split
  next => exact hx
  next e _ => exact List.forall_mem_append.mpr ⟨hx, hf e⟩

end Traced

/-- The warnings that a computation leaves, in order. -/
def warningTexts (log : List Entry) : List String :=
  (log.filter fun e => e.level == .warning).map Entry.text

theorem warningTexts_append (log later : List Entry) :
    warningTexts (log ++ later) = warningTexts log ++ warningTexts later := by
  simp [warningTexts]

theorem Traced.Unalarmed.warningTexts {ε α : Type} {x : Traced ε α} (h : x.Unalarmed) :
    warningTexts x.log = [] := by
  have none : (x.log.filter fun e => e.level == .warning) = [] := by
    apply List.filter_eq_nil_iff.mpr
    intro e he
    simpa using h e he
  simp [StyleTokens.warningTexts, none]

theorem warningTexts_of_issues (channel : Channel) (issues : List Issue) :
    warningTexts (issues.map fun i => ⟨channel, .warning, i.message⟩) = issues.map Issue.message := by
  induction issues with
  | nil => rfl
  | cons i rest ih =>
    simp only [warningTexts, List.map_cons] at ih ⊢
    rw [List.filter_cons_of_pos rfl, List.map_cons, ih]

theorem warningTexts_entries (r : Report) : warningTexts r.entries = r.warnings.map Issue.message :=
  warningTexts_of_issues .validator r.warnings

namespace Pipeline

theorem unalarmed_noteWarnings (r : Report) : (noteWarnings false r : Traced Stop Unit).Unalarmed :=
  Traced.unalarmed_of_empty rfl

theorem unalarmed_assemble_collections (d : Doc) (theme : Option String) (modes : List String) :
    (ThemeRecords.assemble d "figma" theme modes).Unalarmed := by
  unfold ThemeRecords.assemble
  rw [Collections.ofName_collections]
  cases h : Collections.normalize d with
  | error f =>
    apply Traced.unalarmed_of_empty
    rfl
  | ok records =>
    exact (Traced.unalarmed_note (by decide)).bind fun _ => Traced.unalarmed_of_empty rfl

theorem unalarmed_run_collections (selector : String) (d : Doc) (theme : Option String)
    (modes : List String) : (run selector d ⟨"figma", theme, modes⟩ false false).Unalarmed := by
  have built : (buildTable d ⟨"figma", theme, modes⟩ false).Unalarmed := by
    refine (unalarmed_assemble_collections d theme modes).bind fun records => ?_
    refine (unalarmed_noteWarnings _).bind fun _ => ?_
    refine (Traced.unalarmed_of_empty rfl).bind fun _ => ?_
    refine (Traced.unalarmed_of_empty rfl).bind fun table => ?_
    refine (unalarmed_noteWarnings _).bind fun _ => ?_
    refine (Traced.unalarmed_of_empty rfl).bind fun _ => ?_
    exact (Traced.unalarmed_note (by decide)).bind fun _ => Traced.unalarmed_of_empty rfl
  have outcome : ∀ made : Table × Report, (do
      let artifacts ← (pure [Bundle.tableArtifact Bundle.tableFilename made.1] : Traced Stop (List Artifact))
      pure (Outcome.built made.1 artifacts made.2.warnings [])).Unalarmed :=
    fun _ => Traced.unalarmed_of_empty rfl
  refine (built.bind outcome).recover fun stop => ?_
  cases stop with
  | fault fault => exact Traced.unalarmed_of_empty rfl
  | failure failure => exact (Traced.unalarmed_note (by decide)).bind fun _ => Traced.unalarmed_of_empty rfl

end Pipeline

namespace Validation

theorem warnings_merge (r other : Report) : (r.merge other).warnings = r.warnings ++ other.warnings :=
  List.filter_append ..

theorem exists_finding_of_mem_document {d : Doc} {i : Issue} (h : i ∈ (document d).warnings) :
    ∃ f : Finding, i = f.issue ∧ f.aboutReferences = false := by
  obtain ⟨f, hf, rfl⟩ := List.mem_map.mp (List.mem_filter.mp h).1
  exact ⟨f, rfl, aboutReferences_documentFindings f (Finding.mem_of_mem_upToError hf)⟩

theorem exists_finding_of_mem_references {t : Table} {i : Issue} (h : i ∈ (references t).warnings) :
    ∃ f : Finding, i = f.issue ∧ f.aboutReferences = true := by
  obtain ⟨f, hf, rfl⟩ := List.mem_map.mp (List.mem_filter.mp h).1
  obtain ⟨p, _, hp⟩ := List.mem_flatMap.mp (Finding.mem_of_mem_upToError hf)
  exact ⟨f, rfl, aboutReferences_modeReferences f hp⟩

/-- Of the warnings on a document and on the references of a table, exactly the latter are at places where
the former have none of the same code. -/
theorem filter_not_sameSpot (d : Doc) (t : Table) :
    (((document d).warnings ++ (references t).warnings).filter
      fun w => !(document d).warnings.any w.sameSpot) = (references t).warnings := by
  have repeated : ((document d).warnings.filter fun w => !(document d).warnings.any w.sameSpot) = [] := by
    apply List.filter_eq_nil_iff.mpr
    intro w hw
    have self : (document d).warnings.any w.sameSpot = true :=
      List.any_eq_true.mpr ⟨w, hw, by simp [Issue.sameSpot]⟩
    simp [self]
  have fresh : ((references t).warnings.filter fun w => !(document d).warnings.any w.sameSpot) =
      (references t).warnings := by
    apply List.filter_eq_self.mpr
    intro w hw
    obtain ⟨g, rfl, hg⟩ := exists_finding_of_mem_references hw
    have none : (document d).warnings.any g.issue.sameSpot = false := by
      apply List.any_eq_false.mpr
      intro v hv
      obtain ⟨f, rfl, hf⟩ := exists_finding_of_mem_document hv
      have apart : g.code ≠ f.code := Finding.code_ne_of_aboutReferences hf hg
      simp [Issue.sameSpot, Finding.issue, apart]
    simp [none]
  rw [List.filter_append, repeated, fresh, List.nil_append]

end Validation

namespace Pipeline

/-- What comes of a document whose table is built does not depend on what is generated and logged. -/
theorem exists_built (selector : String) {d : Doc} {request : Request} {log : Bool} {t : Table}
    {report : Report} (h : (buildTable d request log).result = .ok (t, report)) (generate log' : Bool) :
    ∃ artifacts, (run selector d request generate log').result =
      .ok (.built t artifacts report.warnings []) := by
  have same : (buildTable d request log').result = .ok (t, report) := by
    rw [result_buildTable] at h ⊢
    exact h
  rcases run_cases selector d request generate log' with
    ⟨t', report', artifacts, hb, hr⟩ | ⟨f, hb, hr⟩ | ⟨f, hb, hr⟩
  · cases same.symm.trans hb
    exact ⟨artifacts, hr⟩
  · cases same.symm.trans hb
  · cases same.symm.trans hb

theorem exists_buildTable_of_ok {selector : String} {d : Doc} {request : Request} {generate log : Bool}
    {o : Outcome} (h : (run selector d request generate log).result = .ok o) (ho : o.ok = true) :
    ∃ t report, (buildTable d request false).result = .ok (t, report) := by
  rcases run_cases selector d request generate log with
    ⟨t, report, artifacts, hb, hr⟩ | ⟨f, hb, hr⟩ | ⟨f, hb, hr⟩
  · refine ⟨t, report, ?_⟩
    rw [result_buildTable] at hb ⊢
    exact hb
  · cases h.symm.trans hr
    cases ho
  · cases h.symm.trans hr

end Pipeline

namespace BuildConfig

variable {c : BuildConfig} {ft : FileTree} {d : Doc}

theorem request_of_collections (collections : c.format = .collections) :
    c.request = ⟨"figma", c.themeName, c.modes⟩ := by
  simp [request, collections, ExportFormat.name]

theorem validate_of_invalid (source : c.document ft = .ok d) (collections : c.format = .collections)
    (invalid : (Validation.document d).isValid = false) :
    ∃ f, (c.validate ft).result = .ok (.failed f) := by
  cases h : (Validation.document d).check with
  | ok _ =>
    rw [Report.check_ok_iff.mp h] at invalid
    cases invalid
  | error f =>
    refine ⟨f, ?_⟩
    simp only [validate, source, collections, h, Traced.result_bind, Traced.result_notes, Except.bind]
    rfl

theorem validate_of_valid (source : c.document ft = .ok d) (collections : c.format = .collections)
    (valid : (Validation.document d).isValid = true) :
    c.validate ft = (do
      Traced.notes (Validation.document d).entries
      let outcome ← c.run d false false
      addWarnings (Validation.document d) outcome) := by
  simp only [validate, source, collections, Report.check_ok_iff.mpr valid]

/-- A source that is in order as it was exported and makes a table passes with that table, and with the
warnings of the run, of which each is logged once. -/
theorem validate_of_builds (source : c.document ft = .ok d) (collections : c.format = .collections)
    (valid : (Validation.document d).isValid = true) {t : Table} {report : Report}
    (built : (Pipeline.buildTable d c.request false).result = .ok (t, report)) :
    (∃ artifacts, (c.validate ft).result = .ok (.built t artifacts report.warnings [])) ∧
      warningTexts (c.validate ft).log = report.warnings.map Issue.message := by
  obtain ⟨records, assembled, _, _, _, merged⟩ := Pipeline.buildTable_ok_iff.mp built
  obtain ⟨records', normal, same, _⟩ := Collections.normalize_of_isValid valid
  have records_eq : records = records' := by
    rw [request_of_collections collections] at assembled
    exact Except.ok.inj ((Collections.assemble_ok_iff.mp assembled).symm.trans normal)
  rw [records_eq, same] at merged
  have warnings : report.warnings =
      (Validation.document d).warnings ++ (Validation.references t).warnings := by
    rw [merged, Validation.warnings_merge]
  obtain ⟨artifacts, ran⟩ := Pipeline.exists_built c.selector built false false
  have run_eq : (c.run d false false).result = .ok (.built t artifacts report.warnings []) := ran
  have added : addWarnings (Validation.document d) (.built t artifacts report.warnings []) =
      ⟨(Validation.references t).warnings.map fun w => ⟨.builder, .warning, w.message⟩,
        .ok (.built t artifacts report.warnings [])⟩ := by
    simp only [addWarnings, warnings, Validation.filter_not_sameSpot]
    rw [Traced.bind_ok (Traced.result_notes _)]
    simp [Traced.notes]
  have quiet : (c.run d false false).Unalarmed := by
    unfold run
    rw [request_of_collections collections]
    exact Pipeline.unalarmed_run_collections c.selector d c.themeName c.modes
  rw [validate_of_valid source collections valid, Traced.bind_ok (Traced.result_notes _),
    Traced.bind_ok run_eq, added]
  refine ⟨⟨artifacts, rfl⟩, ?_⟩
  show warningTexts ((Validation.document d).entries ++ ((c.run d false false).log ++ _)) = _
  rw [warningTexts_append, warningTexts_append, quiet.warningTexts, warningTexts_entries,
    warningTexts_of_issues, warnings, List.map_append, List.nil_append]

/-- What is delivered of a table that was made has that table, whether or not it could be written. -/
theorem table?_of_deliver {made : Traced Fault Outcome} {t : Table} {artifacts : List Artifact}
    {warnings : List Issue} {written : List String}
    (h : made.result = .ok (.built t artifacts warnings written)) {o : Outcome}
    (ho : (c.deliver ft made).2.result = .ok o) : o.table? = some t := by
  simp only [deliver, h, Traced.result_bind, Except.bind, Traced.recover] at ho
  split at ho
  next delivered hd =>
    cases ho
    obtain ⟨paths, _, he⟩ := except_bind_ok_iff.mp hd
    cases he
    rfl
  next stop _ =>
    cases stop with
    | fault fault => cases ho
    | failure failure =>
      cases ho
      rfl

theorem table?_of_make (source : c.document ft = .ok d) {t : Table} {report : Report}
    (built : (Pipeline.buildTable d c.request false).result = .ok (t, report)) (generate : Bool)
    {o : Outcome} (ho : (c.deliver ft (c.make ft generate)).2.result = .ok o) : o.table? = some t := by
  obtain ⟨artifacts, ran⟩ := Pipeline.exists_built c.selector built generate true
  have made : (c.make ft generate).result = .ok (.built t artifacts report.warnings []) := by
    simp only [make, source, run, ran]
  exact table?_of_deliver made ho

theorem result_noteWritten (o : Outcome) : (c.noteWritten o).result = .ok o := by
  unfold noteWritten
  split
  next => rfl
  next => rfl

/-- A check that passed and the run, the flattening and the build of the same source agree. -/
structure Agrees (c : BuildConfig) (ft : FileTree) (d : Doc) (o : Outcome) : Prop where
  drops : Collections.DropsNothing d
  run : ∀ generate log, ∃ o', (c.run d generate log).result = .ok o' ∧ o'.ok = true ∧
    o'.table? = o.table? ∧ o'.warnings = o.warnings
  flattened : ∀ o', (c.flatten ft).2.result = .ok o' → o'.table? = o.table?
  built : ∀ o', (c.build ft).2.result = .ok o' → o'.table? = o.table?
  logged : warningTexts (c.validate ft).log = o.warnings.map Issue.message

/-- The check of a source of collections passes exactly if the source is in order as it was exported and the
run over it succeeds; then nothing is dropped, and both have the same table and the same warnings, each of
which the check logs once. -/
theorem validate_agrees (source : c.document ft = .ok d) (collections : c.format = .collections)
    (generate log : Bool) :
    ((∃ o, (c.validate ft).result = .ok o ∧ o.ok = true) ↔
      (Validation.document d).isValid = true ∧
        ∃ o, (c.run d generate log).result = .ok o ∧ o.ok = true) ∧
    ∀ o, (c.validate ft).result = .ok o → o.ok = true → Agrees c ft d o := by
  have passes : ∀ o, (c.validate ft).result = .ok o → o.ok = true →
      (Validation.document d).isValid = true ∧
        ∃ t report, (Pipeline.buildTable d c.request false).result = .ok (t, report) := by
    intro o ho hok
    cases valid : (Validation.document d).isValid with
    | false =>
      obtain ⟨f, hf⟩ := validate_of_invalid source collections valid
      cases ho.symm.trans hf
      cases hok
    | true =>
      refine ⟨rfl, ?_⟩
      rw [validate_of_valid source collections valid] at ho
      simp only [Traced.result_bind, Traced.result_notes] at ho
      obtain ⟨_, _, ho⟩ := except_bind_ok_iff.mp ho
      obtain ⟨ran, hr, ho⟩ := except_bind_ok_iff.mp ho
      have ran_ok : ran.ok = true := by
        cases ran with
        | built _ _ _ _ => rfl
        | _ =>
          cases ho
          cases hok
      exact Pipeline.exists_buildTable_of_ok hr ran_ok
  constructor
  · constructor
    · intro h
      obtain ⟨o, ho, hok⟩ := h
      obtain ⟨valid, t, report, built⟩ := passes o ho hok
      obtain ⟨artifacts, ran⟩ := Pipeline.exists_built c.selector built generate log
      exact ⟨valid, _, ran, rfl⟩
    · intro h
      obtain ⟨valid, o, ho, hok⟩ := h
      obtain ⟨t, report, built⟩ := Pipeline.exists_buildTable_of_ok ho hok
      obtain ⟨⟨artifacts, passed⟩, _⟩ := validate_of_builds source collections valid built
      exact ⟨_, passed, rfl⟩
  · intro o ho hok
    obtain ⟨valid, t, report, built⟩ := passes o ho hok
    obtain ⟨⟨artifacts, passed⟩, logged⟩ := validate_of_builds source collections valid built
    obtain ⟨_, _, _, drops⟩ := Collections.normalize_of_isValid valid
    cases ho.symm.trans passed
    refine ⟨drops, ?_, ?_, ?_, logged⟩
    · intro generate log
      obtain ⟨made, ran⟩ := Pipeline.exists_built c.selector built generate log
      exact ⟨_, ran, rfl, rfl, rfl⟩
    · intro o' ho'
      exact table?_of_make source built false ho'
    · intro o' ho'
      obtain ⟨delivered, hd, hn⟩ := except_bind_ok_iff.mp (Traced.result_bind _ _ ▸ ho')
      rw [result_noteWritten] at hn
      cases hn
      exact table?_of_make source built true hd

theorem document_of_source {path : Path} (source : c.source = some path) (loaded : Source.load ft path = .ok d) :
    c.document ft = .ok d := by
  simp [document, sourcePath, source, Except.mapError, bind, Except.bind, loaded]

/-- A collection with a token of an unknown type and a reference that leads nowhere. -/
def gradientSource : Doc :=
  .list [.object [("brand", .object [("modes", .object [
    ("light", .object [("glow", .object [("$type", .text "gradient"), ("$value", .text "x")])]),
    ("dark", .object [("link", .object [("$type", .text "color"), ("$value", .text "\x7bmissing\x7d")])])])])]]

def gradientBuild : BuildConfig := { standard with source := some (.ofString "brand-tokens.json") }

def gradientTree : FileTree :=
  (FileTree.bare ["work"]).put ["work", "brand-tokens.json"]
    (.file (Json.print Json.indented gradientSource).toUTF8)

theorem validate_agrees_gradient : gradientBuild.document gradientTree = .ok gradientSource ∧
    ∃ o, (gradientBuild.validate gradientTree).result = .ok o ∧ o.ok = true ∧ o.warnings.length = 2 ∧
      Agrees gradientBuild gradientTree gradientSource o := by
  have json : gradientSource.IsJson := by
    simp [gradientSource, Doc.object, Doc.IsJson, Doc.AllJson, Doc.EntriesJson, Ordered.contains,
      Scalar.text_beq]
  have clean : (Path.ofString "brand-tokens.json").hasNull = false := by decide +kernel
  have ending : Source.isYaml (.ofString "brand-tokens.json") = false := by decide +kernel
  have here : gradientTree.status (.ofString "brand-tokens.json")
      = .ok (.file (Json.print Json.indented gradientSource).toUTF8) := by rfl
  have source : gradientBuild.document gradientTree = .ok gradientSource :=
    document_of_source rfl (Source.load_printed clean here ending json)
  have valid : (Validation.document gradientSource).isValid = true := by decide +kernel
  have ran : (gradientBuild.run gradientSource false false).result.toOption.any
      (fun o => o.ok && o.warnings.length == 2) = true := by decide +kernel
  obtain ⟨o', ho', made⟩ := exists_ok_of_any ran
  obtain ⟨hok', count⟩ := Bool.and_eq_true_iff.mp made
  obtain ⟨passes, agrees⟩ := validate_agrees source rfl false false
  obtain ⟨o, ho, hok⟩ := passes.mpr ⟨valid, o', ho', hok'⟩
  have agreed := agrees o ho hok
  obtain ⟨o'', ho'', -, -, warnings⟩ := agreed.run false false
  cases ho'.symm.trans ho''
  exact ⟨source, o, ho, hok, warnings ▸ beq_iff_eq.mp count, agreed⟩

end BuildConfig

end StyleTokens

import StyleTokens.Proofs.LosslessCollections
import StyleTokens.Proofs.RefusedTables

namespace StyleTokens

namespace Doc

mutual

/-- No mapping in the document has a key twice. -/
def Keyed : Doc → Prop
  | .scalar _ => True
  | .list items => AllKeyed items
  | .mapping entries => Ordered.Distinct entries ∧ EntriesKeyed entries
  | .set _ => True

/-- No mapping in a document of a list has a key twice. -/
def AllKeyed : List Doc → Prop
  | [] => True
  | d :: rest => Keyed d ∧ AllKeyed rest

/-- No mapping in a value of the entries has a key twice. -/
def EntriesKeyed : List (Scalar × Doc) → Prop
  | [] => True
  | (_, d) :: rest => Keyed d ∧ EntriesKeyed rest

end

theorem AllKeyed.keyed {ds : List Doc} (h : AllKeyed ds) : ∀ d ∈ ds, d.Keyed := by
  induction ds with
  | nil => simp
  | cons d rest ih =>
    obtain ⟨hd, hr⟩ := h
    exact List.forall_mem_cons.mpr ⟨hd, ih hr⟩

theorem EntriesKeyed.keyed {entries : List (Scalar × Doc)} (h : EntriesKeyed entries) :
    ∀ p ∈ entries, p.2.Keyed := by
  induction entries with
  | nil => simp
  | cons p rest ih =>
    obtain ⟨hd, hr⟩ := h
    exact List.forall_mem_cons.mpr ⟨hd, ih hr⟩

theorem Keyed.get? {entries : List (Scalar × Doc)} (h : (Doc.mapping entries).Keyed) {key : String} {d : Doc}
    (hg : Doc.get? entries key = some d) : d.Keyed := by
  obtain ⟨k, hm, _⟩ := Ordered.mem_of_find? hg
  exact h.2.keyed (k, d) hm

mutual

theorem keyed_of_isJson : (d : Doc) → d.IsJson → d.Keyed
  | .scalar _, _ => trivial
  | .list items, h => allKeyed_of_allJson items h
  | .mapping entries, h => ⟨EntriesJson.distinct h, entriesKeyed_of_entriesJson entries h⟩
  | .set _, h => h.elim

theorem allKeyed_of_allJson : (ds : List Doc) → AllJson ds → AllKeyed ds
  | [], _ => trivial
  | d :: rest, h => ⟨keyed_of_isJson d h.1, allKeyed_of_allJson rest h.2⟩

theorem entriesKeyed_of_entriesJson : (entries : List (Scalar × Doc)) → EntriesJson entries → EntriesKeyed entries
  | [], _ => trivial
  | (_, d) :: rest, h => ⟨keyed_of_isJson d h.2.2.1, entriesKeyed_of_entriesJson rest h.2.2.2⟩

end

end Doc

/-- No theme has two modes of one name, and no mode two tokens of one name. -/
structure ThemeRecords.Keyed (records : ThemeRecords) : Prop where
  modes : ∀ r ∈ records, ∀ modes, r.2.modesIn = .mapping modes → Ordered.Distinct modes
  tokens : ∀ r ∈ records, ∀ p tokens, r.2.HasMode p → p.2 = .mapping tokens → Ordered.Distinct tokens

namespace ThemeRecords

/-- The records of a document without repeated keys have no theme with a mode twice and no mode with a token
twice. -/
theorem keyed_of_assemble {d : Doc} {format : String} {theme : Option String} {modes : List String}
    {records : ThemeRecords} (keyed : d.Keyed) (h : (assemble d format theme modes).result = .ok records) :
    records.Keyed := by
  rcases assemble_cases h with ⟨docs, rfl, kept⟩ | ⟨name, rfl⟩
  · have source : ∀ r ∈ records, ∀ kept, r.2.modesIn = .mapping kept →
        ∃ sources, (Doc.mapping sources).Keyed ∧ kept = Collections.keptModes r.1 sources := by
      intro r hr modes held
      obtain ⟨item, hi, content, rest, rfl, same⟩ := exists_of_forall₂_right kept hr
      have inside : (Doc.mapping ((r.1, content) :: rest)).Keyed := Doc.AllKeyed.keyed keyed _ hi
      obtain ⟨entries, sources, rfl, found, he⟩ := Collections.exists_modes_of_keepCollection (same ▸ held)
      have entered : (Doc.mapping entries).Keyed := inside.2.keyed (r.1, .mapping entries) (by simp)
      exact ⟨sources, entered.get? found, he⟩
    refine ⟨?_, ?_⟩
    · intro r hr modes held
      obtain ⟨sources, inside, rfl⟩ := source r hr modes held
      exact Collections.distinct_keptModes inside.1
    · rintro r hr p tokens ⟨modes, held, hp⟩ ht
      obtain ⟨sources, inside, rfl⟩ := source r hr modes held
      obtain ⟨⟨mode, d⟩, hs, rfl⟩ := List.mem_map.mp hp
      have moded : d.Keyed := inside.2.keyed _ hs
      cases d with
      | mapping entries => exact Collections.distinct_kept moded.1 ht
      | _ => cases ht
  · refine ⟨?_, ?_⟩
    · intro r hr modes held
      rw [List.mem_singleton.mp hr, Nested.modesIn_content] at held
      cases held
      exact Ordered.distinct_ofList _
    · rintro r hr p tokens ⟨modes, held, hp⟩ ht
      rw [List.mem_singleton.mp hr, Nested.modesIn_content] at held
      cases held
      obtain ⟨_, _, rfl⟩ := Nested.mem_modeEntries_iff.mp hp
      cases ht
      exact Ordered.distinct_ofList _

end ThemeRecords

/-- The type of a token, if it is not known, as a finding. -/
def Token.unknownType? (theme mode : String) (t : Token) : Option Finding :=
  if isSourceType t.type then none
  else some (.unknownType (.text theme) (.text mode) (.text t.name) t.type)

def Mode.unknownTypes (theme : String) (m : Mode) : List Finding :=
  m.tokens.items.filterMap (Token.unknownType? theme m.name)

def Theme.unknownTypes (t : Theme) : List Finding :=
  t.modes.items.flatMap (Mode.unknownTypes t.name)

/-- The types in a table that are not known, token by token. -/
def Table.unknownTypes (t : Table) : List Finding := t.themes.items.flatMap Theme.unknownTypes

theorem flatMap_of_forall₂ {α β γ : Type} {R : α → β → Prop} {f : α → List γ} {g : β → List γ} {xs : List α}
    {ys : List β} (h : List.Forall₂ R xs ys) (same : ∀ x ∈ xs, ∀ y, R x y → f x = g y) :
    xs.flatMap f = ys.flatMap g := by
  induction h with
  | nil => rfl
  | cons hr _ ih =>
    obtain ⟨first, later⟩ := List.forall_mem_cons.mp same
    rw [List.flatMap_cons, List.flatMap_cons, first _ hr, ih later]

namespace Validation

theorem token?_of_ofRecord {theme mode : String} {name : Scalar} {record : Doc} {t : Token}
    (shape : TokenShape record) (made : Token.ofRecord name record = .ok t) :
    token? (.text theme) (.text mode) name record = t.unknownType? theme mode := by
  obtain ⟨entries, rfl, rfl, hty, hv, -⟩ := Token.ofRecord_ok_iff.mp made
  obtain ⟨_, type, _, he, hty', filled, -⟩ := shape
  cases he
  cases hty.symm.trans hty'
  exact token?_of_entries hty filled hv _ _ _

theorem mode_of_ofDoc {theme : String} {name : Scalar} {tokens : List (Scalar × Doc)} {m : Mode}
    (shapes : ∀ q ∈ tokens, TokenShape q.2) (distinct : Ordered.Distinct tokens)
    (made : Mode.ofDoc name (.mapping tokens) = .ok m) :
    mode (.text theme) name (.mapping tokens) = m.unknownTypes theme := by
  obtain ⟨rfl, all⟩ := (Mode.ofDoc_ok_iff distinct).mp made
  rw [mode, Mode.unknownTypes, List.filterMap_eq_flatMap_toList, List.filterMap_eq_flatMap_toList]
  refine flatMap_of_forall₂ all fun q hq t record => ?_
  rw [token?_of_ofRecord (shapes q hq) record]

theorem theme_of_shape {name : Scalar} {content : Doc} {modes : List (Scalar × Doc)}
    (shape : ThemeShape content modes) : theme name content = modes.flatMap fun p => mode name p.1 p.2 := by
  rw [theme_eq, shape.held]
  exact if_neg (Bool.eq_false_iff.mp (none_missing_iff.mpr shape.required))

theorem theme_of_ofDoc {name : Scalar} {content : Doc} {modes : List (Scalar × Doc)} {t : Theme}
    (shape : ThemeShape content modes) (distinct : Ordered.Distinct modes)
    (tokens : ∀ p ∈ modes, ∀ tokens, p.2 = .mapping tokens → Ordered.Distinct tokens)
    (made : Theme.ofDoc name (.mapping modes) = .ok t) : theme name content = t.unknownTypes := by
  obtain ⟨rfl, all⟩ := (Theme.ofDoc_ok_iff distinct).mp made
  rw [theme_of_shape shape, Theme.unknownTypes]
  refine flatMap_of_forall₂ all fun p hp m hm => ?_
  obtain ⟨entries, he, shapes⟩ := shape.tokens p hp
  rw [he] at hm ⊢
  exact mode_of_ofDoc shapes (tokens p hp entries he) hm

theorem records_toDocs (records : ThemeRecords) (index : Nat) :
    Validation.records index records.toDocs = records.flatMap fun r => theme r.1 r.2 := by
  induction records generalizing index with
  | nil => rfl
  | cons r rest ih =>
    rw [ThemeRecords.toDocs, List.map_cons, records_cons, List.flatMap_cons]
    exact congrArg (theme r.1 r.2 ++ ·) (ih (index + 1))

/-- What is found in records that make a table, and have no theme, mode or token twice, are the unknown types of
the table. -/
theorem documentFindings_of_ofRecords {records : ThemeRecords} {t : Table}
    (valid : (document records.toDoc).isValid = true) (keyed : records.Keyed) (distinct : Ordered.Distinct records)
    (made : Table.ofRecords records.toDocs = .ok t) : documentFindings records.toDoc = t.unknownTypes := by
  obtain ⟨filled, shapes⟩ := ThemeRecords.isValid_iff.mp valid
  have apart : Ordered.Distinct (records.map fun r => (r.1, r.2.modesIn)) := distinct.map _ fun _ _ differ => differ
  rw [Table.ofRecords_of_shapes shapes, except_mapError_ok_iff, Ordered.ofList_of_distinct apart,
    Table.ofEntries_ok_iff apart, List.forall₂_map_left_iff] at made
  have walked : documentFindings records.toDoc = Validation.records 0 records.toDocs := by
    cases records with
    | nil => exact absurd rfl filled
    | cons r rest => rfl
  rw [walked, records_toDocs, Table.unknownTypes]
  refine flatMap_of_forall₂ made fun r hr th hth => ?_
  obtain ⟨modes, shape⟩ := shapes r hr
  rw [shape.held] at hth
  exact theme_of_ofDoc shape (keyed.modes r hr modes shape.held)
    (fun p hp tokens ht => keyed.tokens r hr p tokens ⟨modes, shape.held, hp⟩ ht) hth

theorem issues_of_documentFindings {d : Doc} {fs : List Finding} (valid : (document d).isValid = true)
    (found : documentFindings d = fs) : (document d).issues = fs.map Finding.issue := by
  subst found
  exact congrArg (List.map Finding.issue) (Finding.upToError_of_harmless (isValid_document.mp valid))

end Validation

namespace Table

/-- The themes of a table as records. -/
def toRecords (t : Table) : ThemeRecords :=
  t.themes.items.map fun theme => (.text theme.name, .object [(ExportKey.modes, theme.toDoc)])

theorem tableRecords_eq (t : Table) : Validation.tableRecords t = t.toRecords.toDoc := by
  simp only [Validation.tableRecords, ThemeRecords.toDoc, ThemeRecords.toDocs, toRecords, List.map_map]
  rfl

theorem modesIn_toRecords {theme : Theme} : (Doc.object [(ExportKey.modes, theme.toDoc)]).modesIn =
    .mapping (theme.modes.items.map fun m => (.text m.name, m.toDoc)) := by
  rw [Theme.toDoc, Doc.object_map, Nested.modesIn_content]

/-- All tokens of a table have a type. -/
def Typed (t : Table) : Prop :=
  ∀ theme ∈ t.themes.items, ∀ m ∈ theme.modes.items, ∀ token ∈ m.tokens.items, token.type ≠ ""

theorem tokenShape_toRecord {token : Token} (typed : token.type ≠ "") : TokenShape token.toRecord :=
  ⟨_, token.type, token.value, rfl, rfl, typed, rfl⟩

variable {t : Table}

theorem themeShape_toRecords {theme : Theme} (complete : theme.Complete)
    (typed : ∀ m ∈ theme.modes.items, ∀ token ∈ m.tokens.items, token.type ≠ "") :
    ThemeShape (.object [(ExportKey.modes, theme.toDoc)])
      (theme.modes.items.map fun m => (.text m.name, m.toDoc)) := by
  refine ⟨modesIn_toRecords, ?_, ?_⟩
  · intro name hname
    obtain ⟨m, found⟩ := complete name hname
    obtain ⟨hm, named⟩ := Roster.mem_of_get? found
    have apart : Ordered.Distinct (theme.modes.items.map fun m => (Scalar.text m.name, m.toDoc)) :=
      distinct_of_nodup theme.modes.distinct
    have here := Ordered.find?_of_mem apart (List.mem_map_of_mem hm)
    exact ⟨m.toDoc, named ▸ here, rfl⟩
  · intro p hp
    obtain ⟨m, hm, rfl⟩ := List.mem_map.mp hp
    refine ⟨_, by rw [Mode.toDoc, Doc.object_map], ?_⟩
    intro q hq
    obtain ⟨token, ht, rfl⟩ := List.mem_map.mp hq
    exact tokenShape_toRecord (typed m hm token ht)

theorem isValid_toRecords (filled : t.themes.items ≠ []) (complete : ∀ theme ∈ t.themes.items, theme.Complete)
    (typed : t.Typed) : (Validation.document t.toRecords.toDoc).isValid = true := by
  refine ThemeRecords.isValid_iff.mpr ⟨by simpa [toRecords] using filled, ?_⟩
  intro r hr
  obtain ⟨theme, ht, rfl⟩ := List.mem_map.mp hr
  exact ⟨_, themeShape_toRecords (complete theme ht) (typed theme ht)⟩

theorem distinct_toRecords (t : Table) : Ordered.Distinct t.toRecords := distinct_of_nodup t.themes.distinct

theorem keyed_toRecords (t : Table) : t.toRecords.Keyed := by
  refine ⟨?_, ?_⟩
  · intro r hr modes held
    obtain ⟨theme, _, rfl⟩ := List.mem_map.mp hr
    cases modesIn_toRecords.symm.trans held
    exact distinct_of_nodup theme.modes.distinct
  · rintro r hr p tokens ⟨modes, held, hp⟩ ht
    obtain ⟨theme, _, rfl⟩ := List.mem_map.mp hr
    cases modesIn_toRecords.symm.trans held
    obtain ⟨m, _, rfl⟩ := List.mem_map.mp hp
    have json : (Doc.mapping tokens).IsJson := ht ▸ m.isJson_toDoc
    exact Doc.EntriesJson.distinct json

/-- The records of a table make the table. -/
theorem ofRecords_toRecords (named : t.NamedCollections) : Table.ofRecords t.toRecords.toDocs = .ok t := by
  have held : ∀ r ∈ t.toRecords, ∃ modes, r.2.modesIn = .mapping modes := by
    intro r hr
    obtain ⟨theme, _, rfl⟩ := List.mem_map.mp hr
    exact ⟨_, modesIn_toRecords⟩
  have apart : Ordered.Distinct (t.toRecords.map fun r => (r.1, r.2.modesIn)) :=
    (distinct_toRecords t).map _ fun _ _ differ => differ
  rw [ofRecords_eq held, except_mapError_ok_iff, Ordered.ofList_of_distinct apart, ofEntries_ok_iff apart,
    toRecords, List.map_map, List.forall₂_map_left_iff]
  refine List.forall₂_same.mpr fun theme ht => ?_
  have modes : (Doc.object [(ExportKey.modes, theme.toDoc)]).modesIn = theme.toDoc := by
    rw [modesIn_toRecords, Theme.toDoc, Doc.object_map]
  rw [Function.comp_apply, modes]
  exact Theme.ofDoc_toDoc (named theme ht)

end Table

theorem Pipeline.Builds.typed {d : Doc} {request : Request} {records : ThemeRecords} {t : Table}
    (h : Pipeline.Builds d request records t) : t.Typed := by
  intro theme htheme m hm token htoken
  obtain ⟨-, shapes⟩ := ThemeRecords.isValid_iff.mp h.valid
  have made := h.made
  rw [Table.ofRecords_of_shapes shapes, except_mapError_ok_iff] at made
  obtain ⟨p, hp, -, modes, hmodes, q, hq, tokens, ht, r, hr, record⟩ := Table.exists_record made htheme hm htoken
  obtain ⟨source, survives, -, content⟩ := Ordered.exists_survives_of_mem_ofList hp
  have token : source.2.HasToken q r := ⟨⟨modes, content.trans hmodes, hq⟩, tokens, ht, hr⟩
  obtain ⟨_, type, _, he, hty, filled, -⟩ := ThemeRecords.tokenShape_of_valid h.valid survives.mem token
  obtain ⟨_, he', -, hty', -⟩ := Token.ofRecord_ok_iff.mp record
  cases he.symm.trans he'
  cases hty.symm.trans hty'
  exact filled

theorem Pipeline.Builds.filled {d : Doc} {request : Request} {records : ThemeRecords} {t : Table}
    (h : Pipeline.Builds d request records t) : t.themes.items ≠ [] := by
  obtain ⟨filled, shapes⟩ := ThemeRecords.isValid_iff.mp h.valid
  obtain ⟨-, names⟩ := Table.names_of_ofRecords (fun r hr => (shapes r hr).imp fun _ shape => shape.held) h.made
  obtain ⟨r, rest, rfl⟩ := List.exists_cons_of_ne_nil filled
  intro none
  rw [Table.themeNames, Roster.names, none, List.map_cons, List.eraseDups_cons] at names
  cases names

namespace Validation

/-- The table of a successful run is found to be in order, and all its themes are counted. If no theme is named
twice in the records of the run, the issues are the warnings of the run: the types that are not known, and after
them the references that dangle. -/
theorem table_of_run {selector : String} {d : Doc} {request : Request} {generate log : Bool} {o : Outcome}
    (run : (Pipeline.run selector d request generate log).result = .ok o) (ok : o.ok = true) :
    ∃ t, o.table? = some t ∧ (table t).isValid = true ∧ (table t).themes = t.themes.size ∧
      (d.Keyed → ∀ records,
        (ThemeRecords.assemble d request.format request.theme request.modes).result = .ok records →
        Ordered.Distinct records → (table t).issues = o.warnings ∧
          o.warnings = t.unknownTypes.map Finding.issue ++ t.danglingReferences.map Finding.issue) := by
  obtain ⟨records, t, builds, built, warnings, -⟩ := Pipeline.built_of_run run ok
  have complete := Table.complete_of_ofRecords (ThemeRecords.isValid_iff.mp builds.valid).2 builds.made
  have valid := Table.isValid_toRecords builds.filled complete builds.typed
  have again : table t = (document t.toRecords.toDoc).merge (references t) := by
    rw [table, Table.tableRecords_eq, if_pos valid]
  have counted : (document t.toRecords.toDoc).themes = t.themes.size := by
    rw [themes_document valid]
    simp [themeCount, ThemeRecords.toDoc, ThemeRecords.toDocs, Table.toRecords, Roster.size]
  refine ⟨t, built, ?_, by rw [again]; exact counted, ?_⟩
  · rw [again, Report.isValid, Report.merge, List.all_append]
    exact Bool.and_eq_true_iff.mpr ⟨valid, builds.references⟩
  · intro keyed records' assembled distinct
    cases assembled.symm.trans builds.assembled
    have before := issues_of_documentFindings builds.valid
      (documentFindings_of_ofRecords builds.valid (ThemeRecords.keyed_of_assemble keyed assembled) distinct
        builds.made)
    have after := issues_of_documentFindings valid
      (documentFindings_of_ofRecords valid t.keyed_toRecords t.distinct_toRecords
        (Table.ofRecords_toRecords builds.namedCollections))
    rw [again, Report.merge, warnings, before, after, issues_references builds.references]
    exact ⟨rfl, rfl⟩

/-- A collection with a token of an unknown type that refers to nothing. -/
def shadowCollection : Doc :=
  .list [.object [("brand", .object [("modes", .object [
    ("light", .object [("soft", .object [("$type", .text "shadow"), ("$value", .text "{gone}")])]),
    ("dark", .object [])])])]]

theorem table_of_run_shadowCollection : ∃ o t,
    (Pipeline.run ":root" shadowCollection ⟨"figma", none, []⟩ false true).result = .ok o ∧ o.ok = true ∧
      o.table? = some t ∧ (table t).isValid = true ∧ (table t).issues = o.warnings ∧
      o.warnings.map Issue.code = ["UNKNOWN_TOKEN_TYPE", "DANGLING_REFERENCE"] := by
  have ran : (Pipeline.run ":root" shadowCollection ⟨"figma", none, []⟩ false true).result.toOption.any (fun o =>
      o.ok && decide (o.warnings.map Issue.code = ["UNKNOWN_TOKEN_TYPE", "DANGLING_REFERENCE"])) = true := by
    decide +kernel
  obtain ⟨o, run, both⟩ := exists_ok_of_any ran
  obtain ⟨ok, codes⟩ := Bool.and_eq_true_iff.mp both
  obtain ⟨t, built, valid, _, again⟩ := table_of_run run ok
  have json : shadowCollection.IsJson := by
    simp [shadowCollection, Doc.object, Doc.IsJson, Doc.AllJson, Doc.EntriesJson, Ordered.contains,
      Scalar.text_beq]
  have assembled : (ThemeRecords.assemble shadowCollection "figma" none []).result.toOption.any
      (fun records => records.length == 1) = true := by decide +kernel
  obtain ⟨records, made, one⟩ := exists_ok_of_any assembled
  obtain ⟨r, rfl⟩ := List.length_eq_one_iff.mp (beq_iff_eq.mp one)
  have same := again (Doc.keyed_of_isJson _ json) [r] made (List.pairwise_singleton _ r)
  exact ⟨o, t, run, ok, built, valid, same.1, of_decide_eq_true codes⟩

end Validation

end StyleTokens

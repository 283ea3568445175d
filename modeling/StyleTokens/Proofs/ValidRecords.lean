import StyleTokens.Export.Assembly
import StyleTokens.Validation
import StyleTokens.Proofs.RecordedTables
import StyleTokens.Proofs.ReferenceCycles

namespace StyleTokens

/-- An object with a type that is a text with characters, and a value that is no object, list or null. -/
def TokenShape (d : Doc) : Prop :=
  ∃ (entries : List (Scalar × Doc)) (type : String) (value : TokenValue), d = .mapping entries ∧
    Doc.get? entries RecordKey.type = some (.text type) ∧ type ≠ "" ∧
    Doc.get? entries RecordKey.value = some (.scalar value.toScalar)

/-- An object with a type that is a text with characters, and a value that is not null. -/
def Described (d : Doc) : Prop :=
  ∃ entries type value, d = .mapping entries ∧ Doc.get? entries RecordKey.type = some (.text type) ∧ type ≠ "" ∧
    Doc.get? entries RecordKey.value = some value ∧ value.isNull = false

theorem described_of_shape {d : Doc} (shape : TokenShape d) : Described d := by
  obtain ⟨entries, type, value, rfl, hty, hne, hv⟩ := shape
  exact ⟨entries, type, _, rfl, hty, hne, hv, by cases value <;> rfl⟩

/-- The name of a type as it is kept. -/
def currentName (s : String) : String := if s = legacyFloat then TokenType.dimension.name else s

theorem currentType_eq_text_iff {d : Doc} {n : String} :
    currentType d = .text n ↔ ∃ s, d = .text s ∧ n = currentName s := by
  unfold currentType
  split
  next s => simp [currentName, ← apply_ite, eq_comm]
  next noText =>
    constructor
    · intro h
      exact absurd h (noText n)
    · intro h
      obtain ⟨s, hs, _⟩ := h
      exact absurd hs (noText s)

theorem currentType_eq_self_iff {d : Doc} : currentType d = d ↔ d ≠ .text legacyFloat := by
  unfold currentType
  split
  next s =>
    have known : TokenType.dimension.name ≠ legacyFloat := by decide
    by_cases legacy : s = legacyFloat
    · simp [legacy, known]
    · simp [legacy]
  next noText => exact iff_of_true rfl (noText legacyFloat)

theorem currentName_ne_legacyFloat (s : String) : currentName s ≠ legacyFloat := by
  unfold currentName
  split
  next => decide
  next current => exact current

theorem currentName_ne_empty_iff {s : String} : currentName s ≠ "" ↔ s ≠ "" := by
  unfold currentName
  split
  next h => simp [h, legacyFloat, TokenType.name]
  next => rfl

/-- A type in a source that is a text with characters, and a value that is no object, list or null. -/
def Typed (type value : Doc) : Prop :=
  (∃ s, type = .text s ∧ s ≠ "") ∧ ∃ v : TokenValue, value = .scalar v.toScalar

/-- A token has its name, its type and its value from a source. -/
structure TokenOf (key : Scalar) (sourceType sourceValue : Doc) (collection : Option String) (t : Token) :
    Prop where
  name : key = .text t.name
  type : ∃ s, sourceType = .text s ∧ t.type = currentName s
  value : sourceValue = .scalar t.value.toScalar
  source : t.collection = collection

theorem Typed.exists_token {type value : Doc} (h : Typed type value) {name : String} (hne : name ≠ "")
    (collection : Option String) : ∃ t, TokenOf (.text name) type value collection t := by
  obtain ⟨⟨s, hs, _⟩, v, hv⟩ := h
  exact ⟨⟨name, currentName s, v, collection, hne⟩, rfl, ⟨s, hs, rfl⟩, hv, rfl⟩

section SourceRecords

variable {entries : List (Scalar × Doc)} {type value : Doc}

theorem tokenShape_iff (hty : Doc.get? entries RecordKey.type = some (currentType type))
    (hv : Doc.get? entries RecordKey.value = some value) :
    TokenShape (.mapping entries) ↔ Typed type value := by
  constructor
  · intro shape
    obtain ⟨_, n, v, he, hty', hne, hv'⟩ := shape
    cases he
    obtain ⟨s, hs, rfl⟩ := currentType_eq_text_iff.mp (Option.some.inj (hty.symm.trans hty'))
    exact ⟨⟨s, hs, currentName_ne_empty_iff.mp hne⟩, v, Option.some.inj (hv.symm.trans hv')⟩
  · intro typed
    obtain ⟨⟨s, hs, hne⟩, v, hval⟩ := typed
    have current : currentType type = .text (currentName s) := currentType_eq_text_iff.mpr ⟨s, hs, rfl⟩
    exact ⟨entries, currentName s, v, rfl, hty.trans (congrArg some current),
      currentName_ne_empty_iff.mpr hne, hv.trans (congrArg some hval)⟩

/-- A record with the current name of a type makes a token exactly if that is of the source. -/
theorem ofRecord_ok_iff_of_source {key : Scalar} {collection : Option String} {t : Token}
    (hty : Doc.get? entries RecordKey.type = some (currentType type))
    (hv : Doc.get? entries RecordKey.value = some value)
    (hc : Token.checkCollection (Doc.get? entries RecordKey.collection) = .ok collection) :
    Token.ofRecord key (.mapping entries) = .ok t ↔ TokenOf key type value collection t := by
  rw [Token.ofRecord_ok_iff]
  constructor
  · intro made
    obtain ⟨_, he, hn, hty', hv', hc'⟩ := made
    cases he
    refine ⟨hn, currentType_eq_text_iff.mp (Option.some.inj (hty.symm.trans hty')),
      Option.some.inj (hv.symm.trans hv'), ?_⟩
    exact Except.ok.inj (hc'.symm.trans hc)
  · intro source
    refine ⟨entries, rfl, source.name,
      hty.trans (congrArg some (currentType_eq_text_iff.mpr source.type)),
      hv.trans (congrArg some source.value), ?_⟩
    rw [hc, source.source]

end SourceRecords

/-- What an object has at the key of its modes; null if it has nothing there. -/
def Doc.modesIn : Doc → Doc
  | .mapping entries => (Doc.get? entries ExportKey.modes).getD .null
  | _ => .null

/-- The findings in a theme are of what it has at the key of its modes. -/
theorem Validation.theme_eq (name : Scalar) (d : Doc) : Validation.theme name d = match d.modesIn with
    | .mapping modes =>
      if requiredModes.any fun m => ((Doc.get? modes m).getD .null).isNull then [.missingMode name]
      else modes.flatMap fun p => Validation.mode name p.1 p.2
    | _ => [.missingModes name] := by
  cases d with
  | mapping entries =>
    simp only [Validation.theme, Doc.modesIn]
    cases Doc.get? entries ExportKey.modes with
    | none => rfl
    | some content => cases content <;> rfl
  | _ => rfl

/-- The content of a theme has these modes, and nothing is wrong with them. -/
structure ThemeShape (content : Doc) (modes : List (Scalar × Doc)) : Prop where
  held : content.modesIn = .mapping modes
  required : ∀ m ∈ requiredModes, ∃ c, Doc.get? modes m = some c ∧ c.isNull = false
  tokens : ∀ p ∈ modes, ∃ tokens, p.2 = .mapping tokens ∧ ∀ q ∈ tokens, TokenShape q.2

/-- There are only warnings among the findings. -/
def Finding.Harmless (fs : List Finding) : Prop := ∀ f ∈ fs, f.isError = false

theorem Finding.harmless_append {fs gs : List Finding} :
    Finding.Harmless (fs ++ gs) ↔ Finding.Harmless fs ∧ Finding.Harmless gs :=
  List.forall_mem_append

theorem Finding.harmless_error_iff {f : Finding} {P : Prop} (he : f.isError = true) (hP : ¬ P) :
    Finding.Harmless [f] ↔ P := by
  simp [Finding.Harmless, he, hP]

theorem Finding.all_upToError {fs : List Finding} :
    ((Finding.upToError fs).map Finding.issue).all (fun i => !i.isError) = true ↔ Finding.Harmless fs := by
  induction fs with
  | nil => simp [Finding.upToError, Finding.Harmless]
  | cons f rest ih =>
    have same : f.issue.isError = f.isError := rfl
    unfold Finding.upToError
    cases he : f.isError with
    | true => simp [Finding.Harmless, same, he]
    | false =>
      have head : Finding.Harmless (f :: rest) ↔ Finding.Harmless rest := by
        simp [Finding.Harmless, he]
      rw [head, ← ih]
      simp [same, he]

theorem Finding.upToError_append {fs : List Finding} (h : Finding.Harmless fs) (gs : List Finding) :
    Finding.upToError (fs ++ gs) = fs ++ Finding.upToError gs := by
  induction fs with
  | nil => rfl
  | cons f rest ih =>
    obtain ⟨head, tail⟩ := List.forall_mem_cons.mp h
    rw [List.cons_append, Finding.upToError, head, if_neg (by simp), ih tail, List.cons_append]

theorem Finding.upToError_of_harmless {fs : List Finding} (h : Finding.Harmless fs) :
    Finding.upToError fs = fs := by
  have whole := Finding.upToError_append h []
  rwa [List.append_nil, Finding.upToError, List.append_nil] at whole

theorem Finding.upToError_cons {f : Finding} (h : f.isError = true) (gs : List Finding) :
    Finding.upToError (f :: gs) = [f] :=
  if_pos h

theorem Finding.upToError_upToError_append (fs gs : List Finding) :
    Finding.upToError (Finding.upToError fs ++ Finding.upToError gs) = Finding.upToError (fs ++ gs) := by
  have whole : ∀ gs : List Finding, Finding.upToError (Finding.upToError gs) = Finding.upToError gs := by
    intro gs
    induction gs with
    | nil => rfl
    | cons g rest ih => cases hg : g.isError <;> simp [Finding.upToError, hg, ih]
  induction fs with
  | nil => exact whole gs
  | cons f rest ih => cases hf : f.isError <;> simp [Finding.upToError, hf, ih]

theorem Finding.upToError_append_congr {fs fs' gs gs' : List Finding}
    (h : Finding.upToError fs = Finding.upToError fs') (h' : Finding.upToError gs = Finding.upToError gs') :
    Finding.upToError (fs ++ gs) = Finding.upToError (fs' ++ gs') := by
  rw [← Finding.upToError_upToError_append, h, h', Finding.upToError_upToError_append]

/-- All things of a list have a property, or the list can be cut before the first that has not. -/
theorem Finding.mem_of_mem_upToError {fs : List Finding} {f : Finding}
    (h : f ∈ Finding.upToError fs) : f ∈ fs := by
  induction fs with
  | nil => simp [Finding.upToError] at h
  | cons g rest ih =>
    unfold Finding.upToError at h
    split at h
    · simp_all
    · rcases List.mem_cons.mp h with rfl | h
      · simp
      · exact List.mem_cons_of_mem g (ih h)

theorem Report.check_ok_iff {r : Report} : r.check = .ok () ↔ r.isValid = true := by
  have valid : r.isValid = true ↔ r.errors = [] := by
    simp [Report.isValid, Report.errors, List.filter_eq_nil_iff]
  rw [valid]
  unfold Report.check
  split
  next h => simp [h]
  next h => simp [h]

theorem Report.warnings_of_isValid {r : Report} (valid : r.isValid = true) : r.warnings = r.issues :=
  List.filter_eq_self.mpr (List.all_eq_true.mp valid)

theorem Report.check_error {r : Report} {f : Failure} (h : r.check = .error f) :
    ∃ issue ∈ r.issues, issue.isError = true ∧ f = .rejected issue := by
  unfold Report.check at h
  split at h
  next => cases h
  next issue rest he =>
    cases h
    have hm : issue ∈ r.errors := by simp [he]
    obtain ⟨listed, error⟩ := List.mem_filter.mp hm
    exact ⟨issue, listed, error, rfl⟩

theorem Validation.isValid_document {d : Doc} :
    (Validation.document d).isValid = true ↔ Finding.Harmless (Validation.documentFindings d) :=
  Finding.all_upToError

theorem Validation.token?_of_not_described {d : Doc} (undescribed : ¬ Described d) (theme mode name : Scalar) :
    Validation.token? theme mode name d = some (.missingTypeOrValue theme mode name) := by
  unfold Validation.token?
  split
  next entries =>
    split
    next type value hty hv =>
      split
      next => rfl
      next filled =>
        obtain ⟨hne, present⟩ := not_or.mp filled
        exact absurd ⟨entries, type, value, rfl, hty, hne, hv, Bool.not_eq_true _ ▸ present⟩ undescribed
    next => rfl
  next => rfl

theorem Validation.token?_of_not_shape {d : Doc} (described : Described d) (off : ¬ TokenShape d) (theme mode name : Scalar) :
    Validation.token? theme mode name d = some (.invalidValue theme mode name) := by
  obtain ⟨entries, type, value, rfl, hty, hne, hv, present⟩ := described
  simp only [Validation.token?, hty, hv, hne, present, Bool.false_eq_true, or_self, if_false]
  cases value with
  | scalar s =>
    have refused : TokenValue.ofScalar? s = none := by
      refine Option.eq_none_iff_forall_ne_some.mpr fun v hs => off ⟨entries, type, v, rfl, hty, hne, ?_⟩
      rw [hv, TokenValue.ofScalar?_eq_some_iff.mp hs]
    simp only [refused, Option.isNone_none, if_true]
  | _ => rfl

/-- In a token nothing can be found but that its type is unknown. -/
theorem Validation.token?_of_entries {entries : List (Scalar × Doc)} {type : String} {value : TokenValue}
    (hty : Doc.get? entries RecordKey.type = some (.text type)) (hne : type ≠ "")
    (hv : Doc.get? entries RecordKey.value = some (.scalar value.toScalar)) (theme mode name : Scalar) :
    Validation.token? theme mode name (.mapping entries) =
      if isSourceType type then none else some (.unknownType theme mode name type) := by
  have present : (Doc.scalar value.toScalar).isNull = false := by cases value <;> rfl
  have admitted : TokenValue.ofScalar? value.toScalar = some value := TokenValue.ofScalar?_eq_some_iff.mpr rfl
  simp only [Validation.token?, hty, hv, hne, present, admitted, Bool.false_eq_true, or_self, if_false,
    Option.isNone_some]

theorem Validation.harmless_token {theme mode name : Scalar} {d : Doc} :
    Finding.Harmless (Validation.token? theme mode name d).toList ↔ TokenShape d := by
  by_cases described : Described d
  · by_cases shape : TokenShape d
    · refine iff_of_true ?_ shape
      obtain ⟨entries, type, value, rfl, hty, hne, hv⟩ := shape
      rw [Validation.token?_of_entries hty hne hv]
      split
      · simp [Finding.Harmless]
      · simp [Finding.Harmless, Finding.isError, Finding.severity]
    · rw [Validation.token?_of_not_shape described shape]
      exact Finding.harmless_error_iff rfl shape
  · rw [Validation.token?_of_not_described described]
    exact Finding.harmless_error_iff rfl (mt described_of_shape described)

theorem Validation.harmless_mode {theme name : Scalar} {d : Doc} :
    Finding.Harmless (Validation.mode theme name d) ↔
      ∃ tokens, d = .mapping tokens ∧ ∀ q ∈ tokens, TokenShape q.2 := by
  unfold Validation.mode
  split
  next tokens =>
    have each : Finding.Harmless (tokens.filterMap fun p => Validation.token? theme name p.1 p.2) ↔
        ∀ q ∈ tokens, Finding.Harmless (Validation.token? theme name q.1 q.2).toList := by
      simp only [Finding.Harmless, List.mem_filterMap, Option.mem_toList]
      constructor
      · intro h q hq f hf
        exact h f ⟨q, hq, hf⟩
      · intro h f hx
        obtain ⟨q, hq, hf⟩ := hx
        exact h q hq f hf
    rw [each]
    simp only [Validation.harmless_token]
    constructor
    · intro h
      exact ⟨tokens, rfl, h⟩
    · intro h
      obtain ⟨_, he, h⟩ := h
      cases he
      exact h
  next noMapping =>
    refine Finding.harmless_error_iff rfl ?_
    intro h
    obtain ⟨tokens, rfl, _⟩ := h
    exact noMapping tokens rfl

theorem missing_iff {modes : List (Scalar × Doc)} {m : String} :
    ((Doc.get? modes m).getD .null).isNull = false ↔
      ∃ c, Doc.get? modes m = some c ∧ c.isNull = false := by
  cases Doc.get? modes m with
  | none => simp [Doc.isNull]
  | some c => simp

/-- No required mode is missing. -/
theorem none_missing_iff {modes : List (Scalar × Doc)} :
    (requiredModes.any fun m => ((Doc.get? modes m).getD .null).isNull) = false ↔
      ∀ m ∈ requiredModes, ∃ c, Doc.get? modes m = some c ∧ c.isNull = false := by
  simp only [List.any_eq_false, Bool.not_eq_true, missing_iff]

/-- A theme is found to be in order exactly if its content has the shape of one. -/
theorem Validation.harmless_theme {name : Scalar} {content : Doc} :
    Finding.Harmless (Validation.theme name content) ↔ ∃ modes, ThemeShape content modes := by
  rw [Validation.theme_eq]
  split
  next modes held =>
    split
    next missing =>
      refine Finding.harmless_error_iff rfl ?_
      intro h
      obtain ⟨_, shape⟩ := h
      cases held.symm.trans shape.held
      rw [none_missing_iff.mpr shape.required] at missing
      cases missing
    next present =>
      have required := none_missing_iff.mp (Bool.eq_false_iff.mpr present)
      have each : Finding.Harmless (modes.flatMap fun p => Validation.mode name p.1 p.2) ↔
          ∀ p ∈ modes, Finding.Harmless (Validation.mode name p.1 p.2) :=
        List.forall_mem_flatMap
      rw [each]
      simp only [Validation.harmless_mode]
      constructor
      · intro h
        exact ⟨modes, held, required, h⟩
      · intro h
        obtain ⟨_, shape⟩ := h
        cases held.symm.trans shape.held
        exact shape.tokens
  next noModes =>
    refine Finding.harmless_error_iff rfl ?_
    intro h
    obtain ⟨modes, shape⟩ := h
    exact noModes modes shape.held

/-- The findings in one theme record. -/
def Validation.record (index : Nat) : Doc → List Finding
  | .mapping ((name, content) :: _) => Validation.theme name content
  | _ => [.invalidThemeRecord index]

theorem Validation.harmless_record {index : Nat} {d : Doc} :
    Finding.Harmless (Validation.record index d) ↔
      ∃ name content rest modes, d = .mapping ((name, content) :: rest) ∧ ThemeShape content modes := by
  unfold Validation.record
  split
  next name content rest =>
    rw [Validation.harmless_theme]
    constructor
    · intro h
      obtain ⟨modes, shape⟩ := h
      exact ⟨name, content, rest, modes, rfl, shape⟩
    · intro h
      obtain ⟨_, _, _, modes, he, shape⟩ := h
      cases he
      exact ⟨modes, shape⟩
  next noRecord =>
    refine Finding.harmless_error_iff rfl ?_
    intro h
    obtain ⟨name, content, rest, _, he, _⟩ := h
    exact noRecord name content rest he

theorem Validation.records_cons (index : Nat) (d : Doc) (rest : List Doc) :
    Validation.records index (d :: rest) =
      Validation.record index d ++ Validation.records (index + 1) rest := by
  rcases d with _ | _ | (_ | ⟨⟨_, _⟩, _⟩) | _ <;> simp [Validation.records, Validation.record]

theorem Validation.harmless_records {index : Nat} {ds : List Doc} :
    Finding.Harmless (Validation.records index ds) ↔
      ∀ d ∈ ds, ∃ name content rest modes,
        d = .mapping ((name, content) :: rest) ∧ ThemeShape content modes := by
  induction ds generalizing index with
  | nil => simp [Validation.records, Finding.Harmless]
  | cons d rest ih =>
    rw [Validation.records_cons, Finding.harmless_append, ih, Validation.harmless_record,
      List.forall_mem_cons]

/-- A document is found to be in order exactly if it lists themes and each has the shape of one. -/
theorem Validation.isValid_document_iff {d : Doc} :
    (Validation.document d).isValid = true ↔
      ∃ items, d = .list items ∧ items ≠ [] ∧
        ∀ item ∈ items, ∃ name content rest modes,
          item = .mapping ((name, content) :: rest) ∧ ThemeShape content modes := by
  rw [Validation.isValid_document]
  unfold Validation.documentFindings
  split
  next =>
    refine Finding.harmless_error_iff rfl ?_
    intro h
    obtain ⟨items, he, hne, _⟩ := h
    cases he
    exact hne rfl
  next items filled =>
    rw [Validation.harmless_records]
    constructor
    · intro h
      exact ⟨items, rfl, filled, h⟩
    · intro h
      obtain ⟨_, he, _, h⟩ := h
      cases he
      exact h
  next noList =>
    refine Finding.harmless_error_iff rfl ?_
    intro h
    obtain ⟨items, he, _, _⟩ := h
    exact noList items he

theorem ThemeRecords.isValid_iff {records : ThemeRecords} :
    (Validation.document records.toDoc).isValid = true ↔
      records ≠ [] ∧ ∀ r ∈ records, ∃ modes, ThemeShape r.2 modes := by
  rw [Validation.isValid_document_iff]
  constructor
  · intro h
    obtain ⟨items, he, hne, h⟩ := h
    cases he
    refine ⟨by rintro rfl; exact hne rfl, ?_⟩
    intro r hr
    obtain ⟨name, content, _, modes, he, shape⟩ := h (.mapping [r]) (List.mem_map.mpr ⟨r, hr, rfl⟩)
    cases he
    exact ⟨modes, shape⟩
  · intro h
    obtain ⟨hne, h⟩ := h
    refine ⟨records.toDocs, rfl, by simpa [ThemeRecords.toDocs] using hne, ?_⟩
    intro item hi
    obtain ⟨r, hr, rfl⟩ := List.mem_map.mp hi
    obtain ⟨modes, shape⟩ := h r hr
    exact ⟨r.1, r.2, [], modes, rfl, shape⟩

/-- The finding is about the references of a mode. -/
def Finding.aboutReferences : Finding → Bool
  | circularReference _ _ _ | danglingReference _ _ _ _ => true
  | _ => false

theorem Finding.code_ne_of_aboutReferences {f g : Finding} (hf : f.aboutReferences = false)
    (hg : g.aboutReferences = true) : g.code ≠ f.code := by
  cases g <;> cases f <;> simp_all [Finding.aboutReferences, Finding.code]

theorem Validation.aboutReferences_token {theme mode name : Scalar} {d : Doc} {f : Finding}
    (h : Validation.token? theme mode name d = some f) : f.aboutReferences = false := by
  unfold Validation.token? at h
  repeat' split at h
  all_goals cases h
  all_goals rfl

theorem Validation.aboutReferences_mode {theme name : Scalar} {d : Doc} :
    ∀ f ∈ Validation.mode theme name d, f.aboutReferences = false := by
  intro f hf
  unfold Validation.mode at hf
  split at hf
  next =>
    obtain ⟨p, _, hp⟩ := List.mem_filterMap.mp hf
    exact Validation.aboutReferences_token hp
  next =>
    cases List.mem_singleton.mp hf
    rfl

theorem Validation.aboutReferences_theme {name : Scalar} {content : Doc} :
    ∀ f ∈ Validation.theme name content, f.aboutReferences = false := by
  intro f hf
  unfold Validation.theme at hf
  repeat' split at hf
  next =>
    cases List.mem_singleton.mp hf
    rfl
  next =>
    obtain ⟨p, _, hp⟩ := List.mem_flatMap.mp hf
    exact Validation.aboutReferences_mode f hp
  all_goals
    cases List.mem_singleton.mp hf
    rfl

theorem Validation.aboutReferences_records {index : Nat} {ds : List Doc} :
    ∀ f ∈ Validation.records index ds, f.aboutReferences = false := by
  induction ds generalizing index with
  | nil => simp [Validation.records]
  | cons d rest ih =>
    rw [Validation.records_cons]
    refine List.forall_mem_append.mpr ⟨?_, ih⟩
    intro f hf
    unfold Validation.record at hf
    split at hf
    next => exact Validation.aboutReferences_theme f hf
    next =>
      cases List.mem_singleton.mp hf
      rfl

/-- No finding in a document is about its references. -/
theorem Validation.aboutReferences_documentFindings {d : Doc} :
    ∀ f ∈ Validation.documentFindings d, f.aboutReferences = false := by
  intro f hf
  unfold Validation.documentFindings at hf
  split at hf
  next =>
    cases List.mem_singleton.mp hf
    rfl
  next => exact Validation.aboutReferences_records f hf
  next =>
    cases List.mem_singleton.mp hf
    rfl

theorem Validation.aboutReferences_modeReferences {theme : String} {m : Mode} :
    ∀ f ∈ Validation.modeReferences theme m, f.aboutReferences = true := by
  intro f hf
  unfold Validation.modeReferences at hf
  split at hf
  next =>
    cases List.mem_singleton.mp hf
    rfl
  next =>
    obtain ⟨p, _, rfl⟩ := List.mem_map.mp hf
    rfl

theorem Validation.harmless_modeReferences {theme : String} {m : Mode} :
    Finding.Harmless (Validation.modeReferences theme m) ↔ m.cycles = [] := by
  unfold Validation.modeReferences
  split
  next cycle rest he =>
    refine Finding.harmless_error_iff rfl ?_
    rw [he]
    simp
  next he =>
    refine iff_of_true ?_ he
    intro f hf
    obtain ⟨p, _, rfl⟩ := List.mem_map.mp hf
    rfl

/-- The references of a table are found to be in order exactly if no mode has a cycle. -/
theorem Validation.isValid_references_iff {t : Table} :
    (Validation.references t).isValid = true ↔
      ∀ theme ∈ t.themes.items, ∀ m ∈ theme.modes.items, m.Acyclic := by
  have start : (Validation.references t).isValid = true ↔
      Finding.Harmless (t.modes.flatMap fun p => Validation.modeReferences p.1 p.2) :=
    Finding.all_upToError
  have each : Finding.Harmless (t.modes.flatMap fun p => Validation.modeReferences p.1 p.2) ↔
      ∀ p ∈ t.modes, Finding.Harmless (Validation.modeReferences p.1 p.2) :=
    List.forall_mem_flatMap
  rw [start, each]
  simp only [Validation.harmless_modeReferences, Mode.cycles_eq_nil_iff]
  simp only [Table.modes, List.forall_mem_flatMap, List.forall_mem_map]

theorem Mode.mem_dangling_iff {m : Mode} {name ref : String} :
    (name, ref) ∈ m.dangling ↔
      ∃ t ∈ m.tokens.items, t.name = name ∧ ref ∈ t.value.references ∧ m.tokens.contains ref = false := by
  simp only [Mode.dangling, List.mem_flatMap, List.mem_map, List.mem_filter, Prod.mk.injEq]
  grind

theorem Validation.modeReferences_of_acyclic {theme : String} {m : Mode} (acyclic : m.Acyclic) :
    Validation.modeReferences theme m =
      m.dangling.map fun p => .danglingReference theme m.name p.1 p.2 := by
  simp only [Validation.modeReferences, (Mode.cycles_eq_nil_iff m).mpr acyclic]

/-- The references in a table that name no token of their mode, mode by mode. -/
def Table.danglingReferences (t : Table) : List Finding :=
  t.modes.flatMap fun p => p.2.dangling.map fun q => .danglingReference p.1 p.2.name q.1 q.2

/-- References that are in order have for issues those of them that dangle. -/
theorem Validation.issues_references {t : Table} (valid : (Validation.references t).isValid = true) :
    (Validation.references t).issues = t.danglingReferences.map Finding.issue := by
  have harmless : Finding.Harmless (t.modes.flatMap fun p => Validation.modeReferences p.1 p.2) :=
    Finding.all_upToError.mp valid
  have acyclic : ∀ p ∈ t.modes, p.2.Acyclic := by
    intro p hp
    obtain ⟨theme, ht, hp⟩ := List.mem_flatMap.mp hp
    obtain ⟨m, hm, rfl⟩ := List.mem_map.mp hp
    exact Validation.isValid_references_iff.mp valid theme ht m hm
  have dangling : (t.modes.flatMap fun p => Validation.modeReferences p.1 p.2) = t.danglingReferences :=
    List.flatMap_congr fun p hp => Validation.modeReferences_of_acyclic (acyclic p hp)
  simp only [Validation.references]
  rw [Finding.upToError_of_harmless harmless, dangling]

end StyleTokens

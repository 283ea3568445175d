import StyleTokens.Proofs.CollectionTables

namespace StyleTokens

namespace Collections

theorem currentName_eq_of_unknown {s : String} (h : isSourceType s = false) : currentName s = s := by
  unfold currentName
  split
  next legacy => simp [isSourceType, legacy] at h
  next => rfl

theorem isSourceType_currentName (s : String) : isSourceType (currentName s) = isSourceType s := by
  unfold currentName
  split
  next legacy =>
    subst legacy
    decide
  next => rfl

/-- An entry with the shape of a token is kept, and the same is found in it as before. -/
theorem token?_entryAsKept {collection theme mode name : Scalar} {d : Doc} (shape : TokenShape d) :
    ∃ kept, entryAsKept? collection d = some kept ∧
      Validation.token? theme mode name kept = Validation.token? theme mode name d := by
  obtain ⟨entries, type, value, rfl, hty, hne, hv⟩ := shape
  have current : currentType (.text type) = .text (currentName type) :=
    currentType_eq_text_iff.mpr ⟨type, rfl, rfl⟩
  have hne' : currentName type ≠ "" := currentName_ne_empty_iff.mpr hne
  refine ⟨_, by simp only [entryAsKept?, hty, hv]; rfl, ?_⟩
  have keptType : Doc.get? (Ordered.insert (Ordered.insert entries (.text RecordKey.type)
      (currentType (.text type))) (.text RecordKey.collection) (.scalar collection)) RecordKey.type =
        some (.text (currentName type)) := by
    simp [get?_insert, RecordKey.type, RecordKey.collection, ← current]
  have keptValue : Doc.get? (Ordered.insert (Ordered.insert entries (.text RecordKey.type)
      (currentType (.text type))) (.text RecordKey.collection) (.scalar collection)) RecordKey.value =
        some (.scalar value.toScalar) := by
    simp [get?_insert, RecordKey.type, RecordKey.collection, RecordKey.value, ← hv]
  rw [Validation.token?_of_entries keptType hne' keptValue, Validation.token?_of_entries hty hne hv,
    isSourceType_currentName]
  cases known : isSourceType type with
  | true => rfl
  | false => rw [currentName_eq_of_unknown known]

end Collections

namespace Collections

/-- The entries of two lists of modes have the same names in the same order, mode by mode. -/
def SameEntries (modes kept : List (Scalar × Doc)) : Prop :=
  List.Forall₂ (fun p q => p.1 = q.1 ∧ ∃ tokens tokens', p.2 = .mapping tokens ∧ q.2 = .mapping tokens' ∧
    Ordered.keys tokens = Ordered.keys tokens') modes kept

/-- No entry of a mode is left out when the collections of a document are normalized. -/
def DropsNothing (d : Doc) : Prop :=
  ∃ docs records, d = .list docs ∧ normalize d = .ok records ∧
    List.Forall₂ (fun item r => ∃ content rest modes kept, item = .mapping ((r.1, content) :: rest) ∧
      content.modesIn = .mapping modes ∧ r.2.modesIn = .mapping kept ∧ SameEntries modes kept) docs records

theorem mode_keepMode (collection theme name : Scalar) {tokens : List (Scalar × Doc)}
    (shapes : ∀ q ∈ tokens, TokenShape q.2) :
    ∃ kept, keepMode collection (.mapping tokens) = .mapping kept ∧
      Ordered.keys tokens = Ordered.keys kept ∧
      Validation.mode theme name (.mapping kept) = Validation.mode theme name (.mapping tokens) := by
  refine ⟨_, rfl, ?_⟩
  simp only [Validation.mode]
  induction tokens with
  | nil => exact ⟨rfl, rfl⟩
  | cons q rest ih =>
    obtain ⟨shape, later⟩ := List.forall_mem_cons.mp shapes
    obtain ⟨d, hd, same⟩ : ∃ d, entryAsKept? collection q.2 = some d ∧
        Validation.token? theme name q.1 d = Validation.token? theme name q.1 q.2 :=
      token?_entryAsKept shape
    obtain ⟨keys, found⟩ := ih later
    rw [List.filterMap_cons_some (b := (q.1, d)) (by simp [hd])]
    refine ⟨congrArg (q.1 :: ·) keys, ?_⟩
    simp only [List.filterMap_cons, same, found]

theorem sameEntries_keptModes {collection : Scalar} {modes : List (Scalar × Doc)}
    (tokens : ∀ p ∈ modes, ∃ tokens, p.2 = .mapping tokens ∧ ∀ q ∈ tokens, TokenShape q.2) :
    SameEntries modes (keptModes collection modes) := by
  rw [SameEntries, keptModes, List.forall₂_map_right_iff]
  refine List.forall₂_same.mpr ?_
  intro p hp
  obtain ⟨entries, he, shapes⟩ := tokens p hp
  obtain ⟨kept, hk, keys, _⟩ := mode_keepMode collection .null .null shapes
  exact ⟨rfl, entries, kept, he, he ▸ hk, keys⟩

theorem get?_modes_of_modesIn {content : Doc} {modes : List (Scalar × Doc)}
    (h : content.modesIn = .mapping modes) :
    ∃ entries, content = .mapping entries ∧ Doc.get? entries ExportKey.modes = some (.mapping modes) := by
  cases content with
  | mapping entries =>
    refine ⟨entries, rfl, ?_⟩
    cases hg : Doc.get? entries ExportKey.modes with
    | none =>
      simp only [Doc.modesIn, hg] at h
      cases h
    | some d =>
      simp only [Doc.modesIn, hg, Option.getD_some] at h
      rw [h]
  | _ => cases h

/-- In a theme that is in order the same is found before and after its modes are kept. -/
theorem theme_keepCollection {collection name : Scalar} {content : Doc} {modes : List (Scalar × Doc)}
    (shape : ThemeShape content modes) :
    Validation.theme name (keepCollection collection content) = Validation.theme name content := by
  obtain ⟨entries, rfl, hm⟩ := get?_modes_of_modesIn shape.held
  have missing : (requiredModes.any fun m => ((Doc.get? (keptModes collection modes) m).getD .null).isNull) =
      requiredModes.any fun m => ((Doc.get? modes m).getD .null).isNull := by
    congr 1
    funext m
    have found : Doc.get? (keptModes collection modes) m = (Doc.get? modes m).map (keepMode collection) :=
      Ordered.find?_map modes (keepMode collection) (.text m)
    rw [found]
    cases Doc.get? modes m with
    | none => rfl
    | some d => exact isNull_keepMode collection d
  have each : ((keptModes collection modes).flatMap fun p => Validation.mode name p.1 p.2) =
      modes.flatMap fun p => Validation.mode name p.1 p.2 := by
    rw [keptModes, List.flatMap_map]
    refine List.flatMap_congr fun p hp => ?_
    obtain ⟨tokens, ht, shapes⟩ := shape.tokens p hp
    obtain ⟨_, hk, _, found⟩ := mode_keepMode collection name p.1 shapes
    rw [ht, hk, found]
  rw [Validation.theme_eq, Validation.theme_eq, modesIn_keepCollection hm, shape.held]
  simp only [missing, each]

/-- A record is of the first key of an item, with the content there as it is kept. -/
def KeptFrom (item : Doc) (r : Scalar × Doc) : Prop :=
  ∃ content rest, item = .mapping ((r.1, content) :: rest) ∧ r.2 = keepCollection r.1 content

theorem keepItem_ok_iff {index : Nat} {d : Doc} {r : Scalar × Doc} :
    keepItem index d = .ok r ↔ KeptFrom d r := by
  constructor
  · intro h
    unfold keepItem at h
    split at h
    next name content rest =>
      cases h
      exact ⟨content, rest, rfl, rfl⟩
    next => cases h
  · intro h
    obtain ⟨content, rest, rfl, hr⟩ := h
    rw [keepItem, ← hr]

theorem keepItems_ok_iff {index : Nat} {docs : List Doc} {records : List (Scalar × Doc)} :
    keepItems index docs = .ok records ↔ List.Forall₂ KeptFrom docs records := by
  induction docs generalizing index records with
  | nil => simp [keepItems, eq_comm]
  | cons d rest ih =>
    rw [keepItems_cons_ok_iff, List.forall₂_cons_left_iff]
    simp only [keepItem_ok_iff, ih]

theorem exists_keptFrom {docs : List Doc} (shapes : ∀ d ∈ docs, ∃ name content rest modes,
      d = .mapping ((name, content) :: rest) ∧ ThemeShape content modes) :
    ∃ records, List.Forall₂ KeptFrom docs records := by
  induction docs with
  | nil => exact ⟨[], .nil⟩
  | cons d rest ih =>
    obtain ⟨⟨name, content, more, _, rfl, _⟩, later⟩ := List.forall_mem_cons.mp shapes
    obtain ⟨records, all⟩ := ih later
    exact ⟨(name, keepCollection name content) :: records, .cons ⟨content, more, rfl, rfl⟩ all⟩

theorem records_kept {docs : List Doc} {records : ThemeRecords} (kept : List.Forall₂ KeptFrom docs records)
    (shapes : ∀ d ∈ docs, ∃ name content rest modes,
      d = .mapping ((name, content) :: rest) ∧ ThemeShape content modes) (index : Nat) :
    Validation.records index records.toDocs = Validation.records index docs := by
  induction kept generalizing index with
  | nil => rfl
  | @cons d r docs records hd _ ih =>
    obtain ⟨⟨name, content, rest, modes, he, shape⟩, later⟩ := List.forall_mem_cons.mp shapes
    obtain ⟨content', rest', he', hr⟩ := hd
    cases he.symm.trans he'
    have docs_cons : ThemeRecords.toDocs (r :: records) = .mapping [r] :: ThemeRecords.toDocs records := rfl
    have same : Validation.record index (.mapping [r]) =
        Validation.record index (.mapping ((r.1, content) :: rest)) := by
      simp only [Validation.record, hr]
      exact theme_keepCollection shape
    rw [docs_cons, Validation.records_cons, Validation.records_cons, he, same, ih later]

/-- Collections that are in order as they were exported are normalized, nothing is left out, and the report on
the records is the one on the export. -/
theorem normalize_of_isValid {d : Doc} (valid : (Validation.document d).isValid = true) :
    ∃ records : ThemeRecords, normalize d = .ok records ∧
      Validation.document records.toDoc = Validation.document d ∧ DropsNothing d := by
  obtain ⟨docs, rfl, filled, shapes⟩ := Validation.isValid_document_iff.mp valid
  obtain ⟨records, kept⟩ := exists_keptFrom shapes
  have normal : normalize (.list docs) = .ok records := keepItems_ok_iff.mpr kept
  refine ⟨records, normal, ?_, docs, records, rfl, normal, ?_⟩
  · have found : Validation.documentFindings (ThemeRecords.toDoc records) =
        Validation.documentFindings (.list docs) := by
      cases kept with
      | nil => exact absurd rfl filled
      | cons hd rest => exact records_kept (.cons hd rest) shapes 0
    have count : Validation.themeCount (ThemeRecords.toDoc records) = Validation.themeCount (.list docs) := by
      simp [Validation.themeCount, ThemeRecords.toDoc, ThemeRecords.toDocs, kept.length_eq]
    simp only [Validation.document, found, count]
  · refine ((List.forall₂_and_left _ _).mpr ⟨shapes, kept⟩).imp ?_
    intro item r h
    obtain ⟨⟨name, content, rest, modes, rfl, shape⟩, content', rest', he, hr⟩ := h
    cases he
    obtain ⟨entries, rfl, hm⟩ := get?_modes_of_modesIn shape.held
    exact ⟨_, rest, modes, keptModes r.1 modes, rfl, shape.held, hr ▸ modesIn_keepCollection hm,
      sameEntries_keptModes shape.tokens⟩

end Collections

end StyleTokens

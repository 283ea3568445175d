import StyleTokens.Proofs.RereadTables
import StyleTokens.Proofs.RevalidatedTables

namespace StyleTokens

/-- A token with the names of the theme and the mode in which it stands. -/
structure Placed where
  theme : String
  mode : String
  token : Token

/-- The warning that a token has an unknown type. -/
def Placed.typeWarning (p : Placed) : Issue :=
  (Finding.unknownType (.text p.theme) (.text p.mode) (.text p.token.name) p.token.type).issue

def Mode.placed (theme : String) (m : Mode) : List Placed := m.tokens.items.map fun t => ⟨theme, m.name, t⟩

/-- The tokens of a table in order. -/
def Table.placed (t : Table) : List Placed := t.modes.flatMap fun p => p.2.placed p.1

/-- The warnings of a report about unknown types. -/
def Report.typeWarnings (r : Report) : List Issue := r.warnings.filter fun i => i.code = "UNKNOWN_TOKEN_TYPE"

/-- A part of a filtered list that is selected once more is the whole of it exactly if the second selection takes all that
the first takes. -/
theorem map_filter_and_eq_iff {α β : Type} {p q : α → Prop} [DecidablePred p] [DecidablePred q] {f : α → β} {xs : List α} :
    (xs.filter fun x => p x ∧ q x).map f = (xs.filter fun x => p x).map f ↔ ∀ x ∈ xs, p x → q x := by
  have twice : (xs.filter fun x => p x ∧ q x) = (xs.filter fun x => p x).filter fun x => q x := by
    simp [List.filter_filter, Bool.and_comm]
  have all : (∀ x ∈ xs, p x → q x) ↔ ∀ x ∈ xs.filter fun x => p x, decide (q x) = true := by simp
  rw [twice, all]
  constructor
  · -- nothing is known of the map, but if something is left out its list is shorter
    intro same
    exact List.length_filter_eq_length_iff.mp (by simpa using congrArg List.length same)
  · intro taken
    rw [List.filter_eq_self.mpr taken]

theorem Mode.issues_unknownTypes (theme : String) (m : Mode) : (m.unknownTypes theme).map Finding.issue =
    ((m.placed theme).filter fun p => !isSourceType p.token.type).map Placed.typeWarning := by
  rw [unknownTypes, placed]
  induction m.tokens.items with
  | nil => rfl
  | cons t rest ih =>
    cases known : isSourceType t.type with
    | true =>
      have silent : t.unknownType? theme m.name = none := if_pos known
      simpa [List.filterMap_cons_none silent, known] using ih
    | false =>
      have warned : t.unknownType? theme m.name =
          some (.unknownType (.text theme) (.text m.name) (.text t.name) t.type) := by
        simp [Token.unknownType?, known]
      simpa [List.filterMap_cons_some warned, known, Placed.typeWarning] using ih

theorem Table.issues_unknownTypes (t : Table) : t.unknownTypes.map Finding.issue =
    (t.placed.filter fun p => !isSourceType p.token.type).map Placed.typeWarning := by
  simp only [unknownTypes, Theme.unknownTypes, placed, modes, List.map_flatMap, List.filter_flatMap, List.flatMap_assoc,
    List.flatMap_map, Mode.issues_unknownTypes]

theorem Table.unknownTypes_forgetEmpty (t : Table) : t.forgetEmpty.unknownTypes = t.unknownTypes := by
  simp only [unknownTypes, Theme.unknownTypes, Mode.unknownTypes, forgetEmpty, Theme.forgetEmpty, Mode.forgetEmpty,
    Roster.mapItems, List.flatMap_map, List.filterMap_map]
  rfl

theorem Table.code_unknownTypes (t : Table) :
    ∀ i ∈ t.unknownTypes.map Finding.issue, decide (i.code = "UNKNOWN_TOKEN_TYPE") = true := by
  intro i hi
  rw [t.issues_unknownTypes] at hi
  obtain ⟨p, _, rfl⟩ := List.mem_map.mp hi
  rfl

theorem Table.code_danglingReferences (t : Table) :
    ∀ i ∈ t.danglingReferences.map Finding.issue, ¬ decide (i.code = "UNKNOWN_TOKEN_TYPE") = true := by
  intro i hi
  obtain ⟨f, hf, rfl⟩ := List.mem_map.mp hi
  obtain ⟨m, _, hf⟩ := List.mem_flatMap.mp hf
  obtain ⟨q, _, rfl⟩ := List.mem_map.mp hf
  simp [Finding.issue, Finding.code]

theorem Token.knownType?_eq_none_iff (t : Token) : t.knownType? = none ↔ ∀ type : TokenType, type.name ≠ t.type := by
  have listed : ∀ type : TokenType, type ∈ TokenType.all := by
    intro type
    cases type <;> decide
  simp [knownType?, TokenType.ofName?, listed]

/-- A source may not use a type that is not known, but for the old name of a dimension. -/
theorem Token.not_isSourceType_eq (t : Token) :
    (!isSourceType t.type) = decide (t.knownType? = none ∧ t.type ≠ legacyFloat) := by
  rw [Bool.eq_iff_iff, decide_eq_true_iff]
  simp [isSourceType, knownType?]

theorem Table.toRecords_forgetEmpty (t : Table) : t.forgetEmpty.toRecords = t.toRecords := by
  simp only [toRecords, forgetEmpty, Roster.mapItems, List.map_map, Function.comp_def, Theme.toDoc_forgetEmpty,
    Theme.name_forgetEmpty]

namespace Validation

variable {t : Table}

/-- What is found in the records of a table that are in order are its unknown types. -/
theorem documentFindings_toRecords (valid : (document t.toRecords.toDoc).isValid = true) :
    documentFindings t.toRecords.toDoc = t.unknownTypes := by
  -- the records do not show empty names of collections, so they are those of a table that has none
  rw [← t.toRecords_forgetEmpty] at valid ⊢
  rw [← t.unknownTypes_forgetEmpty]
  exact documentFindings_of_ofRecords valid t.forgetEmpty.keyed_toRecords t.forgetEmpty.distinct_toRecords
    (Table.ofRecords_toRecords t.namedCollections_forgetEmpty)

theorem isValid_document_of_isValid_table (valid : (table t).isValid = true) :
    (document t.toRecords.toDoc).isValid = true := by
  rw [table, Table.tableRecords_eq] at valid
  split at valid
  next structural => exact structural
  next broken => exact absurd valid broken

/-- The issues of a table that is in order are its unknown types, and after them the references that dangle. -/
theorem issues_table (valid : (table t).isValid = true) :
    (table t).issues = t.unknownTypes.map Finding.issue ++ t.danglingReferences.map Finding.issue := by
  have structural := isValid_document_of_isValid_table valid
  have merged : table t = (document t.toRecords.toDoc).merge (references t) := by
    rw [table, Table.tableRecords_eq, if_pos structural]
  rw [merged, Report.isValid, Report.merge, List.all_append, Bool.and_eq_true_iff] at valid
  rw [merged, Report.merge, issues_of_documentFindings structural (documentFindings_toRecords structural),
    issues_references valid.2]

/-- The warnings about unknown types in a table that is in order: one for each token whose type is not known and is not
the old name of a dimension, in the order of the table. They are all the tokens whose type is not known exactly if no token
has its type under the old name. -/
theorem typeWarnings_exact (valid : (table t).isValid = true) :
    (∀ p ∈ t.placed, p.token.knownType? = none ↔ ∀ type : TokenType, type.name ≠ p.token.type) ∧
    (table t).typeWarnings = (t.placed.filter fun p => p.token.knownType? = none ∧ p.token.type ≠ legacyFloat).map
      Placed.typeWarning ∧
    ((table t).typeWarnings = (t.placed.filter fun p => p.token.knownType? = none).map Placed.typeWarning ↔
      ∀ p ∈ t.placed, p.token.type ≠ legacyFloat) := by
  have reported : (table t).typeWarnings =
      (t.placed.filter fun p => p.token.knownType? = none ∧ p.token.type ≠ legacyFloat).map Placed.typeWarning := by
    rw [Report.typeWarnings, Report.warnings_of_isValid valid, issues_table valid, List.filter_append,
      List.filter_eq_self.mpr t.code_unknownTypes, List.filter_eq_nil_iff.mpr t.code_danglingReferences, List.append_nil,
      t.issues_unknownTypes]
    simp only [Token.not_isSourceType_eq]
  refine ⟨fun p _ => p.token.knownType?_eq_none_iff, reported, ?_⟩
  rw [reported, map_filter_and_eq_iff]
  refine forall₂_congr fun p _ => ⟨fun current legacy => ?_, fun current _ => current⟩
  have unknown : p.token.knownType? = none := by
    rw [Token.knownType?, legacy]
    rfl
  exact current unknown legacy

/-- A table with a known type, an unknown one and the old name of a dimension. -/
def agedTable : Doc :=
  let token (type : String) : Doc := .object [("$type", .text type), ("$value", .scalar (.int 1))]
  .object [("brand", .object [
    ("light", .object [("ink", token "string"), ("soft", token "shadow")]),
    ("dark", .object [("gap", token "float"), ("soft", token "shadow")])])]

theorem typeWarnings_agedTable : ∃ t, Table.ofDoc agedTable = .ok t ∧ (table t).isValid = true ∧
    (table t).typeWarnings = (t.placed.filter fun p => p.token.knownType? = none ∧ p.token.type ≠ legacyFloat).map
      Placed.typeWarning ∧
    (table t).typeWarnings.map Issue.location = [some (.text "brand/light/soft"), some (.text "brand/dark/soft")] := by
  have checked : (Table.ofDoc agedTable).toOption.any (fun t => (table t).isValid && decide
      ((table t).typeWarnings.map Issue.location = [some (.text "brand/light/soft"), some (.text "brand/dark/soft")])) =
      true := by decide +kernel
  obtain ⟨t, made, both⟩ := exists_ok_of_any checked
  obtain ⟨valid, places⟩ := Bool.and_eq_true_iff.mp both
  exact ⟨t, made, valid, (typeWarnings_exact valid).2.1, of_decide_eq_true places⟩

/-- The report on the table has no warning for the token whose type is the old name. -/
theorem typeWarnings_ne_agedTable : ∃ t, Table.ofDoc agedTable = .ok t ∧ (table t).isValid = true ∧
    (table t).typeWarnings ≠ (t.placed.filter fun p => p.token.knownType? = none).map Placed.typeWarning := by
  have checked : (Table.ofDoc agedTable).toOption.any (fun t => (table t).isValid && decide
      ((table t).typeWarnings ≠ (t.placed.filter fun p => p.token.knownType? = none).map Placed.typeWarning)) = true := by
    decide +kernel
  obtain ⟨t, made, both⟩ := exists_ok_of_any checked
  obtain ⟨valid, fewer⟩ := Bool.and_eq_true_iff.mp both
  exact ⟨t, made, valid, of_decide_eq_true fewer⟩

end Validation

end StyleTokens

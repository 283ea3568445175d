import StyleTokens.Proofs.NestedTables
import StyleTokens.Proofs.ScannedPlaceholders

namespace StyleTokens

theorem currentType_currentType (d : Doc) : currentType (currentType d) = currentType d := by
  refine currentType_eq_self_iff.mpr fun legacy => ?_
  obtain ⟨s, -, named⟩ := currentType_eq_text_iff.mp legacy
  exact currentName_ne_legacyFloat s named.symm

namespace Nested

/-- A flat map with nothing left to flatten. -/
structure Flat (flat : Records) : Prop where
  distinct : Ordered.Distinct flat
  kept : ∀ p ∈ flat, isSkipped p.1 = false
  records : ∀ p ∈ flat, ∃ type value, p.2 = Leaf.recordOf type value

mutual

theorem not_skipped_of_leavesAt {path : List Scalar} {key : Scalar} {d : Doc} (kept : isSkipped key = false) :
    ∀ l ∈ leavesAt path key d, isSkipped l.key = false := by
  intro l hl
  cases d with
  | mapping entries =>
    rw [leavesAt] at hl
    cases hp : Leaf.parts? entries with
    | some p =>
      rw [hp] at hl
      cases List.mem_singleton.mp hl
      exact kept
    | none =>
      rw [hp] at hl
      exact not_skipped_of_leavesIn l hl
  | _ => cases hl

/-- No leaf of a tree stands at a key that is passed over. -/
theorem not_skipped_of_leavesIn {path : List Scalar} {entries : List (Scalar × Doc)} :
    ∀ l ∈ leavesIn path entries, isSkipped l.key = false := by
  intro l hl
  cases entries with
  | nil => cases hl
  | cons p rest =>
    rw [leavesIn] at hl
    rcases List.mem_append.mp hl with hl | hl
    · split at hl
      next => cases hl
      next kept => exact not_skipped_of_leavesAt (Bool.not_eq_true _ ▸ kept) l hl
    · exact not_skipped_of_leavesIn l hl

end

theorem flat_of_flatten {d : Doc} {flat : Records} (h : (flatten d).result = .ok flat) : Flat flat := by
  obtain ⟨⟨entries, rfl⟩, rfl⟩ := flatten_ok h
  refine ⟨Ordered.distinct_ofList _, ?_, ?_⟩
  · intro p hp
    obtain ⟨q, hq, he⟩ := List.mem_map.mp (Ordered.key_mem_of_mem_ofList hp)
    obtain ⟨l, hl, rfl⟩ := List.mem_map.mp hq
    exact he ▸ not_skipped_of_leavesIn l hl
  · intro p hp
    obtain ⟨l, _, _, record⟩ := Ordered.exists_survives_of_mem_ofList hp
    exact ⟨l.type, l.value, record.symm⟩

theorem parts?_recordOf (type value : Doc) :
    Leaf.parts? (Leaf.recordOf type value) = some (currentType type, value) := by
  simp [Leaf.parts?, Leaf.recordOf, Doc.get?, Ordered.find?, Scalar.text_beq, RecordKey.type, RecordKey.value,
    ExportKey.type, ExportKey.value]

/-- The leaves of a flat map are its records. -/
theorem leaves_of_flat {flat : Records} (kept : ∀ p ∈ flat, isSkipped p.1 = false)
    (records : ∀ p ∈ flat, ∃ type value, p.2 = Leaf.recordOf type value) :
    (leaves (recordsDoc flat)).map (fun l => (l.key, l.record)) = flat := by
  -- A record is a leaf, so nothing is looked for inside of it, whatever its value is.
  have walked : ∀ path, (leavesIn path (flat.map fun p => (p.1, .mapping p.2))).map
      (fun l => (l.key, l.record)) = flat := by
    intro path
    induction flat with
    | nil => rfl
    | cons p rest ih =>
      obtain ⟨key, record⟩ := p
      obtain ⟨here, later⟩ := List.forall_mem_cons.mp kept
      obtain ⟨⟨type, value, rfl⟩, others⟩ := List.forall_mem_cons.mp records
      have again : (⟨path, key, currentType type, value⟩ : Leaf).record = Leaf.recordOf type value := by
        rw [Leaf.record, Leaf.recordOf, currentType_currentType, Leaf.recordOf]
      have single : leavesAt path key (.mapping (Leaf.recordOf type value)) =
          [⟨path, key, currentType type, value⟩] := by
        rw [leavesAt, parts?_recordOf]
      rw [List.map_cons, leavesIn, here, if_neg Bool.false_ne_true, single, List.map_append, ih later others]
      rw [List.map_singleton, again, List.singleton_append]
  exact walked []

/-- Leaves with keys of their own are put in without a word. -/
theorem putAll_of_distinct {flat : Records} {ls : List Leaf}
    (h : Ordered.Distinct (flat ++ ls.map fun l => (l.key, l.record))) :
    putAll ls flat = .ok (flat ++ ls.map fun l => (l.key, l.record)) := by
  induction ls generalizing flat with
  | nil => simp [putAll]
  | cons l rest ih =>
    have fresh : ∀ p ∈ flat, (p.1 == l.key) = false := fun p hp =>
      (List.pairwise_append.mp h).2.2 p hp (l.key, l.record) (by simp)
    have unknown : Ordered.contains flat l.key = false := List.any_eq_false.mpr fun p hp => by simp [fresh p hp]
    have put : (putLeaf flat l).result = .ok (flat ++ [(l.key, l.record)]) := by
      simp [putLeaf, unknown, Ordered.insert_of_absent fresh]
    have next : Ordered.Distinct ((flat ++ [(l.key, l.record)]) ++ rest.map fun l => (l.key, l.record)) := by
      simpa using h
    rw [putAll, put]
    simpa [Except.bind] using ih next

theorem flatten_of_flat {flat : Records} (h : Flat flat) : (flatten (recordsDoc flat)).result = .ok flat := by
  have same := leaves_of_flat h.kept h.records
  have put : putAll (leaves (recordsDoc flat)) [] = .ok flat := by
    rw [putAll_of_distinct (by rw [List.nil_append, same]; exact h.distinct), List.nil_append, same]
  have walked : (flatten (recordsDoc flat)).result =
      (putAll (leaves (recordsDoc flat)) []).mapError Stop.fault := by
    rw [recordsDoc, flatten, Traced.result_mapError, result_walk, leaves]
  rw [walked, put]
  rfl

theorem shortenReferences_shortenReferences (d : Doc) :
    shortenReferences (shortenReferences d) = shortenReferences d := by
  cases d with
  | scalar value =>
    cases value with
    | text s => exact congrArg Doc.text (Placeholder.shorten_shorten s)
    | _ => rfl
  | _ => rfl

theorem exists_record_of_short {flat : Records} (h : Flat flat) :
    ∀ p ∈ shortenRecords RecordKey.value flat, ∃ q ∈ flat, ∃ type value, q.2 = Leaf.recordOf type value ∧
      p = (q.1, Leaf.recordOf type (shortenReferences value)) := by
  intro p hp
  obtain ⟨q, hq, rfl⟩ := List.mem_map.mp hp
  obtain ⟨type, value, record⟩ := h.records q hq
  exact ⟨q, hq, type, value, record, by rw [record, shorten_recordOf]⟩

theorem Flat.short {flat : Records} (h : Flat flat) : Flat (shortenRecords RecordKey.value flat) := by
  refine ⟨List.pairwise_map.mpr (h.distinct.imp fun differ => differ), ?_, ?_⟩
  · intro p hp
    obtain ⟨q, hq, _, _, _, rfl⟩ := exists_record_of_short h p hp
    exact h.kept q hq
  · intro p hp
    obtain ⟨_, _, type, value, _, rfl⟩ := exists_record_of_short h p hp
    exact ⟨type, shortenReferences value, rfl⟩

theorem Flat.short_short {flat : Records} (h : Flat flat) :
    shortenRecords RecordKey.value (shortenRecords RecordKey.value flat) = shortenRecords RecordKey.value flat := by
  have same : ∀ p ∈ shortenRecords RecordKey.value flat, (p.1, Ordered.insert p.2 (.text RecordKey.value)
      (shortenReferences ((Doc.get? p.2 RecordKey.value).getD .null))) = id p := by
    intro p hp
    obtain ⟨_, _, type, value, _, rfl⟩ := exists_record_of_short h p hp
    rw [shorten_recordOf, shortenReferences_shortenReferences]
    rfl
  exact (List.map_congr_left same).trans (List.map_id _)

/-- The flat map of a tree with its references shortened. -/
def normalForm (d : Doc) : Except Stop Records := (flatten d).result.map (shortenRecords RecordKey.value)

theorem normalForm_ok_iff {d : Doc} {short : Records} :
    normalForm d = .ok short ↔ ∃ flat, (flatten d).result = .ok flat ∧ shortenRecords RecordKey.value flat = short :=
  except_map_ok_iff

theorem normalForm_of_short {flat : Records} (h : Flat flat) :
    normalForm (recordsDoc (shortenRecords RecordKey.value flat)) = .ok (shortenRecords RecordKey.value flat) :=
  normalForm_ok_iff.mpr ⟨_, flatten_of_flat h.short, h.short_short⟩

/-- The records of a tree only depend on its normal form. -/
theorem result_assemble (d : Doc) (theme : Option String) (modes : List String) :
    (ThemeRecords.assemble d "tokens-studio" theme modes).result =
      match theme.filter (· ≠ "") with
      | none => .error (.failure .themeNameRequired)
      | some theme => (normalForm d).map fun short => ThemeRecords.ofFlat short theme modes := by
  unfold ThemeRecords.assemble
  rw [ofName_nested]
  cases theme.filter (· ≠ "") with
  | none => rfl
  | some name =>
    simp only [Traced.result_bind, normalForm]
    cases (flatten d).result <;> rfl

/-- Every JSON object can be flattened, and flattening changes nothing in what it has made of a tree. The same holds
with the references shortened, and a tree in this form is assembled as the tree that it comes from. -/
theorem flatten_settles (d : Doc) :
    (∀ entries, d = .mapping entries → d.IsJson → ∃ flat, (flatten d).result = .ok flat) ∧
    (∀ flat, (flatten d).result = .ok flat → (flatten (recordsDoc flat)).result = .ok flat) ∧
    ∀ short, normalForm d = .ok short → normalForm (recordsDoc short) = .ok short ∧
      ∀ theme modes, (ThemeRecords.assemble (recordsDoc short) "tokens-studio" theme modes).result =
        (ThemeRecords.assemble d "tokens-studio" theme modes).result := by
  refine ⟨?_, ?_, ?_⟩
  · rintro entries rfl json
    exact ⟨_, flatten_of_json json⟩
  · intro flat h
    exact flatten_of_flat (flat_of_flatten h)
  · intro short h
    obtain ⟨flat, flattened, rfl⟩ := normalForm_ok_iff.mp h
    have again := normalForm_of_short (flat_of_flatten flattened)
    refine ⟨again, ?_⟩
    intro theme modes
    rw [result_assemble, result_assemble, again, h]

/-- A tree with a key that is passed over, a key that comes twice, a type of the old name and a leaf whose value looks
like one. -/
def layeredTree : Doc :=
  let leaf (value type : Doc) : Doc := .object [("value", value), ("type", type)]
  .object [
    ("$themes", .object [("gone", leaf (.text "#fff") (.text "color"))]),
    ("size", .object [
      ("gap", leaf (.text "{size.base}") (.text "dimension")),
      ("base", leaf (leaf (.text "4") (.text "float")) (.text "float"))]),
    ("gap", .object [("$type", .text "float"), ("$value", .text "{size.base} {size.} {base}")])]

theorem flatten_settles_layeredTree : ∃ flat short, (flatten layeredTree).result = .ok flat ∧
    Ordered.keys flat = [.text "gap", .text "base"] ∧ (flatten (recordsDoc flat)).result = .ok flat ∧
    normalForm layeredTree = .ok short ∧ normalForm (recordsDoc short) = .ok short ∧
    (ThemeRecords.assemble (recordsDoc short) "tokens-studio" (some "brand") requiredModes).result =
      (ThemeRecords.assemble layeredTree "tokens-studio" (some "brand") requiredModes).result := by
  obtain ⟨flattens, again, settled⟩ := flatten_settles layeredTree
  have json : layeredTree.IsJson := by
    simp [layeredTree, Doc.object, Doc.IsJson, Doc.EntriesJson, Ordered.contains, Scalar.text_beq]
  obtain ⟨flat, flattened⟩ := flattens _ rfl json
  have keys : (flatten layeredTree).result.toOption.map Ordered.keys = some [.text "gap", .text "base"] := by
    decide +kernel
  rw [flattened] at keys
  have normal := normalForm_ok_iff.mpr ⟨flat, flattened, rfl⟩
  obtain ⟨stable, assembled⟩ := settled _ normal
  exact ⟨flat, _, flattened, Option.some.inj keys, again flat flattened, normal, stable, assembled _ _⟩

end Nested

end StyleTokens

import StyleTokens.Proofs.FlatTrees
import StyleTokens.Proofs.KeptFindings

namespace StyleTokens

/-- Nothing changes when a key is given the value that it has. -/
theorem Ordered.insert_eq_self_iff {κ β : Type} [BEq κ] {entries : List (κ × β)} {key : κ} {value : β} :
    Ordered.insert entries key value = entries ↔ Ordered.find? entries key = some value := by
  induction entries with
  | nil => simp [Ordered.insert, Ordered.find?]
  | cons p rest ih =>
    obtain ⟨k, v⟩ := p
    cases same : k == key with
    | true => simp [Ordered.insert, Ordered.find?, same, eq_comm]
    | false => simp [Ordered.insert, Ordered.find?, same, ih]

theorem filterMap_eq_self_iff {α : Type} {f : α → Option α} {xs : List α} :
    xs.filterMap f = xs ↔ ∀ x ∈ xs, f x = some x := by
  induction xs with
  | nil => simp
  | cons x rest ih =>
    rw [List.forall_mem_cons, ← ih]
    cases hx : f x with
    | none =>
      rw [List.filterMap_cons_none hx]
      -- the rest of a list cannot yield more than itself, so not the whole list
      have fewer := List.length_filterMap_le f rest
      constructor
      · intro same
        rw [same, List.length_cons] at fewer
        omega
      · intro same
        cases same.1
    | some y =>
      rw [List.filterMap_cons_some hx, List.cons.injEq, Option.some.injEq]

namespace Collections

/-- An entry with a type of a current name, a value, and the name of its collection. -/
def SettledEntry (collection : Scalar) (d : Doc) : Prop :=
  ∃ entries type value, d = .mapping entries ∧ Doc.get? entries RecordKey.type = some type ∧
    type ≠ .text legacyFloat ∧ Doc.get? entries RecordKey.value = some value ∧
    Doc.get? entries RecordKey.collection = some (.scalar collection)

/-- All entries of a mode are settled; what is no mapping is settled as it is. -/
def SettledMode (collection : Scalar) (d : Doc) : Prop :=
  ∀ tokens, d = .mapping tokens → ∀ p ∈ tokens, SettledEntry collection p.2

/-- All modes in the content of a theme are settled; what has no modes is settled as it is. -/
def SettledContent (collection : Scalar) (d : Doc) : Prop :=
  ∀ modes, d.modesIn = .mapping modes → ∀ p ∈ modes, SettledMode collection p.2

/-- Records with nothing left to normalize. -/
def Settled (records : ThemeRecords) : Prop := ∀ r ∈ records, SettledContent r.1 r.2

variable {collection : Scalar} {d : Doc}

theorem entryAsKept?_eq_self_iff : entryAsKept? collection d = some d ↔ SettledEntry collection d := by
  constructor
  · intro kept
    unfold entryAsKept? at kept
    split at kept
    next entries =>
      split at kept
      next type value hty hv =>
        have same := Doc.mapping.inj (Option.some.inj kept)
        have typed : Doc.get? entries RecordKey.type = some (currentType type) := by
          rw [← same]
          simp [get?_insert, RecordKey.type, RecordKey.collection]
        have named : Doc.get? entries RecordKey.collection = some (.scalar collection) := by
          rw [← same]
          simp [get?_insert]
        have current : currentType type = type := Option.some.inj (typed.symm.trans hty)
        exact ⟨entries, type, value, rfl, hty, currentType_eq_self_iff.mp current, hv, named⟩
      next => cases kept
    next => cases kept
  · intro settled
    obtain ⟨entries, type, value, rfl, hty, current, hv, named⟩ := settled
    have typed : Ordered.insert entries (.text RecordKey.type) (currentType type) = entries := by
      rw [currentType_eq_self_iff.mpr current]
      exact Ordered.insert_eq_self_iff.mpr hty
    simp only [entryAsKept?, hty, hv, typed]
    rw [Ordered.insert_eq_self_iff.mpr named]

theorem keepMode_eq_self_iff : keepMode collection d = d ↔ SettledMode collection d := by
  cases d with
  | mapping tokens =>
    have entry : ∀ p : Scalar × Doc, ((entryAsKept? collection p.2).map fun d => (p.1, d)) = some p ↔
        SettledEntry collection p.2 := by
      intro p
      rw [← entryAsKept?_eq_self_iff]
      cases entryAsKept? collection p.2 <;> simp [Prod.ext_iff]
    rw [keepMode, Doc.mapping.injEq, filterMap_eq_self_iff]
    simp [SettledMode, entry]
  | _ => simp [keepMode, SettledMode]

theorem keptModes_eq_self_iff {modes : List (Scalar × Doc)} :
    keptModes collection modes = modes ↔ ∀ p ∈ modes, SettledMode collection p.2 := by
  have each : keptModes collection modes = modes.map id ↔ ∀ p ∈ modes, (p.1, keepMode collection p.2) = id p :=
    List.map_inj_left
  rw [List.map_id] at each
  rw [each]
  simp only [← keepMode_eq_self_iff, id, Prod.ext_iff, true_and]

theorem keepCollection_eq_self_iff : keepCollection collection d = d ↔ SettledContent collection d := by
  by_cases moded : ∃ modes, d.modesIn = .mapping modes
  · obtain ⟨modes, held⟩ := moded
    obtain ⟨entries, rfl, found⟩ := get?_modes_of_modesIn held
    have settled : SettledContent collection (.mapping entries) ↔ ∀ p ∈ modes, SettledMode collection p.2 := by
      simp [SettledContent, held]
    rw [settled, ← keptModes_eq_self_iff]
    -- the modes are put under the key at which they stand, so that key alone can change
    simp only [keepCollection, found]
    rw [Doc.mapping.injEq, Ordered.insert_eq_self_iff]
    rw [Doc.get?] at found
    rw [found, Option.some.injEq, Doc.mapping.injEq, eq_comm, keptModes]
  · refine iff_of_true ?_ fun modes held => absurd ⟨modes, held⟩ moded
    unfold keepCollection
    split
    next entries =>
      split
      next modes found => exact absurd ⟨modes, by simp [Doc.modesIn, found]⟩ moded
      next => rfl
    next => rfl

/-- Records stay as they are exactly if there is nothing left to normalize in them. -/
theorem normalize_toDoc_iff {records : ThemeRecords} :
    normalize records.toDoc = .ok records ↔ Settled records := by
  have kept : ∀ r : Scalar × Doc, KeptFrom (.mapping [r]) r ↔ SettledContent r.1 r.2 := by
    rintro ⟨name, content⟩
    rw [← keepCollection_eq_self_iff]
    constructor
    · rintro ⟨_, _, he, same⟩
      cases he
      exact same.symm
    · intro same
      exact ⟨content, [], rfl, same.symm⟩
  rw [ThemeRecords.toDoc, normalize, keepItems_ok_iff, ThemeRecords.toDocs, List.forall₂_map_left_iff,
    List.forall₂_same]
  exact forall₂_congr fun r _ => kept r

theorem settledEntry_of_kept {c : Carried} {p : Scalar × Doc} (h : KeptAs collection c p) :
    SettledEntry collection p.2 := by
  obtain ⟨entries, he, hty, hv, named⟩ := h.record
  exact ⟨entries, currentType c.type, c.value, he, hty,
    currentType_eq_self_iff.mp (currentType_currentType c.type), hv, named⟩

theorem settledMode_keepMode (collection : Scalar) (d : Doc) : SettledMode collection (keepMode collection d) := by
  intro tokens ht p hp
  cases d with
  | mapping entries =>
    obtain ⟨kept, hk, all⟩ := exists_carried collection entries
    cases hk.symm.trans ht
    obtain ⟨c, _, as⟩ := exists_of_forall₂_right all hp
    exact settledEntry_of_kept as
  | _ => cases ht

theorem settledContent_keepCollection (collection : Scalar) (d : Doc) :
    SettledContent collection (keepCollection collection d) := by
  intro modes held p hp
  obtain ⟨_, sources, _, _, rfl⟩ := exists_modes_of_keepCollection held
  obtain ⟨source, _, rfl⟩ := List.mem_map.mp hp
  exact settledMode_keepMode collection source.2

theorem settled_of_normalize {records : ThemeRecords} (h : normalize d = .ok records) : Settled records := by
  cases d with
  | list items =>
    intro r hr
    obtain ⟨_, _, content, _, _, same⟩ := exists_of_forall₂_right (keepItems_ok_iff.mp h) hr
    rw [same]
    exact settledContent_keepCollection r.1 content
  | _ => cases h

/-- Normalizing changes nothing in what it has made of a document, and there is nothing left to normalize in that. All
records of this kind stay as they are, and no others do. -/
theorem normalize_settles (d : Doc) :
    (∀ records : ThemeRecords, normalize d = .ok records →
      Settled records ∧ normalize records.toDoc = .ok records) ∧
    ∀ records : ThemeRecords, normalize records.toDoc = .ok records ↔ Settled records := by
  refine ⟨?_, fun records => normalize_toDoc_iff⟩
  intro records h
  have settled := settled_of_normalize h
  exact ⟨settled, normalize_toDoc_iff.mpr settled⟩

/-- A collection that is no object, and one with more keys than its modes: in the light mode an entry of an old type with
a key of its own and the name of another collection, and one without a value; the dark mode is no object. -/
def mixedCollections : Doc :=
  .list [
    .object [("loose", .text "nothing"), ("unread", .null)],
    .object [("brand", .object [
      ("note", .text "kept"),
      ("modes", .object [
        ("light", .object [
          ("gap", .object [("$collectionName", .text "other"), ("$type", .text "float"), ("hint", .list []),
            ("$value", .scalar (.int 4))]),
          ("half", .object [("$type", .text "color")])]),
        ("dark", .list [])]),
      ("last", .null)])]]

/-- The records of these collections. -/
def mixedRecords : ThemeRecords :=
  [(.text "loose", .text "nothing"),
    (.text "brand", .object [
      ("note", .text "kept"),
      ("modes", .object [
        ("light", .object [
          ("gap", .object [("$collectionName", .text "brand"), ("$type", .text "dimension"), ("hint", .list []),
            ("$value", .scalar (.int 4))])]),
        ("dark", .list [])]),
      ("last", .null)])]

theorem normalize_settles_mixedCollections : normalize mixedCollections = .ok mixedRecords ∧
    Settled mixedRecords ∧ normalize mixedRecords.toDoc = .ok mixedRecords := by
  have normal : normalize mixedCollections = .ok mixedRecords := by rfl
  exact ⟨normal, (normalize_settles mixedCollections).1 mixedRecords normal⟩

end Collections

end StyleTokens

import StyleTokens.Proofs.TableFiles
import StyleTokens.Proofs.TableGrammar

namespace StyleTokens

section Rosters

variable {α : Type} {name : α → String} {f : α → α}

/-- Changes the things of a roster, but not their names. -/
def Roster.mapItems (f : α → α) (same : ∀ x, name (f x) = name x) (r : Roster α name) : Roster α name :=
  ⟨r.items.map f, by simpa [List.map_map, Function.comp_def, same] using r.distinct⟩

theorem Roster.mapItems_eq_self_iff (same : ∀ x, name (f x) = name x) {r : Roster α name} :
    r.mapItems f same = r ↔ ∀ x ∈ r.items, f x = x := by
  have items : r.mapItems f same = r ↔ r.items.map f = r.items.map id := by
    rw [List.map_id]
    exact ⟨fun h => congrArg Roster.items h, fun h => Roster.ext_items h⟩
  exact items.trans List.map_inj_left

end Rosters

namespace Token

def forgetEmpty (t : Token) : Token := { t with collection := t.collection.filter (· ≠ "") }

theorem name_forgetEmpty (t : Token) : t.forgetEmpty.name = t.name := rfl

theorem collection_forgetEmpty (t : Token) : t.forgetEmpty.collection ≠ some "" := by
  intro empty
  have kept := (Option.filter_eq_some_iff.mp empty).2
  simp at kept

theorem forgetEmpty_eq_self_iff {t : Token} : t.forgetEmpty = t ↔ t.collection ≠ some "" := by
  constructor
  · intro same
    exact same ▸ t.collection_forgetEmpty
  · intro named
    obtain ⟨_, _, _, collection, _⟩ := t
    cases collection with
    | none => rfl
    | some c =>
      have filled : c ≠ "" := fun he => named (congrArg some he)
      simp [forgetEmpty, Option.filter, filled]

theorem toRecord_forgetEmpty (t : Token) : t.forgetEmpty.toRecord = t.toRecord := by
  by_cases empty : t.collection = some ""
  · simp [forgetEmpty, toRecord, empty, Option.filter]
  · rw [forgetEmpty_eq_self_iff.mpr empty]

end Token

namespace Mode

def forgetEmpty (m : Mode) : Mode := { m with tokens := m.tokens.mapItems Token.forgetEmpty Token.name_forgetEmpty }

theorem name_forgetEmpty (m : Mode) : m.forgetEmpty.name = m.name := rfl

theorem forgetEmpty_eq_self_iff {m : Mode} : m.forgetEmpty = m ↔ ∀ t ∈ m.tokens.items, t.forgetEmpty = t := by
  rw [← Roster.mapItems_eq_self_iff Token.name_forgetEmpty]
  cases m
  simp [forgetEmpty]

theorem toDoc_forgetEmpty (m : Mode) : m.forgetEmpty.toDoc = m.toDoc := by
  simp only [toDoc, forgetEmpty, Roster.mapItems, List.map_map, Function.comp_def, Token.toRecord_forgetEmpty,
    Token.name_forgetEmpty]

end Mode

namespace Theme

def forgetEmpty (t : Theme) : Theme := { t with modes := t.modes.mapItems Mode.forgetEmpty Mode.name_forgetEmpty }

theorem name_forgetEmpty (t : Theme) : t.forgetEmpty.name = t.name := rfl

theorem forgetEmpty_eq_self_iff {t : Theme} : t.forgetEmpty = t ↔ ∀ m ∈ t.modes.items, m.forgetEmpty = m := by
  rw [← Roster.mapItems_eq_self_iff Mode.name_forgetEmpty]
  cases t
  simp [forgetEmpty]

theorem toDoc_forgetEmpty (t : Theme) : t.forgetEmpty.toDoc = t.toDoc := by
  simp only [toDoc, forgetEmpty, Roster.mapItems, List.map_map, Function.comp_def, Mode.toDoc_forgetEmpty,
    Mode.name_forgetEmpty]

end Theme

namespace Table

/-- The table with no collection where a token has an empty name for one. -/
def forgetEmpty (t : Table) : Table := ⟨t.themes.mapItems Theme.forgetEmpty Theme.name_forgetEmpty⟩

theorem forgetEmpty_eq_self_iff {t : Table} : t.forgetEmpty = t ↔ t.NamedCollections := by
  have themes : t.forgetEmpty = t ↔ ∀ theme ∈ t.themes.items, theme.forgetEmpty = theme := by
    rw [← Roster.mapItems_eq_self_iff Theme.name_forgetEmpty]
    cases t
    simp [forgetEmpty]
  rw [themes]
  simp only [Theme.forgetEmpty_eq_self_iff, Mode.forgetEmpty_eq_self_iff, Token.forgetEmpty_eq_self_iff,
    NamedCollections]

theorem toDoc_forgetEmpty (t : Table) : t.forgetEmpty.toDoc = t.toDoc := by
  simp only [toDoc, forgetEmpty, Roster.mapItems, List.map_map, Function.comp_def, Theme.toDoc_forgetEmpty,
    Theme.name_forgetEmpty]

theorem namedCollections_forgetEmpty (t : Table) : t.forgetEmpty.NamedCollections := by
  intro theme htheme m hm token htoken
  obtain ⟨theme, -, rfl⟩ := List.mem_map.mp htheme
  obtain ⟨m, -, rfl⟩ := List.mem_map.mp hm
  obtain ⟨token, -, rfl⟩ := List.mem_map.mp htoken
  exact token.collection_forgetEmpty

/-- A table comes back from its document without the empty names of collections. -/
theorem ofDoc_toDoc_eq (t : Table) : ofDoc t.toDoc = .ok t.forgetEmpty :=
  t.toDoc_forgetEmpty ▸ ofDoc_toDoc t.namedCollections_forgetEmpty

theorem ofDoc_toDoc_iff {t : Table} : ofDoc t.toDoc = .ok t ↔ t.NamedCollections := by
  rw [ofDoc_toDoc_eq, Except.ok.injEq, forgetEmpty_eq_self_iff]

end Table

theorem TellsCollection.text_iff {d : Option Doc} {c : Option String} (h : TellsCollection d c) {s : String} :
    d = some (.text s) ↔ c = some s := by
  cases h <;> simp

namespace Doc

/-- No record in the document has an empty name for its collection. -/
def NamesCollections : Doc → Prop :=
  Maps Scalar.IsName (Maps Scalar.IsName (Maps Scalar.IsName fun d =>
    ∀ entries, d = .mapping entries → Doc.get? entries RecordKey.collection ≠ some (.text "")))

theorem Says.maps_iff {α : Type} {name : α → String} {value : Doc → α → Prop} {d : Doc} {xs : List α}
    {P : Doc → Prop} {Q : α → Prop} (h : d.Says name value xs) (same : ∀ e x, value e x → (P e ↔ Q x)) :
    d.Maps Scalar.IsName P ↔ ∀ x ∈ xs, Q x := by
  obtain ⟨entries, rfl, all⟩ := h
  rw [maps_mapping_iff]
  induction all with
  | nil => simp
  | cons hp _ ih =>
    rw [List.forall_mem_cons, List.forall_mem_cons, ih, ← same _ _ hp.2, hp.1]
    simp [Scalar.IsName]

theorem SaysTable.namesCollections_iff {d : Doc} {t : Table} (h : d.SaysTable t) :
    d.NamesCollections ↔ t.NamedCollections := by
  refine h.maps_iff fun _ _ theme => theme.maps_iff fun _ _ mode => mode.maps_iff fun _ _ token => ?_
  obtain ⟨entries, rfl, -, -, told⟩ := token
  simp [told.text_iff]

end Doc

namespace Table

/-- The table of a JSON document comes back from its own document with all its fields, but without the empty names of
collections; it is the same exactly if no record of the first document has such a name. -/
theorem reread_exact {d : Doc} (json : d.IsJson) {t : Table} (made : ofDoc d = .ok t) :
    ofDoc t.toDoc = .ok t.forgetEmpty ∧ (ofDoc t.toDoc = .ok t ↔ d.NamesCollections) := by
  have said : d.SaysTable t := (ofDoc_ok_iff_said json).mp made
  exact ⟨t.ofDoc_toDoc_eq, ofDoc_toDoc_iff.trans said.namesCollections_iff.symm⟩

/-- A table with values that say nothing, a collection that is null and one that is not. -/
def blankTable : Doc :=
  let token (type : String) (value collection : Doc) : Doc :=
    .object [("$type", .text type), ("$value", value), ("$collectionName", collection)]
  .object [("brand", .object [
    ("light", .object [
      ("zero", token "" (.scalar (.int 0)) .null),
      ("off", token "string" (.scalar (.bool false)) (.text "brand"))]),
    ("", .object [("empty", .object [("$value", .text ""), ("$type", .text "string")])])])]

theorem reread_blankTable : blankTable.IsJson ∧ ∃ t, ofDoc blankTable = .ok t ∧ ofDoc t.toDoc = .ok t := by
  have json : blankTable.IsJson := by
    simp [blankTable, Doc.object, Doc.IsJson, Doc.EntriesJson, Ordered.contains, Scalar.text_beq]
  have accepted : (ofDoc blankTable).toOption.any (fun t => t.themes.size == 1) = true := by decide +kernel
  obtain ⟨t, made, -⟩ := exists_ok_of_any accepted
  have named : blankTable.NamesCollections := by
    simp [blankTable, Doc.object, Doc.NamesCollections, Doc.maps_mapping_iff, Scalar.IsName, Doc.get?,
      Ordered.find?, Scalar.text_beq, RecordKey.collection]
  exact ⟨json, t, made, (reread_exact json made).2.mpr named⟩

/-- A table with a token whose collection has an empty name. -/
def unnamedTable : Doc :=
  .object [("brand", .object [("light", .object [("ink", .object [
    ("$type", .text "color"), ("$value", .text "#000"), ("$collectionName", .text "")])])])]

/-- The table is not the same when it is read from its own document. -/
theorem changed_unnamedTable : unnamedTable.IsJson ∧ ∃ t, ofDoc unnamedTable = .ok t ∧ ofDoc t.toDoc ≠ .ok t := by
  have json : unnamedTable.IsJson := by
    simp [unnamedTable, Doc.object, Doc.IsJson, Doc.EntriesJson, Ordered.contains, Scalar.text_beq]
  have differs : (ofDoc unnamedTable).toOption.any (fun t => decide (ofDoc t.toDoc ≠ .ok t)) = true := by
    decide +kernel
  obtain ⟨t, made, other⟩ := exists_ok_of_any differs
  exact ⟨json, t, made, of_decide_eq_true other⟩

end Table

end StyleTokens

import StyleTokens.Proofs.ReadDocuments

namespace StyleTokens

/-- The scalar is a text. -/
def Scalar.IsName (s : Scalar) : Prop := ∃ name, s = .text name

/-- The scalar is a text with characters. -/
def Scalar.IsFilledName (s : Scalar) : Prop := ∃ name, s = .text name ∧ name ≠ ""

namespace Doc

/-- An object with keys and values of some kinds. -/
def Maps (keys : Scalar → Prop) (values : Doc → Prop) (d : Doc) : Prop :=
  ∃ entries, d = .mapping entries ∧ ∀ p ∈ entries, keys p.1 ∧ values p.2

/-- An object with a text for a type, a scalar for a value, and at most a text for a collection; other keys do not
matter. -/
def IsRecord (d : Doc) : Prop :=
  ∃ (entries : List (Scalar × Doc)) (type : String) (value : TokenValue), d = .mapping entries ∧
    Doc.get? entries RecordKey.type = some (.text type) ∧
    Doc.get? entries RecordKey.value = some (.scalar value.toScalar) ∧
    ∀ c, Doc.get? entries RecordKey.collection = some c → c = .null ∨ ∃ s, c = .text s

/-- Themes by name, in them modes by name, and in these the records of tokens by name. -/
def IsTable : Doc → Prop :=
  Maps Scalar.IsFilledName (Maps Scalar.IsName (Maps Scalar.IsFilledName IsRecord))

end Doc

/-- What a record can tell of a collection. -/
inductive TellsCollection : Option Doc → Option String → Prop
  | absent : TellsCollection none none
  | null : TellsCollection (some .null) none
  | named (s : String) : TellsCollection (some (.text s)) (some s)

namespace Doc

/-- The object has the things of a list for its values, in order, and their names for its keys. -/
def Says {α : Type} (name : α → String) (value : Doc → α → Prop) (d : Doc) (xs : List α) : Prop :=
  ∃ entries, d = .mapping entries ∧ List.Forall₂ (fun p x => p.1 = .text (name x) ∧ value p.2 x) entries xs

/-- The record says the token, whatever its name is. -/
def SaysToken (d : Doc) (t : Token) : Prop :=
  ∃ entries, d = .mapping entries ∧ Doc.get? entries RecordKey.type = some (.text t.type) ∧
    Doc.get? entries RecordKey.value = some (.scalar t.value.toScalar) ∧
    TellsCollection (Doc.get? entries RecordKey.collection) t.collection

def SaysMode (d : Doc) (m : Mode) : Prop := d.Says Token.name SaysToken m.tokens.items

def SaysTheme (d : Doc) (t : Theme) : Prop := d.Says Mode.name SaysMode t.modes.items

/-- The document says the table: theme by theme, mode by mode and token by token. -/
def SaysTable (d : Doc) (t : Table) : Prop := d.Says Theme.name SaysTheme t.themes.items

end Doc

section Levels

variable {α : Type} {name : α → String} {keys : Scalar → Prop} {values : Doc → Prop} {value : Doc → α → Prop}
  {d : Doc} {entries : List (Scalar × Doc)} {xs : List α}

theorem Doc.maps_mapping_iff :
    (Doc.mapping entries).Maps keys values ↔ ∀ p ∈ entries, keys p.1 ∧ values p.2 := by
  simp [Doc.Maps]

theorem Doc.says_mapping_iff :
    (Doc.mapping entries).Says name value xs ↔
      List.Forall₂ (fun p x => p.1 = .text (name x) ∧ value p.2 x) entries xs := by
  simp [Doc.Says]

end Levels

theorem forall₂_congr_of_mem {α β : Type} {R S : α → β → Prop} {xs : List α} {ys : List β}
    (same : ∀ x ∈ xs, ∀ y, R x y ↔ S x y) : List.Forall₂ R xs ys ↔ List.Forall₂ S xs ys := by
  induction xs generalizing ys with
  | nil => simp only [List.forall₂_nil_left_iff]
  | cons x rest ih =>
    obtain ⟨here, later⟩ := List.forall_mem_cons.mp same
    simp only [List.forall₂_cons_left_iff, here, ih later]

theorem checkCollection_ok_iff {d : Option Doc} {c : Option String} :
    Token.checkCollection d = .ok c ↔ TellsCollection d c := by
  constructor
  · intro h
    unfold Token.checkCollection at h
    split at h
    next =>
      cases h
      exact .absent
    next =>
      cases h
      exact .null
    next s =>
      cases h
      exact .named s
    next => cases h
  · intro h
    cases h <;> rfl

theorem exists_tellsCollection_iff {d : Option Doc} :
    (∃ c, TellsCollection d c) ↔ ∀ x, d = some x → x = .null ∨ ∃ s, x = .text s := by
  constructor
  · rintro ⟨c, told⟩ x rfl
    cases told with
    | null => exact .inl rfl
    | named s => exact .inr ⟨s, rfl⟩
  · intro h
    cases d with
    | none => exact ⟨none, .absent⟩
    | some x =>
      rcases h x rfl with rfl | ⟨s, rfl⟩
      · exact ⟨none, .null⟩
      · exact ⟨some s, .named s⟩

namespace Token

variable {key : Scalar} {d : Doc} {t : Token}

theorem ofRecord_ok_iff_said : ofRecord key d = .ok t ↔ key = .text t.name ∧ d.SaysToken t := by
  simp only [ofRecord_ok_iff, checkCollection_ok_iff]
  constructor
  · rintro ⟨entries, he, named, typed⟩
    exact ⟨named, entries, he, typed⟩
  · rintro ⟨named, entries, he, typed⟩
    exact ⟨entries, he, named, typed⟩

theorem exists_ofRecord_ok_iff : (∃ t, ofRecord key d = .ok t) ↔ key.IsFilledName ∧ d.IsRecord := by
  constructor
  · rintro ⟨t, made⟩
    obtain ⟨named, entries, he, hty, hv, told⟩ := ofRecord_ok_iff_said.mp made
    exact ⟨⟨t.name, named, t.named⟩, entries, t.type, t.value, he, hty, hv,
      exists_tellsCollection_iff.mp ⟨t.collection, told⟩⟩
  · rintro ⟨⟨name, rfl, filled⟩, entries, type, value, he, hty, hv, collections⟩
    obtain ⟨c, told⟩ := exists_tellsCollection_iff.mpr collections
    exact ⟨⟨name, type, value, c, filled⟩, ofRecord_ok_iff_said.mpr ⟨rfl, entries, he, hty, hv, told⟩⟩

end Token

namespace Mode

variable {key : Scalar} {d : Doc} {m : Mode}

theorem exists_ofDoc_iff :
    (∃ m, ofDoc key d = .ok m) ↔ key.IsName ∧ d.Maps Scalar.IsFilledName Doc.IsRecord := by
  cases d with
  | mapping entries => simp only [exists_ofDoc_ok_iff, Doc.maps_mapping_iff, Token.exists_ofRecord_ok_iff, Scalar.IsName]
  | _ => simp [ofDoc, Doc.Maps]

theorem ofDoc_ok_iff_said (json : d.IsJson) : ofDoc key d = .ok m ↔ key = .text m.name ∧ d.SaysMode m := by
  cases d with
  | mapping entries =>
    rw [ofDoc_ok_iff (Doc.EntriesJson.distinct json), Doc.SaysMode, Doc.says_mapping_iff]
    simp only [Token.ofRecord_ok_iff_said]
  | _ => simp [ofDoc, Doc.SaysMode, Doc.Says]

end Mode

namespace Theme

variable {key : Scalar} {d : Doc} {t : Theme}

theorem exists_ofDoc_iff : (∃ t, ofDoc key d = .ok t) ↔
    key.IsFilledName ∧ d.Maps Scalar.IsName (Doc.Maps Scalar.IsFilledName Doc.IsRecord) := by
  cases d with
  | mapping entries => simp only [exists_ofDoc_ok_iff, Doc.maps_mapping_iff, Mode.exists_ofDoc_iff, Scalar.IsFilledName]
  | _ => simp [ofDoc, Doc.Maps]

theorem ofDoc_ok_iff_said (json : d.IsJson) : ofDoc key d = .ok t ↔ key = .text t.name ∧ d.SaysTheme t := by
  cases d with
  | mapping entries =>
    rw [ofDoc_ok_iff (Doc.EntriesJson.distinct json), Doc.SaysTheme, Doc.says_mapping_iff]
    refine and_congr_right fun _ => forall₂_congr_of_mem fun p hp m => ?_
    exact Mode.ofDoc_ok_iff_said (Doc.EntriesJson.isJson json p hp)
  | _ => simp [ofDoc, Doc.SaysTheme, Doc.Says]

end Theme

namespace Table

variable {d : Doc} {t : Table}

/-- A document makes a table exactly if it has the shape of one. -/
theorem exists_ofDoc_iff : (∃ t, ofDoc d = .ok t) ↔ d.IsTable := by
  cases d with
  | mapping entries =>
    rw [Doc.IsTable, Doc.maps_mapping_iff]
    simp only [ofDoc, exists_ofEntries_ok_iff, Theme.exists_ofDoc_iff]
  | _ => simp [ofDoc, Doc.IsTable, Doc.Maps]

/-- A JSON document makes just the table that it says. -/
theorem ofDoc_ok_iff_said (json : d.IsJson) : ofDoc d = .ok t ↔ d.SaysTable t := by
  cases d with
  | mapping entries =>
    rw [ofDoc, ofEntries_ok_iff (Doc.EntriesJson.distinct json), Doc.SaysTable, Doc.says_mapping_iff]
    refine forall₂_congr_of_mem fun p hp theme => ?_
    exact Theme.ofDoc_ok_iff_said (Doc.EntriesJson.isJson json p hp)
  | _ => simp [ofDoc, Doc.SaysTable, Doc.Says]

end Table

theorem Path.text_ne_empty {p : Path} (filled : ∀ part ∈ p.parts, part.toList ≠ []) : p.text ≠ "" := by
  intro none
  have empty : p.text.toList = [] := by rw [none, String.toList_empty]
  unfold Path.text at empty
  split at empty
  next => simp at empty
  next anchor parts noPoint =>
    rw [String.toList_append, List.append_eq_nil_iff, String.toList_intercalate] at empty
    obtain ⟨start, rest⟩ := empty
    have working : p.anchor = .working := by
      cases ha : p.anchor with
      | working => rfl
      | _ => simp [ha, Anchor.text] at start
    match hp : p.parts with
    | [] => exact noPoint working hp
    | [part] =>
      rw [hp, List.map_singleton, List.intercalate_singleton] at rest
      exact filled part (by simp [hp]) rest
    | part :: next :: more =>
      rw [hp, List.map_cons, List.map_cons, List.intercalate_cons_cons] at rest
      simp at rest

/-- A path that is written by a text has a text. -/
theorem Path.text_ofString_ne_empty (s : String) : (Path.ofString s).text ≠ "" := by
  refine Path.text_ne_empty fun part hp => ?_
  obtain ⟨piece, kept, rfl⟩ := List.mem_map.mp hp
  have said := (List.mem_filter.mp kept).2
  rw [String.toList_ofList]
  rintro rfl
  simp at said

namespace Source

variable {tree : FileTree} {path : Path} {d : Doc} {t : Table}

theorem loadTable_ok_iff :
    loadTable tree path = .ok t ↔ ∃ d, load tree path = .ok d ∧ Table.ofDoc d = .ok t := by
  refine except_bind_ok_iff.trans (exists_congr fun d => and_congr_right fun _ => ?_)
  cases d with
  | mapping entries => exact except_mapError_ok_iff
  | _ => simp [Table.ofDoc]

/-- What keeps a document from being a table is a failure at the path of its file. -/
theorem exists_failure_of_load (loaded : load tree path = .ok d) (off : ¬ d.IsTable) (named : path.text ≠ "") :
    ∃ f, loadTable tree path = .error (.failure f) ∧ f.kind = .malformedInput ∧
      f.location? = some (.text path.text) := by
  have place : some (Scalar.text path.text) = Option.filter (fun s => !s.isBlankValue) (some (.text path.text)) := by
    simp [Option.filter, Scalar.isBlankValue, named]
  cases d with
  | mapping entries =>
    cases made : Table.ofEntries entries with
    | ok t =>
      have table : Table.ofDoc (.mapping entries) = .ok t := made
      exact absurd (Table.exists_ofDoc_iff.mp ⟨t, table⟩) off
    | error fault =>
      refine ⟨.invalidTableFile path.text fault, ?_, rfl, place.symm⟩
      simp [loadTable, loaded, made, bind, Except.bind, Except.mapError]
  | _ =>
    refine ⟨.tableNotAMapping path.text, ?_, rfl, place.symm⟩
    simp [loadTable, loaded, bind, Except.bind]

/-- A file whose name does not say that it holds YAML is loaded as a table exactly if it holds a document of the shape of
one, and the table is the one that the document says. What else is read from the file is refused as malformed, with the
path of the file for its place. -/
theorem loadTable_exact {tree : FileTree} {file : String} (json : isYaml (.ofString file) = false) :
    ((∃ t, loadTable tree (.ofString file) = .ok t) ↔ ∃ d, load tree (.ofString file) = .ok d ∧ d.IsTable) ∧
    (∀ t, loadTable tree (.ofString file) = .ok t ↔ ∃ d, load tree (.ofString file) = .ok d ∧ d.SaysTable t) ∧
    ∀ d, load tree (.ofString file) = .ok d → ¬ d.IsTable →
      ∃ f, loadTable tree (.ofString file) = .error (.failure f) ∧ f.kind = .malformedInput ∧
        f.location? = some (.text (Path.ofString file).text) := by
  refine ⟨?_, ?_, ?_⟩
  · simp only [loadTable_ok_iff, ← Table.exists_ofDoc_iff]
    exact exists_comm.trans (exists_congr fun d => exists_and_left)
  · intro t
    rw [loadTable_ok_iff]
    refine exists_congr fun d => and_congr_right fun loaded => ?_
    exact Table.ofDoc_ok_iff_said (isJson_of_load json loaded)
  · intro d loaded off
    exact exists_failure_of_load loaded off (Path.text_ofString_ne_empty file)

/-- A table without the usual modes; its one token has an empty type, zero for a value, null for a collection, and a key
of its own. -/
def sparseTable : Doc :=
  .object [("brand", .object [("", .object [("gap", .object [
    ("$value", .scalar (.int 0)), ("hint", .list []), ("$type", .text ""), ("$collectionName", .null)])])])]

/-- All is like a table but that a token has an empty name. -/
def namelessTable : Doc :=
  .object [("brand", .object [("light", .object [("", .object [
    ("$type", .text "color"), ("$value", .text "#000")])])])]

/-- A tree with both of them in files. -/
def tablesTree : FileTree :=
  ((FileTree.bare ["work"]).put ["work", "sparse.json"] (.file (Json.print Json.indented sparseTable).toUTF8)).put
    ["work", "nameless.json"] (.file (Json.print Json.indented namelessTable).toUTF8)

theorem loadTable_tablesTree :
    isYaml (.ofString "sparse.json") = false ∧ isYaml (.ofString "nameless.json") = false ∧
      (∃ t, loadTable tablesTree (.ofString "sparse.json") = .ok t ∧ sparseTable.SaysTable t) ∧
      ∃ f, loadTable tablesTree (.ofString "nameless.json") = .error (.failure f) ∧ f.kind = .malformedInput ∧
        f.location? = some (.text "nameless.json") := by
  have json : sparseTable.IsJson ∧ namelessTable.IsJson := by
    simp [sparseTable, namelessTable, Doc.object, Doc.IsJson, Doc.EntriesJson, Doc.AllJson, Ordered.contains,
      Scalar.text_beq]
  have endings : isYaml (.ofString "sparse.json") = false ∧ isYaml (.ofString "nameless.json") = false := by
    decide +kernel
  have sparse : load tablesTree (.ofString "sparse.json") = .ok sparseTable :=
    load_printed (by decide +kernel) rfl endings.1 json.1
  have nameless : load tablesTree (.ofString "nameless.json") = .ok namelessTable :=
    load_printed (by decide +kernel) rfl endings.2 json.2
  have table : sparseTable.IsTable := by
    refine ⟨_, rfl, List.forall_mem_singleton.mpr ⟨⟨"brand", rfl, by decide⟩, ?_⟩⟩
    refine ⟨_, rfl, List.forall_mem_singleton.mpr ⟨⟨"", rfl⟩, ?_⟩⟩
    refine ⟨_, rfl, List.forall_mem_singleton.mpr ⟨⟨"gap", rfl, by decide⟩, ?_⟩⟩
    refine ⟨_, "", .int 0, rfl, rfl, rfl, fun c found => .inl (Option.some.inj (found.symm.trans ?_))⟩
    rfl
  have off : ¬ namelessTable.IsTable := by
    simp [namelessTable, Doc.object, Doc.IsTable, Doc.maps_mapping_iff, Scalar.IsFilledName]
  obtain ⟨accepted, made, -⟩ := @loadTable_exact tablesTree _ endings.1
  obtain ⟨-, -, refused⟩ := @loadTable_exact tablesTree _ endings.2
  obtain ⟨t, loaded⟩ := accepted.mpr ⟨sparseTable, sparse, table⟩
  obtain ⟨d, again, said⟩ := (made t).mp loaded
  cases sparse.symm.trans again
  exact ⟨endings.1, endings.2, ⟨t, loaded, said⟩, refused namelessTable nameless off⟩

end Source

end StyleTokens
